import Mudlib.Proofs.Space.Lifecycle
set_option autoImplicit false

namespace Mudlib

/-- The instance stores just the fields of its table, each with the value that the table gives it or
one that its type accepts; once it is destroyed it stores none. -/
structure Instance.Conforms (i : Instance) : Prop where
  names : i.state ≠ .destroyed → ∀ name, name ∈ i.fields.keys ↔ name ∈ i.table.fields.keys
  typed : ∀ {name v}, i.fields.get? name = some v → ∃ slot, i.table.field? name = some slot ∧
    (v = slot.default ∨ slot.type.accepts v = true)
  released : i.state = .destroyed → i.fields = .empty

namespace Instance.Conforms

variable {i j : Instance}

theorem create (t : Table) (owner : Principal) (privileged : Bool) :
    (Instance.create t owner privileged).Conforms where
  names := by
    intro _ name
    rw [Dict.mem_keys_iff, Dict.mem_keys_iff]
    change (t.defaultFields.get? name).isSome = true ↔ (t.fields.get? name).isSome = true
    rw [Table.defaultFields, Dict.get?_mapVal, Option.isSome_map]
  typed := by
    intro name v hv
    change t.defaultFields.get? name = some v at hv
    rw [Table.defaultFields, Dict.get?_mapVal] at hv
    obtain ⟨slot, hslot, rfl⟩ := Option.map_eq_some_iff.mp hv
    exact ⟨slot, hslot, .inl rfl⟩
  released := fun h => nomatch h

theorem of_same (h : i.Conforms) (htable : j.table = i.table) (hstate : j.state = i.state)
    (hfields : j.fields = i.fields) : j.Conforms where
  names := by
    rw [htable, hstate, hfields]
    exact h.names
  typed := by
    rw [htable, hfields]
    exact h.typed
  released := by
    rw [hstate, hfields]
    exact h.released

theorem assign (h : i.Conforms) (hlive : i.state ≠ .destroyed) {field : String} {slot : FieldSlot}
    {v : Value} (hslot : i.table.field? field = some slot) (hv : slot.type.accepts v = true) :
    ({ i with fields := i.fields.insert field v } : Instance).Conforms where
  names := by
    intro _ name
    have hname := h.names hlive name
    simp only [Dict.mem_keys_iff, Dict.get?_insert] at hname ⊢
    split
    next heq =>
      rw [heq]
      change _ ↔ (i.table.field? field).isSome = true
      rw [hslot]
      exact iff_of_true rfl rfl
    next => exact hname
  typed := by
    intro name w hw
    simp only [Dict.get?_insert] at hw
    split at hw
    next heq =>
      cases hw
      exact ⟨slot, heq ▸ hslot, .inr hv⟩
    next => exact h.typed hw
  released := fun hdestroyed => absurd hdestroyed hlive

theorem mark (h : i.Conforms) (hlive : i.state ≠ .destroyed) :
    ({ i with state := .pendingDestroy } : Instance).Conforms where
  names := fun _ => h.names hlive
  typed := h.typed
  released := fun hdestroyed => nomatch hdestroyed

theorem release (i : Instance) : i.release.Conforms where
  names := fun h => absurd rfl h
  typed := by
    intro name v hv
    change Dict.empty.get? name = some v at hv
    rw [Dict.get?_empty] at hv
    cases hv
  released := fun _ => rfl

end Instance.Conforms

namespace Space

def Conforming (s : Space) : Prop := ∀ x i, s.instance? x = some i → i.Conforms

variable {s s' s₀ : Space} {x : InstanceId}

theorem conforming_of_population (hp : s'.population = s.population) (h : s.Conforming) :
    s'.Conforming := by
  intro x i hx
  rw [instance?_of_population hp] at hx
  exact h x i hx

/-- Conformity looks at tables, states and fields alone. -/
theorem conforming_of_map
    (heq : ∀ x, (s'.instance? x).map (fun i => (i.table, i.state, i.fields)) =
      (s.instance? x).map fun i => (i.table, i.state, i.fields)) (h : s.Conforming) :
    s'.Conforming := by
  intro x i hx
  have hmap := heq x
  rw [hx, Option.map_some] at hmap
  obtain ⟨j, hj, hsame⟩ := Option.map_eq_some_iff.mp hmap.symm
  obtain ⟨htable, hstate, hfields⟩ : j.table = i.table ∧ j.state = i.state ∧ j.fields = i.fields := by
    simpa using hsame
  exact (h x j hj).of_same htable.symm hstate.symm hfields.symm

theorem conforming_assign {id : InstanceId} {field : String} {v : Value}
    (hs : s.assign id field v = .ok s') (h : s.Conforming) : s'.Conforming := by
  obtain ⟨j, slot, hj, hlive, hslot, hv, rfl⟩ := slot_of_assign hs
  intro x i hx
  by_cases hid : x = id
  · rw [hid, instance?_update_self, hj] at hx
    cases hx
    exact (h id j hj).assign hlive hslot hv
  · rw [instance?_update_of_ne _ _ hid] at hx
    exact h x i hx

theorem conforming_of_move (hm : Move s s') (h : s.Conforming) : s'.Conforming := by
  cases hm with
  | record e => exact h
  | resolve registry => exact conforming_of_population rfl h
  | chain chain => exact conforming_of_population rfl h
  | assign hs => exact conforming_assign hs h
  | allocate t owner privileged =>
    intro x i hx
    rw [instance?_allocate] at hx
    split at hx
    · cases hx
      exact .create t owner privileged
    · exact h x i hx
  | link host _ =>
    exact conforming_of_map (fun x => map_linkAttachment _ (fun _ _ => rfl) fun _ _ => rfl) h
  | unlink host a =>
    exact conforming_of_map (fun x => map_unlinkAttachment _ (fun _ _ => rfl) fun _ _ => rfl) h
  | mark hlive =>
    intro x i hx
    rw [instance?_markPending] at hx
    split at hx
    next hmem =>
      obtain ⟨j, hj, rfl⟩ := Option.map_eq_some_iff.mp hx
      refine (h x j hj).mark ?_
      have hstate := hlive x hmem
      rw [state?, hj, Option.map_some, Option.some_inj] at hstate
      simp [hstate]
    next => exact h x i hx
  | release _ =>
    intro x i hx
    rw [instance?_releaseAll] at hx
    split at hx
    · obtain ⟨j, -, rfl⟩ := Option.map_eq_some_iff.mp hx
      exact .release j
    · exact h x i hx

theorem conforming_of_steps (hs : Steps s s') (h : s.Conforming) : s'.Conforming := by
  induction hs with
  | refl => exact h
  | tail _ hstep ih =>
    cases hstep with
    | move hm _ => exact conforming_of_move hm ih
    | file definition id => exact conforming_of_population rfl ih

theorem table?_of_steps (hs : Steps s s') {t : Table} (ht : s.table? x = some t) :
    s'.table? x = some t := by
  obtain ⟨i, hi, rfl⟩ := Option.map_eq_some_iff.mp ht
  have hk := (elapsed_of_steps hs).identity (identity?_of_instance? hi)
  obtain ⟨j, hj, hsame⟩ := Option.map_eq_some_iff.mp hk
  rw [table?, hj, Option.map_some]
  exact congrArg some (congrArg Identity.table hsame)

theorem table?_of_create [Natives] {bound : Nat} {definition : DefinitionId} {owner : Principal}
    {privileged allowPrototype : Bool} {id : InstanceId}
    (h : (engine bound).create definition owner privileged allowPrototype s = some (.ok id, s')) :
    ∃ t, (s.registry.get definition).1 = .ok t ∧ s'.table? id = some t := by
  cases founding_of_create h with
  | @done t s₁ s₂ ht _ hcourse =>
    refine ⟨t, eq_ok_of_mapError (Prod.mk.inj ht).1, table?_of_steps (steps_of_course hcourse) ?_⟩
    rw [table?, instance?_allocate, if_pos rfl]
    rfl

/-- Whatever is asked of a new space, whatever bodies run and whatever is registered, compiled and
unloaded meanwhile: in every state that is passed through, each instance stores just the fields of
the table that it was made with, each with the value that the table gives it or one that its type
accepts, and a destroyed one stores none. The table is the one that the registry had for the
definition when the instance was made. -/
theorem storage_conforms [Natives] {r : Registry} {config : Config}
    (hstart : ofConfig? r config = .ok s₀) :
    (∀ u, Steps s₀ u → ∀ x i, u.instance? x = some i → i.Conforms) ∧
    (∀ {bound definition owner privileged allowPrototype u id u'},
      (engine bound).create definition owner privileged allowPrototype u = some (.ok id, u') →
        ∃ t, (u.registry.get definition).1 = .ok t ∧ ∀ v, Steps u' v → v.table? id = some t) ∧
    (∀ (u : Space) t owner privileged v, Steps (u.allocate t owner privileged) v →
      v.table? u.population.nextId = some t) ∧
    (∀ {bound id m args caller u out u'}, (engine bound).call id m args caller u = some (out, u') →
      Steps u u') ∧
    ∀ requests s, Served s₀ requests s → Steps s₀ s := by
  refine ⟨?_, ?_, ?_, ?_, fun _ _ => steps_of_served⟩
  · intro u hu
    refine conforming_of_steps hu fun x i hx => ?_
    rw [instance?_of_ofConfig? hstart] at hx
    cases hx
  · intro bound definition owner privileged allowPrototype u id u' h
    obtain ⟨t, hget, ht⟩ := table?_of_create h
    exact ⟨t, hget, fun v hv => table?_of_steps hv ht⟩
  · intro u t owner privileged v hv
    refine table?_of_steps hv ?_
    rw [table?, instance?_allocate, if_pos rfl]
    rfl
  · intro bound id m args caller u out u' h
    exact steps_of_course (((courses_engine bound).call id m args caller).holds h)

section Refit

def oilLantern : Definition :=
  { Definition.empty ⟨"/std/lantern", by decide⟩ with
    fields := (Dict.empty.insert "oil" ⟨.int, .int 3⟩).insert "glow" ⟨.bool, .str "dim"⟩ }

def wickLantern : Definition :=
  { Definition.empty oilLantern.id with fields := Dict.empty.insert "wick" ⟨.int, .int 1⟩ }

def refit : List Request :=
  [.registry (.register oilLantern), .instantiate oilLantern.id .system,
    .setField ⟨1⟩ "oil" (.int 5) .system, .registry (.compile wickLantern),
    .setField ⟨1⟩ "wick" (.int 2) .system, .setField ⟨1⟩ "glow" (.str "bright") .system]

/-- What the lantern stores is what the former table says. -/
theorem refit_conforms : ∃ s₀ s i, ofConfig? (.empty .firstContributor 8 none) .standard = .ok s₀ ∧
    Served s₀ refit s ∧ s.instance? ⟨1⟩ = some i ∧ i.fields.get? "oil" = some (.int 5) ∧
    i.fields.get? "glow" = some (.str "dim") ∧ i.fields.get? "wick" = none ∧ i.Conforms := by
  have hrun : (ofConfig? (.empty .firstContributor 8 none) .standard).toOption.bind
      (fun s₀ => (serve 3 refit s₀).bind fun s => (s.instance? ⟨1⟩).map fun i =>
        (i.fields.get? "oil", i.fields.get? "glow", i.fields.get? "wick")) =
      some (some (.int 5), some (.str "dim"), none) := by
    decide +kernel
  obtain ⟨s₀, s, hok, hserved, hrun⟩ := served_of_found hrun
  obtain ⟨i, hi, heq⟩ := Option.map_eq_some_iff.mp hrun
  simp only [Prod.mk.injEq] at heq
  obtain ⟨hoil, hglow, hwick⟩ := heq
  obtain ⟨hconforms, -, -, -, hsteps⟩ := storage_conforms hok
  exact ⟨s₀, s, i, hok, hserved, hi, hoil, hglow, hwick, hconforms s (hsteps refit s hserved) _ i hi⟩

end Refit

end Space

end Mudlib
