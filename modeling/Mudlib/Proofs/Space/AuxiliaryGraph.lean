import Mudlib.Proofs.Space.AttachmentForest
import Mudlib.Proofs.Space.Unfolding
set_option autoImplicit false

namespace Mudlib.Space

section Unfolding

variable [Natives] {s s' s₀ : Space} {definition d : DefinitionId}

/-- The definition has a table and is not a prototype, and its init method, if it has one, runs
without error on a new instance. -/
def StartsUp (s : Space) (definition : DefinitionId) : Prop :=
  ∃ t, (s.registry.get definition).1 = .ok t ∧ t.prototype = false ∧
    ∀ m, t.method? s.initMethod = some m → ∃ bound owner v s',
      callWithin bound s.population.nextId m [] owner (s.allocate t owner false) = some (.ok v, s')

theorem StartsUp.ready (hs : Scripted s) (h : s.StartsUp d) : s.Ready d := by
  obtain ⟨t, ht, hprototype, hinit⟩ := h
  refine ⟨t, ht, hprototype, ?_⟩
  cases hm : t.method? s.initMethod with
  | none => exact ⟨0, t.defaultFields, by rw [Table.startUp, hm]⟩
  | some m =>
    obtain ⟨bound, owner, v, s', hcall⟩ := hinit m hm
    have hstart : Holds s.population.nextId ⟨t, owner, false, .live, t.defaultFields, [], none⟩
        (s.allocate t owner false).population.size t.defaultFields (s.allocate t owner false) := by
      refine ⟨?_, rfl⟩
      rw [instance?_allocate, if_pos rfl]
      rfl
    have hscripted := (hs.registry.get_ok ht).method hm
    have hfollows := follows_callWithin s.registry bound hscripted (by simp) [] owner hstart
    rw [hcall] at hfollows
    generalize hp : m.script t.fields bound t.defaultFields = p at hfollows
    cases hfollows with
    | @done fields =>
      refine ⟨bound, fields, ?_⟩
      rw [Table.startUp, hm]
      exact hp

theorem rest_of_served {policy : AmbiguityPolicy} {maxDepth : Nat} {loader : Option Loader}
    {config : Config} {requests : List Request}
    (hloader : ∀ load id d, loader = some load → load id = .ok (some d) → d.Scripted)
    (hstart : ofConfig? (.empty policy maxDepth loader) config = .ok s₀)
    (hrequests : ∀ request ∈ requests, request.Scripted) (hserved : Served s₀ requests s) :
    AtRest s ∧ s.chain = [] :=
  ⟨(atRest_of_ofConfig? hloader hstart).served hserved hrequests,
    (chain_served hserved).trans (chain_of_ofConfig? hstart)⟩

end Unfolding

section Hall

variable {s : Space} {definition d : DefinitionId}

def hall : Definition :=
  { Definition.empty ⟨"/hall", by decide⟩ with auxiliaries := [lamp.id, bulb.id] }

def wired : List Request :=
  [.registry (.register bulb), .registry (.register lamp), .registry (.register hall)]

theorem wired_scripted : ∀ request ∈ wired, request.Scripted := by
  have hhall : hall.Scripted := by
    intro name decl hdecl
    cases hdecl
  intro request hmem
  simp only [wired, List.mem_cons, List.not_mem_nil, or_false] at hmem
  rcases hmem with rfl | rfl | rfl
  · exact relighting_scripted (.registry (.register bulb)) (by simp [relighting])
  · exact relighting_scripted (.registry (.register lamp)) (by simp [relighting])
  · exact hhall

/-- What instances of a definition need, if it is seen to start up. -/
def supplies? (s : Space) (definition : DefinitionId) : Option (List DefinitionId) :=
  ((s.registry.get definition).1.toOption.filter fun t => !t.prototype).bind fun t =>
    match t.method? s.initMethod with
    | none => some (s.auxiliariesOf t)
    | some m =>
      (callWithin 1 s.population.nextId m [] .system (s.allocate t .system false)).bind fun r =>
        r.1.toOption.map fun _ => s.auxiliariesOf t

theorem startsUp_of_supplies {needed : List DefinitionId} (h : s.supplies? d = some needed) :
    s.StartsUp d ∧ ∀ e, s.Needs d e → e ∈ needed := by
  obtain ⟨t, ht, h⟩ := Option.bind_eq_some_iff.mp h
  obtain ⟨ht, hprototype⟩ := Option.filter_eq_some_iff.mp ht
  have hget := eq_ok_of_toOption ht
  have hneeds : ∀ e, s.Needs d e → e ∈ s.auxiliariesOf t := by
    rintro e ⟨u, hu, he⟩
    rw [hget] at hu
    cases hu
    exact he
  cases hm : t.method? s.initMethod with
  | none =>
    rw [hm] at h
    cases h
    refine ⟨⟨t, hget, by simpa using hprototype, ?_⟩, hneeds⟩
    intro m hm'
    rw [hm] at hm'
    cases hm'
  | some m =>
    rw [hm] at h
    obtain ⟨⟨out, s'⟩, hcall, h⟩ := Option.bind_eq_some_iff.mp h
    obtain ⟨v, hv, rfl⟩ := Option.map_eq_some_iff.mp h
    refine ⟨⟨t, hget, by simpa using hprototype, ?_⟩, hneeds⟩
    intro m' hm'
    rw [hm] at hm'
    cases hm'
    cases out with
    | error e => cases hv
    | ok w => exact ⟨1, .system, w, s', hcall⟩

theorem acyclic_of_rank (rank : DefinitionId → Nat)
    (h : ∀ a b, Relation.ReflTransGen s.Needs definition a → s.Needs a b → rank b < rank a)
    (hd : Relation.ReflTransGen s.Needs definition d) : ¬ Relation.TransGen s.Needs d d := by
  have hlower : ∀ {e}, Relation.TransGen s.Needs d e → rank e < rank d := by
    intro e he
    induction he with
    | single hneeds => exact h d _ hd hneeds
    | tail hpath hneeds ih =>
      exact Nat.lt_trans (h _ _ (hd.trans hpath.to_reflTransGen) hneeds) ih
  exact fun hcycle => Nat.lt_irrefl _ (hlower hcycle)

structure Supplied (s : Space) : Prop where
  ofHall : s.supplies? hall.id = some [lamp.id, bulb.id]
  ofLamp : s.supplies? lamp.id = some [bulb.id]
  ofBulb : s.supplies? bulb.id = some []

namespace Supplied

variable (h : Supplied s)

include h

theorem reached (hd : Relation.ReflTransGen s.Needs hall.id d) :
    d = hall.id ∨ d = lamp.id ∨ d = bulb.id := by
  induction hd with
  | refl => exact .inl rfl
  | tail _ hneeds ih =>
    rcases ih with rfl | rfl | rfl
    · have hmem := (startsUp_of_supplies h.ofHall).2 _ hneeds
      simp only [List.mem_cons, List.not_mem_nil, or_false] at hmem
      exact .inr hmem
    · exact .inr (.inr (List.mem_singleton.mp ((startsUp_of_supplies h.ofLamp).2 _ hneeds)))
    · exact absurd ((startsUp_of_supplies h.ofBulb).2 _ hneeds) List.not_mem_nil

theorem startsUp (hd : Relation.ReflTransGen s.Needs hall.id d) : s.StartsUp d := by
  rcases h.reached hd with rfl | rfl | rfl
  · exact (startsUp_of_supplies h.ofHall).1
  · exact (startsUp_of_supplies h.ofLamp).1
  · exact (startsUp_of_supplies h.ofBulb).1

theorem idxOf_lt {a b : DefinitionId} (ha : Relation.ReflTransGen s.Needs hall.id a)
    (hneeds : s.Needs a b) :
    [bulb.id, lamp.id, hall.id].idxOf b < [bulb.id, lamp.id, hall.id].idxOf a := by
  rcases h.reached ha with rfl | rfl | rfl
  · have hmem := (startsUp_of_supplies h.ofHall).2 b hneeds
    simp only [List.mem_cons, List.not_mem_nil, or_false] at hmem
    rcases hmem with rfl | rfl <;> decide
  · obtain rfl := List.mem_singleton.mp ((startsUp_of_supplies h.ofLamp).2 b hneeds)
    decide
  · exact absurd ((startsUp_of_supplies h.ofBulb).2 b hneeds) List.not_mem_nil

end Supplied

end Hall

end Mudlib.Space
