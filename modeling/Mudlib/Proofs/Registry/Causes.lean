import Mathlib.Data.Countable.Basic
import Mathlib.Data.FinEnum
import Mathlib.Data.Set.Finite.List
import Mudlib.Proofs.Registry.Memoization
/-!
What a failing resolution complains of is decided by the sources too, unless it complains of depth.

A chain of ancestors that is in the cache is not walked again. It may be too long to be walked from a
definition that lies further down, and then it depends on the cache whether this is found first or
another fault.
-/
set_option autoImplicit false

namespace Mudlib

namespace ResolveError

def OfDepth (e : ResolveError) : Prop := ∃ definition limit, e = .tooDeep definition limit

/-- The errors are the same, unless one of them is of depth. -/
def Akin (e e' : ResolveError) : Prop := e = e' ∨ e.OfDepth ∨ e'.OfDepth

end ResolveError

instance : Finite DefinitionId := by
  have hbytes : ∀ id : DefinitionId,
      id.text.toByteArray.data.toList ∈ {l : List UInt8 | l.length ≤ DefinitionPath.maxBytes} := by
    intro id
    obtain ⟨-, -, hsize, -⟩ := DefinitionPath.fault?_eq_none_iff.mp id.valid
    simpa using hsize
  have hfinite := List.finite_length_le UInt8 DefinitionPath.maxBytes
  refine @Finite.of_injective _ _ hfinite.to_subtype (fun id => ⟨_, hbytes id⟩) ?_
  intro a b hab
  have hlist := congrArg Subtype.val hab
  simp only [Array.toList_inj] at hlist
  exact DefinitionId.ext (String.toByteArray_inj.mp (ByteArray.ext hlist))

namespace Registry

/-- A registry that may have come to have more in its cache, and else is as before. -/
structure Continues (r₀ r : Registry) : Prop extends Reached r₀ r where
  loader : r.loader = r₀.loader

variable {visiting : List DefinitionId} {id a : DefinitionId} {r₀ r r' r₁ r₁' : Registry}
variable {d : Definition} {parents parents' : List Table} {e e' : ResolveError} {room room' : Nat}

namespace Continues

theorem refl (h : Coherent r) : Continues r r := ⟨.refl h, rfl⟩

theorem trans (h : Continues r₀ r) (h' : Continues r r') : Continues r₀ r' where
  coherent := h'.coherent
  effective := h'.effective.trans h.effective
  policy := h'.policy.trans h.policy
  maxDepth := h'.maxDepth.trans h.maxDepth
  loader := h'.loader.trans h.loader

theorem walk (h : Continues r₀ r) (hw : Walk visiting r r') : Continues r₀ r' :=
  ⟨h.toReached.walk hw, hw.grows.loader.trans h.loader⟩

theorem resolvable_of_cached {t : Table} (h : Continues r₀ r) (ht : r.cached? id = some t) :
    Resolvable r₀.effective? r₀.policy r₀.maxDepth id := by
  have hresolvable := h.coherent.resolvable_of_cached ht
  rwa [h.effective, h.policy, h.maxDepth] at hresolvable

theorem resolvable_of_parents (h : Continues r₀ r)
    (hp : List.Forall₂ (fun a p => r.cached? a = some p) d.ancestors parents)
    (ha : a ∈ d.ancestors) : Resolvable r₀.effective? r₀.policy r₀.maxDepth a := by
  obtain ⟨p, -, hap⟩ := exists_mem_of_forall₂ hp.flip ha
  exact h.resolvable_of_cached hap

end Continues

theorem Resolvable.inherits {sources : DefinitionId → Option Definition} {policy : AmbiguityPolicy}
    {n : Nat} (h : Resolvable sources policy n id) (ha : Inherits sources id a) :
    Resolvable sources policy n a := by
  cases n with
  | zero => exact absurd ha h.not_inherits
  | succ n => exact (h.of_inherits ha).weaken n.le_succ

theorem first_of_each
    {resolveOne : DefinitionId → Registry → Except ResolveError Table × Registry}
    (hone : ∀ a r, Coherent r → Resolved visiting a r (resolveOne a r)) {ids : List DefinitionId}
    (hr : Continues r₀ r) (h : resolveEach resolveOne ids r = (.error e, r')) :
    ∃ before a after r₁, ids = before ++ a :: after ∧ Continues r₀ r₁ ∧
      resolveOne a r₁ = (.error e, r') ∧ ∀ b ∈ before, ∃ t, r₁.cached? b = some t := by
  suffices hg : ∃ before a after r₁, ids = before ++ a :: after ∧ Continues r₀ r₁ ∧ Grows r r₁ ∧
      resolveOne a r₁ = (.error e, r') ∧ ∀ b ∈ before, ∃ t, r₁.cached? b = some t by
    obtain ⟨before, a, after, r₁, heq, hr₁, -, herror, hbefore⟩ := hg
    exact ⟨before, a, after, r₁, heq, hr₁, herror, hbefore⟩
  induction ids generalizing r with
  | nil => cases h
  | cons id ids ih =>
    have hresolved := hone id r hr.coherent
    rcases h₁ : resolveOne id r with ⟨out, r₁⟩
    rw [h₁] at hresolved
    cases out with
    | error e₁ =>
      simp only [resolveEach, h₁] at h
      cases h
      exact ⟨[], id, ids, r, rfl, hr, .refl r, h₁, List.forall_mem_nil _⟩
    | ok t =>
      rcases h₂ : resolveEach resolveOne ids r₁ with ⟨outs, r₂⟩
      simp only [resolveEach, h₁, h₂] at h
      cases outs with
      | ok ts => cases h
      | error e₂ =>
        cases h
        obtain ⟨before, a, after, r₃, rfl, hr₃, hgrows, ha, hbefore⟩ :=
          ih (hr.walk hresolved.walk) h₂
        have hid := hgrows.cached (hresolved.found t rfl)
        exact ⟨id :: before, a, after, r₃, rfl, hr₃, hresolved.walk.grows.trans hgrows, ha,
          List.forall_mem_cons.mpr ⟨⟨t, hid⟩, hbefore⟩⟩

inductive Failing (r₀ : Registry) (visiting : List DefinitionId) (id : DefinitionId) :
    Nat → ResolveError → Prop where
  | depth (room : Nat) {e : ResolveError} : e.OfDepth → Failing r₀ visiting id room e
  | cycle (room : Nat) :
      id ∈ visiting → Failing r₀ visiting id room (.inheritanceCycle (visiting ++ [id]))
  | load (room : Nat) {r r' : Registry} {e : ResolveError} :
      id ∉ visiting → Continues r₀ r → r.loadSource id = (.error e, r') →
      Failing r₀ visiting id room e
  | blocked (room : Nat) {d : Definition} {before : List DefinitionId} {a : DefinitionId}
      {after : List DefinitionId} {r r' : Registry} {e : ResolveError} :
      id ∉ visiting → r₀.effective? id = some d → d.id = id → d.ancestors = before ++ a :: after →
      (∀ b ∈ before, Resolvable r₀.effective? r₀.policy r₀.maxDepth b) → Continues r₀ r →
      resolveWithin room (visiting ++ [id]) a r = (.error e, r') →
      Failing r₀ visiting id (room + 1) e
  | link (room : Nat) {d : Definition} {r : Registry} {parents : List Table} {e : ResolveError} :
      id ∉ visiting → r₀.effective? id = some d → d.id = id → Continues r₀ r →
      List.Forall₂ (fun a p => r.cached? a = some p) d.ancestors parents →
      Mudlib.link r.linked d parents r.policy = .error e → Failing r₀ visiting id room e

theorem failing_within (hr : Continues r₀ r)
    (h : resolveWithin room visiting id r = (.error e, r')) : Failing r₀ visiting id room e := by
  cases ht : r.cached? id with
  | some t =>
    rw [resolveWithin_cached room ht] at h
    cases h
  | none =>
    by_cases hv : id ∈ visiting
    · rw [resolveWithin_visiting room ht hv] at h
      cases h
      exact .cycle room hv
    cases room with
    | zero =>
      rw [resolveWithin_zero ht hv] at h
      cases h
      exact .depth 0 ⟨_, _, rfl⟩
    | succ room =>
      have hload : Walk (visiting ++ [id]) r (r.loadSource id).2 := walk_loadSource ht
      have hentered := entered_resolveWithin room ht hv
      rw [h] at hentered
      generalize hout : (Except.error e, r') = out at hentered
      cases hentered with
      | unloaded h₁ =>
        cases hout
        exact .load _ hv hr h₁
      | @blocked d r₁ e r₂ h₁ h₂ =>
        cases hout
        rw [h₁] at hload
        have hr₁ := hr.walk hload
        obtain ⟨heff, hsource, -⟩ := loadSource_ok h₁
        rw [hr.effective] at heff
        obtain ⟨before, a, after, r₃, heq, hr₃, ha, hbefore⟩ :=
          first_of_each (fun a r hr => resolved_within room hr) hr₁ h₂
        refine .blocked room hv heff (hr₁.coherent.keyed hsource) heq (fun b hb => ?_) hr₃ ha
        obtain ⟨t, ht⟩ := hbefore b hb
        exact hr₃.resolvable_of_cached ht
      | @reached d r₁ parents r₂ h₁ h₂ =>
        rw [h₁] at hload
        have hr₁ := hr.walk hload
        obtain ⟨heff, hsource, -⟩ := loadSource_ok h₁
        rw [hr.effective] at heff
        obtain ⟨hwalk, hp⟩ :=
          resolved_each (fun a r hr => resolved_within room hr) d.ancestors hr₁.coherent
        rw [h₂] at hwalk hp
        rcases linkAndKeep_error hout.symm with ⟨hl, -⟩ | ⟨-, -, -, he, -⟩
        · exact .link _ hv heff (hr₁.coherent.keyed hsource) (hr₁.walk hwalk) (hp parents rfl) hl
        · exact .depth _ ⟨_, _, he⟩

theorem inherits_of_split {before after : List DefinitionId} (hd : r₀.effective? id = some d)
    (heq : d.ancestors = before ++ a :: after) : Inherits r₀.effective? id a :=
  ⟨d, hd, heq ▸ List.mem_append_right _ List.mem_cons_self⟩

theorem below_ancestor (hv : ∀ b ∈ visiting, Relation.TransGen (Inherits r₀.effective?) b id)
    (ha : Inherits r₀.effective? id a) :
    ∀ b ∈ visiting ++ [id], Relation.TransGen (Inherits r₀.effective?) b a := by
  intro b hb
  rcases List.mem_append.mp hb with hb | hb
  · exact (hv b hb).tail ha
  · rw [List.mem_singleton.mp hb]
    exact .single ha

theorem Continues.not_loadable (hr : Continues r₀ r) (h : r.loadSource id = (.error e, r'))
    (hd : r₀.effective? id = some d) : d.id ≠ id := by
  obtain ⟨-, -, -, hother⟩ := loadSource_error h
  exact hother d (hr.effective ▸ hd)

theorem ofDepth_of_resolvable (hr : Continues r₀ r)
    (hid : Resolvable r₀.effective? r₀.policy r₀.maxDepth id)
    (hv : ∀ b ∈ visiting, Relation.TransGen (Inherits r₀.effective?) b id)
    (h : resolveWithin room visiting id r = (.error e, r')) : e.OfDepth := by
  induction room using Nat.strongRecOn generalizing visiting id r r' with
  | ind room ih =>
    cases failing_within hr h with
    | depth _ he => exact he
    | cycle _ hmem => exact absurd (hv id hmem) (hid.acyclic .refl)
    | load _ _ hr hload =>
      obtain ⟨d, hd, hdid⟩ := hid.sourced .refl
      exact absurd hdid (hr.not_loadable hload hd)
    | blocked room _ hd _ heq _ hr ha =>
      have hinherits := inherits_of_split hd heq
      exact ih room (Nat.lt_succ_self room) hr (hid.inherits hinherits)
        (below_ancestor hv hinherits) ha
    | link _ _ hd hdid hr hp hl =>
      subst hdid
      rw [← hr.effective, ← hr.policy, ← hr.maxDepth] at hid
      obtain ⟨t, ht⟩ := linkAndKeep_succeeds hr.coherent hid (hr.effective ▸ hd) hp
      simp only [linkAndKeep, hl] at ht
      cases ht

theorem Coherent.discerns_of_injective {number : DefinitionId → Nat}
    (hnumber : Function.Injective number) (h : Coherent r)
    (hp : List.Forall₂ (fun a p => r.cached? a = some p) d.ancestors parents) :
    Link.Discerns number parents := by
  have shown : ∀ p ∈ parents, ∀ name m, p.method? name = some m → ∃ a, r.Shows a name m := by
    intro p hmem name m hm
    obtain ⟨a, -, hap⟩ := exists_mem_of_forall₂ hp hmem
    obtain ⟨slot, hslot, hm⟩ := Link.method?_eq_some hm
    exact ⟨a, p, slot, hap, hslot, hm⟩
  intro p hp q hq name m m' hm hm'
  obtain ⟨a, hs⟩ := shown p hp name m hm
  obtain ⟨a', hs'⟩ := shown q hq name m' hm'
  rw [Bool.eq_iff_iff, h.same_iff hs hs']
  constructor
  · intro hsame
    simp only [Implementation.same, Implementation.stamp_restamp, Bool.and_eq_true,
      beq_iff_eq] at hsame
    exact hnumber hsame.1
  · intro howner
    rw [h.eq_of_owner_eq hs hs' howner]
    simp [Implementation.same]

theorem restamp_eq_of_cached {t t' : Table} (hr : Reached r₀ r) (hr' : Reached r₀ r')
    (ht : r.cached? a = some t) (ht' : r'.cached? a = some t') (number : DefinitionId → Nat) :
    t.restamp number = t'.restamp number := by
  obtain ⟨tables, hb⟩ := (hr.coherent.resolvable_of_cached ht).linkable
  have heq := hr.coherent.bottomUp_eq hb ht
  rw [hr.effective, hr.policy, ← hr'.effective, ← hr'.policy] at hb
  have heq' := hr'.coherent.bottomUp_eq hb ht'
  rw [← Table.restamp_restamp (fun b => (tables b).stamp) number t, ← heq, heq',
    Table.restamp_restamp]

theorem map_restamp_eq_of_cached {ids : List DefinitionId} (hr : Reached r₀ r) (hr' : Reached r₀ r')
    (hp : List.Forall₂ (fun a p => r.cached? a = some p) ids parents)
    (hp' : List.Forall₂ (fun a p => r'.cached? a = some p) ids parents')
    (number : DefinitionId → Nat) :
    parents.map (Table.restamp number) = parents'.map (Table.restamp number) := by
  induction hp generalizing parents' with
  | nil =>
    cases hp'
    rfl
  | cons hone _ ih =>
    cases hp' with
    | cons hone' hrest' =>
      rw [List.map_cons, List.map_cons, restamp_eq_of_cached hr hr' hone hone', ih hrest']

/-- Against the tables of two registries with the same sources, a definition links to the same, up to
the numbers of the linkings. -/
theorem map_restamp_link (stamp stamp' : Nat) (hr : Reached r₀ r) (hr' : Reached r₀ r')
    (hp : List.Forall₂ (fun a p => r.cached? a = some p) d.ancestors parents)
    (hp' : List.Forall₂ (fun a p => r'.cached? a = some p) d.ancestors parents')
    {number : DefinitionId → Nat} (hnumber : Function.Injective number) :
    (link stamp d parents r.policy).map (Table.restamp number) =
      (link stamp' d parents' r'.policy).map (Table.restamp number) := by
  rw [← link_restamp number (hr.coherent.discerns_of_injective hnumber hp) stamp d r.policy,
    ← link_restamp number (hr'.coherent.discerns_of_injective hnumber hp') stamp' d r'.policy,
    map_restamp_eq_of_cached hr hr' hp hp' number, hr.policy, hr'.policy]

theorem link_error_unique {stamp stamp' : Nat} (hr : Reached r₀ r) (hr' : Reached r₀ r')
    (hp : List.Forall₂ (fun a p => r.cached? a = some p) d.ancestors parents)
    (hp' : List.Forall₂ (fun a p => r'.cached? a = some p) d.ancestors parents')
    (hl : link stamp d parents r.policy = .error e)
    (hl' : link stamp' d parents' r'.policy = .error e') : e = e' := by
  obtain ⟨number, hnumber⟩ := Countable.exists_injective_nat DefinitionId
  have hsame := map_restamp_link stamp stamp' hr hr' hp hp' hnumber
  rw [hl, hl'] at hsame
  exact Except.error.inj hsame

theorem loadSource_error_unique (hloader : r.loader = r'.loader)
    (h : r.loadSource id = (.error e, r₁)) (h' : r'.loadSource id = (.error e', r₁')) : e = e' := by
  obtain ⟨-, hn, -⟩ := loadSource_error h
  obtain ⟨-, hn', -⟩ := loadSource_error h'
  have hsame : (r.loadSource id).1 = (r'.loadSource id).1 := by
    unfold loadSource
    rw [hn, hn', hloader]
    cases r'.loader with
    | none => rfl
    | some load =>
      simp only
      rcases load id with _ | _ | d
      · rfl
      · rfl
      · simp only
        split <;> rfl
  rw [h, h'] at hsame
  exact Except.error.inj hsame

theorem first_eq_or_mem {α : Type} {before before' after after' : List α} {a a' : α}
    (h : before ++ a :: after = before' ++ a' :: after') : a = a' ∨ a ∈ before' ∨ a' ∈ before := by
  rcases List.append_eq_append_iff.mp h with ⟨between, rfl, heq⟩ | ⟨between, rfl, heq⟩
  · cases between with
    | nil => exact .inl (List.cons.inj heq).1
    | cons b between => exact .inr (.inl (by simp [(List.cons.inj heq).1]))
  · cases between with
    | nil => exact .inl (List.cons.inj heq).1.symm
    | cons b between => exact .inr (.inr (by simp [(List.cons.inj heq).1]))

/-- Whatever is cached, a definition fails for one reason, unless it fails for depth. -/
theorem akin_within (hr : Continues r₀ r) (hr' : Continues r₀ r')
    (hv : ∀ b ∈ visiting, Relation.TransGen (Inherits r₀.effective?) b id)
    (h : resolveWithin room visiting id r = (.error e, r₁))
    (h' : resolveWithin room' visiting id r' = (.error e', r₁')) : e.Akin e' := by
  induction room using Nat.strongRecOn generalizing visiting id r r' r₁ r₁' room' with
  | ind room ih =>
    have hfailing' := failing_within hr' h'
    cases failing_within hr h with
    | depth _ he => exact .inr (.inl he)
    | cycle _ hmem =>
      cases hfailing' with
      | depth _ he' => exact .inr (.inr he')
      | cycle => exact .inl rfl
      | load _ hnot => exact absurd hmem hnot
      | blocked _ hnot => exact absurd hmem hnot
      | link _ hnot => exact absurd hmem hnot
    | load _ hnot hr hload =>
      cases hfailing' with
      | depth _ he' => exact .inr (.inr he')
      | cycle _ hmem => exact absurd hmem hnot
      | load _ _ hr' hload' =>
        exact .inl (loadSource_error_unique (hr.loader.trans hr'.loader.symm) hload hload')
      | blocked _ _ hd hdid => exact absurd hdid (hr.not_loadable hload hd)
      | link _ _ hd hdid => exact absurd hdid (hr.not_loadable hload hd)
    | blocked _ hnot hd hdid heq hbefore hr ha =>
      have hbelow := below_ancestor hv (inherits_of_split hd heq)
      cases hfailing' with
      | depth _ he' => exact .inr (.inr he')
      | cycle _ hmem => exact absurd hmem hnot
      | load _ _ hr' hload => exact absurd hdid (hr'.not_loadable hload hd)
      | blocked _ _ hd' _ heq' hbefore' hr' ha' =>
        obtain rfl := Option.some.inj (hd.symm.trans hd')
        have hbelow' := below_ancestor hv (inherits_of_split hd heq')
        -- the same ancestor blocks both, or the other registry has a table for one that blocks
        rcases first_eq_or_mem (heq.symm.trans heq') with rfl | hmem | hmem
        · exact ih _ (Nat.lt_succ_self _) hr hr' hbelow ha ha'
        · exact .inr (.inl (ofDepth_of_resolvable hr (hbefore' _ hmem) hbelow ha))
        · exact .inr (.inr (ofDepth_of_resolvable hr' (hbefore _ hmem) hbelow' ha'))
      | link _ _ hd' _ hr' hp' =>
        obtain rfl := Option.some.inj (hd.symm.trans hd')
        have hresolvable := hr'.resolvable_of_parents hp' (heq ▸ List.mem_append_right _ (.head _))
        exact .inr (.inl (ofDepth_of_resolvable hr hresolvable hbelow ha))
    | link _ hnot hd hdid hr hp hl =>
      cases hfailing' with
      | depth _ he' => exact .inr (.inr he')
      | cycle _ hmem => exact absurd hmem hnot
      | load _ _ hr' hload => exact absurd hdid (hr'.not_loadable hload hd)
      | blocked _ _ hd' _ heq' _ hr' ha' =>
        obtain rfl := Option.some.inj (hd.symm.trans hd')
        have hresolvable := hr.resolvable_of_parents hp (heq' ▸ List.mem_append_right _ (.head _))
        have hbelow' := below_ancestor hv (inherits_of_split hd heq')
        exact .inr (.inr (ofDepth_of_resolvable hr' hresolvable hbelow' ha'))
      | link _ _ hd' _ hr' hp' hl' =>
        obtain rfl := Option.some.inj (hd.symm.trans hd')
        exact .inl (link_error_unique hr.toReached hr'.toReached hp hp' hl hl')

/-- A registry with these sources and settings, whatever its cache, may give the error for the id. -/
def Blames (r₀ : Registry) (id : DefinitionId) (e : ResolveError) : Prop :=
  ∃ r, Continues r₀ r ∧ (r.get id).1 = .error e

theorem Blames.akin (h : r₀.Blames id e) (h' : r₀.Blames id e') : e.Akin e' := by
  obtain ⟨r, hr, hget⟩ := h
  obtain ⟨r', hr', hget'⟩ := h'
  exact akin_within hr hr' (List.forall_mem_nil _) (Prod.ext hget rfl) (Prod.ext hget' rfl)

end Registry

end Mudlib
