import Mudlib.Proofs.Registry.Contributions
set_option autoImplicit false

namespace Mudlib

def Implementation.Calls (m target : Implementation) : Prop := ∃ call, (call, target) ∈ m.calls

namespace Registry
namespace Coherent

variable {r : Registry} {id a : DefinitionId} {t : Table} {name : String}
variable {m target : Implementation} {call : QualifiedCall}

theorem bound_of_shown (h : Coherent r) (hs : r.Shows id name m) (hb : (call, target) ∈ m.calls) :
    ∃ b, Inherits r.effective? m.owner b ∧ r.Shows b call.method target ∧
      ∀ a, call.ancestor = some a → b = a := by
  obtain ⟨d, parents, decl, hd, -, hp, -, hlink⟩ := h.linked_of_shown hs
  obtain ⟨calls, hcalls, hmk⟩ := Link.linkMethod_eq_ok.mp hlink
  rw [hmk] at hb
  obtain ⟨declared, -, heq⟩ := exists_mem_of_forall₂ hcalls hb
  obtain ⟨found, hfound, heq⟩ := map_eq_ok.mp heq
  cases heq
  obtain ⟨p, hmem, hmethod, hnamed⟩ := Link.resolveQualifiedCall_eq_ok hfound
  obtain ⟨b, hb, hbp⟩ := exists_mem_of_forall₂ hp hmem
  obtain ⟨slot, hslot, htarget⟩ := Link.method?_eq_some hmethod
  refine ⟨b, ⟨d, hd, hb⟩, ⟨p, slot, hbp, hslot, htarget⟩, ?_⟩
  intro a ha
  rw [← hnamed a ha, h.id_eq hbp]

theorem shown_of_above (h : Coherent r) (ht : r.cached? id = some t)
    (ha : Above r.effective? id a) (hs : r.Shows a name m) : r.Shows id name m := by
  obtain ⟨d, -, decl, hd, -, -, hdecl, -⟩ := h.linked_of_shown hs
  have howner : m.owner ∈ Link.ownersOf t.methods name :=
    ((h.gathered ht name).mem m.owner).mpr ⟨ha.trans (h.above_owner hs), d, decl, hd, hdecl⟩
  cases hslot : t.methods.get? name with
  | none =>
    rw [Link.get?_eq_none_iff_ownersOf.mp hslot] at howner
    cases howner
  | some slot =>
    rw [Link.ownersOf_eq hslot] at howner
    obtain ⟨n, hn, heq⟩ := List.mem_map.mp howner
    have hshown : r.Shows id name n := ⟨t, slot, ht, hslot, hn⟩
    exact h.eq_of_owner_eq hshown hs heq ▸ hshown

theorem older_of_calls (h : Coherent r) (hs : r.Shows id name m)
    (hb : (call, target) ∈ m.calls) : r.Shows id call.method target ∧
      Relation.TransGen (Inherits r.effective?) m.owner target.owner := by
  obtain ⟨b, hb, htarget, -⟩ := h.bound_of_shown hs hb
  obtain ⟨t, slot, ht, hslot, hm⟩ := hs
  have habove := h.above_owner ⟨t, slot, ht, hslot, hm⟩
  exact ⟨h.shown_of_above ht (habove.tail hb) htarget, .head' hb (h.above_owner htarget)⟩

theorem older_of_chain (h : Coherent r) {path : List Implementation} (hs : r.Shows id name m)
    (hpath : List.IsChain Implementation.Calls (m :: path)) :
    ∀ n ∈ path, Relation.TransGen (Inherits r.effective?) m.owner n.owner := by
  induction path generalizing m name with
  | nil => exact fun _ hn => nomatch hn
  | cons k path ih =>
    obtain ⟨⟨call, hcall⟩, hrest⟩ := List.isChain_cons_cons.mp hpath
    obtain ⟨hk, hmk⟩ := h.older_of_calls hs hcall
    intro n hn
    rcases List.mem_cons.mp hn with rfl | hn
    · exact hmk
    · exact hmk.trans (ih hk hrest n hn)

theorem nodup_of_chain (h : Coherent r) {path : List Implementation} (hs : r.Shows id name m)
    (hpath : List.IsChain Implementation.Calls (m :: path)) :
    ((m :: path).map Implementation.owner).Nodup := by
  induction path generalizing m name with
  | nil => simp
  | cons k path ih =>
    obtain ⟨⟨call, hcall⟩, hrest⟩ := List.isChain_cons_cons.mp hpath
    obtain ⟨hk, -⟩ := h.older_of_calls hs hcall
    refine List.nodup_cons.mpr ⟨?_, ih hk hrest⟩
    intro hmem
    obtain ⟨n, hn, heq⟩ := List.mem_map.mp hmem
    obtain ⟨own, -, hown, -⟩ := h.own_of_shown hs
    have hcycle := h.older_of_chain hs hpath n hn
    rw [heq] at hcycle
    exact h.not_inherits_self hown hcycle

/-- Each bound call goes at least one level up. -/
theorem length_le_of_chain (h : Coherent r) {path : List Implementation} {own : Table}
    (hs : r.Shows id name m) (hown : r.cached? m.owner = some own)
    (hpath : List.IsChain Implementation.Calls (m :: path)) : path.length ≤ own.depth := by
  induction path generalizing m name own with
  | nil => exact Nat.zero_le _
  | cons n path ih =>
    obtain ⟨⟨call, hcall⟩, hrest⟩ := List.isChain_cons_cons.mp hpath
    obtain ⟨hn, hmn⟩ := h.older_of_calls hs hcall
    obtain ⟨above, habove, hlt⟩ := h.cached_of_inherits_many hown hmn
    exact Nat.lt_of_le_of_lt (ih hn habove hrest) hlt

theorem depth_owner_le (h : Coherent r) (ht : r.cached? id = some t) (hs : r.Shows id name m) :
    ∃ own, r.cached? m.owner = some own ∧ own.depth ≤ t.depth := by
  rcases above_iff.mp (h.above_owner hs) with heq | hlt
  · exact ⟨t, heq ▸ ht, Nat.le_refl _⟩
  · obtain ⟨own, hown, hlt⟩ := h.cached_of_inherits_many ht hlt
    exact ⟨own, hown, Nat.le_of_lt hlt⟩

end Coherent

/-- In every table that a registry resolves, a bound call runs an implementation that the table shows
for the call's method, the very same object, owned by a strict ancestor of the caller's owner; a call
that names an ancestor names a direct one, and stays in its chain. So a chain of bound calls visits
each owner once and takes no more steps than the table is deep. -/
theorem bound_calls_run_older (policy : AmbiguityPolicy) (maxDepth : Nat)
    (loader : Option Loader) (operations : List Operation) {id : DefinitionId} {t : Table}
    {r' : Registry}
    (ht : ((empty policy maxDepth loader).afterAll operations).get id = (.ok t, r')) :
    (∀ name slot, t.methods.get? name = some slot → ∀ m ∈ slot.implementations,
      ∀ call target, (call, target) ∈ m.calls →
        (∃ targets, t.methods.get? call.method = some targets ∧
          target ∈ targets.implementations) ∧
        Relation.TransGen (Inherits r'.effective?) m.owner target.owner ∧
        ∀ a, call.ancestor = some a →
          Inherits r'.effective? m.owner a ∧ Above r'.effective? a target.owner) ∧
    ∀ name slot, t.methods.get? name = some slot → ∀ m ∈ slot.implementations,
      ∀ path, List.IsChain Implementation.Calls (m :: path) →
        ((m :: path).map Implementation.owner).Nodup ∧ path.length ≤ t.depth := by
  obtain ⟨hc, hcached⟩ := (coherent_afterAll policy maxDepth loader operations).of_get ht
  constructor
  · intro name slot hslot m hm call target hb
    have hs : r'.Shows id name m := ⟨t, slot, hcached, hslot, hm⟩
    obtain ⟨⟨u, targets, hu, htargets, htarget⟩, holder⟩ := hc.older_of_calls hs hb
    obtain rfl := Option.some.inj (hcached.symm.trans hu)
    refine ⟨⟨targets, htargets, htarget⟩, holder, ?_⟩
    intro a ha
    obtain ⟨b, hinherits, hshown, hnamed⟩ := hc.bound_of_shown hs hb
    obtain rfl := hnamed a ha
    exact ⟨hinherits, hc.above_owner hshown⟩
  · intro name slot hslot m hm path hpath
    have hs : r'.Shows id name m := ⟨t, slot, hcached, hslot, hm⟩
    obtain ⟨own, hown, hdepth⟩ := hc.depth_owner_le hcached hs
    exact ⟨hc.nodup_of_chain hs hpath, Nat.le_trans (hc.length_le_of_chain hs hown hpath) hdepth⟩

/-- The call of the glowing thing leads to the plain one, which its lantern shows in the same slot. -/
theorem lantern_calls_older_look : ∃ t r' slot m target,
    ((empty .firstContributor 8 none).afterAll diamond).get lantern.id = (.ok t, r') ∧
    t.methods.get? "look" = some slot ∧ m ∈ slot.implementations ∧ m.owner = glowing.id ∧
    (⟨none, "look"⟩, target) ∈ m.calls ∧ target.owner = thing.id ∧
    target ∈ slot.implementations ∧
    Relation.TransGen (Inherits r'.effective?) m.owner target.owner := by
  have hrun : ((((empty .firstContributor 8 none).afterAll diamond).get lantern.id).1.toOption.bind
      fun t => (t.methods.get? "look").bind fun slot => slot.implementations[1]?.bind fun m =>
        m.calls.head?.map fun b => (m.owner, b.1, b.2.owner)) =
        some (glowing.id, ⟨none, "look"⟩, thing.id) := by
    decide +kernel
  rcases ht : ((empty .firstContributor 8 none).afterAll diamond).get lantern.id with ⟨e | t, r'⟩
  · rw [ht] at hrun
    cases hrun
  · rw [ht] at hrun
    simp only [Except.toOption, Option.bind_some] at hrun
    obtain ⟨slot, hslot, hrun⟩ := Option.bind_eq_some_iff.mp hrun
    obtain ⟨m, hm, hrun⟩ := Option.bind_eq_some_iff.mp hrun
    obtain ⟨⟨call, target⟩, hhead, heq⟩ := Option.map_eq_some_iff.mp hrun
    simp only [Prod.mk.injEq] at heq
    obtain ⟨howner, rfl, htarget⟩ := heq
    have hmem := List.mem_of_getElem? hm
    have hcall := List.mem_of_head? hhead
    obtain ⟨holder, -⟩ := bound_calls_run_older _ _ _ _ ht
    obtain ⟨⟨targets, htargets, hin⟩, hinherits, -⟩ := holder _ slot hslot m hmem _ _ hcall
    obtain rfl := Option.some.inj (hslot.symm.trans htargets)
    exact ⟨t, r', slot, m, target, rfl, hslot, hmem, howner, hcall, htarget, hin, hinherits⟩

end Registry

end Mudlib
