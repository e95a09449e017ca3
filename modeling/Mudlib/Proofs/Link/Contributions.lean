import Mudlib.Proofs.Link.Merge
set_option autoImplicit false

namespace Mudlib
namespace Link

section Union

variable {ids more : List DefinitionId} {a id : DefinitionId}

theorem nodup_addNew (h : ids.Nodup) : (addNew ids id).Nodup := by
  unfold addNew
  split
  · exact h
  next hn =>
    refine List.nodup_append.mpr ⟨h, by simp, ?_⟩
    intro a ha b hb heq
    rw [heq, List.mem_singleton.mp hb] at ha
    exact hn ha

theorem nodup_union (h : ids.Nodup) : (union ids more).Nodup := by
  unfold union
  induction more generalizing ids with
  | nil => exact h
  | cons id more ih => exact ih (nodup_addNew h)

theorem union_nil (h : more.Nodup) : union [] more = more := by
  suffices hg : ∀ ids : List DefinitionId, (ids ++ more).Nodup → union ids more = ids ++ more by
    simpa using hg [] (by simpa using h)
  clear h
  induction more with
  | nil => simp [union]
  | cons id more ih =>
    intro ids h
    have hid : id ∉ ids := fun hmem => (List.nodup_append.mp h).2.2 id hmem id List.mem_cons_self rfl
    have hnew : addNew ids id = ids ++ [id] := if_neg hid
    have hrest := ih (ids ++ [id]) (by simpa using h)
    rw [union, List.foldl_cons, hnew, ← union, hrest, List.append_assoc]
    rfl

theorem pairwise_union {R : DefinitionId → DefinitionId → Prop} (h : ids.Pairwise R)
    (hmore : more.Pairwise R) (hnew : ∀ x ∈ ids, ∀ y ∈ more, y ∉ ids → R x y) :
    (union ids more).Pairwise R := by
  unfold union
  induction more generalizing ids with
  | nil => exact h
  | cons id more ih =>
    obtain ⟨hid, hmore⟩ := List.pairwise_cons.mp hmore
    by_cases hmem : id ∈ ids
    · rw [List.foldl_cons, addNew, if_pos hmem]
      exact ih h hmore fun x hx y hy => hnew x hx y (List.mem_cons_of_mem _ hy)
    · rw [List.foldl_cons, addNew, if_neg hmem]
      refine ih ?_ hmore ?_
      · refine List.pairwise_append.mpr ⟨h, by simp, ?_⟩
        intro x hx y hy
        rw [List.mem_singleton.mp hy]
        exact hnew x hx id List.mem_cons_self hmem
      · intro x hx y hy hyn
        rcases List.mem_append.mp hx with hx | hx
        · exact hnew x hx y (List.mem_cons_of_mem _ hy) fun hin => hyn (List.mem_append_left _ hin)
        · rw [List.mem_singleton.mp hx]
          exact hid y hy

variable {α : Type} {f : α → List DefinitionId} {as : List α}

theorem nodup_foldl_union (h : ids.Nodup) :
    (as.foldl (fun acc x => union acc (f x)) ids).Nodup := by
  induction as generalizing ids with
  | nil => exact h
  | cons x as ih => exact ih (nodup_union h)

/-- Lists each of which is in order make a list that is, if none of them has anything behind what
another one puts in front of it. -/
theorem pairwise_foldl_union {R : DefinitionId → DefinitionId → Prop}
    (hnil : ids.Pairwise R) (h : ∀ x ∈ as, (f x).Pairwise R)
    (hids : ∀ x ∈ as, ∀ a ∈ ids, ∀ b ∈ f x, b ∉ ids → R a b)
    (hnew : ∀ x ∈ as, ∀ y ∈ as, ∀ a ∈ f x, ∀ b ∈ f y, b ∉ f x → R a b) :
    (as.foldl (fun acc x => union acc (f x)) ids).Pairwise R := by
  induction as generalizing ids with
  | nil => exact hnil
  | cons x as ih =>
    refine ih ?_ (fun y hy => h y (List.mem_cons_of_mem _ hy)) ?_ fun y hy z hz =>
      hnew y (List.mem_cons_of_mem _ hy) z (List.mem_cons_of_mem _ hz)
    · exact pairwise_union hnil (h x List.mem_cons_self) (hids x List.mem_cons_self)
    · intro y hy a ha b hb hbn
      rw [mem_union, not_or] at hbn
      rcases mem_union.mp ha with ha | ha
      · exact hids y (List.mem_cons_of_mem _ hy) a ha b hb hbn.1
      · exact hnew x List.mem_cons_self y (List.mem_cons_of_mem _ hy) a ha b hb hbn.2

end Union

section Owners

variable {methods : Dict String MethodSlot} {slot incoming : MethodSlot} {name : String}
variable {parents : List Table} {a : DefinitionId}

def ownersOf (methods : Dict String MethodSlot) (name : String) : List DefinitionId :=
  ((methods.get? name).map MethodSlot.owners).getD []

theorem ownersOf_eq (h : methods.get? name = some slot) : ownersOf methods name = slot.owners := by
  simp [ownersOf, h]

/-- A slot is never empty. -/
theorem get?_eq_none_iff_ownersOf : methods.get? name = none ↔ ownersOf methods name = [] := by
  cases h : methods.get? name with
  | none => simp [ownersOf, h]
  | some slot =>
    have hpos : slot.implementations ≠ [] :=
      List.ne_nil_of_length_pos (Nat.lt_of_le_of_lt (Nat.zero_le _) slot.inRange)
    simpa [ownersOf, h, MethodSlot.owners] using hpos

theorem owners_addContribution (ms : List Implementation) (m : Implementation) :
    (addContribution ms m).map Implementation.owner = addNew (ms.map Implementation.owner) m.owner := by
  unfold addContribution addNew
  by_cases h : ∃ n ∈ ms, n.owner = m.owner
  · have hany : (ms.any fun n => n.owner = m.owner) = true := by simpa using h
    rw [if_pos hany, if_pos (by simpa using h)]
  · have hany : ¬ (ms.any fun n => n.owner = m.owner) = true := by simpa using h
    rw [if_neg hany, if_neg (by simpa using h), List.map_append, List.map_singleton]

theorem owners_joinSlot (slot incoming : MethodSlot) :
    (joinSlot slot incoming).owners = union slot.owners incoming.owners := by
  have h : ∀ more ms : List Implementation,
      (more.foldl addContribution ms).map Implementation.owner =
        union (ms.map Implementation.owner) (more.map Implementation.owner) := by
    intro more
    induction more with
    | nil => exact fun _ => rfl
    | cons m more ih =>
      intro ms
      rw [List.foldl_cons, ih, owners_addContribution]
      rfl
  exact h incoming.implementations slot.implementations

theorem owners_adoptSlot (slot : MethodSlot) : (adoptSlot slot).owners = slot.owners :=
  congrArg (List.map Implementation.owner) (adoptSlot_implementations slot)

theorem ownersOf_mergeTable (methods : Dict String MethodSlot) {p : Table}
    (hp : (ownersOf p.methods name).Nodup) :
    ownersOf (p.methods.toList.foldl mergeMethod methods) name =
      union (ownersOf methods name) (ownersOf p.methods name) := by
  have hget := get?_mergeTable methods p name
  cases hi : p.methods.get? name with
  | none => simp [ownersOf, hget, hi, union]
  | some incoming =>
    rw [ownersOf_eq hi] at hp ⊢
    rw [hi, Option.map_some, Option.some_or] at hget
    rw [ownersOf_eq hget]
    cases hh : methods.get? name with
    | none => rw [mergedSlot, owners_adoptSlot, get?_eq_none_iff_ownersOf.mp hh, union_nil hp]
    | some held => rw [mergedSlot, owners_joinSlot, ownersOf_eq hh]

theorem ownersOf_inheritedMethods (h : ∀ p ∈ parents, (ownersOf p.methods name).Nodup) :
    ownersOf (inheritedMethods parents) name =
      parents.foldl (fun acc p => union acc (ownersOf p.methods name)) [] := by
  suffices hg : ∀ methods : Dict String MethodSlot,
      ownersOf (parents.foldl (fun ms p => p.methods.toList.foldl mergeMethod ms) methods) name =
        parents.foldl (fun acc p => union acc (ownersOf p.methods name)) (ownersOf methods name) by
    exact hg .empty
  induction parents with
  | nil => exact fun _ => rfl
  | cons p parents ih =>
    intro methods
    rw [List.foldl_cons, ih fun q hq => h q (List.mem_cons_of_mem _ hq),
      ownersOf_mergeTable methods (h p List.mem_cons_self)]
    rfl

end Owners

section Default

variable {slot : MethodSlot} {name : String} {parents : List Table}

theorem implementations_get?_default (slot : MethodSlot) :
    slot.implementations[slot.default]? = some slot.defaultImpl :=
  List.getElem?_eq_getElem slot.inRange

theorem prefix_foldl_addContribution (ms more : List Implementation) :
    ms <+: more.foldl addContribution ms := by
  induction more generalizing ms with
  | nil => exact List.prefix_rfl
  | cons m more ih =>
    refine List.IsPrefix.trans ?_ (ih _)
    unfold addContribution
    split
    · exact List.prefix_rfl
    · exact List.prefix_append _ _

theorem defaultImpl_joinSlot (slot incoming : MethodSlot) :
    (joinSlot slot incoming).defaultImpl = slot.defaultImpl := by
  obtain ⟨rest, hrest⟩ :=
    prefix_foldl_addContribution slot.implementations incoming.implementations
  have hjoined := implementations_get?_default (joinSlot slot incoming)
  have hkept : (joinSlot slot incoming).implementations[slot.default]? = some slot.defaultImpl := by
    have happended : (slot.implementations ++ rest)[slot.default]? = some slot.defaultImpl :=
      (List.getElem?_append_left slot.inRange).trans (implementations_get?_default slot)
    rwa [hrest] at happended
  exact Option.some.inj (hjoined.symm.trans hkept)

/-- Where no owner contributes twice, the first implementation of the default's owner is the
default. -/
theorem defaultImpl_adoptSlot (h : slot.owners.Nodup) :
    (adoptSlot slot).defaultImpl = slot.defaultImpl := by
  have hfirst : (slot.implementations.findIdx? fun m => m.owner = slot.defaultImpl.owner) =
      some slot.default := by
    refine List.findIdx?_eq_some_iff_getElem.mpr ⟨slot.inRange, by simp [MethodSlot.defaultImpl], ?_⟩
    intro j hj
    have hne := List.pairwise_iff_getElem.mp (List.pairwise_map.mp h) j slot.default
      (Nat.lt_trans hj slot.inRange) slot.inRange hj
    exact fun heq => hne (of_decide_eq_true heq)
  have heq : adoptSlot slot = slot := by
    simp only [adoptSlot, hfirst, Option.getD_some, slot.inRange, dite_true]
  rw [heq]

theorem defaultImpl_localSlot (held : Option MethodSlot) (m : Implementation) :
    (localSlot held m).defaultImpl = m := by
  simp [localSlot, MethodSlot.defaultImpl]

theorem default_inheritedMethods (h : ∀ p ∈ parents, (ownersOf p.methods name).Nodup) :
    ((inheritedMethods parents).get? name).map MethodSlot.defaultImpl =
      parents.findSome? fun p => p.method? name := by
  suffices hg : ∀ methods : Dict String MethodSlot,
      ((parents.foldl (fun ms p => p.methods.toList.foldl mergeMethod ms) methods).get? name).map
          MethodSlot.defaultImpl =
        ((methods.get? name).map MethodSlot.defaultImpl).or
          (parents.findSome? fun p => p.method? name) by
    exact hg .empty
  induction parents with
  | nil => simp
  | cons p parents ih =>
    intro methods
    have hp := h p List.mem_cons_self
    rw [List.foldl_cons, ih fun q hq => h q (List.mem_cons_of_mem _ hq), get?_mergeTable,
      List.findSome?_cons, Table.method?]
    cases hi : p.methods.get? name with
    | none => simp
    | some incoming =>
      cases hh : methods.get? name with
      | none => simp [mergedSlot, defaultImpl_adoptSlot (ownersOf_eq hi ▸ hp)]
      | some held => simp [mergedSlot, defaultImpl_joinSlot]

end Default

end Link

open Link

variable {stamp : Nat} {d : Definition} {parents : List Table} {policy : AmbiguityPolicy} {t : Table}

theorem ownersOf_link (h : link stamp d parents policy = .ok t) (name : String) :
    ownersOf t.methods name = ownersOf (inheritedMethods parents) name ++
      if d.methods.contains name then [d.id] else [] := by
  rcases get?_methods_of_link h name with ⟨hd, heq⟩ | ⟨decl, m, hd, hm, heq⟩
  · simp [ownersOf, heq, Dict.contains, hd]
  · obtain ⟨calls, -, rfl⟩ := linkMethod_eq_ok.mp hm
    rw [ownersOf_eq heq]
    cases hi : (inheritedMethods parents).get? name with
    | none => simp [ownersOf, hi, Dict.contains, hd, localSlot, MethodSlot.owners,
        Implementation.owner]
    | some inherited => simp [ownersOf, hi, Dict.contains, hd, localSlot, MethodSlot.owners,
        Implementation.owner]

theorem method?_link (h : link stamp d parents policy = .ok t) (name : String)
    (hp : ∀ p ∈ parents, (ownersOf p.methods name).Nodup) :
    (d.methods.get? name = none ∧ t.method? name = parents.findSome? fun p => p.method? name) ∨
      ∃ decl m, d.methods.get? name = some decl ∧
        linkMethod stamp d.id parents policy (name, decl) = .ok m ∧ t.method? name = some m := by
  rcases get?_methods_of_link h name with ⟨hd, heq⟩ | ⟨decl, m, hd, hm, heq⟩
  · exact .inl ⟨hd, by rw [Table.method?, heq, default_inheritedMethods hp]⟩
  · exact .inr ⟨decl, m, hd, hm, by rw [Table.method?, heq, Option.map_some,
      defaultImpl_localSlot]⟩

end Mudlib
