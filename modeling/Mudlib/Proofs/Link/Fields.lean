import Mudlib.Proofs.Link.Calls
set_option autoImplicit false

namespace Mudlib

namespace Link

variable {definition : DefinitionId} {fields fields' fields'' : Dict String FieldSlot}
variable {entries more : List (String × FieldSlot)} {name : String} {slot : FieldSlot}
variable {e : ResolveError}

structure Merged (entries : List (String × FieldSlot)) (fields fields' : Dict String FieldSlot) :
    Prop where
  keeps : ∀ {name slot}, fields.get? name = some slot → fields'.get? name = some slot
  covers : ∀ entry ∈ entries, ∃ first, fields'.get? entry.1 = some first ∧
    first.owner = entry.2.owner
  found : ∀ {name slot}, fields'.get? name = some slot →
    fields.get? name = some slot ∨ (name, slot) ∈ entries

namespace Merged

theorem nil (fields : Dict String FieldSlot) : Merged [] fields fields :=
  ⟨id, fun _ h => (nomatch h), .inl⟩

theorem append (h : Merged entries fields fields') (h' : Merged more fields' fields'') :
    Merged (entries ++ more) fields fields'' where
  keeps := fun hs => h'.keeps (h.keeps hs)
  covers := by
    intro entry hentry
    rcases List.mem_append.mp hentry with hentry | hentry
    · obtain ⟨first, hfirst, howner⟩ := h.covers entry hentry
      exact ⟨first, h'.keeps hfirst, howner⟩
    · exact h'.covers entry hentry
  found := by
    intro name slot hs
    rcases h'.found hs with hs | hs
    · exact (h.found hs).imp_right (List.mem_append_left _)
    · exact .inr (List.mem_append_right _ hs)

end Merged

theorem merged_mergeField (h : mergeField definition fields (name, slot) = .ok fields') :
    Merged [(name, slot)] fields fields' := by
  unfold mergeField at h
  split at h
  next hnone =>
    cases h
    constructor
    · intro k v hk
      rw [Dict.get?_insert_of_ne]
      · exact hk
      · rintro rfl
        rw [hnone] at hk
        cases hk
    · intro entry hentry
      rw [List.mem_singleton.mp hentry]
      exact ⟨slot, Dict.get?_insert_self _ _ _, rfl⟩
    · intro k v hk
      rw [Dict.get?_insert] at hk
      split at hk
      next heq =>
        cases hk
        rw [heq]
        exact .inr List.mem_cons_self
      next => exact .inl hk
  next first hfirst =>
    split at h
    next howner =>
      cases h
      refine ⟨id, ?_, .inl⟩
      intro entry hentry
      rw [List.mem_singleton.mp hentry]
      exact ⟨first, hfirst, howner⟩
    next => cases h

theorem mergeField_eq_error (h : mergeField definition fields (name, slot) = .error e) :
    ∃ first, fields.get? name = some first ∧ first.owner ≠ slot.owner ∧
      e = .fieldConflict definition name first.owner slot.owner := by
  unfold mergeField at h
  split at h
  · cases h
  next first hfirst =>
    split at h
    · cases h
    next hne =>
      cases h
      exact ⟨first, hfirst, hne, rfl⟩

theorem merged_foldlM (h : entries.foldlM (mergeField definition) fields = .ok fields') :
    Merged entries fields fields' := by
  induction entries generalizing fields with
  | nil =>
    cases h
    exact .nil _
  | cons entry entries ih =>
    rw [List.foldlM_cons] at h
    obtain ⟨middle, hone, hrest⟩ := bind_eq_ok.mp h
    exact (merged_mergeField hone).append (ih hrest)

theorem foldlM_mergeField_eq_error
    (h : entries.foldlM (mergeField definition) fields = .error e) :
    ∃ name first second, (fields.get? name = some first ∨ (name, first) ∈ entries) ∧
      (name, second) ∈ entries ∧ first.owner ≠ second.owner ∧
      e = .fieldConflict definition name first.owner second.owner := by
  induction entries generalizing fields with
  | nil => cases h
  | cons entry entries ih =>
    obtain ⟨name, slot⟩ := entry
    rw [List.foldlM_cons] at h
    rcases bind_eq_error.mp h with hone | ⟨middle, hone, hrest⟩
    · obtain ⟨first, hfirst, hne, he⟩ := mergeField_eq_error hone
      exact ⟨name, first, slot, .inl hfirst, List.mem_cons_self, hne, he⟩
    · obtain ⟨k, first, second, hfirst, hsecond, hne, he⟩ := ih hrest
      refine ⟨k, first, second, ?_, List.mem_cons_of_mem _ hsecond, hne, he⟩
      rcases hfirst with hfirst | hfirst
      · refine ((merged_mergeField hone).found hfirst).imp_right fun hin => ?_
        rw [List.mem_singleton.mp hin]
        exact List.mem_cons_self
      · exact .inr (List.mem_cons_of_mem _ hfirst)

theorem inheritedFields_eq (definition : DefinitionId) (parents : List Table) :
    inheritedFields definition parents =
      (parents.flatMap fun p => p.fields.toList).foldlM (mergeField definition) .empty := by
  unfold inheritedFields
  generalize (Dict.empty : Dict String FieldSlot) = fields
  induction parents generalizing fields with
  | nil => rfl
  | cons p parents ih =>
    rw [List.foldlM_cons, List.flatMap_cons, List.foldlM_append]
    exact congrArg _ (funext ih)

variable {locals : List (String × FieldDecl)}

theorem addLocalField_eq_ok {decl : FieldDecl}
    (h : addLocalField definition fields (name, decl) = .ok fields') :
    fields.get? name = none ∧ fields' = fields.insert name ⟨definition, decl.type, decl.default⟩ := by
  unfold addLocalField at h
  split at h
  · cases h
  next hnone =>
    cases h
    exact ⟨hnone, rfl⟩

theorem get?_foldlM_addLocalField (hn : (locals.map Prod.fst).Nodup)
    (h : locals.foldlM (addLocalField definition) fields = .ok fields') (name : String) :
    (Assoc.get? name locals = none ∧ fields'.get? name = fields.get? name) ∨
      ∃ decl, Assoc.get? name locals = some decl ∧ fields.get? name = none ∧
        fields'.get? name = some ⟨definition, decl.type, decl.default⟩ := by
  induction locals generalizing fields with
  | nil =>
    cases h
    exact .inl ⟨rfl, rfl⟩
  | cons entry locals ih =>
    obtain ⟨key, decl⟩ := entry
    obtain ⟨hkey, hn⟩ := List.nodup_cons.mp hn
    rw [List.foldlM_cons] at h
    obtain ⟨middle, hone, hrest⟩ := bind_eq_ok.mp h
    obtain ⟨hnone, rfl⟩ := addLocalField_eq_ok hone
    have hrest := ih hn hrest
    by_cases hname : name = key
    · subst hname
      have habsent : Assoc.get? name locals = none := by
        cases hg : Assoc.get? name locals with
        | none => rfl
        | some v => exact absurd (List.mem_map_of_mem (f := Prod.fst) (Assoc.mem_of_get? hg)) hkey
      rw [habsent, Dict.get?_insert_self] at hrest
      rcases hrest with ⟨-, heq⟩ | ⟨decl', hc, -⟩
      · exact .inr ⟨decl, by simp [Assoc.get?], hnone, heq⟩
      · cases hc
    · simpa [Assoc.get?, hname, Dict.get?_insert_of_ne _ _ hname] using hrest

theorem mem_parentFields {parents : List Table} :
    (name, slot) ∈ (parents.flatMap fun p => p.fields.toList) ↔
      ∃ p ∈ parents, p.fields.get? name = some slot := by
  simp only [List.mem_flatMap, Dict.mem_toList_iff]

end Link

open Link

section Linking

variable {stamp : Nat} {d : Definition} {parents : List Table} {policy : AmbiguityPolicy} {t : Table}
variable {name : String} {slot : FieldSlot}

/-- A field of a linked table is the definition's own, or all parents that have one by this name have
it from one owner, and it is that of one of them. -/
theorem get?_fields_of_link (h : link stamp d parents policy = .ok t) (name : String) :
    (∃ decl, d.fields.get? name = some decl ∧
      t.fields.get? name = some ⟨d.id, decl.type, decl.default⟩) ∨
    d.fields.get? name = none ∧
      (∀ slot, t.fields.get? name = some slot → ∃ p ∈ parents, p.fields.get? name = some slot) ∧
      ∀ p ∈ parents, ∀ slot, p.fields.get? name = some slot →
        ∃ first, t.fields.get? name = some first ∧ first.owner = slot.owner := by
  obtain ⟨inherited, fields, _, hi, hf, _, rfl⟩ := link_eq_ok.mp h
  rw [inheritedFields_eq] at hi
  have hmerged := merged_foldlM hi
  rcases get?_foldlM_addLocalField d.fields.nodup_keys hf name with ⟨hnone, heq⟩ | ⟨decl, hd, -, heq⟩
  · refine .inr ⟨hnone, ?_, ?_⟩
    · intro slot hs
      rw [heq] at hs
      rcases hmerged.found hs with hs | hs
      · cases hs
      · exact mem_parentFields.mp hs
    · intro p hp slot hs
      obtain ⟨first, hfirst, howner⟩ := hmerged.covers _ (mem_parentFields.mpr ⟨p, hp, hs⟩)
      exact ⟨first, heq.trans hfirst, howner⟩
  · exact .inl ⟨decl, hd, heq⟩

theorem not_inherited_of_link (h : link stamp d parents policy = .ok t) {decl : FieldDecl}
    (hd : d.fields.get? name = some decl) {p : Table} (hp : p ∈ parents) :
    p.fields.get? name = none := by
  obtain ⟨inherited, fields, _, hi, hf, _, rfl⟩ := link_eq_ok.mp h
  rw [inheritedFields_eq] at hi
  cases hs : p.fields.get? name with
  | none => rfl
  | some slot =>
    obtain ⟨first, hfirst, -⟩ := (merged_foldlM hi).covers _ (mem_parentFields.mpr ⟨p, hp, hs⟩)
    rcases get?_foldlM_addLocalField d.fields.nodup_keys hf name with ⟨hnone, -⟩ | ⟨_, -, hnone, -⟩
    · exact absurd (hnone.symm.trans hd) (by simp)
    · exact absurd (hnone.symm.trans hfirst) (by simp)

end Linking

end Mudlib
