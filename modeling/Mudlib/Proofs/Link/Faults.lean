import Mudlib.Proofs.FirstFailure
import Mudlib.Proofs.Link.Fields
/-!
The one fault that a linking is refused for, out of all that there may be.

Linking has three stages, and it remembers of the parents that it has been through only the fields
gathered so far. What it complains of can be said all the same from the parents and the definition
alone: a clash of two parents, if there is one, else a local field that shadows an inherited one, else
a call without a target, and of several of these the first.
-/
set_option autoImplicit false

namespace Mudlib

def ResolveError.clash? : ResolveError → Option (String × DefinitionId × DefinitionId)
  | .fieldConflict _ field first second => some (field, first, second)
  | .shadowConflict definition field ancestor => some (field, ancestor, definition)
  | _ => none

namespace Link

variable {definition : DefinitionId} {d : Definition} {parents before : List Table} {p q : Table}
variable {policy : AmbiguityPolicy} {e : ResolveError} {name : String} {a b : DefinitionId}
variable {fields fields' : Dict String FieldSlot} {slot : FieldSlot} {stamp : Nat}

def firstSlot? (parents : List Table) (name : String) : Option FieldSlot :=
  parents.findSome? fun p => p.fields.get? name

def ClashOn (p q : Table) (name : String) : Prop :=
  ∃ first second, p.fields.get? name = some first ∧ q.fields.get? name = some second ∧
    first.owner ≠ second.owner

def FieldsAgree (parents : List Table) : Prop :=
  ∀ p ∈ parents, ∀ q ∈ parents, ∀ name, ¬ ClashOn p q name

/-- The first parent that clashes with an earlier one does so on this name and on no lesser one. The
first parent that has the field at all has it from `first`, the clashing one from `second`. -/
def FirstClash (parents : List Table) (name : String) (first second : DefinitionId) : Prop :=
  ∃ before q after, parents = before ++ q :: after ∧ FieldsAgree before ∧
    (∃ p ∈ before, ClashOn p q name) ∧ (∀ n < name, ∀ p ∈ before, ¬ ClashOn p q n) ∧
    (firstSlot? before name).map FieldSlot.owner = some first ∧
    (q.fields.get? name).map FieldSlot.owner = some second

def Shadows (d : Definition) (parents : List Table) (name : String) : Prop :=
  d.fields.contains name = true ∧ ∃ p ∈ parents, p.fields.contains name = true

def LeastShadow (d : Definition) (parents : List Table) (name : String) (a : DefinitionId) : Prop :=
  Shadows d parents name ∧ (∀ n < name, ¬ Shadows d parents n) ∧
    (firstSlot? parents name).map FieldSlot.owner = some a

def callsOf (d : Definition) : List QualifiedCall := d.methods.toList.flatMap fun m => m.2.calls

def FirstRefused (d : Definition) (parents : List Table) (policy : AmbiguityPolicy)
    (e : ResolveError) : Prop :=
  ∃ before call after, callsOf d = before ++ call :: after ∧
    (∀ c ∈ before, ∀ e, ¬ Refused d.id c parents policy e) ∧ Refused d.id call parents policy e

inductive Fault (d : Definition) (parents : List Table) (policy : AmbiguityPolicy) :
    ResolveError → Prop where
  | conflict {name : String} {first second : DefinitionId} : FirstClash parents name first second →
      Fault d parents policy (.fieldConflict d.id name first second)
  | shadow {name : String} {a : DefinitionId} : FieldsAgree parents →
      LeastShadow d parents name a → Fault d parents policy (.shadowConflict d.id name a)
  | call {e : ResolveError} : FieldsAgree parents → (∀ name, ¬ Shadows d parents name) →
      FirstRefused d parents policy e → Fault d parents policy e

section Inherited

theorem firstSlot?_eq_some (h : firstSlot? parents name = some slot) :
    ∃ p ∈ parents, p.fields.get? name = some slot :=
  List.exists_of_findSome?_eq_some h

theorem exists_firstSlot? (hp : p ∈ parents) (hs : p.fields.get? name = some slot) :
    ∃ first, firstSlot? parents name = some first := by
  rw [← Option.isSome_iff_exists, firstSlot?, List.findSome?_isSome_iff]
  exact ⟨p, hp, by rw [hs, Option.isSome_some]⟩

theorem FieldsAgree.owner_eq (h : FieldsAgree parents) {first : FieldSlot}
    (hfirst : firstSlot? parents name = some first) (hp : p ∈ parents)
    (hs : p.fields.get? name = some slot) : first.owner = slot.owner := by
  obtain ⟨q, hq, hqs⟩ := firstSlot?_eq_some hfirst
  by_contra hne
  exact h q hq p hp name ⟨first, slot, hqs, hs, hne⟩

theorem FieldsAgree.clashOn_iff (h : FieldsAgree before) :
    (∃ p ∈ before, ClashOn p q name) ↔ ∃ first second, firstSlot? before name = some first ∧
      q.fields.get? name = some second ∧ first.owner ≠ second.owner := by
  constructor
  · intro hclash
    obtain ⟨p, hp, first, second, hfirst, hsecond, hne⟩ := hclash
    obtain ⟨slot, hslot⟩ := exists_firstSlot? hp hfirst
    exact ⟨slot, second, hslot, hsecond, h.owner_eq hslot hp hfirst ▸ hne⟩
  · intro hclash
    obtain ⟨first, second, hfirst, hsecond, hne⟩ := hclash
    obtain ⟨p, hp, hps⟩ := firstSlot?_eq_some hfirst
    exact ⟨p, hp, first, second, hps, hsecond, hne⟩

def mergeFault? (definition : DefinitionId) (held : Option FieldSlot)
    (inherited : String × FieldSlot) : Option ResolveError :=
  held.bind fun first =>
    if first.owner = inherited.2.owner then none
    else some (.fieldConflict definition inherited.1 first.owner inherited.2.owner)

theorem mergeField_eq_error_iff {inherited : String × FieldSlot} :
    mergeField definition fields inherited = .error e ↔
      mergeFault? definition (fields.get? inherited.1) inherited = some e := by
  unfold mergeField mergeFault?
  cases fields.get? inherited.1 with
  | none => simp
  | some first =>
    simp only [Option.bind_some]
    split <;> simp

theorem mergeFault?_eq_some_iff {held : Option FieldSlot} :
    mergeFault? definition held (name, slot) = some e ↔ ∃ first, held = some first ∧
      first.owner ≠ slot.owner ∧ e = .fieldConflict definition name first.owner slot.owner := by
  cases held with
  | none => simp [mergeFault?]
  | some first => simp [mergeFault?, eq_comm]

theorem get?_mergeField (h : mergeField definition fields (name, slot) = .ok fields') (k : String) :
    fields'.get? k = (fields.get? k).or (if k = name then some slot else none) := by
  unfold mergeField at h
  split at h
  next hnone =>
    cases h
    rw [Dict.get?_insert]
    split
    next heq => rw [heq, hnone, Option.none_or]
    next => rw [Option.or_none]
  next first hfirst =>
    split at h
    next =>
      cases h
      split
      next heq => rw [heq, hfirst, Option.some_or]
      next => rw [Option.or_none]
    next => cases h

theorem get?_foldlM_mergeField {entries : List (String × FieldSlot)}
    (h : entries.foldlM (mergeField definition) fields = .ok fields') (k : String) :
    fields'.get? k = (fields.get? k).or (Assoc.get? k entries) := by
  induction entries generalizing fields with
  | nil =>
    cases h
    rw [Assoc.get?, Option.or_none]
  | cons entry entries ih =>
    obtain ⟨name, slot⟩ := entry
    rw [List.foldlM_cons] at h
    obtain ⟨middle, hone, hrest⟩ := bind_eq_ok.mp h
    rw [ih hrest, get?_mergeField hone, Option.or_assoc, Assoc.get?]
    split <;> simp

theorem get?_inheritedFields (h : inheritedFields definition parents = .ok fields) (name : String) :
    fields.get? name = firstSlot? parents name := by
  suffices hg : ∀ start, parents.foldlM (fun fields p =>
      p.fields.toList.foldlM (mergeField definition) fields) start = .ok fields →
        fields.get? name = (start.get? name).or (firstSlot? parents name) by
    simpa using hg .empty h
  clear h
  induction parents with
  | nil =>
    intro start h
    cases h
    exact Option.or_none.symm
  | cons p parents ih =>
    intro start h
    rw [List.foldlM_cons] at h
    obtain ⟨middle, hone, hrest⟩ := bind_eq_ok.mp h
    rw [ih middle hrest, get?_foldlM_mergeField hone, Option.or_assoc, firstSlot?, firstSlot?,
      List.findSome?_cons]
    change ((start.get? name).or ((p.fields.get? name).or _)) = _
    cases p.fields.get? name <;> rfl

theorem inheritedFields_eq_ok_iff (definition : DefinitionId) :
    (∃ fields, inheritedFields definition parents = .ok fields) ↔ FieldsAgree parents := by
  rw [inheritedFields_eq]
  constructor
  · intro hok p hp q hq name hclash
    obtain ⟨fields, hok⟩ := hok
    obtain ⟨a, b, ha, hb, hne⟩ := hclash
    have hmerged := merged_foldlM hok
    obtain ⟨slot, hslot, howner⟩ := hmerged.covers _ (mem_parentFields.mpr ⟨p, hp, ha⟩)
    obtain ⟨slot', hslot', howner'⟩ := hmerged.covers _ (mem_parentFields.mpr ⟨q, hq, hb⟩)
    obtain rfl := Option.some.inj (hslot.symm.trans hslot')
    exact hne (howner.symm.trans howner')
  · intro hagree
    refine exists_ok_iff.mpr fun e he => ?_
    obtain ⟨name, first, second, hfirst, hsecond, hne, -⟩ := foldlM_mergeField_eq_error he
    obtain ⟨p, hp, hp'⟩ := mem_parentFields.mp (hfirst.resolve_left (by simp))
    obtain ⟨q, hq, hq'⟩ := mem_parentFields.mp hsecond
    exact hagree p hp q hq name ⟨first, second, hp', hq', hne⟩

theorem foldlM_mergeField_eq_error_iff :
    q.fields.toList.foldlM (mergeField definition) fields = .error e ↔
      ∃ name second, q.fields.get? name = some second ∧
        mergeFault? definition (fields.get? name) (name, second) = some e ∧
        ∀ n slot, q.fields.get? n = some slot →
          mergeFault? definition (fields.get? n) (n, slot) ≠ none → ¬ n < name := by
  refine Dict.foldlM_toList_eq_error_iff (fun _ _ _ => mergeField_eq_error_iff) ?_
  intro fields entry fields' h k hk
  rw [get?_mergeField h, if_neg hk, Option.or_none]

theorem inheritedFields_eq_error_iff :
    inheritedFields definition parents = .error e ↔ ∃ name first second,
      FirstClash parents name first second ∧ e = .fieldConflict definition name first second := by
  rw [inheritedFields, foldlM_eq_error]
  constructor
  · intro h
    obtain ⟨before, q, after, fields, rfl, hbefore, hq⟩ := h
    have hagree : FieldsAgree before := (inheritedFields_eq_ok_iff _).mp ⟨fields, hbefore⟩
    obtain ⟨name, second, hsecond, hfault, hleast⟩ := foldlM_mergeField_eq_error_iff.mp hq
    simp only [get?_inheritedFields hbefore] at hfault hleast
    obtain ⟨first, hfirst, hne, rfl⟩ := mergeFault?_eq_some_iff.mp hfault
    refine ⟨name, first.owner, second.owner, ⟨before, q, after, rfl, hagree, ?_, ?_, ?_, ?_⟩, rfl⟩
    · exact hagree.clashOn_iff.mpr ⟨first, second, hfirst, hsecond, hne⟩
    · intro n hn p hp hclash
      obtain ⟨slot, slot', hslot, hslot', hapart⟩ := hagree.clashOn_iff.mp ⟨p, hp, hclash⟩
      refine hleast n slot' hslot' ?_ hn
      rw [mergeFault?_eq_some_iff.mpr ⟨slot, hslot, hapart, rfl⟩]
      exact Option.some_ne_none _
    · rw [hfirst, Option.map_some]
    · rw [hsecond, Option.map_some]
  · intro h
    obtain ⟨name, a, b, ⟨before, q, after, rfl, hagree, hclash, hleast, ha, hb⟩, rfl⟩ := h
    obtain ⟨fields, hbefore⟩ := (inheritedFields_eq_ok_iff definition).mpr hagree
    refine ⟨before, q, after, fields, rfl, hbefore, foldlM_mergeField_eq_error_iff.mpr ?_⟩
    simp only [get?_inheritedFields hbefore]
    obtain ⟨first, second, hfirst, hsecond, hne⟩ := hagree.clashOn_iff.mp hclash
    rw [hfirst, Option.map_some] at ha
    rw [hsecond, Option.map_some] at hb
    obtain rfl := Option.some.inj ha
    obtain rfl := Option.some.inj hb
    refine ⟨name, second, hsecond, mergeFault?_eq_some_iff.mpr ⟨first, hfirst, hne, rfl⟩, ?_⟩
    intro n slot hslot hfault hn
    obtain ⟨e, he⟩ := Option.ne_none_iff_exists'.mp hfault
    obtain ⟨slot', hslot', hapart, -⟩ := mergeFault?_eq_some_iff.mp he
    obtain ⟨p, hp, hclash⟩ := hagree.clashOn_iff.mpr ⟨slot', slot, hslot', hslot, hapart⟩
    exact hleast n hn p hp hclash

theorem not_fieldsAgree_iff : ¬ FieldsAgree parents ↔ ∃ p ∈ parents, ∃ q ∈ parents, ∃ name,
    ClashOn p q name := by
  simp [FieldsAgree]

theorem not_fieldsAgree_iff_firstClash :
    ¬ FieldsAgree parents ↔ ∃ name first second, FirstClash parents name first second := by
  rw [← inheritedFields_eq_ok_iff ⟨"/a", by decide⟩, exists_ok_iff]
  simp [inheritedFields_eq_error_iff]

end Inherited

section Locals

def shadowFault? (definition : DefinitionId) (held : Option FieldSlot)
    (local_ : String × FieldDecl) : Option ResolveError :=
  held.map fun existing => .shadowConflict definition local_.1 existing.owner

theorem addLocalField_eq_error_iff {local_ : String × FieldDecl} :
    addLocalField definition fields local_ = .error e ↔
      shadowFault? definition (fields.get? local_.1) local_ = some e := by
  unfold addLocalField shadowFault?
  cases fields.get? local_.1 <;> simp

theorem foldlM_addLocalField_eq_error_iff :
    d.fields.toList.foldlM (addLocalField definition) fields = .error e ↔
      ∃ name decl, d.fields.get? name = some decl ∧
        shadowFault? definition (fields.get? name) (name, decl) = some e ∧
        ∀ n other, d.fields.get? n = some other →
          shadowFault? definition (fields.get? n) (n, other) ≠ none → ¬ n < name := by
  refine Dict.foldlM_toList_eq_error_iff (fun _ _ _ => addLocalField_eq_error_iff) ?_
  intro fields entry fields' h k hk
  obtain ⟨-, rfl⟩ := addLocalField_eq_ok h
  exact Dict.get?_insert_of_ne _ _ hk

theorem shadows_iff : Shadows d parents name ↔
    ∃ decl first, d.fields.get? name = some decl ∧ firstSlot? parents name = some first := by
  constructor
  · intro h
    obtain ⟨hlocal, p, hp, hinherited⟩ := h
    obtain ⟨decl, hdecl⟩ := (Dict.contains_iff _ _).mp hlocal
    obtain ⟨slot, hslot⟩ := (Dict.contains_iff _ _).mp hinherited
    obtain ⟨first, hfirst⟩ := exists_firstSlot? hp hslot
    exact ⟨decl, first, hdecl, hfirst⟩
  · intro h
    obtain ⟨decl, first, hdecl, hfirst⟩ := h
    obtain ⟨p, hp, hslot⟩ := firstSlot?_eq_some hfirst
    exact ⟨(Dict.contains_iff _ _).mpr ⟨decl, hdecl⟩, p, hp,
      (Dict.contains_iff _ _).mpr ⟨first, hslot⟩⟩

theorem addLocalFields_eq_error_iff (h : inheritedFields definition parents = .ok fields) :
    d.fields.toList.foldlM (addLocalField definition) fields = .error e ↔
      ∃ name a, LeastShadow d parents name a ∧ e = .shadowConflict definition name a := by
  rw [foldlM_addLocalField_eq_error_iff]
  simp only [get?_inheritedFields h, shadowFault?, Option.map_eq_some_iff, ne_eq,
    Option.map_eq_none_iff]
  constructor
  · intro hfault
    obtain ⟨name, decl, hdecl, ⟨first, hfirst, rfl⟩, hleast⟩ := hfault
    refine ⟨name, first.owner, ⟨shadows_iff.mpr ⟨decl, first, hdecl, hfirst⟩, ?_, ?_⟩, rfl⟩
    · intro n hn hshadows
      obtain ⟨other, slot, hother, hslot⟩ := shadows_iff.mp hshadows
      exact hleast n other hother (by simp [hslot]) hn
    · rw [hfirst, Option.map_some]
  · intro hleast
    obtain ⟨name, a, ⟨hshadows, hleast, ha⟩, rfl⟩ := hleast
    obtain ⟨decl, first, hdecl, hfirst⟩ := shadows_iff.mp hshadows
    rw [hfirst, Option.map_some] at ha
    obtain rfl := Option.some.inj ha
    refine ⟨name, decl, hdecl, ⟨first, hfirst, rfl⟩, ?_⟩
    intro n other hother hinherited hn
    obtain ⟨slot, hslot⟩ := Option.ne_none_iff_exists'.mp hinherited
    exact hleast n hn (shadows_iff.mpr ⟨other, slot, hother, hslot⟩)

theorem addLocalFields_eq_ok_iff (h : inheritedFields definition parents = .ok fields) :
    (∃ fields', d.fields.toList.foldlM (addLocalField definition) fields = .ok fields') ↔
      ∀ name, ¬ Shadows d parents name := by
  constructor
  · intro hok name hshadows
    obtain ⟨fields', hok⟩ := hok
    obtain ⟨decl, first, hdecl, hfirst⟩ := shadows_iff.mp hshadows
    rw [← get?_inheritedFields h] at hfirst
    rcases get?_foldlM_addLocalField d.fields.nodup_keys hok name with ⟨hnone, -⟩ | ⟨_, -, hnone, -⟩
    · exact absurd (hnone.symm.trans hdecl) (by simp)
    · exact absurd (hnone.symm.trans hfirst) (by simp)
  · intro hnone
    refine exists_ok_iff.mpr fun e he => ?_
    obtain ⟨name, a, ⟨hshadows, -⟩, -⟩ := (addLocalFields_eq_error_iff h).mp he
    exact hnone name hshadows

theorem mapM_linkMethod_eq_error_iff :
    d.methods.toList.mapM (linkMethod stamp d.id parents policy) = .error e ↔
      FirstRefused d parents policy e := by
  have hmethod : ∀ (m : String × MethodDecl) (e : ResolveError),
      linkMethod stamp d.id parents policy m = .error e ↔
        m.2.calls.mapM (fun call => do
          let target ← resolveQualifiedCall d.id call parents policy
          return (call, target)) = .error e := by
    intro m e
    simp [linkMethod, bind_eq_error, pure, Except.pure]
  have hcall : ∀ (call : QualifiedCall) (e : ResolveError), (do
      let target ← resolveQualifiedCall d.id call parents policy
      return (call, target)) = (.error e : Except ResolveError (QualifiedCall × Implementation)) ↔
        Refused d.id call parents policy e := by
    intro call e
    rw [← resolveQualifiedCall_eq_error_iff]
    simp [bind_eq_error, pure, Except.pure]
  rw [mapM_eq_error_iff_flatMap hmethod, mapM_eq_error]
  simp only [exists_ok_iff, hcall]
  rfl

theorem exists_firstRefused_iff : (∃ e, FirstRefused d parents policy e) ↔
    ∃ call ∈ callsOf d, ∃ e, Refused d.id call parents policy e := by
  classical
  constructor
  · intro h
    obtain ⟨e, before, call, after, heq, -, he⟩ := h
    exact ⟨call, heq ▸ List.mem_append_right _ List.mem_cons_self, e, he⟩
  · intro h
    obtain ⟨call, hcall, e, he⟩ := h
    have hfound : ((callsOf d).find? fun c => ∃ e, Refused d.id c parents policy e).isSome :=
      List.find?_isSome.mpr ⟨call, hcall, decide_eq_true ⟨e, he⟩⟩
    obtain ⟨c, hc⟩ := Option.isSome_iff_exists.mp hfound
    obtain ⟨hrefused, before, after, heq, hbefore⟩ := List.find?_eq_some_iff_append.mp hc
    obtain ⟨e, he⟩ := of_decide_eq_true hrefused
    refine ⟨e, before, c, after, heq, ?_, he⟩
    intro b hb e he
    have hnone := hbefore b hb
    simp only [Bool.not_eq_true', decide_eq_false_iff_not, not_exists] at hnone
    exact hnone e he

end Locals

end Link

open Link

variable {stamp : Nat} {d : Definition} {parents : List Table} {policy : AmbiguityPolicy}
variable {e : ResolveError}

theorem link_eq_error_iff :
    link stamp d parents policy = .error e ↔ Fault d parents policy e := by
  unfold link
  constructor
  · intro h
    rcases bind_eq_error.mp h with hi | ⟨fields, hi, h⟩
    · obtain ⟨name, first, second, hclash, rfl⟩ := inheritedFields_eq_error_iff.mp hi
      exact .conflict hclash
    have hagree := (inheritedFields_eq_ok_iff _).mp ⟨fields, hi⟩
    rcases bind_eq_error.mp h with hf | ⟨fields', hf, h⟩
    · obtain ⟨name, a, hleast, rfl⟩ := (addLocalFields_eq_error_iff hi).mp hf
      exact .shadow hagree hleast
    have hnone := (addLocalFields_eq_ok_iff hi).mp ⟨fields', hf⟩
    rcases bind_eq_error.mp h with hm | ⟨locals, -, h⟩
    · exact .call hagree hnone (mapM_linkMethod_eq_error_iff.mp hm)
    · cases h
  · intro h
    cases h with
    | conflict hclash =>
      exact bind_eq_error.mpr (.inl (inheritedFields_eq_error_iff.mpr ⟨_, _, _, hclash, rfl⟩))
    | shadow hagree hleast =>
      obtain ⟨fields, hi⟩ := (inheritedFields_eq_ok_iff _).mpr hagree
      have hf := (addLocalFields_eq_error_iff hi).mpr ⟨_, _, hleast, rfl⟩
      exact bind_eq_error.mpr (.inr ⟨fields, hi, bind_eq_error.mpr (.inl hf)⟩)
    | call hagree hnone hrefused =>
      obtain ⟨fields, hi⟩ := (inheritedFields_eq_ok_iff _).mpr hagree
      obtain ⟨fields', hf⟩ := (addLocalFields_eq_ok_iff hi).mpr hnone
      have hm : d.methods.toList.mapM (linkMethod stamp d.id parents policy) = .error e :=
        mapM_linkMethod_eq_error_iff.mpr hrefused
      exact bind_eq_error.mpr (.inr ⟨fields, hi, bind_eq_error.mpr
        (.inr ⟨fields', hf, bind_eq_error.mpr (.inl hm)⟩)⟩)

inductive Faulty (d : Definition) (parents : List Table) (policy : AmbiguityPolicy) :
    ResolveError → Prop where
  | conflict {name : String} {p q : Table} {first second : FieldSlot} : p ∈ parents →
      q ∈ parents → p.fields.get? name = some first → q.fields.get? name = some second →
      first.owner ≠ second.owner →
      Faulty d parents policy (.fieldConflict d.id name first.owner second.owner)
  | shadow {name : String} {decl : FieldDecl} {p : Table} {first : FieldSlot} :
      d.fields.get? name = some decl → p ∈ parents → p.fields.get? name = some first →
      Faulty d parents policy (.shadowConflict d.id name first.owner)
  | call {m : String × MethodDecl} {call : QualifiedCall} {e : ResolveError} :
      m ∈ d.methods.toList → call ∈ m.2.calls → Unbound d.id call parents policy e →
      Faulty d parents policy e

theorem Link.Fault.faulty (h : Fault d parents policy e) : Faulty d parents policy e := by
  cases h with
  | conflict hclash =>
    obtain ⟨before, q, after, rfl, hagree, hclash, -, hfirst, hsecond⟩ := hclash
    obtain ⟨first, second, hfirst', hsecond', hne⟩ := hagree.clashOn_iff.mp hclash
    rw [hfirst', Option.map_some] at hfirst
    rw [hsecond', Option.map_some] at hsecond
    obtain rfl := Option.some.inj hfirst
    obtain rfl := Option.some.inj hsecond
    obtain ⟨p, hp, hps⟩ := firstSlot?_eq_some hfirst'
    exact .conflict (List.mem_append_left _ hp) (by simp) hps hsecond' hne
  | shadow _ hleast =>
    obtain ⟨hshadows, -, ha⟩ := hleast
    obtain ⟨decl, first, hdecl, hfirst⟩ := shadows_iff.mp hshadows
    rw [hfirst, Option.map_some] at ha
    obtain rfl := Option.some.inj ha
    obtain ⟨p, hp, hps⟩ := firstSlot?_eq_some hfirst
    exact .shadow hdecl hp hps
  | call _ _ hrefused =>
    obtain ⟨before, call, after, heq, -, hrefused⟩ := hrefused
    have hcall : call ∈ callsOf d := heq ▸ List.mem_append_right _ List.mem_cons_self
    obtain ⟨m, hm, hcall⟩ := List.mem_flatMap.mp hcall
    exact .call hm hcall hrefused.unbound

theorem faulty_of_link (h : link stamp d parents policy = .error e) : Faulty d parents policy e :=
  (link_eq_error_iff.mp h).faulty

theorem clash_of_link {name : String} {a b : DefinitionId}
    (h : link stamp d parents policy = .error e) (he : e.clash? = some (name, a, b)) :
    ∃ p ∈ parents, ∃ first, p.fields.get? name = some first ∧ first.owner = a ∧
      ((∃ q ∈ parents, ∃ second, q.fields.get? name = some second ∧ second.owner = b ∧ a ≠ b) ∨
        b = d.id ∧ ∃ decl, d.fields.get? name = some decl) := by
  cases faulty_of_link h with
  | conflict hp hq hp' hq' hne =>
    cases he
    exact ⟨_, hp, _, hp', rfl, .inl ⟨_, hq, _, hq', rfl, hne⟩⟩
  | shadow hd hp hp' =>
    cases he
    exact ⟨_, hp, _, hp', rfl, .inr ⟨rfl, _, hd⟩⟩
  | call _ _ hunbound => cases hunbound <;> cases he

theorem clash?_of_firstRefused (h : FirstRefused d parents policy e) : e.clash? = none := by
  obtain ⟨before, call, after, -, -, hrefused⟩ := h
  cases hrefused <;> rfl

theorem link_eq_fieldConflict_iff {definition first second : DefinitionId} {name : String} :
    link stamp d parents policy = .error (.fieldConflict definition name first second) ↔
      definition = d.id ∧ FirstClash parents name first second := by
  rw [link_eq_error_iff]
  constructor
  · intro h
    cases h with
    | conflict hclash => exact ⟨rfl, hclash⟩
    | call _ _ hrefused => cases clash?_of_firstRefused hrefused
  · intro h
    obtain ⟨rfl, hclash⟩ := h
    exact .conflict hclash

theorem link_eq_shadowConflict_iff (hagree : FieldsAgree parents) {definition a : DefinitionId}
    {name : String} :
    link stamp d parents policy = .error (.shadowConflict definition name a) ↔
      definition = d.id ∧ LeastShadow d parents name a := by
  rw [link_eq_error_iff]
  constructor
  · intro h
    cases h with
    | shadow _ hleast => exact ⟨rfl, hleast⟩
    | call _ _ hrefused => cases clash?_of_firstRefused hrefused
  · intro h
    obtain ⟨rfl, hleast⟩ := h
    exact .shadow hagree hleast

theorem exists_leastShadow_iff (hagree : FieldsAgree parents) :
    (∃ name a, LeastShadow d parents name a) ↔ ∃ name, Shadows d parents name := by
  constructor
  · intro h
    obtain ⟨name, a, hshadows, -⟩ := h
    exact ⟨name, hshadows⟩
  · intro h
    obtain ⟨name, hshadows⟩ := h
    obtain ⟨fields, hi⟩ := (inheritedFields_eq_ok_iff d.id).mpr hagree
    by_contra hnone
    refine (addLocalFields_eq_ok_iff hi).mp (exists_ok_iff.mpr fun e he => ?_) name hshadows
    obtain ⟨n, a, hleast, -⟩ := (addLocalFields_eq_error_iff hi).mp he
    exact hnone ⟨n, a, hleast⟩

/-- Linking is refused as a clash of fields exactly if two parents have a field of one name from
different definitions, and it is the first such clash that is reported. Otherwise it is refused as
shadowing exactly if a local field has the name of an inherited one, and the least such name is
reported. Otherwise it fails exactly if a call of a local method has no target, and for the reason
that the first such call has none. -/
theorem link_reports_first_fault (stamp : Nat) (d : Definition) (parents : List Table)
    (policy : AmbiguityPolicy) :
    let out := link stamp d parents policy
    ((∃ definition name first second,
        out = .error (.fieldConflict definition name first second)) ↔
      ∃ p ∈ parents, ∃ q ∈ parents, ∃ name, ClashOn p q name) ∧
    (∀ definition name first second,
      out = .error (.fieldConflict definition name first second) ↔
        definition = d.id ∧ FirstClash parents name first second) ∧
    (FieldsAgree parents →
      ((∃ definition name a, out = .error (.shadowConflict definition name a)) ↔
        ∃ name, Shadows d parents name) ∧
      (∀ definition name a, out = .error (.shadowConflict definition name a) ↔
        definition = d.id ∧ LeastShadow d parents name a) ∧
      ((∀ name, ¬ Shadows d parents name) →
        ((∃ e, out = .error e) ↔ ∃ call ∈ callsOf d, ∃ e, Refused d.id call parents policy e) ∧
        ∀ e, out = .error e ↔ FirstRefused d parents policy e)) := by
  intro out
  refine ⟨?_, fun _ _ _ _ => link_eq_fieldConflict_iff, fun hagree => ⟨?_, ?_, fun hnone => ?_⟩⟩
  · simp only [out, link_eq_fieldConflict_iff, exists_and_left, exists_eq_left]
    rw [← not_fieldsAgree_iff, not_fieldsAgree_iff_firstClash]
  · simp only [out, link_eq_shadowConflict_iff hagree, exists_and_left, exists_eq_left]
    exact exists_leastShadow_iff hagree
  · exact fun _ _ _ => link_eq_shadowConflict_iff hagree
  · have hcall : ∀ e, out = .error e ↔ FirstRefused d parents policy e := by
      intro e
      rw [link_eq_error_iff]
      constructor
      · intro h
        cases h with
        | conflict hclash =>
          exact absurd hagree (not_fieldsAgree_iff_firstClash.mpr ⟨_, _, _, hclash⟩)
        | shadow _ hleast => exact absurd hleast.1 (hnone _)
        | call _ _ hrefused => exact hrefused
      · exact .call hagree hnone
    exact ⟨by simp only [hcall, exists_firstRefused_iff], hcall⟩

end Mudlib
