import Mudlib.Proofs.Link.Merge
/-!
Tables up to the numbers of their linkings.

`Table.restamp` gives every linking in a table the number that a function assigns to its definition.
Linking restamped parents is restamping what the parents link to (`link_restamp`), as long as the
numbers tell the same default implementations apart. Tables are alike when they differ in such
numbers alone.
-/
set_option autoImplicit false
set_option linter.unusedSectionVars false

namespace Mudlib

mutual

def Implementation.restamp (stampOf : DefinitionId → Nat) : Implementation → Implementation
  | .mk _ owner name body calls =>
    .mk (stampOf owner) owner name body (restampCalls stampOf calls)
termination_by structural m => m

def Implementation.restampCalls (stampOf : DefinitionId → Nat) :
    List (QualifiedCall × Implementation) → List (QualifiedCall × Implementation)
  | [] => []
  | (call, m) :: rest => (call, m.restamp stampOf) :: restampCalls stampOf rest
termination_by structural calls => calls

end

def MethodSlot.restamp (stampOf : DefinitionId → Nat) (slot : MethodSlot) : MethodSlot where
  implementations := slot.implementations.map (Implementation.restamp stampOf)
  default := slot.default
  inRange := by simpa using slot.inRange

def Table.restamp (stampOf : DefinitionId → Nat) (t : Table) : Table :=
  { t with
    stamp := stampOf t.id
    methods := t.methods.mapVal fun _ slot => slot.restamp stampOf }

def Table.Alike (a b : Table) : Prop := a.restamp (fun _ => 0) = b.restamp fun _ => 0

variable (stampOf : DefinitionId → Nat)

namespace Implementation

@[simp] theorem owner_restamp (m : Implementation) : (m.restamp stampOf).owner = m.owner := by
  cases m; rfl

@[simp] theorem name_restamp (m : Implementation) : (m.restamp stampOf).name = m.name := by
  cases m; rfl

@[simp] theorem stamp_restamp (m : Implementation) :
    (m.restamp stampOf).stamp = stampOf m.owner := by
  cases m; rfl

theorem restampCalls_eq_map (calls : List (QualifiedCall × Implementation)) :
    restampCalls stampOf calls = calls.map fun b => (b.1, b.2.restamp stampOf) := by
  induction calls with
  | nil => rfl
  | cons b rest ih => obtain ⟨call, m⟩ := b; simp [restampCalls, ih]

mutual

theorem restamp_restamp (τ : DefinitionId → Nat) :
    (m : Implementation) → (m.restamp stampOf).restamp τ = m.restamp τ
  | .mk _ owner name body calls => by
    simp only [restamp, restampCalls_restampCalls τ calls]

theorem restampCalls_restampCalls (τ : DefinitionId → Nat) :
    (calls : List (QualifiedCall × Implementation)) →
      restampCalls τ (restampCalls stampOf calls) = restampCalls τ calls
  | [] => rfl
  | (call, m) :: rest => by
    simp only [restampCalls, restamp_restamp τ m, restampCalls_restampCalls τ rest]

end

end Implementation

namespace MethodSlot

theorem ext {a b : MethodSlot} (hi : a.implementations = b.implementations)
    (hd : a.default = b.default) : a = b := by
  cases a; cases b; cases hi; cases hd; rfl

@[simp] theorem implementations_restamp (slot : MethodSlot) :
    (slot.restamp stampOf).implementations =
      slot.implementations.map (Implementation.restamp stampOf) := rfl

@[simp] theorem default_restamp (slot : MethodSlot) :
    (slot.restamp stampOf).default = slot.default := rfl

@[simp] theorem defaultImpl_restamp (slot : MethodSlot) :
    (slot.restamp stampOf).defaultImpl = slot.defaultImpl.restamp stampOf := by
  simp [defaultImpl, restamp]

theorem restamp_restamp (τ : DefinitionId → Nat) (slot : MethodSlot) :
    (slot.restamp stampOf).restamp τ = slot.restamp τ := by
  apply ext
  · simp [restamp, Implementation.restamp_restamp]
  · rfl

end MethodSlot

namespace Table

theorem restamp_restamp (τ : DefinitionId → Nat) (t : Table) :
    (t.restamp stampOf).restamp τ = t.restamp τ := by
  simp [restamp, Dict.mapVal_mapVal, MethodSlot.restamp_restamp]

theorem Alike.symm {a b : Table} (h : a.Alike b) : b.Alike a := Eq.symm h

theorem Alike.trans {a b c : Table} (hab : a.Alike b) (hbc : b.Alike c) : a.Alike c :=
  Eq.trans hab hbc

theorem Alike.depth_eq {a b : Table} (h : a.Alike b) : a.depth = b.depth := by
  have hsame : a.restamp (fun _ => 0) = b.restamp fun _ => 0 := h
  have hdepth := congrArg (fun t => t.depth) hsame
  exact hdepth

theorem alike_restamp (t : Table) : (t.restamp stampOf).Alike t :=
  restamp_restamp stampOf (fun _ => 0) t

theorem method?_restamp (t : Table) (name : String) :
    (t.restamp stampOf).method? name = (t.method? name).map (Implementation.restamp stampOf) := by
  simp only [method?, restamp, Dict.get?_mapVal, Option.map_map]
  congr 1
  funext slot
  exact slot.defaultImpl_restamp stampOf

theorem hasMethod_restamp (t : Table) (name : String) :
    (t.restamp stampOf).hasMethod name = t.hasMethod name := by
  simp [hasMethod, Dict.contains, restamp, Dict.get?_mapVal]

end Table

namespace Link

theorem addContribution_restamp (ms : List Implementation) (m : Implementation) :
    addContribution (ms.map (Implementation.restamp stampOf)) (m.restamp stampOf) =
      (addContribution ms m).map (Implementation.restamp stampOf) := by
  unfold addContribution
  simp only [List.any_map, Function.comp_def, Implementation.owner_restamp]
  split <;> simp

theorem joinSlot_restamp (slot incoming : MethodSlot) :
    joinSlot (slot.restamp stampOf) (incoming.restamp stampOf) =
      (joinSlot slot incoming).restamp stampOf := by
  have h : ∀ more ms : List Implementation,
      (more.map (Implementation.restamp stampOf)).foldl addContribution
          (ms.map (Implementation.restamp stampOf)) =
        (more.foldl addContribution ms).map (Implementation.restamp stampOf) := by
    intro more
    induction more with
    | nil => exact fun _ => rfl
    | cons m more ih => intro ms; simp only [List.map_cons, List.foldl_cons, addContribution_restamp, ih]
  exact MethodSlot.ext (h _ _) rfl

def adoptedDefault (slot : MethodSlot) : Nat :=
  (slot.implementations.findIdx? fun m => m.owner = slot.defaultImpl.owner).getD slot.default

theorem adoptSlot_default (slot : MethodSlot) :
    (adoptSlot slot).default =
      if adoptedDefault slot < slot.implementations.length then adoptedDefault slot
      else slot.default := by
  by_cases h : adoptedDefault slot < slot.implementations.length
  · have hs : adoptSlot slot = ⟨slot.implementations, adoptedDefault slot, h⟩ := dif_pos h
    rw [hs, if_pos h]
  · have hs : adoptSlot slot = slot := dif_neg h
    rw [hs, if_neg h]

theorem adoptSlot_restamp (slot : MethodSlot) :
    adoptSlot (slot.restamp stampOf) = (adoptSlot slot).restamp stampOf := by
  have hdefault : adoptedDefault (slot.restamp stampOf) = adoptedDefault slot := by
    simp [adoptedDefault, List.findIdx?_map, Function.comp_def]
  apply MethodSlot.ext
  · simp [adoptSlot_implementations]
  · simp [adoptSlot_default, hdefault]

theorem mergeMethod_restamp (methods : Dict String MethodSlot) (name : String) (slot : MethodSlot) :
    mergeMethod (methods.mapVal fun _ s => s.restamp stampOf) (name, slot.restamp stampOf) =
      (mergeMethod methods (name, slot)).mapVal fun _ s => s.restamp stampOf := by
  rw [mergeMethod_eq, mergeMethod_eq, Dict.mapVal_insert, Dict.get?_mapVal]
  cases methods.get? name with
  | none => simp [mergedSlot, adoptSlot_restamp]
  | some held => simp [mergedSlot, joinSlot_restamp]

theorem inheritedMethods_restamp (parents : List Table) :
    inheritedMethods (parents.map (Table.restamp stampOf)) =
      (inheritedMethods parents).mapVal fun _ s => s.restamp stampOf := by
  have hslots : ∀ (entries : List (String × MethodSlot)) (methods : Dict String MethodSlot),
      (entries.map fun e => (e.1, e.2.restamp stampOf)).foldl mergeMethod
          (methods.mapVal fun _ s => s.restamp stampOf) =
        (entries.foldl mergeMethod methods).mapVal fun _ s => s.restamp stampOf := by
    intro entries
    induction entries with
    | nil => exact fun _ => rfl
    | cons e entries ih =>
      intro methods
      simp only [List.map_cons, List.foldl_cons]
      rw [mergeMethod_restamp, ih]
  have hparents : ∀ methods : Dict String MethodSlot,
      (parents.map (Table.restamp stampOf)).foldl
          (fun ms p => p.methods.toList.foldl mergeMethod ms)
          (methods.mapVal fun _ s => s.restamp stampOf) =
        (parents.foldl (fun ms p => p.methods.toList.foldl mergeMethod ms) methods).mapVal
          fun _ s => s.restamp stampOf := by
    induction parents with
    | nil => exact fun _ => rfl
    | cons p parents ih =>
      intro methods
      simp only [List.map_cons, List.foldl_cons]
      rw [← ih, ← hslots]
      rfl
  exact hparents .empty

theorem addLocalMethod_restamp (methods : Dict String MethodSlot) (m : Implementation) :
    addLocalMethod (methods.mapVal fun _ s => s.restamp stampOf) (m.restamp stampOf) =
      (addLocalMethod methods m).mapVal fun _ s => s.restamp stampOf := by
  rw [addLocalMethod_eq, addLocalMethod_eq, Dict.mapVal_insert, Dict.get?_mapVal,
    Implementation.name_restamp]
  congr 1
  cases methods.get? m.name with
  | none => exact MethodSlot.ext rfl rfl
  | some held => exact MethodSlot.ext (by simp [localSlot]) (by simp [localSlot])

/-- The numbers tell the same default implementations of the parents apart as those they have. -/
def Discerns (parents : List Table) : Prop :=
  ∀ p ∈ parents, ∀ q ∈ parents, ∀ name a b, p.method? name = some a → q.method? name = some b →
    (a.restamp stampOf).same (b.restamp stampOf) = a.same b

theorem distinct_restamp {ms : List Implementation}
    (h : ∀ a ∈ ms, ∀ b ∈ ms, (a.restamp stampOf).same (b.restamp stampOf) = a.same b) :
    distinct (ms.map (Implementation.restamp stampOf)) =
      (distinct ms).map (Implementation.restamp stampOf) := by
  suffices hg : ∀ rest acc : List Implementation, (∀ a ∈ rest, a ∈ ms) → (∀ a ∈ acc, a ∈ ms) →
      (rest.map (Implementation.restamp stampOf)).foldl
          (fun acc m => if acc.any fun n => n.same m then acc else acc ++ [m])
          (acc.map (Implementation.restamp stampOf)) =
        (rest.foldl (fun acc m => if acc.any fun n => n.same m then acc else acc ++ [m]) acc).map
          (Implementation.restamp stampOf) from
    hg ms [] (fun _ ha => ha) (by simp)
  intro rest
  induction rest with
  | nil => exact fun _ _ _ => rfl
  | cons m rest ih =>
    intro acc hrest hacc
    have hm := hrest m List.mem_cons_self
    have hrest := fun a ha => hrest a (List.mem_cons_of_mem _ ha)
    have hany : ((acc.map (Implementation.restamp stampOf)).any fun n =>
        n.same (m.restamp stampOf)) = acc.any fun n => n.same m := by
      rw [List.any_map, Bool.eq_iff_iff, List.any_eq_true, List.any_eq_true]
      constructor
      · intro hany
        obtain ⟨n, hn, hs⟩ := hany
        exact ⟨n, hn, by simpa [h n (hacc n hn) m hm] using hs⟩
      · intro hany
        obtain ⟨n, hn, hs⟩ := hany
        exact ⟨n, hn, by simpa [h n (hacc n hn) m hm] using hs⟩
    simp only [List.map_cons, List.foldl_cons, hany]
    split
    · exact ih acc hrest hacc
    · rw [← ih (acc ++ [m]) hrest]
      · simp
      · intro a ha
        rcases List.mem_append.mp ha with ha | ha
        · exact hacc a ha
        · exact List.mem_singleton.mp ha ▸ hm

theorem resolveQualifiedCall_restamp {parents : List Table} (h : Discerns stampOf parents)
    (definition : DefinitionId) (call : QualifiedCall) (policy : AmbiguityPolicy) :
    resolveQualifiedCall definition call (parents.map (Table.restamp stampOf)) policy =
      (resolveQualifiedCall definition call parents policy).map
        (Implementation.restamp stampOf) := by
  unfold resolveQualifiedCall
  cases call.ancestor with
  | some ancestor =>
    have hfind : (parents.map (Table.restamp stampOf)).find? (fun p => p.id = ancestor) =
        (parents.find? fun p => p.id = ancestor).map (Table.restamp stampOf) := by
      rw [List.find?_map]
      rfl
    simp only [hfind]
    cases parents.find? fun p => p.id = ancestor with
    | none => rfl
    | some parent =>
      simp only [Option.map_some, Table.method?_restamp]
      cases parent.method? call.method <;> rfl
  | none =>
    have hfilter : (parents.map (Table.restamp stampOf)).filter
        (fun p => p.hasMethod call.method) =
          (parents.filter fun p => p.hasMethod call.method).map (Table.restamp stampOf) := by
      rw [List.filter_map]
      simp only [Function.comp_def, Table.hasMethod_restamp]
    have hdefaults : ((parents.filter fun p => p.hasMethod call.method).map
        (Table.restamp stampOf)).filterMap (fun p => p.method? call.method) =
          ((parents.filter fun p => p.hasMethod call.method).filterMap fun p =>
            p.method? call.method).map (Implementation.restamp stampOf) := by
      rw [List.filterMap_map, List.map_filterMap]
      simp only [Function.comp_def, Table.method?_restamp]
    have hsame : ∀ a ∈ (parents.filter fun p => p.hasMethod call.method).filterMap
        (fun p => p.method? call.method),
          ∀ b ∈ (parents.filter fun p => p.hasMethod call.method).filterMap
            (fun p => p.method? call.method),
              (a.restamp stampOf).same (b.restamp stampOf) = a.same b := by
      intro a ha b hb
      obtain ⟨p, hp, ha⟩ := List.mem_filterMap.mp ha
      obtain ⟨q, hq, hb⟩ := List.mem_filterMap.mp hb
      exact h p (List.mem_filter.mp hp).1 q (List.mem_filter.mp hq).1 _ a b ha hb
    simp only [hfilter, hdefaults, distinct_restamp stampOf hsame, List.map_map]
    cases distinct ((parents.filter fun p => p.hasMethod call.method).filterMap fun p =>
        p.method? call.method) with
    | nil => rfl
    | cons m rest =>
      cases rest with
      | nil => rfl
      | cons _ _ => cases policy <;> rfl

theorem linkMethod_restamp {parents : List Table} (h : Discerns stampOf parents) (stamp : Nat)
    (definition : DefinitionId) (policy : AmbiguityPolicy) (e : String × MethodDecl) :
    linkMethod (stampOf definition) definition (parents.map (Table.restamp stampOf)) policy e =
      (linkMethod stamp definition parents policy e).map (Implementation.restamp stampOf) := by
  have hcalls := mapM_eq_map_mapM e.2.calls
    (f := fun call => do
      let target ← resolveQualifiedCall definition call parents policy
      return (call, target))
    (g := fun call => do
      let target ← resolveQualifiedCall definition call (parents.map (Table.restamp stampOf)) policy
      return (call, target))
    (r := fun b => (b.1, b.2.restamp stampOf)) (by
      intro call _
      simp only [resolveQualifiedCall_restamp stampOf h]
      cases resolveQualifiedCall definition call parents policy <;> rfl)
  unfold linkMethod
  rw [hcalls]
  cases e.2.calls.mapM fun call => do
      let target ← resolveQualifiedCall definition call parents policy
      return (call, target) with
  | error err => rfl
  | ok calls =>
    simp only [Except.map, bind, Except.bind, pure, Except.pure, Implementation.restamp,
      Implementation.restampCalls_eq_map]

theorem inheritedFields_restamp (definition : DefinitionId) (parents : List Table) :
    inheritedFields definition (parents.map (Table.restamp stampOf)) =
      inheritedFields definition parents := by
  simp only [inheritedFields, List.foldlM_map]
  rfl

theorem lineageOf_restamp (parents : List Table) :
    lineageOf (parents.map (Table.restamp stampOf)) = lineageOf parents := by
  simp only [lineageOf, List.foldl_map]
  rfl

theorem depthOf_restamp (parents : List Table) :
    depthOf (parents.map (Table.restamp stampOf)) = depthOf parents := by
  simp only [depthOf, List.foldl_map]
  rfl

end Link

open Link

theorem link_restamp {parents : List Table} (h : Discerns stampOf parents) (stamp : Nat)
    (d : Definition) (policy : AmbiguityPolicy) :
    link (stampOf d.id) d (parents.map (Table.restamp stampOf)) policy =
      (link stamp d parents policy).map (Table.restamp stampOf) := by
  have hlocals := mapM_eq_map_mapM d.methods.toList
    (f := linkMethod stamp d.id parents policy)
    (fun e _ => linkMethod_restamp stampOf h stamp d.id policy e)
  have hfold : ∀ (locals : List Implementation) (methods : Dict String MethodSlot),
      (locals.map (Implementation.restamp stampOf)).foldl addLocalMethod
          (methods.mapVal fun _ s => s.restamp stampOf) =
        (locals.foldl addLocalMethod methods).mapVal fun _ s => s.restamp stampOf := by
    intro locals
    induction locals with
    | nil => exact fun _ => rfl
    | cons m locals ih =>
      intro methods
      simp only [List.map_cons, List.foldl_cons]
      rw [addLocalMethod_restamp, ih]
  unfold link
  rw [inheritedFields_restamp, hlocals]
  cases inheritedFields d.id parents with
  | error e => rfl
  | ok inherited =>
    cases hf : d.fields.toList.foldlM (addLocalField d.id) inherited with
    | error e => simp [bind, Except.bind, hf, Except.map]
    | ok fields =>
      cases d.methods.toList.mapM (linkMethod stamp d.id parents policy) with
      | error e => simp [bind, Except.bind, hf, Except.map]
      | ok locals =>
        simp only [bind, Except.bind, hf, Except.map, pure, Except.pure, Table.restamp,
          lineageOf_restamp, depthOf_restamp, inheritedMethods_restamp, hfold, List.foldl_map]

end Mudlib
