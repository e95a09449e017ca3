import Mudlib.Proofs.Link.Merge
set_option autoImplicit false

namespace Mudlib

namespace Implementation

theorem same_self (m : Implementation) : m.same m = true := by simp [same]

theorem same_symm {m n : Implementation} (h : m.same n = true) : n.same m = true := by
  simp only [same, Bool.and_eq_true, beq_iff_eq] at h ⊢
  exact ⟨h.1.symm, h.2.symm⟩

theorem same_trans {m n k : Implementation} (h : m.same n = true) (h' : n.same k = true) :
    m.same k = true := by
  simp only [same, Bool.and_eq_true, beq_iff_eq] at h h' ⊢
  exact ⟨h.1.trans h'.1, h.2.trans h'.2⟩

end Implementation

theorem Table.hasMethod_eq (t : Table) (name : String) :
    t.hasMethod name = (t.method? name).isSome := by
  rw [hasMethod, Dict.contains, method?, Option.isSome_map]

namespace Link

variable {definition : DefinitionId} {call : QualifiedCall} {parents : List Table}
variable {policy : AmbiguityPolicy} {e : ResolveError} {m n : Implementation}
variable {ms : List Implementation} {name : String}

theorem pairwise_distinct (ms : List Implementation) :
    (distinct ms).Pairwise fun m n => m.same n = false := by
  suffices hg : ∀ acc : List Implementation, acc.Pairwise (fun m n => m.same n = false) →
      (ms.foldl (fun acc m => if acc.any fun n => n.same m then acc else acc ++ [m])
        acc).Pairwise fun m n => m.same n = false from
    hg [] .nil
  induction ms with
  | nil => exact fun _ hacc => hacc
  | cons m ms ih =>
    intro acc hacc
    rw [List.foldl_cons]
    split
    · exact ih acc hacc
    next hnew =>
      refine ih _ (List.pairwise_append.mpr ⟨hacc, List.pairwise_singleton _ _, ?_⟩)
      intro n hn k hk
      obtain rfl := List.mem_singleton.mp hk
      simp only [List.any_eq_true, not_exists, not_and, Bool.not_eq_true] at hnew
      exact hnew n hn

def defaultsOf (parents : List Table) (name : String) : List Implementation :=
  parents.filterMap fun p => p.method? name

theorem defaultsOf_eq (parents : List Table) (name : String) :
    ((parents.filter fun p => p.hasMethod name).filterMap fun p => p.method? name) =
      defaultsOf parents name := by
  rw [List.filterMap_filter, defaultsOf]
  congr 1
  funext p
  rw [p.hasMethod_eq]
  cases p.method? name <;> rfl

theorem mem_defaultsOf : m ∈ defaultsOf parents name ↔ ∃ p ∈ parents, p.method? name = some m :=
  List.mem_filterMap

theorem exists_same_of_mem (hm : m ∈ ms) : ∃ n ∈ distinct ms, n.same m = true := by
  suffices hg : ∀ acc : List Implementation,
      (∀ n ∈ acc, n ∈ ms.foldl
        (fun acc m => if acc.any fun n => n.same m then acc else acc ++ [m]) acc) ∧
      ∀ m ∈ ms, ∃ n ∈ ms.foldl
        (fun acc m => if acc.any fun n => n.same m then acc else acc ++ [m]) acc,
          n.same m = true from
    (hg []).2 m hm
  clear hm
  induction ms with
  | nil => exact fun acc => ⟨fun _ => id, List.forall_mem_nil _⟩
  | cons k ms ih =>
    intro acc
    rw [List.foldl_cons]
    split
    next hheld =>
      obtain ⟨n, hn, hsame⟩ := List.any_eq_true.mp hheld
      exact ⟨(ih acc).1, List.forall_mem_cons.mpr ⟨⟨n, (ih acc).1 n hn, hsame⟩, (ih acc).2⟩⟩
    next =>
      obtain ⟨hkept, hrest⟩ := ih (acc ++ [k])
      refine ⟨fun n hn => hkept n (List.mem_append_left _ hn), List.forall_mem_cons.mpr ⟨?_, hrest⟩⟩
      exact ⟨k, hkept k (List.mem_append_right _ List.mem_cons_self), k.same_self⟩

theorem distinct_eq_cons_cons_iff : (∃ m n rest, distinct ms = m :: n :: rest) ↔
    ∃ m ∈ ms, ∃ n ∈ ms, m.same n = false := by
  constructor
  · intro h
    obtain ⟨m, n, rest, heq⟩ := h
    have hapart := pairwise_distinct ms
    have hmem : ∀ k ∈ distinct ms, k ∈ ms := fun k => mem_distinct
    rw [heq] at hapart hmem
    exact ⟨m, hmem m (by simp), n, hmem n (by simp),
      List.rel_of_pairwise_cons hapart List.mem_cons_self⟩
  · intro h
    obtain ⟨m, hm, n, hn, hapart⟩ := h
    obtain ⟨m', hm', hmm⟩ := exists_same_of_mem hm
    obtain ⟨n', hn', hnn⟩ := exists_same_of_mem hn
    cases hd : distinct ms with
    | nil => simp [hd] at hm'
    | cons k rest =>
      cases rest with
      | cons l rest => exact ⟨k, l, rest, rfl⟩
      | nil =>
        obtain rfl : m' = k := by simpa [hd] using hm'
        obtain rfl : n' = m' := by simpa [hd] using hn'
        rw [Implementation.same_trans (Implementation.same_symm hmm) hnn] at hapart
        cases hapart

theorem distinct_eq_nil_iff : distinct ms = [] ↔ ms = [] := by
  constructor
  · intro h
    rw [List.eq_nil_iff_forall_not_mem]
    intro m hm
    obtain ⟨n, hn, -⟩ := exists_same_of_mem hm
    rw [h] at hn
    cases hn
  · rintro rfl
    rfl

/-- The ways in which a qualified call has no target: it names an ancestor that is no parent, the
parent named, or else every parent, lacks the method, or, if it names none, parents run different
implementations and this is to be refused. -/
inductive Refused (definition : DefinitionId) (call : QualifiedCall) (parents : List Table)
    (policy : AmbiguityPolicy) : ResolveError → Prop where
  | stranger {a : DefinitionId} : call.ancestor = some a → (∀ p ∈ parents, p.id ≠ a) →
      Refused definition call parents policy (.notAnAncestor definition a)
  | lacking {a : DefinitionId} {p : Table} : call.ancestor = some a →
      (parents.find? fun p => p.id = a) = some p → p.method? call.method = none →
      Refused definition call parents policy (.noSuchAncestorMethod definition call.method)
  | unknown : call.ancestor = none → (∀ p ∈ parents, p.method? call.method = none) →
      Refused definition call parents policy (.noSuchAncestorMethod definition call.method)
  | ambiguous {p q : Table} {m n : Implementation} : call.ancestor = none → policy = .reject →
      p ∈ parents → q ∈ parents → p.method? call.method = some m → q.method? call.method = some n →
      m.same n = false → Refused definition call parents policy (.ambiguousAncestorCall definition
        call.method ((parents.filter fun p => p.hasMethod call.method).map Table.id))

theorem resolveQualifiedCall_eq_error_iff :
    resolveQualifiedCall definition call parents policy = .error e ↔
      Refused definition call parents policy e := by
  constructor
  · intro h
    unfold resolveQualifiedCall at h
    split at h
    next a ha =>
      split at h
      next hnone =>
        cases h
        exact .stranger ha (by simpa using hnone)
      next p hp =>
        split at h
        next => cases h
        next hm =>
          cases h
          exact .lacking ha hp hm
    next ha =>
      simp only [defaultsOf_eq] at h
      split at h
      next hnil =>
        cases h
        rw [distinct_eq_nil_iff, defaultsOf, List.filterMap_eq_nil_iff] at hnil
        exact .unknown ha hnil
      next => cases h
      next m rest hsingle hcons =>
        split at h
        next => cases h
        next =>
          cases h
          cases rest with
          | nil => exact absurd rfl hsingle
          | cons n rest =>
            -- two are left of what the parents run, and these are not one object
            obtain ⟨k, hk, l, hl, hapart⟩ := distinct_eq_cons_cons_iff.mp ⟨m, n, rest, hcons⟩
            obtain ⟨p, hp, hpk⟩ := mem_defaultsOf.mp hk
            obtain ⟨q, hq, hql⟩ := mem_defaultsOf.mp hl
            exact .ambiguous ha rfl hp hq hpk hql hapart
  · intro h
    cases h with
    | @stranger a ha hother =>
      have hnone : (parents.find? fun p => p.id = a) = none := by simpa using hother
      simp only [resolveQualifiedCall, ha, hnone]
    | lacking ha hp hm => simp only [resolveQualifiedCall, ha, hp, hm]
    | unknown ha hnone =>
      have hnil : distinct (defaultsOf parents call.method) = [] :=
        distinct_eq_nil_iff.mpr (List.filterMap_eq_nil_iff.mpr hnone)
      simp only [resolveQualifiedCall, ha, defaultsOf_eq, hnil]
    | ambiguous ha hpolicy hp hq hm hn hapart =>
      obtain ⟨k, l, rest, heq⟩ := distinct_eq_cons_cons_iff.mpr
        ⟨_, mem_defaultsOf.mpr ⟨_, hp, hm⟩, _, mem_defaultsOf.mpr ⟨_, hq, hn⟩, hapart⟩
      simp only [resolveQualifiedCall, ha, defaultsOf_eq, heq, hpolicy]

inductive Unbound (definition : DefinitionId) (call : QualifiedCall) (parents : List Table)
    (policy : AmbiguityPolicy) : ResolveError → Prop where
  | stranger {a : DefinitionId} : call.ancestor = some a → (∀ p ∈ parents, p.id ≠ a) →
      Unbound definition call parents policy (.notAnAncestor definition a)
  | missing : Unbound definition call parents policy (.noSuchAncestorMethod definition call.method)
  /-- Two parents run different implementations for the method. -/
  | ambiguous {p q : Table} {m n : Implementation} : policy = .reject → p ∈ parents →
      q ∈ parents → p.method? call.method = some m → q.method? call.method = some n →
      m.same n = false → Unbound definition call parents policy (.ambiguousAncestorCall definition
        call.method ((parents.filter fun p => p.hasMethod call.method).map Table.id))

theorem Refused.unbound (h : Refused definition call parents policy e) :
    Unbound definition call parents policy e := by
  cases h with
  | stranger ha hother => exact .stranger ha hother
  | lacking => exact .missing
  | unknown => exact .missing
  | ambiguous _ hpolicy hp hq hm hn hapart => exact .ambiguous hpolicy hp hq hm hn hapart

end Link

end Mudlib
