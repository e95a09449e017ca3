import Mudlib.Proofs.Link.Faults
set_option autoImplicit false

namespace Mudlib

section Restricting

variable {ε α β : Type} {P : ε → Prop}

def Restricts (P : ε → Prop) (x y : Except ε α) : Prop := x = y ∨ ∃ e, x = .error e ∧ P e

theorem Restricts.refl (x : Except ε α) : Restricts P x x := .inl rfl

theorem Restricts.refused {e : ε} (he : P e) (y : Except ε α) : Restricts P (.error e) y :=
  .inr ⟨e, rfl, he⟩

theorem Restricts.bind {x y : Except ε α} {f g : α → Except ε β} (h : Restricts P x y)
    (hrest : ∀ a, Restricts P (f a) (g a)) : Restricts P (x >>= f) (y >>= g) := by
  rcases h with rfl | ⟨e, rfl, he⟩
  · cases x with
    | error e => exact .refl _
    | ok a => exact hrest a
  · exact .refused he _

theorem Restricts.mapM {f g : α → Except ε β} (h : ∀ a, Restricts P (f a) (g a)) (as : List α) :
    Restricts P (as.mapM f) (as.mapM g) := by
  induction as with
  | nil => exact .refl _
  | cons a as ih =>
    rw [List.mapM_cons, List.mapM_cons]
    exact (h a).bind fun b => ih.bind fun bs => .refl _

end Restricting

def ResolveError.OfAmbiguity (e : ResolveError) : Prop :=
  ∃ definition method candidates, e = .ambiguousAncestorCall definition method candidates

namespace Link

variable (stamp : Nat) (definition : DefinitionId) (parents : List Table)

theorem restricts_resolveQualifiedCall (call : QualifiedCall) :
    Restricts ResolveError.OfAmbiguity (resolveQualifiedCall definition call parents .reject)
      (resolveQualifiedCall definition call parents .firstContributor) := by
  unfold resolveQualifiedCall
  split
  · exact .refl _
  · simp only
    split
    · exact .refl _
    · exact .refl _
    · exact .refused ⟨_, _, _, rfl⟩ _

theorem restricts_linkMethod (m : String × MethodDecl) :
    Restricts ResolveError.OfAmbiguity (linkMethod stamp definition parents .reject m)
      (linkMethod stamp definition parents .firstContributor m) := by
  refine Restricts.bind (.mapM (fun call => ?_) _) fun calls => .refl _
  exact (restricts_resolveQualifiedCall definition parents call).bind fun target => .refl _

end Link

open Link

theorem restricts_link (stamp : Nat) (d : Definition) (parents : List Table) :
    Restricts ResolveError.OfAmbiguity (link stamp d parents .reject)
      (link stamp d parents .firstContributor) := by
  refine Restricts.bind (.refl _) fun inherited => Restricts.bind (.refl _) fun fields => ?_
  exact Restricts.bind (.mapM (restricts_linkMethod stamp d.id parents) _) fun locals => .refl _

theorem ambiguous_of_link {stamp : Nat} {d : Definition} {parents : List Table}
    {policy : AmbiguityPolicy} {definition : DefinitionId} {method : String}
    {candidates : List DefinitionId}
    (h : link stamp d parents policy =
      .error (.ambiguousAncestorCall definition method candidates)) :
    definition = d.id ∧ ∃ p ∈ parents, ∃ q ∈ parents, ∃ m n, p.method? method = some m ∧
      q.method? method = some n ∧ m.same n = false := by
  cases faulty_of_link h with
  | call _ _ hunbound =>
    cases hunbound with
    | ambiguous _ hp hq hm hn hapart => exact ⟨rfl, _, hp, _, hq, _, _, hm, hn, hapart⟩

end Mudlib
