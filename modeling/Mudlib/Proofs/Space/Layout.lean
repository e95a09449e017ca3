import Mudlib.Proofs.Space.Plan
set_option autoImplicit false

namespace Mudlib.Assembly

open Space

mutual

/-- From a number on there stands the assembly, with tables that `s₀` has to give: the instance with
that number is live, has this owner, flag and host, and the auxiliaries that `s₀` wants it to have are
attached to it in order and owned by it. -/
def StandsAt (s₀ s : Space) :
    Assembly → Nat → Principal → Bool → Option InstanceId → Prop
  | .mk definition fields parts, n, owner, privileged, host =>
    (∃ t u, (s₀.registry.get definition).1 = .ok t ∧ u.Alike t ∧
      parts.map Assembly.definition = s₀.auxiliariesOf t ∧
      s.instance? ⟨n⟩ =
        some ⟨u, owner, privileged, .live, fields, idsFrom (n + 1) parts, host⟩) ∧
    StandFrom s₀ s parts (n + 1) ⟨n⟩
termination_by structural a => a

def StandFrom (s₀ s : Space) : List Assembly → Nat → InstanceId → Prop
  | [], _, _ => True
  | part :: parts, n, host =>
    part.StandsAt s₀ s n (.object host) false (some host) ∧
      StandFrom s₀ s parts (n + part.size) host
termination_by structural parts => parts

end

def SameFrom (s s' : Space) (n size : Nat) : Prop :=
  ∀ k, n ≤ k → k < n + size → s'.instance? ⟨k⟩ = s.instance? ⟨k⟩

variable {s₀ s s' : Space}

theorem SameFrom.sub {n size m size' : Nat} (h : SameFrom s s' n size) (hn : n ≤ m)
    (hsize : m + size' ≤ n + size) : SameFrom s s' m size' :=
  fun k hk hk' => h k (Nat.le_trans hn hk) (Nat.lt_of_lt_of_le hk' hsize)

mutual

theorem StandsAt.of_same {n : Nat} {owner : Principal} {privileged : Bool}
    {host : Option InstanceId} : (a : Assembly) → a.StandsAt s₀ s n owner privileged host →
      SameFrom s s' n a.size → a.StandsAt s₀ s' n owner privileged host
  | .mk definition fields parts, h, hsame => by
    obtain ⟨⟨t, u, ht, hu, hparts, hi⟩, hstand⟩ := h
    rw [size] at hsame
    have hroot : s'.instance? ⟨n⟩ = s.instance? ⟨n⟩ := hsame n (Nat.le_refl n) (by omega)
    exact ⟨⟨t, u, ht, hu, hparts, hroot.trans hi⟩,
      StandFrom.of_same parts hstand (hsame.sub (by omega) (by omega))⟩

theorem StandFrom.of_same {n : Nat} {host : InstanceId} :
    (parts : List Assembly) → StandFrom s₀ s parts n host →
      SameFrom s s' n (sizeAll parts) → StandFrom s₀ s' parts n host
  | [], _, _ => trivial
  | part :: parts, h, hsame => by
    rw [sizeAll] at hsame
    exact ⟨StandsAt.of_same part h.1 (hsame.sub (by omega) (by omega)),
      StandFrom.of_same parts h.2 (hsame.sub (by omega) (by omega))⟩

end

theorem StandsAt.rehost {a : Assembly} {n : Nat} {owner : Principal} {privileged : Bool}
    {host host' : Option InstanceId} (h : a.StandsAt s₀ s n owner privileged host)
    (hroot : s'.instance? ⟨n⟩ = (s.instance? ⟨n⟩).map fun i => { i with host := host' })
    (hsame : SameFrom s s' (n + 1) (a.size - 1)) :
    a.StandsAt s₀ s' n owner privileged host' := by
  obtain ⟨definition, fields, parts⟩ := a
  obtain ⟨⟨t, u, ht, hu, hparts, hi⟩, hstand⟩ := h
  refine ⟨⟨t, u, ht, hu, hparts, ?_⟩, StandFrom.of_same parts hstand (hsame.sub (by omega) ?_)⟩
  · rw [hroot, hi]
    rfl
  · rw [size]
    omega

end Mudlib.Assembly
