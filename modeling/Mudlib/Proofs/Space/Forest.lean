import Mudlib.Proofs.Space.Guards
import Mudlib.Proofs.Space.Tidiness
set_option autoImplicit false

namespace Mudlib.Space

def HostedBy (s : Space) (a h : InstanceId) : Prop := s.host? a = some h

/-- At rest the links form a forest of live instances, and what is destroyed has nothing left. -/
structure Forest (s : Space) : Prop extends Consistent s where
  acyclic : ∀ a, ¬ Relation.TransGen s.HostedBy a a
  bare : ∀ {x}, s.state? x = some .destroyed → s.fields? x = some .empty

variable {s s' : Space} {h a x root : InstanceId} {order : List InstanceId}

theorem path_of_insert {α : Type} {R : α → α → Prop} {a b x y : α}
    (hba : ¬ Relation.ReflTransGen R b a)
    (hpath : Relation.TransGen (fun x y => R x y ∨ x = a ∧ y = b) x y) :
    Relation.TransGen R x y ∨ Relation.ReflTransGen R x a ∧ Relation.ReflTransGen R b y := by
  induction hpath with
  | single hedge =>
    rcases hedge with hedge | ⟨rfl, rfl⟩
    · exact .inl (.single hedge)
    · exact .inr ⟨.refl, .refl⟩
  | tail _ hedge ih =>
    rcases hedge with hedge | ⟨rfl, rfl⟩
    · exact ih.imp (fun hp => hp.tail hedge) fun hp => ⟨hp.1, hp.2.tail hedge⟩
    · rcases ih with hp | ⟨-, hp⟩
      · exact .inr ⟨hp.to_reflTransGen, .refl⟩
      · exact absurd hp hba

theorem acyclic_of_insert {α : Type} {R : α → α → Prop} {a b : α}
    (hR : ∀ x, ¬ Relation.TransGen R x x) (hba : ¬ Relation.ReflTransGen R b a) (x : α) :
    ¬ Relation.TransGen (fun x y => R x y ∨ x = a ∧ y = b) x x := by
  intro hcycle
  rcases path_of_insert hba hcycle with hp | ⟨hxa, hbx⟩
  · exact hR x hp
  · exact hba (hbx.trans hxa)

section Linking

variable (hpaired : ∀ {a h}, s.host? a = some h ↔ a ∈ s.attached h) (hn : s.host? a = none)

include hpaired hn

theorem not_attached_of_free (x : InstanceId) : a ∉ s.attached x := by
  intro hx
  have hhost := hpaired.mpr hx
  rw [hn] at hhost
  cases hhost

theorem paired_link (hh : s.state? h ≠ none) (ha : s.state? a ≠ none) {b x : InstanceId} :
    (s.linkAttachment h a).host? b = some x ↔ b ∈ (s.linkAttachment h a).attached x := by
  rw [host?_linkAttachment ha, mem_attached_linkAttachment hh]
  by_cases hb : b = a
  · subst hb
    simp [not_attached_of_free hpaired hn x, eq_comm]
  · simp [hb, hpaired]

theorem once_link (honce : ∀ h, (s.attached h).Nodup) (hh : s.state? h ≠ none) (x : InstanceId) :
    ((s.linkAttachment h a).attached x).Nodup :=
  nodup_attached_linkAttachment hh honce (not_attached_of_free hpaired hn h)

end Linking

theorem Consistent.not_attached (hc : Consistent s) (hn : s.host? a = none) (x : InstanceId) :
    a ∉ s.attached x :=
  not_attached_of_free hc.paired hn x

theorem Consistent.link (hc : Consistent s) (hh : s.state? h = some .live)
    (ha : s.state? a = some .live) (hn : s.host? a = none) : Consistent (s.linkAttachment h a) := by
  have hhe : s.state? h ≠ none := by simp [hh]
  have hae : s.state? a ≠ none := by simp [ha]
  refine ⟨paired_link hc.paired hn hhe hae, once_link hc.paired hn hc.once hhe, ?_⟩
  intro b x hx
  rw [host?_linkAttachment hae] at hx
  rw [state?_linkAttachment, state?_linkAttachment]
  split at hx
  next hb =>
    cases hx
    exact ⟨hb ▸ ha, hh⟩
  next => exact hc.live hx

theorem acyclic_link (hacyclic : ∀ x, ¬ Relation.TransGen s.HostedBy x x) (ha : s.state? a ≠ none)
    (hha : ¬ Relation.ReflTransGen s.HostedBy h a) (x : InstanceId) :
    ¬ Relation.TransGen (s.linkAttachment h a).HostedBy x x := by
  intro hcycle
  refine acyclic_of_insert hacyclic hha x (Relation.TransGen.mono ?_ x x hcycle)
  intro y z hyz
  rw [HostedBy, host?_linkAttachment ha] at hyz
  split at hyz
  next hy => exact .inr ⟨hy, (Option.some.inj hyz).symm⟩
  next => exact .inl hyz

namespace Forest

theorem acyclic_of_host (hf : Forest s) (hhost : ∀ {x y}, s'.host? x = some y → s.host? x = some y)
    (x : InstanceId) : ¬ Relation.TransGen s'.HostedBy x x :=
  fun hcycle => hf.acyclic x (Relation.TransGen.mono (fun _ _ hxy => hhost hxy) x x hcycle)

theorem no_host_of_not_live (hf : Forest s) (hx : s.state? x ≠ some .live) : s.host? x = none := by
  cases hh : s.host? x with
  | none => rfl
  | some host => exact absurd (hf.live hh).1 hx

theorem no_attachments_of_not_live (hf : Forest s) (hx : s.state? x ≠ some .live) :
    s.attached x = [] := by
  cases hl : s.attached x with
  | nil => rfl
  | cons a rest =>
    have ha : a ∈ s.attached x := by simp [hl]
    exact absurd (hf.live (hf.paired.mpr ha)).2 hx

theorem of_sameLinks (hf : Forest s) (hs : SameLinks s s')
    (hb : ∀ {x}, s.state? x = some .destroyed → s'.fields? x = s.fields? x) : Forest s' where
  paired := by
    intro a h
    rw [hs.host, hs.attached]
    exact hf.paired
  once := by
    intro h
    rw [hs.attached]
    exact hf.once h
  live := by
    intro a h hh
    rw [hs.state, hs.state]
    exact hf.live (hs.host a ▸ hh)
  acyclic := hf.acyclic_of_host fun {x _} hx => hs.host x ▸ hx
  bare := by
    intro x hx
    rw [hs.state] at hx
    rw [hb hx, hf.bare hx]

theorem of_population (hf : Forest s) (hp : s'.population = s.population) : Forest s' := by
  refine hf.of_sameLinks (sameLinks_of_population hp) ?_
  intro x _
  rw [fields?, instance?_of_population hp, fields?]

theorem allocate (hf : Forest s) (t : Table) (owner : Principal) (privileged : Bool) :
    Forest (s.allocate t owner privileged) where
  paired := by
    intro a h
    rw [host?_allocate, attached_allocate]
    exact hf.paired
  once := by
    intro h
    rw [attached_allocate]
    exact hf.once h
  live := by
    intro a h hh
    rw [host?_allocate] at hh
    obtain ⟨ha, hl⟩ := hf.live hh
    rw [state?_allocate, state?_allocate, ha, hl]
    simp
  acyclic := hf.acyclic_of_host fun hx => by rwa [host?_allocate] at hx
  bare := by
    intro x hx
    rw [state?_allocate] at hx
    split at hx
    · cases hx
    next hne =>
      rw [fields?, instance?_allocate, if_neg hne]
      exact hf.bare hx

theorem link (hf : Forest s) (hh : s.state? h = some .live) (ha : s.state? a = some .live)
    (hn : s.host? a = none) (hha : ¬ Relation.ReflTransGen s.HostedBy h a) :
    Forest (s.linkAttachment h a) where
  toConsistent := hf.toConsistent.link hh ha hn
  acyclic := acyclic_link hf.acyclic (by simp [ha]) hha
  bare := by
    intro x hx
    rw [state?_linkAttachment] at hx
    rw [fields?_linkAttachment]
    exact hf.bare hx

theorem unlink (hf : Forest s) (ha : a ∈ s.attached h) : Forest (s.unlinkAttachment h a) := by
  have hhost := hf.paired.mpr ha
  have honly : ∀ x, a ∈ s.attached x → x = h := fun x hx =>
    Option.some.inj ((hf.paired.mpr hx).symm.trans hhost)
  constructor
  · constructor
    · intro b x
      rw [host?_unlinkAttachment_of_host hhost, mem_attached_unlinkAttachment honly]
      by_cases hb : b = a
      · simp [hb]
      · simp [hb, hf.paired]
    · exact fun x => nodup_attached_unlinkAttachment hf.once
    · intro b x hx
      rw [host?_unlinkAttachment_of_host hhost] at hx
      rw [state?_unlinkAttachment, state?_unlinkAttachment]
      split at hx
      · cases hx
      · exact hf.live hx
  · refine hf.acyclic_of_host ?_
    intro x y hx
    rw [host?_unlinkAttachment_of_host hhost] at hx
    split at hx
    · cases hx
    · exact hx
  · intro x hx
    rw [state?_unlinkAttachment] at hx
    rw [fields?_unlinkAttachment]
    exact hf.bare hx

end Forest

theorem forest_of_population_empty (h : s.population = .empty) : Forest s := by
  have hnone := instance?_of_population_empty h
  have hhost : ∀ x, s.host? x = none := fun x => host?_of_state?_eq_none (by simp [state?, hnone])
  have hattached : ∀ x, s.attached x = [] :=
    fun x => attached_of_state?_eq_none (by simp [state?, hnone])
  constructor
  · constructor
    · intro a h
      simp [hhost, hattached]
    · intro h
      simp [hattached]
    · intro a h hh
      simp [hhost] at hh
  · intro a hcycle
    obtain ⟨b, hb, -⟩ := Relation.TransGen.head'_iff.mp hcycle
    simp [HostedBy, hhost] at hb
  · intro x hx
    simp [state?, hnone] at hx

theorem above_iff_of_hostedByWithin {n : Nat} {start : Option InstanceId} {answer : Bool}
    (h : s.hostedByWithin a n start = some answer) :
    answer = true ↔ ∃ y, start = some y ∧ Relation.ReflTransGen s.HostedBy y a := by
  induction n generalizing start with
  | zero =>
    cases start with
    | none =>
      cases h
      simp
    | some y => cases h
  | succ n ih =>
    cases start with
    | none =>
      cases h
      simp
    | some y =>
      simp only [hostedByWithin] at h
      split at h
      next heq =>
        cases h
        simp [heq, Relation.ReflTransGen.refl]
      next hne =>
        rw [ih h]
        simp only [Option.some.injEq, exists_eq_left']
        rw [Relation.ReflTransGen.cases_head_iff]
        simp [hne, HostedBy]

theorem not_above_of_hostedBy (hn : s.hostedBy h a = some false) (hne : h ≠ a) :
    ¬ Relation.ReflTransGen s.HostedBy h a := by
  intro hpath
  rcases Relation.ReflTransGen.cases_head hpath with heq | ⟨z, hz, hpath⟩
  · exact hne heq
  · exact Bool.false_ne_true ((above_iff_of_hostedByWithin hn).mpr ⟨z, hz, hpath⟩)

end Mudlib.Space
