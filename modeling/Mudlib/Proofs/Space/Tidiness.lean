import Mudlib.Proofs.Space.Tree
/-!
Links while bodies run.

Between the operations of a body a destruction may be under way further out, so the links are not as
orderly as they are at rest. `Tidy` is what holds of them throughout, and `Later` what a computation
may not change behind the back of a destruction that waits for it.
-/
set_option autoImplicit false

namespace Mudlib

/-- What a creation finds when it attaches an auxiliary is in order: the auxiliary has no host yet,
and host and auxiliary are both live or both destroyed. -/
def Event.Fits : Event → Prop
  | .joined _ _ host auxiliary former => former = none ∧
      (host = some .live ∧ auxiliary = some .live ∨
        host = some .destroyed ∧ auxiliary = some .destroyed)
  | _ => True

namespace Space

/-- The links as they are at rest: each is known to both of its ends, once, and both are live. -/
structure Consistent (s : Space) : Prop where
  paired : ∀ {a h}, s.host? a = some h ↔ a ∈ s.attached h
  once : ∀ h, (s.attached h).Nodup
  live : ∀ {a h}, s.host? a = some h → s.state? a = some .live ∧ s.state? h = some .live

/-- No link of an instance that is not destroyed leads to one that is, and no instance is listed
twice. -/
structure Sound (s : Space) : Prop where
  host : ∀ {a h}, s.host? a = some h → s.state? a ≠ some .destroyed → s.state? h ≠ some .destroyed
  attachment : ∀ {a h}, a ∈ s.attached h → s.state? h ≠ some .destroyed →
    s.state? a ≠ some .destroyed
  once : ∀ h, (s.attached h).Nodup
  exclusive : ∀ {a h h'}, a ∈ s.attached h → a ∈ s.attached h' → h = h'

inductive Linkable : Option LifecycleState → Option LifecycleState → Prop where
  | live : Linkable (some .live) (some .live)
  | pending (host : LifecycleState) : Linkable (some .pendingDestroy) (some host)
  | destroyed : Linkable (some .destroyed) (some .destroyed)

namespace Linkable

variable {attachment host : Option LifecycleState}

theorem exist (h : Linkable attachment host) : attachment ≠ none ∧ host ≠ none := by
  cases h <;> simp

theorem of_live_host (h : Linkable attachment (some .live)) :
    attachment = some .live ∨ attachment = some .pendingDestroy := by
  cases h with
  | live => exact .inl rfl
  | pending => exact .inr rfl

theorem of_pending_host (h : Linkable attachment (some .pendingDestroy)) :
    attachment = some .pendingDestroy := by
  cases h
  rfl

theorem of_destroyed_host (h : Linkable attachment (some .destroyed)) :
    attachment = some .pendingDestroy ∨ attachment = some .destroyed := by
  cases h with
  | pending => exact .inl rfl
  | destroyed => exact .inr rfl

theorem of_destroyed (h : Linkable (some .destroyed) host) : host = some .destroyed := by
  cases h
  rfl

theorem pending_of_exists (h : host ≠ none) : Linkable (some .pendingDestroy) host := by
  cases host with
  | none => exact absurd rfl h
  | some state => exact .pending state

end Linkable

/-- The links as they are at all times: a host that does not list an instance was destroyed before
it, while it waits for its own destruction. -/
structure Tidy (s : Space) : Prop where
  listed : ∀ {a h}, a ∈ s.attached h → s.host? a = some h
  once : ∀ h, (s.attached h).Nodup
  hosted : ∀ {a h}, s.host? a = some h →
    a ∈ s.attached h ∨ s.state? a = some .pendingDestroy ∧ s.state? h = some .destroyed
  states : ∀ {a h}, s.host? a = some h → Linkable (s.state? a) (s.state? h)

/-- What is pending stays pending, keeps its host among what is pending, and gets no new host; what
is destroyed stays so. -/
structure Later (s s' : Space) : Prop where
  pending : ∀ x, s'.state? x = some .pendingDestroy ↔ s.state? x = some .pendingDestroy
  destroyed : ∀ {x}, s.state? x = some .destroyed → s'.state? x = some .destroyed
  hostless : ∀ {a h}, s.state? a = some .pendingDestroy → s'.host? a = some h → s.host? a = some h
  held : ∀ {a h}, s.state? a = some .pendingDestroy → s.state? h = some .pendingDestroy →
    s.host? a = some h → s'.host? a = some h

namespace Later

variable {s s' s'' : Space}

theorem refl (s : Space) : Later s s :=
  ⟨fun _ => Iff.rfl, fun hx => hx, fun _ hx => hx, fun _ _ hx => hx⟩

theorem trans (h : Later s s') (h' : Later s' s'') : Later s s'' where
  pending := fun x => (h'.pending x).trans (h.pending x)
  destroyed := fun hx => h'.destroyed (h.destroyed hx)
  hostless := fun ha hh => h.hostless ha (h'.hostless ((h.pending _).mpr ha) hh)
  held := fun ha hh hah => h'.held ((h.pending _).mpr ha) ((h.pending _).mpr hh) (h.held ha hh hah)

end Later

structure SameLinks (s s' : Space) : Prop where
  state : ∀ x, s'.state? x = s.state? x
  host : ∀ x, s'.host? x = s.host? x
  attached : ∀ x, s'.attached x = s.attached x

variable {s s' : Space} {h a root : InstanceId} {order : List InstanceId}

theorem SameLinks.tidy (hs : SameLinks s s') (ht : Tidy s) : Tidy s' := by
  constructor
  · intro a h ha
    rw [hs.host]
    exact ht.listed (hs.attached h ▸ ha)
  · intro h
    rw [hs.attached]
    exact ht.once h
  · intro a h hh
    rw [hs.attached, hs.state, hs.state]
    exact ht.hosted (hs.host a ▸ hh)
  · intro a h hh
    rw [hs.state, hs.state]
    exact ht.states (hs.host a ▸ hh)

theorem SameLinks.later (hs : SameLinks s s') : Later s s' := by
  constructor
  · intro x
    rw [hs.state]
  · intro x hx
    rw [hs.state, hx]
  · intro a h _ hh
    rw [← hs.host, hh]
  · intro a h _ _ hh
    rw [hs.host, hh]

theorem sameLinks_of_population (hp : s'.population = s.population) : SameLinks s s' := by
  have hi := instance?_of_population hp
  constructor
  · intro x
    rw [state?, hi, state?]
  · intro x
    rw [host?, hi, host?]
  · intro x
    rw [attached, hi, attached]

theorem Consistent.tidy (hc : Consistent s) : Tidy s := by
  constructor
  · intro a h ha
    exact hc.paired.mpr ha
  · exact hc.once
  · intro a h hh
    exact .inl (hc.paired.mp hh)
  · intro a h hh
    obtain ⟨hal, hhl⟩ := hc.live hh
    rw [hal, hhl]
    exact .live

/-- Tidy links are sound again once all destructions that began later have ended. -/
theorem Tidy.sound (ht : Tidy s') (hc : Consistent s) (hl : Later s s') : Sound s' := by
  constructor
  · intro a h hh ha hd
    have hstates := ht.states hh
    rw [hd] at hstates
    rcases hstates.of_destroyed_host with hp | had
    · have hbefore := (hl.pending a).mp hp
      rw [(hc.live (hl.hostless hbefore hh)).1] at hbefore
      cases hbefore
    · exact ha had
  · intro a h ha hh hd
    have hstates := ht.states (ht.listed ha)
    rw [hd] at hstates
    exact hh hstates.of_destroyed
  · exact ht.once
  · intro a h h' ha ha'
    exact Option.some.inj ((ht.listed ha).symm.trans (ht.listed ha'))

theorem linkable_of_fits {former : Option InstanceId} {sh sa : Option LifecycleState}
    (hf : (Event.joined h a sh sa former).Fits) : Linkable sa sh := by
  obtain ⟨-, ⟨rfl, rfl⟩ | ⟨rfl, rfl⟩⟩ := hf
  · exact .live
  · exact .destroyed

theorem states_of_fits (hf : (Event.joined h a (s.state? h) (s.state? a) (s.host? a)).Fits) :
    s.state? h ≠ none ∧ s.state? a ≠ none ∧ s.state? a ≠ some .pendingDestroy := by
  obtain ⟨-, ⟨hh, ha⟩ | ⟨hh, ha⟩⟩ := hf
  · rw [hh, ha]
    simp
  · rw [hh, ha]
    simp

theorem Tidy.link (ht : Tidy s)
    (hf : (Event.joined h a (s.state? h) (s.state? a) (s.host? a)).Fits) :
    Tidy (s.linkAttachment h a) ∧ Later s (s.linkAttachment h a) := by
  obtain ⟨hh, ha, hp⟩ := states_of_fits hf
  -- what fits has no host yet, and whatever lists an instance is its host
  have hfree : ∀ x, a ∉ s.attached x := by
    intro x hx
    have hhost := ht.listed hx
    rw [hf.1] at hhost
    cases hhost
  have hstate : ∀ x, (s.linkAttachment h a).state? x = s.state? x := fun x => state?_linkAttachment
  have hhost : ∀ x, (s.linkAttachment h a).host? x = if x = a then some h else s.host? x :=
    fun x => host?_linkAttachment ha
  have hmem : ∀ b x, b ∈ (s.linkAttachment h a).attached x ↔
      b ∈ s.attached x ∨ x = h ∧ b = a := fun b x => mem_attached_linkAttachment hh
  constructor
  · constructor
    · intro b x hb
      rw [hhost]
      rcases (hmem b x).mp hb with hb | ⟨rfl, rfl⟩
      · rw [if_neg (fun hba : b = a => hfree x (hba ▸ hb))]
        exact ht.listed hb
      · rw [if_pos rfl]
    · exact fun x => nodup_attached_linkAttachment hh ht.once (hfree h)
    · intro b x hx
      rw [hhost] at hx
      rw [hmem, hstate, hstate]
      split at hx
      next hb =>
        cases hx
        exact .inl (.inr ⟨rfl, hb⟩)
      next hb => exact (ht.hosted hx).imp_left .inl
    · intro b x hx
      rw [hhost] at hx
      rw [hstate, hstate]
      split at hx
      next hb =>
        cases hx
        exact hb ▸ linkable_of_fits hf
      next hb => exact ht.states hx
  · constructor
    · intro x
      rw [hstate]
    · intro x hx
      rw [hstate, hx]
    · intro b x hb hx
      rw [hhost] at hx
      split at hx
      next hba => exact absurd (hba ▸ hb) hp
      next => exact hx
    · intro b x hb _ hx
      rw [hhost, if_neg (fun hba : b = a => hp (hba ▸ hb))]
      exact hx

theorem Tidy.drop (ht : Tidy s) (hstate : ∀ x, s'.state? x = s.state? x)
    (hhost : ∀ x, s'.host? x = if x = a then none else s.host? x)
    (hmem : ∀ b x, b ∈ s'.attached x ↔ b ∈ s.attached x ∧ b ≠ a)
    (honce : ∀ x, (s'.attached x).Nodup) : Tidy s' := by
  constructor
  · intro b x hb
    obtain ⟨hb, hne⟩ := (hmem b x).mp hb
    rw [hhost, if_neg hne]
    exact ht.listed hb
  · exact honce
  · intro b x hx
    rw [hhost] at hx
    rw [hmem, hstate, hstate]
    split at hx
    · cases hx
    next hne => exact (ht.hosted hx).imp_left fun hb => ⟨hb, hne⟩
  · intro b x hx
    rw [hhost] at hx
    rw [hstate, hstate]
    split at hx
    · cases hx
    next => exact ht.states hx

theorem Tidy.unlink (ht : Tidy s) (ha : s.host? a = some h) : Tidy (s.unlinkAttachment h a) := by
  have honly : ∀ x, a ∈ s.attached x → x = h := fun x hx =>
    Option.some.inj ((ht.listed hx).symm.trans ha)
  exact ht.drop (fun x => state?_unlinkAttachment) (fun x => host?_unlinkAttachment_of_host ha)
    (fun b x => mem_attached_unlinkAttachment honly)
    fun x => nodup_attached_unlinkAttachment ht.once

theorem Tidy.unlinkFromHost (ht : Tidy s) : Tidy (s.unlinkFromHost root) := by
  unfold Space.unlinkFromHost
  split
  next host hh => exact ht.unlink hh
  next => exact ht

theorem later_unlink (hh : s.state? h ≠ some .pendingDestroy) :
    Later s (s.unlinkAttachment h a) := by
  constructor
  · intro x
    rw [state?_unlinkAttachment]
  · intro x hx
    rw [state?_unlinkAttachment, hx]
  · intro b x _ hx
    rw [host?_unlinkAttachment] at hx
    split at hx
    · cases hx
    · exact hx
  · intro b x _ hp hx
    rw [host?_unlinkAttachment, if_neg]
    · exact hx
    · intro hc
      obtain ⟨rfl, hc⟩ := hc
      rw [hx] at hc
      cases hc
      exact hh hp

/-- Marking a whole tree leaves no live attachment below a pending host. -/
theorem Tidy.mark (ht : Tidy s) (htree : Tree s root order) : Tidy (s.markPending order) := by
  have hstate : ∀ x, (s.markPending order).state? x =
      if x ∈ order then some .pendingDestroy else s.state? x := fun x => htree.state?_mark
  constructor
  · intro a h ha
    rw [host?_markPending]
    rw [attached_markPending] at ha
    exact ht.listed ha
  · intro h
    rw [attached_markPending]
    exact ht.once h
  · intro a h hh
    rw [host?_markPending] at hh
    rw [attached_markPending]
    rcases ht.hosted hh with ha | ⟨hap, hhd⟩
    · exact .inl ha
    · right
      have ha : a ∉ order := htree.not_mem (by simp [hap])
      have hho : h ∉ order := htree.not_mem (by simp [hhd])
      rw [hstate, hstate, if_neg ha, if_neg hho]
      exact ⟨hap, hhd⟩
  · intro a h hh
    rw [host?_markPending] at hh
    rw [hstate, hstate]
    have hstates := ht.states hh
    by_cases ha : a ∈ order
    · rw [if_pos ha]
      by_cases hho : h ∈ order
      · rw [if_pos hho]
        exact .pending _
      · rw [if_neg hho]
        exact .pending_of_exists hstates.exist.2
    · rw [if_neg ha]
      by_cases hho : h ∈ order
      · rw [if_pos hho]
        rw [htree.live h hho] at hstates
        rcases hstates.of_live_host with hal | hap
        · rcases ht.hosted hh with hmem | ⟨hap, -⟩
          · exact absurd (htree.closed h hho a hmem hal) ha
          · rw [hal] at hap
            cases hap
        · rw [hap]
          exact .pending _
      · rw [if_neg hho]
        exact hstates

/-- A released tree takes no other instance's links along. -/
theorem Tidy.release (ht : Tidy s) (hpending : ∀ x ∈ order, s.state? x = some .pendingDestroy)
    (hinside : ∀ x ∈ order, ∀ h, s.host? x = some h → h ∈ order) : Tidy (s.releaseAll order) := by
  have hstate : ∀ x, (s.releaseAll order).state? x =
      if x ∈ order then some .destroyed else s.state? x := by
    intro x
    rw [state?_releaseAll]
    split
    next hx => rw [hpending x hx, Option.map_some]
    next => rfl
  -- what is attached to a pending host is pending itself
  have hwaiting : ∀ {a h}, s.host? a = some h → h ∈ order → s.state? a = some .pendingDestroy := by
    intro a h hh hho
    have hstates := ht.states hh
    rw [hpending h hho] at hstates
    exact hstates.of_pending_host
  constructor
  · intro a h ha
    rw [attached_releaseAll] at ha
    split at ha
    · cases ha
    next hho =>
      have hhost := ht.listed ha
      rw [host?_releaseAll, if_neg (fun hmem => hho (hinside a hmem h hhost))]
      exact hhost
  · intro h
    rw [attached_releaseAll]
    split
    · exact List.nodup_nil
    · exact ht.once h
  · intro a h hh
    rw [host?_releaseAll] at hh
    split at hh
    · cases hh
    next ha =>
      rw [attached_releaseAll, hstate, hstate, if_neg ha]
      by_cases hho : h ∈ order
      · rw [if_pos hho, if_pos hho]
        exact .inr ⟨hwaiting hh hho, rfl⟩
      · rw [if_neg hho, if_neg hho]
        exact ht.hosted hh
  · intro a h hh
    rw [host?_releaseAll] at hh
    split at hh
    · cases hh
    next ha =>
      rw [hstate, hstate, if_neg ha]
      by_cases hho : h ∈ order
      · rw [if_pos hho, hwaiting hh hho]
        exact .pending _
      · rw [if_neg hho]
        exact ht.states hh

section Tearing

variable {s₁ : Space} (htree : Tree s root order) (hl : Later (s.markPending order) s₁)

include htree hl

/-- The members of a tree keep their hosts while the hooks run, since all of them are pending; so
they are released together with their hosts. -/
theorem Tidy.torn (ht : Tidy s) (ht₁ : Tidy s₁) :
    Tidy ((s₁.unlinkFromHost root).releaseAll order) := by
  have hdropped : Tidy (s₁.unlinkFromHost root) := ht₁.unlinkFromHost
  refine hdropped.release ?_ ?_
  · intro x hx
    rw [state?_unlinkFromHost]
    exact htree.pending hl.pending hx
  · intro x hx host hh
    rw [host?_unlinkFromHost] at hh
    split at hh
    · cases hh
    next hne =>
      obtain ⟨above, habove, hmem⟩ := (htree.below x hx).resolve_left hne
      have hheld : s₁.host? x = some above := by
        refine hl.held ?_ ?_ ?_
        · rw [htree.state?_mark, if_pos hx]
        · rw [htree.state?_mark, if_pos habove]
        · rw [host?_markPending]
          exact ht.listed hmem
      rw [hheld] at hh
      cases hh
      exact habove

theorem Later.torn (hroot : s.state? root ≠ some .pendingDestroy) :
    Later s ((s₁.unlinkFromHost root).releaseAll order) := by
  constructor
  · intro x
    rw [state?_releaseAll, state?_unlinkFromHost]
    split
    next hx =>
      rw [htree.pending hl.pending hx, htree.live x hx]
      simp
    next hx => rw [hl.pending, htree.state?_mark, if_neg hx]
  · intro x hx
    have hout : x ∉ order := htree.not_mem (by simp [hx])
    rw [state?_releaseAll, if_neg hout, state?_unlinkFromHost]
    apply hl.destroyed
    rw [htree.state?_mark, if_neg hout, hx]
  · intro a h ha hh
    have hout : a ∉ order := htree.not_mem (by simp [ha])
    rw [host?_releaseAll, if_neg hout, host?_unlinkFromHost] at hh
    split at hh
    · cases hh
    next =>
      have hbefore := hl.hostless (by rw [htree.state?_mark, if_neg hout, ha]) hh
      rwa [host?_markPending] at hbefore
  · intro a h ha hp hh
    have hout : a ∉ order := htree.not_mem (by simp [ha])
    have hhout : h ∉ order := htree.not_mem (by simp [hp])
    have hne : a ≠ root := by
      intro heq
      exact hroot (heq ▸ ha)
    rw [host?_releaseAll, if_neg hout, host?_unlinkFromHost, if_neg hne]
    apply hl.held
    · rw [htree.state?_mark, if_neg hout, ha]
    · rw [htree.state?_mark, if_neg hhout, hp]
    · rw [host?_markPending, hh]

end Tearing

end Space

end Mudlib
