import Mathlib.Logic.Relation
import Mudlib.Proofs.Space.Links
set_option autoImplicit false

namespace Mudlib.Space

def Closed (s : Space) (order : List InstanceId) : Prop :=
  ∀ h ∈ order, ∀ a ∈ s.attached h, s.state? a = some .live → a ∈ order

abbrev Reaches (s : Space) : InstanceId → InstanceId → Prop :=
  Relation.ReflTransGen fun h a => a ∈ s.attached h

def Below (s : Space) (a h : InstanceId) : Prop := s.state? h = some .live ∧ a ∈ s.attached h

theorem not_transGen_self_of_acc {α : Type} {R : α → α → Prop} {a : α} (ha : Acc R a) :
    ¬ Relation.TransGen R a a := by
  induction ha with
  | intro a _ ih =>
    intro hcycle
    obtain ⟨b, hab, hba⟩ := Relation.TransGen.tail'_iff.mp hcycle
    exact ih b hba (.head' hba hab)

/-- What visiting some roots adds to a list of instances. A walk that has come to an end has met no
instance below itself, so that it lists none twice. -/
structure Visited (s : Space) (roots order order' : List InstanceId) : Prop where
  keeps : ∀ x ∈ order, x ∈ order'
  closed : Closed s order → Closed s order'
  rooted : ∀ x ∈ roots, s.state? x = some .live → x ∈ order'
  found : ∀ x ∈ order', x ∈ order ∨
    s.state? x = some .live ∧ (x ∈ roots ∨ ∃ h ∈ order', x ∈ s.attached h)
  reached : ∀ x ∈ order', x ∈ order ∨ ∃ root ∈ roots, Relation.ReflTransGen s.Below x root
  grounded : (∀ x ∈ order, Acc s.Below x) →
    (∀ x ∈ roots, Acc s.Below x) ∧ ∀ x ∈ order', Acc s.Below x
  nodup : (∀ x ∈ order, Acc s.Below x) → order.Nodup → order'.Nodup

namespace Visited

variable {s : Space} {roots more order order' order'' : List InstanceId} {id : InstanceId}

theorem nil (s : Space) (order : List InstanceId) : Visited s [] order order :=
  ⟨fun _ hx => hx, fun hc => hc, by simp, fun _ hx => .inl hx, fun _ hx => .inl hx,
    fun ho => ⟨List.forall_mem_nil _, ho⟩, fun _ hn => hn⟩

theorem skip (h : s.state? id = some .live → id ∈ order) : Visited s [id] order order where
  keeps := fun _ hx => hx
  closed := fun hc => hc
  rooted := by simpa using h
  found := fun _ hx => .inl hx
  reached := fun _ hx => .inl hx
  grounded := by
    refine fun ho => ⟨List.forall_mem_singleton.mpr ?_, ho⟩
    by_cases hl : s.state? id = some .live
    · exact ho id (h hl)
    · exact .intro id fun a ha => absurd ha.1 hl
  nodup := fun _ hn => hn

theorem append (h : Visited s roots order order') (h' : Visited s more order' order'') :
    Visited s (roots ++ more) order order'' where
  keeps := fun x hx => h'.keeps x (h.keeps x hx)
  closed := fun hc => h'.closed (h.closed hc)
  rooted := by
    intro x hx hl
    rcases List.mem_append.mp hx with hx | hx
    · exact h'.keeps x (h.rooted x hx hl)
    · exact h'.rooted x hx hl
  found := by
    intro x hx
    rcases h'.found x hx with hx | ⟨hl, hx | hx⟩
    · rcases h.found x hx with hx | ⟨hl, hx | ⟨host, hh, hx⟩⟩
      · exact .inl hx
      · exact .inr ⟨hl, .inl (List.mem_append_left _ hx)⟩
      · exact .inr ⟨hl, .inr ⟨host, h'.keeps host hh, hx⟩⟩
    · exact .inr ⟨hl, .inl (List.mem_append_right _ hx)⟩
    · exact .inr ⟨hl, .inr hx⟩
  reached := by
    intro x hx
    rcases h'.reached x hx with hx | ⟨root, hr, hx⟩
    · rcases h.reached x hx with hx | ⟨root, hr, hx⟩
      · exact .inl hx
      · exact .inr ⟨root, List.mem_append_left _ hr, hx⟩
    · exact .inr ⟨root, List.mem_append_right _ hr, hx⟩
  grounded := by
    intro ho
    obtain ⟨hroots, ho'⟩ := h.grounded ho
    obtain ⟨hmore, ho''⟩ := h'.grounded ho'
    exact ⟨List.forall_mem_append.mpr ⟨hroots, hmore⟩, ho''⟩
  nodup := fun ho hn => h'.nodup (h.grounded ho).2 (h.nodup ho hn)

/-- A live root is listed after what visiting its attachments adds. -/
theorem root (h : Visited s (s.attached id) order order') (hl : s.state? id = some .live)
    (hnew : id ∉ order) : Visited s [id] order (order' ++ [id]) where
  keeps := fun x hx => List.mem_append_left _ (h.keeps x hx)
  closed := by
    intro hc host hh a ha hal
    apply List.mem_append_left
    rcases List.mem_append.mp hh with hh | hh
    · exact h.closed hc host hh a ha hal
    · rw [List.mem_singleton.mp hh] at ha
      exact h.rooted a ha hal
  rooted := by simp
  found := by
    intro x hx
    rcases List.mem_append.mp hx with hx | hx
    · rcases h.found x hx with hx | ⟨hxl, hx | ⟨host, hh, hx⟩⟩
      · exact .inl hx
      · exact .inr ⟨hxl, .inr ⟨id, by simp, hx⟩⟩
      · exact .inr ⟨hxl, .inr ⟨host, List.mem_append_left _ hh, hx⟩⟩
    · rw [List.mem_singleton.mp hx]
      exact .inr ⟨hl, .inl (by simp)⟩
  reached := by
    intro x hx
    rcases List.mem_append.mp hx with hx | hx
    · rcases h.reached x hx with hx | ⟨a, ha, hx⟩
      · exact .inl hx
      · exact .inr ⟨id, by simp, hx.tail ⟨hl, ha⟩⟩
    · rw [List.mem_singleton.mp hx]
      exact .inr ⟨id, by simp, .refl⟩
  grounded := by
    intro ho
    obtain ⟨hattached, ho'⟩ := h.grounded ho
    have hid : Acc s.Below id := .intro id fun a ha => hattached a ha.2
    exact ⟨List.forall_mem_singleton.mpr hid,
      List.forall_mem_append.mpr ⟨ho', List.forall_mem_singleton.mpr hid⟩⟩
  nodup := by
    intro ho hn
    have hid : Acc s.Below id := .intro id fun a ha => (h.grounded ho).1 a ha.2
    refine List.nodup_append.mpr ⟨h.nodup ho hn, by simp, ?_⟩
    rintro x hx y hy rfl
    rw [List.mem_singleton.mp hy] at hx
    rcases h.reached id hx with hx | ⟨a, ha, hida⟩
    · exact hnew hx
    · exact not_transGen_self_of_acc hid (.tail' hida ⟨hl, ha⟩)

end Visited

variable {s : Space} {id : InstanceId} {order order' : List InstanceId}

theorem visited_collectEach {visit : InstanceId → List InstanceId → Option (List InstanceId)}
    (hvisit : ∀ id order order', visit id order = some order' → Visited s [id] order order')
    {ids : List InstanceId} (h : collectEach visit ids order = some order') :
    Visited s ids order order' := by
  induction ids generalizing order with
  | nil =>
    cases h
    exact .nil s _
  | cons id ids ih =>
    simp only [collectEach] at h
    split at h
    · cases h
    next middle hm => exact (hvisit id order middle hm).append (ih h)

theorem visited_collectWithin {n : Nat} (h : s.collectWithin n id order = some order') :
    Visited s [id] order order' := by
  induction n generalizing id order order' with
  | zero => cases h
  | succ n ih =>
    simp only [collectWithin] at h
    split at h
    next hi =>
      cases h
      exact .skip (by simp [state?, hi])
    next i hi =>
      split at h
      next hskip =>
        cases h
        refine .skip ?_
        intro hl
        have hlive : i.isLive = true := by simpa [state?, hi, Instance.isLive] using hl
        simpa [hlive] using hskip
      next hskip =>
        obtain ⟨middle, hm, rfl⟩ := Option.map_eq_some_iff.mp h
        have hl : s.state? id = some .live := by
          cases hlive : i.isLive with
          | true => simpa [state?, hi, Instance.isLive] using hlive
          | false => simp [hlive] at hskip
        have hattached : s.attached id = i.attachments := by simp [attached, hi]
        have hmany := visited_collectEach (fun _ _ _ => ih) hm
        rw [← hattached] at hmany
        refine hmany.root hl ?_
        intro hmem
        simp [hmem] at hskip

/-- The list of a destruction: the live instances below its root, the root among them. -/
structure Tree (s : Space) (root : InstanceId) (order : List InstanceId) : Prop where
  live : ∀ x ∈ order, s.state? x = some .live
  rooted : s.state? root = some .live → root ∈ order
  closed : Closed s order
  below : ∀ x ∈ order, x = root ∨ ∃ h ∈ order, x ∈ s.attached h
  reached : ∀ x ∈ order, s.Reaches root x
  nodup : order.Nodup

theorem tree_of_attachmentTree (h : s.attachmentTree id = some order) : Tree s id order := by
  have hv := visited_collectWithin h
  constructor
  · intro x hx
    rcases hv.found x hx with hx | ⟨hl, -⟩
    · cases hx
    · exact hl
  · exact hv.rooted id (by simp)
  · exact hv.closed fun h hh => nomatch hh
  · intro x hx
    rcases hv.found x hx with hx | ⟨-, hx | hx⟩
    · cases hx
    · exact .inl (by simpa using hx)
    · exact .inr hx
  · intro x hx
    rcases hv.reached x hx with hx | ⟨root, hr, hx⟩
    · cases hx
    · rw [List.mem_singleton.mp hr] at hx
      exact Relation.ReflTransGen.mono (fun _ _ hha => hha.2) _ _ hx.swap
  · exact hv.nodup (List.forall_mem_nil _) List.nodup_nil

def SamePending (s s' : Space) : Prop :=
  ∀ x, s'.state? x = some .pendingDestroy ↔ s.state? x = some .pendingDestroy

namespace Tree

variable {s₁ : Space} {root x : InstanceId}

theorem not_mem (htree : Tree s root order) (hx : s.state? x ≠ some .live) : x ∉ order :=
  fun hmem => hx (htree.live x hmem)

theorem state?_mark (htree : Tree s root order) : (s.markPending order).state? x =
    if x ∈ order then some .pendingDestroy else s.state? x := by
  rw [state?_markPending]
  split
  next hx => rw [htree.live x hx, Option.map_some]
  next => rfl

/-- The members of a tree are pending as long as its destruction waits. -/
theorem pending (htree : Tree s root order) (hp : SamePending (s.markPending order) s₁)
    (hx : x ∈ order) : s₁.state? x = some .pendingDestroy := by
  rw [hp, htree.state?_mark, if_pos hx]

end Tree

end Mudlib.Space
