import Mudlib.Proofs.Space.Forest
set_option autoImplicit false

namespace Mudlib.Space

/-- The links form a forest, whatever states the instances are in. -/
structure Arboreal (s : Space) : Prop where
  paired : ∀ {a h}, s.host? a = some h ↔ a ∈ s.attached h
  once : ∀ h, (s.attached h).Nodup
  acyclic : ∀ a, ¬ Relation.TransGen s.HostedBy a a

abbrev Bears (s : Space) : InstanceId → InstanceId → Prop :=
  Relation.TransGen fun h a => a ∈ s.attached h

/-- The attachments form a forest, whatever is said about hosts: while a destruction waits for its
hooks, its root may have a host that is destroyed already. -/
structure Branching (s : Space) : Prop where
  once : ∀ h, (s.attached h).Nodup
  alone : ∀ {a h k}, a ∈ s.attached h → a ∈ s.attached k → h = k
  acyclic : ∀ h, ¬ s.Bears h h

/-- A walk from some roots has listed what is live below them: the attachments of an instance before
the instance, and what is not live left out together with all below it. -/
inductive PostOrder (s : Space) : List InstanceId → List InstanceId → Prop where
  | nil : PostOrder s [] []
  | live {id ids below rest} : s.state? id = some .live → PostOrder s (s.attached id) below →
      PostOrder s ids rest → PostOrder s (id :: ids) (below ++ id :: rest)
  | skip {id ids rest} : s.state? id ≠ some .live → PostOrder s ids rest →
      PostOrder s (id :: ids) rest

def Apart (s : Space) (a b : InstanceId) : Prop := ∀ x, s.Reaches a x → ¬ s.Reaches b x

variable {s s' : Space} {id x h a k root : InstanceId} {roots more order order' : List InstanceId}

namespace PostOrder

theorem append (h : PostOrder s roots order) (h' : PostOrder s more order') :
    PostOrder s (roots ++ more) (order ++ order') := by
  induction h with
  | nil => exact h'
  | live hl hbelow _ _ ih =>
    rw [List.cons_append, List.append_assoc, List.cons_append]
    exact .live hl hbelow ih
  | skip hl _ ih => exact .skip hl ih

theorem of_attached (h : PostOrder s (s.attached id) order) (hl : s.state? id = some .live) :
    PostOrder s [id] (order ++ [id]) :=
  .live hl h .nil

theorem getLast?_eq (h : PostOrder s [id] order) (hl : s.state? id = some .live) :
    order.getLast? = some id := by
  cases h with
  | live _ _ hrest =>
    cases hrest
    exact List.getLast?_concat
  | skip hn _ => exact absurd hl hn

theorem reached (h : PostOrder s roots order) : ∀ x ∈ order, ∃ root ∈ roots, s.Reaches root x := by
  induction h with
  | nil => exact fun _ hx => nomatch hx
  | @live id ids below rest _ _ _ ihb ihr =>
    intro x hx
    rcases List.mem_append.mp hx with hx | hx
    · obtain ⟨a, ha, hax⟩ := ihb x hx
      exact ⟨id, List.mem_cons_self, .head ha hax⟩
    · rcases List.mem_cons.mp hx with rfl | hx
      · exact ⟨x, List.mem_cons_self, .refl⟩
      · obtain ⟨root, hroot, hreach⟩ := ihr x hx
        exact ⟨root, List.mem_cons_of_mem _ hroot, hreach⟩
  | skip _ _ ih =>
    intro x hx
    obtain ⟨root, hroot, hreach⟩ := ih x hx
    exact ⟨root, List.mem_cons_of_mem _ hroot, hreach⟩

end PostOrder

/-- Roots that have nothing in common are visited one after the other. -/
theorem postOrder_collectEach
    {visit : InstanceId → List InstanceId → Option (List InstanceId)}
    (hvisit : ∀ id order order', (∀ x ∈ order, ¬ s.Reaches id x) →
      visit id order = some order' → ∃ added, order' = order ++ added ∧ PostOrder s [id] added)
    (hr : roots.Pairwise s.Apart) (hnew : ∀ id ∈ roots, ∀ x ∈ order, ¬ s.Reaches id x)
    (h : collectEach visit roots order = some order') :
    ∃ added, order' = order ++ added ∧ PostOrder s roots added := by
  induction roots generalizing order with
  | nil =>
    cases h
    exact ⟨[], (List.append_nil _).symm, .nil⟩
  | cons id roots ih =>
    obtain ⟨hid, hr⟩ := List.pairwise_cons.mp hr
    simp only [collectEach] at h
    split at h
    · cases h
    next middle hm =>
      obtain ⟨first, rfl, hfirst⟩ := hvisit id order middle (hnew id List.mem_cons_self) hm
      have hlater : ∀ root ∈ roots, ∀ x ∈ order ++ first, ¬ s.Reaches root x := by
        intro root hroot x hx hreach
        rcases List.mem_append.mp hx with hx | hx
        · exact hnew root (List.mem_cons_of_mem _ hroot) x hx hreach
        · obtain ⟨y, hy, hyx⟩ := hfirst.reached x hx
          rw [List.mem_singleton.mp hy] at hyx
          exact hid root hroot x hyx hreach
      obtain ⟨added, rfl, hadded⟩ := ih hr hlater h
      exact ⟨first ++ added, List.append_assoc _ _ _, hfirst.append hadded⟩

theorem Forest.arboreal (hf : Forest s) : Arboreal s := ⟨hf.paired, hf.once, hf.acyclic⟩

theorem Arboreal.branching (hf : Arboreal s) : Branching s where
  once := hf.once
  alone := fun hh hk => Option.some.inj ((hf.paired.mpr hh).symm.trans (hf.paired.mpr hk))
  acyclic := by
    intro h hcycle
    refine hf.acyclic h (Relation.TransGen.mono ?_ h h (Relation.transGen_swap.mpr hcycle))
    exact fun _ _ ha => hf.paired.mpr ha

namespace Branching

variable (hb : Branching s)

include hb

theorem of_sublist (hs : ∀ h, (s'.attached h).Sublist (s.attached h)) : Branching s' where
  once := fun h => (hb.once h).sublist (hs h)
  alone := fun hh hk => hb.alone ((hs _).subset hh) ((hs _).subset hk)
  acyclic := fun h hcycle =>
    hb.acyclic h (Relation.TransGen.mono (fun _ _ ha => (hs _).subset ha) h h hcycle)

theorem not_reaches_host (ha : a ∈ s.attached h) : ¬ s.Reaches a h :=
  fun hr => hb.acyclic h (.head' ha hr)

/-- Attachments of one host have nothing in common: one of them would be below the other, and so
would their host. -/
theorem apart (ha : a ∈ s.attached h) (hk : k ∈ s.attached h) (hne : a ≠ k) : s.Apart a k := by
  have hnot : ∀ {a k}, a ∈ s.attached h → k ∈ s.attached h → a ≠ k → ¬ s.Reaches a k := by
    intro a k ha hk hne hak
    rcases Relation.ReflTransGen.cases_tail hak with heq | ⟨y, hay, hyk⟩
    · exact hne heq.symm
    · obtain rfl := hb.alone hyk hk
      exact hb.not_reaches_host ha hay
  intro x hax hkx
  -- from an instance upwards there is only one way
  have hunique : Relator.RightUnique fun a h => a ∈ s.attached h := fun _ _ _ => hb.alone
  rcases Relation.ReflTransGen.total_of_right_unique hunique hax.swap hkx.swap with hak | hka
  · exact hnot hk ha hne.symm hak.swap
  · exact hnot ha hk hne hka.swap

theorem pairwise_apart (h : InstanceId) : (s.attached h).Pairwise s.Apart :=
  (hb.once h).imp_of_mem fun ha hk hne => hb.apart ha hk hne

/-- In a forest no instance is met again, so it is listed when all below it is. -/
theorem postOrder_collectWithin {n : Nat} (hnew : ∀ x ∈ order, ¬ s.Reaches id x)
    (h : s.collectWithin n id order = some order') :
    ∃ added, order' = order ++ added ∧ PostOrder s [id] added := by
  induction n generalizing id order order' with
  | zero => cases h
  | succ n ih =>
    have hskip : s.state? id ≠ some .live → order' = order →
        ∃ added, order' = order ++ added ∧ PostOrder s [id] added := fun hl heq =>
      ⟨[], by rw [heq, List.append_nil], .skip hl .nil⟩
    simp only [collectWithin] at h
    split at h
    next hi => exact hskip (by simp [state?, hi]) (Option.some.inj h).symm
    next i hi =>
      have hnot : id ∉ order := fun hmem => hnew id hmem .refl
      cases hlive : i.isLive with
      | false =>
        have hl : s.state? id ≠ some .live := by simpa [state?, hi, Instance.isLive] using hlive
        rw [hlive] at h
        exact hskip hl (Option.some.inj h).symm
      | true =>
        have hl : s.state? id = some .live := by simpa [state?, hi, Instance.isLive] using hlive
        have hattached : s.attached id = i.attachments := by simp [attached, hi]
        simp only [hlive, hnot, Bool.not_true] at h
        obtain ⟨middle, hm, rfl⟩ := Option.map_eq_some_iff.mp h
        rw [← hattached] at hm
        obtain ⟨added, rfl, hadded⟩ := postOrder_collectEach (fun _ _ _ hx => ih hx)
          (hb.pairwise_apart id) (fun a ha x hx hr => hnew x hx (.head ha hr)) hm
        exact ⟨added ++ [id], List.append_assoc _ _ _, hadded.of_attached hl⟩

theorem postOrder_of_collectWithin {n : Nat} (h : s.collectWithin n root [] = some order) :
    PostOrder s [root] order := by
  obtain ⟨added, heq, hp⟩ := hb.postOrder_collectWithin (fun x hx => absurd hx List.not_mem_nil) h
  obtain rfl : order = added := heq
  exact hp

end Branching

namespace Arboreal

variable (hf : Arboreal s)

include hf

theorem reaches_iff : s.Reaches h a ↔ Relation.ReflTransGen s.HostedBy a h := by
  have hswap : (fun h a => a ∈ s.attached h) = Function.swap s.HostedBy := by
    funext h a
    exact propext hf.paired.symm
  rw [Reaches, hswap, Relation.reflTransGen_swap]

theorem link (hh : s.state? h ≠ none) (ha : s.state? a ≠ none) (hn : s.host? a = none)
    (hha : ¬ Relation.ReflTransGen s.HostedBy h a) : Arboreal (s.linkAttachment h a) :=
  ⟨paired_link hf.paired hn hh ha, once_link hf.paired hn hf.once hh, acyclic_link hf.acyclic ha hha⟩

theorem postOrder_attachmentTree (h : s.attachmentTree root = some order) :
    PostOrder s [root] order ∧ order.Nodup :=
  ⟨hf.branching.postOrder_of_collectWithin h, (tree_of_attachmentTree h).nodup⟩

end Arboreal

end Mudlib.Space
