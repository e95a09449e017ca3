import Mudlib.Proofs.Space.Stepwise
set_option autoImplicit false

namespace Mudlib

def LifecycleState.stage : Option LifecycleState → Nat
  | none => 0
  | some .live => 1
  | some .pendingDestroy => 2
  | some .destroyed => 3

theorem LifecycleState.stage_injective : Function.Injective stage := by
  intro a b
  rcases a with _ | _ | _ | _ <;> rcases b with _ | _ | _ | _ <;> simp [stage]

namespace Space

open LifecycleState

/-- One change of a space. Only live instances are marked, only pending ones released, and none that
is pending is attached. -/
inductive Move : Space → Space → Prop where
  | record (s : Space) (e : Event) : Move s (s.record e)
  | resolve (s : Space) (registry : Registry) : Move s { s with registry := registry }
  | chain (s : Space) (chain : List DefinitionId) : Move s { s with chain := chain }
  | assign {s s' : Space} {id : InstanceId} {field : String} {v : Value} :
      s.assign id field v = .ok s' → Move s s'
  | allocate (s : Space) (t : Table) (owner : Principal) (privileged : Bool) :
      Move s (s.allocate t owner privileged)
  | link {s : Space} {a : InstanceId} (h : InstanceId) :
      s.state? a ≠ some .pendingDestroy → Move s (s.linkAttachment h a)
  | unlink (s : Space) (h a : InstanceId) : Move s (s.unlinkAttachment h a)
  | mark {s : Space} {ids : List InstanceId} :
      (∀ x ∈ ids, s.state? x = some .live) → Move s (s.markPending ids)
  | release {s : Space} {ids : List InstanceId} :
      (∀ x ∈ ids, s.state? x = some .pendingDestroy) → Move s (s.releaseAll ids)

abbrev Moves : Space → Space → Prop := Relation.ReflTransGen Move

structure Aged (s s' : Space) : Prop where
  stage : ∀ x, stage (s.state? x) ≤ stage (s'.state? x)
  table : ∀ {x t}, s.table? x = some t → s'.table? x = some t
  destroyHook : s'.destroyHook = s.destroyHook

variable {s s' s₁ u : Space} {x h a root : InstanceId} {busy order : List InstanceId}

theorem aged_order : Run.Order Aged where
  refl := fun _ => ⟨fun _ => Nat.le_refl _, id, rfl⟩
  trans := fun h h' => ⟨fun x => Nat.le_trans (h.stage x) (h'.stage x), fun ht => h'.table (h.table ht),
    h'.destroyHook.trans h.destroyHook⟩

theorem Aged.exist (ha : Aged s s') (hx : s.state? x ≠ none) : s'.state? x ≠ none := by
  intro hnone
  have hle := ha.stage x
  rw [hnone] at hle
  exact hx (stage_injective (Nat.le_zero.mp hle))

theorem aged_of_same (hs : ∀ x, s'.state? x = s.state? x) (ht : ∀ x, s'.table? x = s.table? x)
    (hd : s'.destroyHook = s.destroyHook) : Aged s s' where
  stage := fun x => Nat.le_of_eq (congrArg _ (hs x).symm)
  table := fun h => (ht _).trans h
  destroyHook := hd

theorem destroyHook_foldl_update (f : Instance → Instance) :
    (order.foldl (fun s id => s.update id f) s).destroyHook = s.destroyHook := by
  induction order generalizing s with
  | nil => rfl
  | cons id ids ih => exact ih

theorem aged_of_move (hm : Move s s') : Aged s s' := by
  cases hm with
  | record e => exact aged_of_same (fun _ => rfl) (fun _ => rfl) rfl
  | resolve registry => exact aged_of_same (fun _ => rfl) (fun _ => rfl) rfl
  | chain chain => exact aged_of_same (fun _ => rfl) (fun _ => rfl) rfl
  | assign hs =>
    obtain ⟨i, -, -, rfl⟩ := assign_eq_ok hs
    exact aged_of_same (fun _ => map_instance?_update s _ Instance.state fun _ => rfl)
      (fun _ => map_instance?_update s _ Instance.table fun _ => rfl) rfl
  | allocate t owner privileged =>
    refine ⟨?_, ?_, rfl⟩
    · intro x
      rw [state?_allocate]
      split
      next hx => simp [hx, state?, instance?_nextId, stage]
      next => exact Nat.le_refl _
    · intro x t' ht
      rw [table?, instance?_allocate, if_neg]
      · exact ht
      · rintro rfl
        rw [table?, instance?_nextId] at ht
        cases ht
  | link h _ =>
    exact aged_of_same (fun _ => state?_linkAttachment) (fun _ => table?_linkAttachment) rfl
  | unlink h a =>
    exact aged_of_same (fun _ => state?_unlinkAttachment) (fun _ => table?_unlinkAttachment) rfl
  | mark hlive =>
    refine ⟨?_, fun ht => table?_markPending.trans ht, destroyHook_foldl_update _⟩
    intro x
    rw [state?_markPending]
    split
    next hx => simp [hlive x hx, stage]
    next => exact Nat.le_refl _
  | release hpending =>
    refine ⟨?_, fun ht => table?_releaseAll.trans ht, destroyHook_foldl_update _⟩
    intro x
    rw [state?_releaseAll]
    split
    next hx => simp [hpending x hx, stage]
    next => exact Nat.le_refl _

theorem aged_of_moves (hm : Moves s s') : Aged s s' := by
  induction hm with
  | refl => exact aged_order.refl s
  | tail _ hlast ih => exact aged_order.trans ih (aged_of_move hlast)

theorem pending_between (hu : Moves s u) (hs' : Moves u s') (hx : s.state? x = some .pendingDestroy)
    (hx' : s'.state? x = some .pendingDestroy) : u.state? x = some .pendingDestroy := by
  have hfrom := (aged_of_moves hu).stage x
  have hto := (aged_of_moves hs').stage x
  rw [hx] at hfrom
  rw [hx'] at hto
  exact stage_injective (Nat.le_antisymm hto hfrom)

theorem hookOf?_of_aged (ha : Aged s s') (hx : s.state? x ≠ none) (hook : String) :
    s'.hookOf? x hook = s.hookOf? x hook := by
  have htable : ∀ u : Space, u.hookOf? x hook = (u.table? x).bind fun t => t.method? hook := by
    intro u
    rw [hookOf?, table?, Option.bind_map]
    rfl
  obtain ⟨i, hi⟩ := Option.ne_none_iff_exists'.mp (mt state?_eq_none_iff.mpr hx)
  have ht : s.table? x = some i.table := by rw [table?, hi, Option.map_some]
  rw [htable, htable, ht, ha.table ht]

def ListedByHost (s : Space) (x : InstanceId) : Prop := ∀ h, x ∈ s.attached h → s.host? x = some h

theorem listedByHost_of_same (hl : ListedByHost s x) (hh : s'.host? x = s.host? x)
    (ha : ∀ h, x ∈ s'.attached h → x ∈ s.attached h) : ListedByHost s' x :=
  fun h hmem => hh.trans (hl h (ha h hmem))

/-- While an instance is pending nothing attaches it, and what gives it up is its host. -/
theorem listedByHost_of_move (hm : Move s s') (hx : s.state? x = some .pendingDestroy)
    (hx' : s'.state? x = some .pendingDestroy) (hl : ListedByHost s x) : ListedByHost s' x := by
  cases hm with
  | record e => exact hl
  | resolve registry => exact hl
  | chain chain => exact hl
  | assign hs =>
    obtain ⟨i, -, -, rfl⟩ := assign_eq_ok hs
    refine listedByHost_of_same hl (host?_update s _ fun _ => rfl) fun h hmem => ?_
    rw [attached_update] at hmem
    · exact hmem
    · intro i
      rfl
  | allocate t owner privileged =>
    refine listedByHost_of_same hl host?_allocate fun h hmem => ?_
    rwa [attached_allocate] at hmem
  | @link a h ha =>
    have hne : x ≠ a := fun heq => ha (heq ▸ hx)
    exact listedByHost_of_same hl (host?_linkAttachment_of_ne hne) fun k hmem =>
      mem_attached_of_linkAttachment hne hmem
  | unlink h a =>
    intro k hmem
    rw [attached_unlinkAttachment] at hmem
    rw [host?_unlinkAttachment]
    split at hmem
    next hk =>
      obtain ⟨hmem, hne⟩ := List.mem_filter.mp hmem
      rw [if_neg (fun hc => (by simpa using hne : x ≠ a) hc.1), hk]
      exact hl h hmem
    next hk =>
      have hhost := hl k hmem
      rw [if_neg, hhost]
      rintro ⟨rfl, hc⟩
      exact hk (Option.some.inj (hhost.symm.trans hc))
  | mark _ =>
    refine listedByHost_of_same hl host?_markPending fun h hmem => ?_
    rwa [attached_markPending] at hmem
  | @release ids hpending =>
    -- what is pending before and after has not been released
    have hout : x ∉ ids := by
      intro hmem
      rw [state?_releaseAll, if_pos hmem, hx] at hx'
      cases hx'
    refine listedByHost_of_same hl ?_ fun h hmem => ?_
    · rw [host?_releaseAll, if_neg hout]
    · rw [attached_releaseAll] at hmem
      split at hmem
      · cases hmem
      · exact hmem

theorem listedByHost_of_moves (hm : Moves s s') (hx : s.state? x = some .pendingDestroy)
    (hx' : s'.state? x = some .pendingDestroy) (hl : ListedByHost s x) : ListedByHost s' x := by
  induction hm with
  | refl => exact hl
  | tail hfirst hlast ih =>
    have hmiddle := pending_between hfirst (.single hlast) hx hx'
    exact listedByHost_of_move hlast hmiddle hx' (ih hmiddle)

theorem not_mem_attached_tear (hl : ListedByHost s root) (h : InstanceId) :
    root ∉ (s.tear root order).attached h := by
  intro hmem
  rw [tear, attached_releaseAll] at hmem
  split at hmem
  · cases hmem
  · rw [attached_unlinkFromHost] at hmem
    split at hmem
    · simp at hmem
    next hne => exact hne (hl h hmem)

/-- Moves during which the only hooks of instances that were pending before are those of the
destruction that waits for them. -/
structure Nested (busy : List InstanceId) (s s' : Space) : Prop where
  moves : Moves s s'
  hooked : ∃ events, s'.journal = events ++ s.journal ∧
    ∀ x, s.state? x = some .pendingDestroy → .hooked x ∈ events → x ∈ busy

theorem nested_of_move (hm : Move s s') (hj : s'.journal = s.journal) : Nested busy s s' :=
  ⟨.single hm, [], hj, fun _ _ hin => nomatch hin⟩

theorem nested_record (s : Space) {e : Event} (he : ∀ x, e = .hooked x → x ∈ busy) :
    Nested busy s (s.record e) :=
  ⟨.single (.record s e), [e], rfl, fun x _ hin => he x (List.mem_singleton.mp hin).symm⟩

theorem Nested.trans {s'' : Space} (h : Nested busy s s') (hp : SamePending s s')
    (h' : Nested busy s' s'') : Nested busy s s'' := by
  obtain ⟨events, hj, hin⟩ := h.hooked
  obtain ⟨more, hj', hin'⟩ := h'.hooked
  refine ⟨h.moves.trans h'.moves, more ++ events, by rw [hj', hj, List.append_assoc], ?_⟩
  intro x hx hmem
  rcases List.mem_append.mp hmem with hmem | hmem
  · exact hin' x ((hp x).mpr hx) hmem
  · exact hin x hx hmem

theorem moves_unlinkFromHost (s : Space) (id : InstanceId) : Moves s (s.unlinkFromHost id) := by
  unfold unlinkFromHost
  split
  · exact .single (.unlink s _ id)
  · exact .refl

theorem nested_join {s₀ : Space} {host made : InstanceId} (hmade : s₀.instance? made = none)
    (h : Nested busy s₀ s) (hp : SamePending s₀ s) : Nested busy s₀ (s.join host made) := by
  have hrecorded : Nested busy s (s.record (.joined host made (s.state? host) (s.state? made)
      (s.host? made))) := nested_record s fun _ he => nomatch he
  refine (h.trans hp hrecorded).trans ?_ (nested_of_move (.link host ?_) rfl)
  · exact samePending_order.trans hp (samePending_of_population rfl)
  · -- what was not there before the creation cannot be pending after it
    rw [state?_record, ne_eq, hp, state?, hmade]
    simp

theorem nested_tear (horder : s.attachmentTree root = some order)
    (h : Nested order (s.markPending order) s₁) (hp : SamePending (s.markPending order) s₁) :
    Nested [] s (s₁.tear root order) := by
  have htree := tree_of_attachmentTree horder
  constructor
  · refine ((Relation.ReflTransGen.single (.mark htree.live)).trans h.moves).trans
      ((moves_unlinkFromHost s₁ root).tail (.release ?_))
    intro x hx
    rw [state?_unlinkFromHost]
    exact htree.pending hp hx
  · obtain ⟨events, hj, hin⟩ := h.hooked
    refine ⟨events, ?_, ?_⟩
    · rw [journal_tear, hj, markPending, journal_foldl_update]
    · intro x hx hmem
      have hout : x ∉ order := htree.not_mem (by simp [hx])
      have hmarked : (s.markPending order).state? x = some .pendingDestroy := by
        rw [htree.state?_mark, if_neg hout, hx]
      exact absurd (hin x hmarked hmem) hout

theorem stepwise_nested : Stepwise Nested where
  refl := fun _ s => ⟨.refl, [], rfl, fun _ _ hin => absurd hin List.not_mem_nil⟩
  trans := Nested.trans
  wider := by
    intro busy s s' h
    obtain ⟨events, hj, hin⟩ := h.hooked
    exact ⟨h.moves, events, hj, fun x hx hmem => absurd (hin x hx hmem) List.not_mem_nil⟩
  resolved := fun s registry => nested_of_move (.resolve s registry) rfl
  chained := fun s chain => nested_of_move (.chain s chain) rfl
  logged := fun s _ => nested_record s fun _ he => nomatch he
  entered := fun s _ _ _ => nested_record s fun _ he => nomatch he
  hooked := by
    intro busy x hx s
    refine nested_record s fun y hy => ?_
    cases hy
    exact hx
  assigned := by
    intro s s' id field v hs
    refine nested_of_move (.assign hs) ?_
    obtain ⟨i, -, -, rfl⟩ := assign_eq_ok hs
    rfl
  attached := by
    intro s s' h a caller hs
    obtain ⟨-, ha, -, -, -, rfl⟩ := attach_eq_some hs
    exact nested_of_move (.link h (by simp [ha])) rfl
  detached := by
    intro s s' h a caller hs
    obtain ⟨-, -, rfl⟩ := detach_eq_ok hs
    exact nested_of_move (.unlink s h a) rfl
  allocated := fun s t owner privileged => nested_of_move (.allocate s t owner privileged) rfl
  joined := nested_join
  torn := fun horder _ h hp => nested_tear horder h hp

end Space

end Mudlib
