import Mudlib.Proofs.Space.Moves
import Mudlib.Proofs.Space.PostOrder
/-!
A destruction goes through the whole tree, whatever its hooks do.

The tree is listed and marked before the first hook runs. From then on its members are pending, so no
destruction that a hook starts takes one of them along or runs its hook again, and nothing attaches
one of them.
-/
set_option autoImplicit false

namespace Mudlib

namespace Space

/-- The hooks that a destruction runs: those of the listed instances whose own tables have one. -/
def hooksOf (s : Space) (order : List InstanceId) : List (InstanceId × Implementation) :=
  order.filterMap fun id => s.destroyHook.bind fun hook =>
    (s.hookOf? id hook).map fun m => (id, m)

def hookedAmong (ids : List InstanceId) (events : List Event) : List InstanceId :=
  events.reverse.filterMap fun
    | .hooked id => if id ∈ ids then some id else none
    | _ => none

/-- Hooks run one after the other, each as the system and however it ends. -/
inductive HookRuns (engine : Engine) : List (InstanceId × Implementation) → Space → Space → Prop where
  | nil (s : Space) : HookRuns engine [] s s
  | cons {id m hooks s result s₁ s₂} :
      engine.call id m [] .system (s.record (.hooked id)) = some (result, s₁) →
      HookRuns engine hooks s₁ s₂ → HookRuns engine ((id, m) :: hooks) s s₂

variable {s s' s₁ : Space} {id x root : InstanceId} {ids order : List InstanceId}

section Hooks

theorem hookedAmong_append (ids : List InstanceId) (more events : List Event) :
    hookedAmong ids (more ++ events) = hookedAmong ids events ++ hookedAmong ids more := by
  rw [hookedAmong, List.reverse_append, List.filterMap_append]
  rfl

theorem hookedAmong_hooked (hid : id ∈ ids) : hookedAmong ids [.hooked id] = [id] := by
  simp [hookedAmong, hid]

theorem hookedAmong_eq_nil {events : List Event} (h : ∀ x ∈ ids, .hooked x ∉ events) :
    hookedAmong ids events = [] := by
  rw [hookedAmong, List.filterMap_eq_nil_iff]
  intro e he
  rw [List.mem_reverse] at he
  cases e with
  | hooked x =>
    by_cases hx : x ∈ ids
    · exact absurd he (h x hx)
    · simp [hx]
  | _ => rfl

theorem hooksOf_of_aged (ha : Aged s s') (hexist : ∀ x ∈ ids, s.state? x ≠ none) :
    s'.hooksOf ids = s.hooksOf ids := by
  refine List.filterMap_congr fun x hx => ?_
  rw [ha.destroyHook]
  cases s.destroyHook with
  | none => rfl
  | some hook => simp only [Option.bind_some, hookOf?_of_aged ha (hexist x hx)]

theorem mem_of_mem_hooksOf {p : InstanceId × Implementation} (hp : p ∈ s.hooksOf order) :
    p.1 ∈ order := by
  obtain ⟨x, hx, hp⟩ := List.mem_filterMap.mp hp
  obtain ⟨hook, -, hp⟩ := Option.bind_eq_some_iff.mp hp
  obtain ⟨m, -, rfl⟩ := Option.map_eq_some_iff.mp hp
  exact hx

end Hooks

section Running

variable {engine : Engine} (he : engine.Upholds Nested)

include he

theorem moves_of_hook {m : Implementation} {result : Except RuntimeError Value}
    (h : engine.call id m [] .system (s.record (.hooked id)) = some (result, s')) : Moves s s' :=
  .head (.record s _) (((he.call _ _ _ _).holds h).1.moves)

theorem hookRuns_of_each {hook : String} {out : Except RuntimeError Unit}
    (hd : s.destroyHook = some hook) (hexist : ∀ x ∈ order, s.state? x ≠ none)
    (h : Run.each (engine.runHook hook) order s = some (out, s')) :
    HookRuns engine (s.hooksOf order) s s' := by
  induction order generalizing s with
  | nil =>
    cases h
    exact .nil _
  | cons x order ih =>
    rcases Run.bind_eq_some h with ⟨e, hone, -⟩ | ⟨_, s₁, hone, hrest⟩
    · cases Engine.runHook_ok hone
    · rw [Engine.runHook_eq] at hone
      have hlater : ∀ y ∈ order, s.state? y ≠ none :=
        fun y hy => hexist y (List.mem_cons_of_mem _ hy)
      cases hm : s.hookOf? x hook with
      | none =>
        rw [hm] at hone
        cases hone
        rw [hooksOf, List.filterMap_cons_none (by simp [hd, hm])]
        exact ih hd hlater hrest
      | some m =>
        rw [hm] at hone
        obtain ⟨r, hcall, heq⟩ := Option.map_eq_some_iff.mp hone
        cases heq
        -- no hook changes which hooks the instances behind it have
        have haged := aged_of_moves (moves_of_hook he hcall)
        rw [hooksOf, List.filterMap_cons_some (b := (x, m)) (by simp [hd, hm])]
        have hruns := ih (haged.destroyHook.trans hd) (fun y hy => haged.exist (hlater y hy)) hrest
        rw [hooksOf_of_aged haged hlater] at hruns
        exact .cons hcall hruns

/-- The hooks that are listed beforehand are the ones that are found on the way. -/
theorem each_of_hookRuns {hook : String} (hd : s.destroyHook = some hook)
    (hexist : ∀ x ∈ order, s.state? x ≠ none) (h : HookRuns engine (s.hooksOf order) s s') :
    Run.each (engine.runHook hook) order s = some (.ok (), s') := by
  induction order generalizing s with
  | nil =>
    cases h
    rfl
  | cons x order ih =>
    have hlater : ∀ y ∈ order, s.state? y ≠ none :=
      fun y hy => hexist y (List.mem_cons_of_mem _ hy)
    rw [Run.each_cons, Run.bind_apply, Engine.runHook_eq]
    cases hm : s.hookOf? x hook with
    | none =>
      rw [hooksOf, List.filterMap_cons_none (by simp [hd, hm])] at h
      exact ih hd hlater h
    | some m =>
      rw [hooksOf, List.filterMap_cons_some (b := (x, m)) (by simp [hd, hm])] at h
      cases h with
      | @cons _ _ _ _ result s₁ _ hcall hrest =>
        have haged := aged_of_moves (moves_of_hook he hcall)
        rw [← hooksOf, ← hooksOf_of_aged haged hlater] at hrest
        simp only [hcall, Option.map_some]
        exact ih (haged.destroyHook.trans hd) (fun y hy => haged.exist (hlater y hy)) hrest

theorem hookRuns_of_runHooks {out : Except RuntimeError Unit}
    (hexist : ∀ x ∈ order, s.state? x ≠ none)
    (h : engine.runHooks true order s = some (out, s')) :
    HookRuns engine (s.hooksOf order) s s' := by
  rw [Engine.runHooks_eq] at h
  cases hd : s.destroyHook with
  | none =>
    rw [hd] at h
    cases h
    have hnone : s.hooksOf order = [] := by simp [hooksOf, hd]
    rw [hnone]
    exact .nil s
  | some hook =>
    rw [hd] at h
    exact hookRuns_of_each he hd hexist h

theorem runHooks_of_hookRuns (hexist : ∀ x ∈ order, s.state? x ≠ none)
    (h : HookRuns engine (s.hooksOf order) s s') :
    engine.runHooks true order s = some (.ok (), s') := by
  rw [Engine.runHooks_eq]
  cases hd : s.destroyHook with
  | none =>
    have hnone : s.hooksOf order = [] := by simp [hooksOf, hd]
    rw [hnone] at h
    cases h
    rfl
  | some hook => exact each_of_hookRuns he hd hexist h

theorem hookedAmong_of_hookRuns {hooks : List (InstanceId × Implementation)}
    (h : HookRuns engine hooks s s') (hids : ∀ p ∈ hooks, p.1 ∈ ids)
    (hpending : ∀ x ∈ ids, s.state? x = some .pendingDestroy) :
    ∃ events, s'.journal = events ++ s.journal ∧ hookedAmong ids events = hooks.map Prod.fst := by
  induction h with
  | nil s => exact ⟨[], rfl, rfl⟩
  | @cons id m hooks s result s₁ s₂ hcall _ ih =>
    obtain ⟨hnested, hsame⟩ := (he.call _ _ _ _).holds hcall
    obtain ⟨events, hj, hin⟩ := hnested.hooked
    obtain ⟨more, hj', hmore⟩ := ih (fun p hp => hids p (List.mem_cons_of_mem _ hp))
      fun x hx => (hsame x).mpr (hpending x hx)
    -- what the hook starts records no hook of an instance that was pending before it
    refine ⟨more ++ (events ++ [.hooked id]), ?_, ?_⟩
    · rw [hj', hj]
      simp [record]
    · have hnone : hookedAmong ids events = [] :=
        hookedAmong_eq_nil fun x hx hmem => List.not_mem_nil (hin x (hpending x hx) hmem)
      have hself := hookedAmong_hooked (hids (id, m) List.mem_cons_self)
      rw [hookedAmong_append, hookedAmong_append, hnone, hself, hmore]
      rfl

end Running

/-- All of a forest's tree is live, since all its links are. -/
theorem mem_tree_iff (htree : Tree s root order)
    (hlive : ∀ a h, s.host? a = some h → s.state? a = some .live ∧ s.state? h = some .live)
    (hf : Arboreal s) (hroot : s.state? root = some .live) : x ∈ order ↔ s.Reaches root x := by
  refine ⟨htree.reached x, fun hx => ?_⟩
  induction hx with
  | refl => exact htree.rooted hroot
  | tail _ ha ih => exact htree.closed _ ih _ ha (hlive _ _ (hf.paired.mpr ha)).1

theorem requestDestroy_eq_ok [Natives] {bound : Nat} {caller : Principal}
    (h : requestDestroy bound root caller s = some (.ok (), s')) :
    s.state? root = some .live ∧ ∃ order s₁, s.attachmentTree root = some order ∧
      (engine bound).runHooks true order (s.markPending order) = some (.ok (), s₁) ∧
      s' = s₁.tear root order := by
  rcases Engine.requestDestroy_eq_some h with ⟨⟨e, he⟩, -⟩ | ⟨-, hcheck, hrest⟩
  · cases he
  · exact ⟨checkDestroy_eq_ok hcheck, hrest⟩

/-- Destroying an instance of a forest destroys all that is below it, whatever the hooks do. The
members' hooks run once each, attachments before their hosts, and no other hook of a member runs; all
members are pending from the first hook to the last. In the end they are destroyed, and the root is
attached to nothing. -/
theorem destruction_completes [Natives] {bound : Nat} {caller : Principal} (hf : Arboreal s)
    (hlive : ∀ a h, s.host? a = some h → s.state? a = some .live ∧ s.state? h = some .live)
    (h : requestDestroy bound root caller s = some (.ok (), s')) :
    ∃ order s₁ events, PostOrder s [root] order ∧ order.Nodup ∧ order.getLast? = some root ∧
      (∀ x, x ∈ order ↔ s.Reaches root x) ∧
      HookRuns (engine bound) (s.hooksOf order) (s.markPending order) s₁ ∧
      Moves (s.markPending order) s₁ ∧
      (∀ u, Moves (s.markPending order) u → Moves u s₁ →
        ∀ x ∈ order, u.state? x = some .pendingDestroy) ∧
      s'.journal = events ++ s.journal ∧
      hookedAmong order events = (s.hooksOf order).map Prod.fst ∧
      (∀ x ∈ order, s'.state? x = some .destroyed) ∧ ∀ host, root ∉ s'.attached host := by
  obtain ⟨hroot, order, s₁, horder, hhooks, rfl⟩ := requestDestroy_eq_ok h
  have htree := tree_of_attachmentTree horder
  obtain ⟨hpost, hnodup⟩ := hf.postOrder_attachmentTree horder
  have he := stepwise_nested.engine bound
  obtain ⟨hnested, hsame⟩ := (he.runHooks stepwise_nested true order).holds hhooks
  have hmarked : ∀ x ∈ order, (s.markPending order).state? x = some .pendingDestroy := by
    intro x hx
    rw [htree.state?_mark, if_pos hx]
  have hpending : ∀ x ∈ order, s₁.state? x = some .pendingDestroy :=
    fun x hx => htree.pending hsame hx
  have hruns := hookRuns_of_runHooks he (fun x hx => by simp [hmarked x hx]) hhooks
  have haged := aged_of_move (Move.mark htree.live)
  rw [hooksOf_of_aged haged fun x hx => by simp [htree.live x hx]] at hruns
  obtain ⟨events, hj, hevents⟩ := hookedAmong_of_hookRuns he hruns
    (fun _ hp => mem_of_mem_hooksOf hp) hmarked
  refine ⟨order, s₁, events, hpost, hnodup, hpost.getLast?_eq hroot,
    fun x => mem_tree_iff htree hlive hf hroot, hruns, hnested.moves, ?_, ?_, hevents, ?_, ?_⟩
  · intro u hu hu' x hx
    exact pending_between hu hu' (hmarked x hx) (hpending x hx)
  · rw [journal_tear, hj, markPending, journal_foldl_update]
  · intro x hx
    rw [state?_tear, if_pos hx, hpending x hx, Option.map_some]
  · -- the root was listed by its host alone, and stays so while it is pending
    have hmem := htree.rooted hroot
    refine not_mem_attached_tear (listedByHost_of_moves hnested.moves (hmarked root hmem)
      (hpending root hmem) ?_)
    refine listedByHost_of_same (fun host => hf.paired.mpr) host?_markPending fun host hmem => ?_
    rwa [attached_markPending] at hmem

section Hearth

def clinging : Implementation :=
  .mk 0 ⟨"/torch", by decide⟩ "on_destroy" (.native [.mk (.literal .null) (.literal .null) none
    (.command (.destroy (.host .this)))]) []

def torch : Table :=
  ⟨0, ⟨"/torch", by decide⟩, [], [], 0, .empty,
    Dict.empty.insert "on_destroy" ⟨[clinging], 0, by decide⟩, false, [], none⟩

def room : Table := { torch with id := ⟨"/room", by decide⟩, methods := .empty }

def unlit : Space :=
  ⟨.empty .firstContributor 8 none, .empty, .empty, "create", some "on_destroy", none, [], []⟩

def gathered : Space :=
  ((unlit.allocate room .system false).allocate torch .system true).allocate torch .system true

def hearth : Space := (gathered.linkAttachment ⟨2⟩ ⟨3⟩).linkAttachment ⟨1⟩ ⟨2⟩

theorem forest_hearth : Forest hearth := by
  have hgathered : Forest gathered :=
    (((forest_of_population_empty rfl).allocate _ _ _).allocate _ _ _).allocate _ _ _
  refine (hgathered.link (by decide) (by decide) (by decide) ?_).link (by decide) (by decide)
    (by decide) ?_
  · exact not_above_of_hostedBy (by decide) (by decide)
  · exact not_above_of_hostedBy (by decide) (by decide)

/-- The hook of the torch destroys the room that holds it; that of the other one is refused. -/
theorem hearth_destroyed : ∃ (s' : Space) (order : List InstanceId),
    requestDestroy 3 ⟨2⟩ .system hearth = some (.ok (), s') ∧
    s'.state? ⟨1⟩ = some .destroyed ∧ hookedAmong [⟨2⟩, ⟨3⟩] s'.journal = [⟨3⟩, ⟨2⟩] ∧
    (∀ x, x ∈ order ↔ hearth.Reaches ⟨2⟩ x) ∧ (∀ x ∈ order, s'.state? x = some .destroyed) ∧
    ∀ host, ⟨2⟩ ∉ s'.attached host := by
  have hrun : (requestDestroy 3 ⟨2⟩ .system hearth).map (fun r => (r.1.toOption, r.2.state? ⟨1⟩,
      hookedAmong [⟨2⟩, ⟨3⟩] r.2.journal)) = some (some (), some .destroyed, [⟨3⟩, ⟨2⟩]) := by
    decide +kernel
  obtain ⟨⟨out, s'⟩, hs, heq⟩ := Option.map_eq_some_iff.mp hrun
  obtain ⟨hout, hrest⟩ := Prod.mk.inj heq
  obtain ⟨hstate, hhooked⟩ := Prod.mk.inj hrest
  cases out with
  | error e => cases hout
  | ok _ =>
    have hf := forest_hearth
    obtain ⟨order, _, _, -, -, -, hmem, -, -, -, -, -, hdestroyed, hfree⟩ :=
      destruction_completes ⟨hf.paired, hf.once, hf.acyclic⟩ (fun _ _ => hf.live) hs
    exact ⟨s', order, hs, hstate, hhooked, hmem, hdestroyed, hfree⟩

end Hearth

end Space

end Mudlib
