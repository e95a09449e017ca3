import Mathlib.Algebra.Order.BigOperators.Group.List
import Mathlib.Algebra.Order.Group.Nat
import Mudlib.Proofs.Space.Cascade
import Mudlib.Proofs.Space.Interruption
import Mudlib.Proofs.Space.Refusals
set_option autoImplicit false

namespace Mudlib.Space

/-- The caller may destroy an instance: as a privileged one or as its owner. To be the instance itself
does not count. -/
def Commands (s : Space) (caller : Principal) (id : InstanceId) : Prop :=
  s.isPrivileged caller = true ∨ ∃ i, s.instance? id = some i ∧ caller.sameIdentity i.owner = true

structure Destroyable (s : Space) (caller : Principal) (id : InstanceId) : Prop where
  live : s.state? id = some .live
  commanded : s.Commands caller id
  ordinary : ¬ s.IsTemplate id

structure Detachable (s : Space) (caller : Principal) (h x : InstanceId) : Prop where
  host : s.state? h = some .live
  listed : x ∈ s.attached h
  auxiliary : s.Intact x
  hostControlled : s.Controls caller h
  auxiliaryControlled : s.Controls caller x

structure Settable (s : Space) (caller : Principal) (id : InstanceId) (a : String × Value) :
    Prop where
  intact : s.Intact id
  controlled : s.Controls caller id
  taken : ∃ t, s.table? id = some t ∧ Takes t a

def destroyRefusals (s : Space) (caller : Principal) (id : InstanceId) :
    List (RuntimeError → Prop) :=
  s.intactRefusals id ++
    [fun e => s.state? id = some .pendingDestroy ∧ e = .destroyInProgress id,
      fun e => ¬ s.Commands caller id ∧ e = .unauthorized id
        (if caller = .object id then .selfDestruction id else .noControl caller id),
      fun e => ∃ i, s.instance? id = some i ∧ i.isPrototype = true ∧
        e = .cannotDestroyPrototype id i.definition]

def detachRefusals (s : Space) (caller : Principal) (h x : InstanceId) :
    List (RuntimeError → Prop) :=
  s.livenessRefusals h ++ (fun e => x ∉ s.attached h ∧ e = .notAttached x h) ::
    (s.intactRefusals x ++ [s.controlRefusal caller h, s.controlRefusal caller x])

def setRefusals (s : Space) (caller : Principal) (id : InstanceId) (a : String × Value) :
    List (RuntimeError → Prop) :=
  s.intactRefusals id ++
    [s.controlRefusal caller id, fun e => ∃ t, s.table? id = some t ∧ Objection id t a e]

/-- A request is granted exactly where it is legal, and refused elsewhere within any bound, with the
first refusal that applies; a failure leaves the whole space as it was, its journal included. -/
structure Exact [Natives] (s : Space) (request : Request) (legal : Prop)
    (refusals : List (RuntimeError → Prop)) : Prop where
  granted_iff : ∀ {bound out s'}, perform bound request s = some (out, s') → (out = .ok () ↔ legal)
  answers : ∀ {bound out s'}, perform bound request s = some (out, s') → Answers refusals out
  refused : ¬ legal → ∀ bound, ∃ e, perform bound request s = some (.error e, s)
  unchanged : ∀ {bound e s'}, perform bound request s = some (.error e, s') → s' = s

variable {s s' : Space} {h x id : InstanceId} {i : Instance} {caller : Principal}
variable {a : String × Value} {e : RuntimeError}

section Checks

theorem commands_iff (hi : s.instance? id = some i) : s.Commands caller id ↔
    s.isPrivileged caller = true ∨ caller.sameIdentity i.owner = true := by
  simp [Commands, hi]

theorem live_iff_intact : s.state? id = some .live ↔
    s.Intact id ∧ s.state? id ≠ some .pendingDestroy := by
  constructor
  · intro hl
    exact ⟨intact_of_state hl (by decide), by simp [hl]⟩
  · intro hi
    obtain ⟨⟨hexist, hstanding⟩, hpending⟩ := hi
    cases hs : s.state? id with
    | none => exact absurd hs hexist
    | some state =>
      cases state with
      | live => rfl
      | pendingDestroy => exact absurd hs hpending
      | destroyed => exact absurd hs hstanding

theorem destroyable_iff : Destroyable s caller id ↔
    ∀ refusal ∈ s.destroyRefusals caller id, ∀ e, ¬ refusal e := by
  rw [destroyRefusals, List.forall_mem_append, ← intact_iff]
  simp only [List.forall_mem_cons, not_and, not_exists]
  constructor
  · intro hd
    obtain ⟨hi, hpending⟩ := live_iff_intact.mp hd.live
    refine ⟨hi, fun _ hp => absurd hp hpending, fun _ hc => absurd hd.commanded hc, ?_,
      List.forall_mem_nil _⟩
    exact fun _ i hi hp => absurd ⟨i, hi, hp⟩ hd.ordinary
  · intro hr
    obtain ⟨hi, hpending, hc, ht, -⟩ := hr
    refine ⟨live_iff_intact.mpr ⟨hi, fun hp => hpending _ hp rfl⟩, ?_, ?_⟩
    · by_contra hn
      exact hc _ hn rfl
    · rintro ⟨i, hi, hp⟩
      exact ht _ i hi hp rfl

theorem detachable_iff : Detachable s caller h x ↔
    ∀ refusal ∈ s.detachRefusals caller h x, ∀ e, ¬ refusal e := by
  rw [detachRefusals, List.forall_mem_append, ← live_iff, List.forall_mem_cons,
    List.forall_mem_append, ← intact_iff]
  simp only [controlRefusal, List.forall_mem_cons, not_and]
  constructor
  · intro hd
    exact ⟨hd.host, fun _ hn => absurd hd.listed hn, hd.auxiliary,
      fun _ hc => absurd hd.hostControlled hc, fun _ hc => absurd hd.auxiliaryControlled hc,
      List.forall_mem_nil _⟩
  · intro hr
    obtain ⟨hh, hlisted, hx, hhc, hxc, -⟩ := hr
    refine ⟨hh, ?_, hx, ?_, ?_⟩
    · by_contra hn
      exact hlisted _ hn rfl
    · by_contra hn
      exact hhc _ hn rfl
    · by_contra hn
      exact hxc _ hn rfl

theorem takes_iff {t : Table} : Takes t a ↔ ∀ e, ¬ Objection id t a e := by
  obtain ⟨field, v⟩ := a
  constructor
  · rintro ⟨slot, hslot, hv⟩ e ho
    cases ho with
    | unknown hnone =>
      rw [hslot] at hnone
      cases hnone
    | mistyped hslot' hv' =>
      rw [hslot] at hslot'
      cases hslot'
      rw [hv] at hv'
      cases hv'
  · intro hnone
    cases hslot : t.field? field with
    | none => exact absurd (.unknown hslot) (hnone _)
    | some slot =>
      refine ⟨slot, hslot, ?_⟩
      by_contra hv
      exact hnone _ (.mistyped hslot (Bool.eq_false_iff.mpr hv))

theorem settable_iff : Settable s caller id a ↔
    ∀ refusal ∈ s.setRefusals caller id a, ∀ e, ¬ refusal e := by
  rw [setRefusals, List.forall_mem_append, ← intact_iff]
  simp only [controlRefusal, List.forall_mem_cons, not_and, not_exists]
  constructor
  · intro hs
    obtain ⟨t, ht, htakes⟩ := hs.taken
    refine ⟨hs.intact, fun _ hc => absurd hs.controlled hc, ?_, List.forall_mem_nil _⟩
    intro e u hu
    rw [ht] at hu
    cases hu
    exact takes_iff.mp htakes e
  · intro hr
    obtain ⟨hi, hc, ho, -⟩ := hr
    obtain ⟨i, hinstance⟩ := Option.ne_none_iff_exists'.mp (mt state?_eq_none_iff.mpr hi.exist)
    have ht : s.table? id = some i.table := by rw [table?, hinstance, Option.map_some]
    refine ⟨hi, ?_, i.table, ht, takes_iff.mpr fun e => ho e _ ht⟩
    by_contra hn
    exact hc _ hn rfl

theorem checkDestroy_eq (hi : s.instance? id = some i) : s.checkDestroy id caller =
    match i.state with
    | .destroyed => .error (.useAfterDestroy id)
    | .pendingDestroy => .error (.destroyInProgress id)
    | .live => s.authorize caller .destroy id i.owner >>= fun _ =>
      if i.isPrototype then .error (.cannotDestroyPrototype id i.definition) else .ok () := by
  unfold checkDestroy
  rw [hi]
  dsimp only
  cases i.state with
  | destroyed => rfl
  | pendingDestroy => rfl
  | live => cases s.authorize caller .destroy id i.owner <;> rfl

theorem answers_authorize_destroy (hi : s.instance? id = some i) :
    Answers [fun e => ¬ s.Commands caller id ∧ e = .unauthorized id
      (if caller = .object id then .selfDestruction id else .noControl caller id)]
      (s.authorize caller .destroy id i.owner) := by
  refine answers_authorize_of ?_ fun _ => Permission.eq_of_refusal?_destroy
  rw [Permission.refusal?_destroy_eq_none_iff caller _ id i.owner, commands_iff hi]

theorem answers_checkDestroy : Answers (s.destroyRefusals caller id) (s.checkDestroy id caller) := by
  cases hi : s.instance? id with
  | none =>
    have herror : s.checkDestroy id caller = .error (.noSuchInstance id) := by
      rw [checkDestroy, hi]
    rw [herror]
    exact .head ⟨hi, rfl⟩
  | some i =>
    have hstate : s.state? id = some i.state := by rw [state?, hi, Option.map_some]
    rw [checkDestroy_eq hi]
    refine .tail (by simp [hi]) ?_
    cases hs : i.state with
    | destroyed => exact .head ⟨hs ▸ hstate, rfl⟩
    | pendingDestroy => exact .tail (by simp [hstate, hs]) (.head ⟨hs ▸ hstate, rfl⟩)
    | live =>
      refine .tail (by simp [hstate, hs]) (.tail (by simp [hstate, hs]) ?_)
      refine (answers_authorize_destroy hi).bind fun _ _ => ?_
      cases hp : i.isPrototype with
      | true => exact .head ⟨i, hi, hp, rfl⟩
      | false => exact .granted () (by simp [hi, hp])

theorem answers_detach : Answers (s.detachRefusals caller h x) (s.detach h x caller) := by
  refine answers_live.bind fun i hi => ?_
  obtain ⟨hi, -⟩ := live_eq_ok.mp hi
  have hattached : s.attached h = i.attachments := by simp [attached, hi]
  by_cases hmem : x ∈ i.attachments
  · rw [if_neg (not_not_intro hmem)]
    refine .tail (by simp [hattached, hmem]) (answers_invokable.bind fun j hj => ?_)
    obtain ⟨hj, -⟩ := invokable_eq_ok.mp hj
    refine (answers_authorize (by decide) hi).bind fun _ _ => ?_
    show Answers ([s.controlRefusal caller x] ++ []) _
    refine (answers_authorize (by decide) hj).bind fun _ _ => ?_
    exact .granted _ (List.forall_mem_nil _)
  · rw [if_pos hmem]
    exact .head ⟨by rwa [hattached], rfl⟩

theorem answers_setField : Answers (s.setRefusals caller id a) (s.setField id a.1 a.2 caller) := by
  refine answers_invokable.bind fun i hinvokable => ?_
  obtain ⟨hi, -⟩ := invokable_eq_ok.mp hinvokable
  have ht : s.table? id = some i.table := by rw [table?, hi, Option.map_some]
  refine (answers_authorize (by decide) hi).bind fun _ _ => ?_
  cases hassign : s.assign id a.1 a.2 with
  | error e => exact .head ⟨i.table, ht, Objection.of_assign hinvokable hassign⟩
  | ok s' =>
    obtain ⟨j, slot, hj, -, hslot, hv, -⟩ := slot_of_assign hassign
    rw [hi] at hj
    cases hj
    refine .granted s' (List.forall_mem_singleton.mpr fun e => ?_)
    rintro ⟨t, ht', ho⟩
    rw [ht] at ht'
    cases ht'
    exact takes_iff.mp ⟨slot, hslot, hv⟩ e ho

end Checks

theorem exists_hookRuns {engine : Engine} {hooks : List (InstanceId × Implementation)}
    (hends : ∀ p ∈ hooks, Run.Ends (engine.call p.1 p.2 [] .system)) (s : Space) :
    ∃ s', HookRuns engine hooks s s' := by
  induction hooks generalizing s with
  | nil => exact ⟨s, .nil s⟩
  | cons p hooks ih =>
    obtain ⟨hfirst, hlater⟩ := List.forall_mem_cons.mp hends
    obtain ⟨⟨result, s₁⟩, hcall⟩ := Option.ne_none_iff_exists'.mp (hfirst (s.record (.hooked p.1)))
    obtain ⟨s', hrest⟩ := ih hlater s₁
    exact ⟨s', .cons hcall hrest⟩

section Requests

variable [Natives] {request : Request} {legal : Prop} {refusals : List (RuntimeError → Prop)}
variable {bound : Nat} {order : List InstanceId}

theorem exact_of_check {α : Type} {check : Except RuntimeError α}
    (hlegal : legal ↔ ∀ refusal ∈ refusals, ∀ e, ¬ refusal e) (hcheck : Answers refusals check)
    (hrefused : ∀ e, check = .error e → ∀ bound, perform bound request s = some (.error e, s))
    (hgranted : ∀ a, check = .ok a → ∀ bound out s', perform bound request s = some (out, s') →
      out = .ok ()) : Exact s request legal refusals := by
  have hiff := hlegal.trans hcheck.ok_iff.symm
  cases check with
  | error e =>
    have hnot : ¬ legal := fun hl => by
      obtain ⟨a, ha⟩ := hiff.mp hl
      cases ha
    have hout : ∀ {bound out s'}, perform bound request s = some (out, s') →
        out = .error e ∧ s' = s := by
      intro bound out s' h
      rw [hrefused e rfl bound] at h
      obtain ⟨rfl, rfl⟩ := Prod.mk.inj (Option.some.inj h)
      exact ⟨rfl, rfl⟩
    refine ⟨fun h => ?_, fun h => ?_, fun _ bound => ⟨e, hrefused e rfl bound⟩, fun h => (hout h).2⟩
    · obtain ⟨rfl, -⟩ := hout h
      exact iff_of_false (fun hok => nomatch hok) hnot
    · obtain ⟨rfl, -⟩ := hout h
      exact hcheck.map fun _ => ()
  | ok a =>
    have hl : legal := hiff.mpr ⟨a, rfl⟩
    refine ⟨fun h => ?_, fun h => ?_, fun hn => absurd hl hn, fun h => ?_⟩
    · exact iff_of_true (hgranted a rfl _ _ _ h) hl
    · rw [hgranted a rfl _ _ _ h]
      exact hcheck.map fun _ => ()
    · cases hgranted a rfl _ _ _ h

theorem exact_of_change {step : Space → Except RuntimeError Space}
    (hperform : ∀ bound, perform bound request = Run.change step)
    (hlegal : legal ↔ ∀ refusal ∈ refusals, ∀ e, ¬ refusal e) (hstep : Answers refusals (step s)) :
    Exact s request legal refusals := by
  refine exact_of_check hlegal hstep ?_ ?_
  · intro e he bound
    rw [hperform, Run.change, he]
  · intro s₁ hs bound out s' h
    rw [hperform, Run.change, hs] at h
    cases h
    rfl

theorem exact_destroy (s : Space) (caller : Principal) (id : InstanceId) :
    Exact s (.destroy id caller) (Destroyable s caller id) (s.destroyRefusals caller id) := by
  refine exact_of_check destroyable_iff answers_checkDestroy ?_ ?_
  · exact fun e he bound => Engine.requestDestroy_of_refused he
  · intro _ hok bound out s' h
    have hdestroy : (engine bound).requestDestroy id caller s = some (out, s') := h
    rw [Engine.requestDestroy_of_granted hok] at hdestroy
    exact (Engine.destroyTree_eq_some hdestroy).1

theorem exact_detach (s : Space) (caller : Principal) (h x : InstanceId) :
    Exact s (.detach h x caller) (Detachable s caller h x) (s.detachRefusals caller h x) :=
  exact_of_change (fun _ => rfl) detachable_iff (answers_detach (s := s))

theorem exact_setField (s : Space) (caller : Principal) (id : InstanceId) (a : String × Value) :
    Exact s (.setField id a.1 a.2 caller) (Settable s caller id a) (s.setRefusals caller id a) :=
  exact_of_change (fun _ => rfl) settable_iff (answers_setField (s := s))

theorem destroy_eq_ok_iff : perform bound (.destroy id caller) s = some (.ok (), s') ↔
    Destroyable s caller id ∧ ∃ order s₁, s.attachmentTree id = some order ∧
      HookRuns (engine bound) (s.hooksOf order) (s.markPending order) s₁ ∧
      s' = s₁.tear id order := by
  have he := stepwise_nested.engine bound
  have hmarked : ∀ {order}, s.attachmentTree id = some order →
      (∀ x ∈ order, (s.markPending order).state? x ≠ none) ∧
        (s.markPending order).hooksOf order = s.hooksOf order := by
    intro order horder
    have htree := tree_of_attachmentTree horder
    have hthere : ∀ x ∈ order, s.state? x ≠ none := fun x hx => by simp [htree.live x hx]
    have haged := aged_of_move (Move.mark htree.live)
    exact ⟨fun x hx => haged.exist (hthere x hx), hooksOf_of_aged haged hthere⟩
  constructor
  · intro h
    obtain ⟨-, order, s₁, horder, hhooks, rfl⟩ := requestDestroy_eq_ok h
    have hruns := hookRuns_of_runHooks he (hmarked horder).1 hhooks
    rw [(hmarked horder).2] at hruns
    exact ⟨((exact_destroy s caller id).granted_iff h).mp rfl, order, s₁, horder, hruns, rfl⟩
  · rintro ⟨hd, order, s₁, horder, hruns, rfl⟩
    obtain ⟨_, hcheck⟩ := answers_checkDestroy.ok_iff.mpr (destroyable_iff.mp hd)
    rw [← (hmarked horder).2] at hruns
    have hhooks := runHooks_of_hookRuns he (hmarked horder).1 hruns
    have hgranted : perform bound (.destroy id caller) s = (engine bound).destroyTree id true s :=
      Engine.requestDestroy_of_granted hcheck
    rw [hgranted, Engine.destroyTree, Run.search_bind, horder]
    simp only [Option.map_some]
    rw [Run.modify_bind, Run.bind_apply, hhooks]
    rfl

/-- Where the links form a forest and the hooks of the tree are scripted, the destruction comes to an
end within every bound that is large enough. -/
theorem destroy_ends (hf : Arboreal s) (hd : Destroyable s caller id)
    (hscripted : ∀ x hook m, s.Reaches id x → s.destroyHook = some hook →
      s.hookOf? x hook = some m → m.Scripted) :
    ∃ enough, ∀ bound, enough ≤ bound →
      ∃ s', perform bound (.destroy id caller) s = some (.ok (), s') := by
  obtain ⟨order, horder⟩ :=
    Option.ne_none_iff_exists'.mp (hf.branching.attachmentTree_ne_none id)
  have hhook : ∀ p ∈ s.hooksOf order, p.2.Scripted := by
    intro p hp
    obtain ⟨x, hx, hp⟩ := List.mem_filterMap.mp hp
    obtain ⟨hook, hdestroy, hp⟩ := Option.bind_eq_some_iff.mp hp
    obtain ⟨m, hm, rfl⟩ := Option.map_eq_some_iff.mp hp
    exact hscripted x hook m ((tree_of_attachmentTree horder).reached x hx) hdestroy hm
  refine ⟨((s.hooksOf order).map fun p => p.2.postOrder.length).sum, fun bound hbound => ?_⟩
  have hends : ∀ p ∈ s.hooksOf order, Run.Ends ((engine bound).call p.1 p.2 [] .system) := by
    intro p hp
    refine ends_callWithin (hhook p hp) (Nat.le_trans ?_ hbound) p.1 [] .system
    exact List.le_sum_of_mem (List.mem_map_of_mem hp)
  obtain ⟨s₁, hruns⟩ := exists_hookRuns hends (s.markPending order)
  exact ⟨_, destroy_eq_ok_iff.mpr ⟨hd, order, s₁, horder, hruns, rfl⟩⟩

/-- An instance that neither is privileged nor owns itself does not destroy itself, and where it is
live it is told why. -/
theorem self_destruction (hprivileged : s.isPrivileged (.object id) = false)
    (howner : ∀ i, s.instance? id = some i → i.owner ≠ .object id) (bound : Nat) : ∃ e,
      perform bound (.destroy id (.object id)) s = some (.error e, s) ∧
        (s.state? id = some .live → e = .unauthorized id (.selfDestruction id)) := by
  have hexact := exact_destroy s (.object id) id
  have hnot : ¬ s.Commands (.object id) id := by
    rintro (hp | ⟨i, hi, hsame⟩)
    · rw [hprivileged] at hp
      cases hp
    · exact howner i hi (Principal.eq_of_sameIdentity_object hsame)
  obtain ⟨e, he⟩ := hexact.refused (fun hd => hnot hd.commanded) bound
  refine ⟨e, he, fun hlive => ?_⟩
  -- what is checked before the caller lets a live instance through
  obtain ⟨hnone, -⟩ | ⟨-, hexists⟩ := (hexact.answers he).error_cons
  · rw [state?_eq_none_iff.mpr hnone] at hlive
    cases hlive
  obtain ⟨hdestroyed, -⟩ | ⟨-, hstanding⟩ := hexists.error_cons
  · rw [hlive] at hdestroyed
    cases hdestroyed
  obtain ⟨hpending, -⟩ | ⟨-, hchecked⟩ := hstanding.error_cons
  · rw [hlive] at hpending
    cases hpending
  obtain ⟨-, rfl⟩ | ⟨hcommanded, -⟩ := hchecked.error_cons
  · rw [if_pos rfl]
  · exact absurd ⟨hnot, rfl⟩ (hcommanded _)

end Requests

end Mudlib.Space
