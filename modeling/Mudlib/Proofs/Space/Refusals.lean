import Mudlib.Proofs.FirstFailure
import Mudlib.Proofs.Space.Attaching
set_option autoImplicit false

namespace Mudlib.Space

/-- The caller may manage the attachments of an instance: as a privileged one, as its owner, or as
the instance itself. -/
def Controls (s : Space) (caller : Principal) (id : InstanceId) : Prop :=
  s.isPrivileged caller = true ∨
    (∃ i, s.instance? id = some i ∧ caller.sameIdentity i.owner = true) ∨ caller = .object id

structure LegalAttachment (s : Space) (caller : Principal) (h x : InstanceId) : Prop where
  host : s.state? h = some .live
  auxiliary : s.state? x = some .live
  hostControlled : s.Controls caller h
  auxiliaryControlled : s.Controls caller x
  distinct : h ≠ x
  ordinary : ¬ s.IsTemplate x
  free : s.host? x = none
  apart : ¬ Relation.TransGen s.HostedBy h x

def intactRefusals (s : Space) (id : InstanceId) : List (RuntimeError → Prop) :=
  [fun e => s.instance? id = none ∧ e = .noSuchInstance id,
    fun e => s.state? id = some .destroyed ∧ e = .useAfterDestroy id]

def livenessRefusals (s : Space) (id : InstanceId) : List (RuntimeError → Prop) :=
  [fun e => s.instance? id = none ∧ e = .noSuchInstance id,
    fun e => s.state? id = some .destroyed ∧ e = .useAfterDestroy id,
    fun e => s.state? id = some .pendingDestroy ∧ e = .notLive id .pendingDestroy]

def controlRefusal (s : Space) (caller : Principal) (id : InstanceId) (e : RuntimeError) : Prop :=
  ¬ s.Controls caller id ∧ e = .unauthorized id (.noControl caller id)

def checkRefusals (s : Space) (caller : Principal) (h x : InstanceId) :
    List (RuntimeError → Prop) :=
  s.livenessRefusals h ++ (s.livenessRefusals x ++
    [s.controlRefusal caller h,
      s.controlRefusal caller x,
      fun e => h = x ∧ e = .attachmentCycle x h,
      fun e => s.IsTemplate x ∧ e = .prototypeAttachment x,
      fun e => ∃ current, s.host? x = some current ∧ e = .alreadyAttached x current])

/-- Why an attachment is refused, in the order of the checks. -/
def attachRefusals (s : Space) (caller : Principal) (h x : InstanceId) :
    List (RuntimeError → Prop) :=
  s.checkRefusals caller h x ++
    [fun e => Relation.TransGen s.HostedBy h x ∧ e = .attachmentCycle x h]

/-- All that the space shows after an attachment: the auxiliary is the last one on its host, and
nothing else is different. -/
structure Joined (s s' : Space) (h x : InstanceId) : Prop where
  host : ∀ i, s.instance? h = some i →
    s'.instance? h = some { i with attachments := i.attachments ++ [x] }
  auxiliary : ∀ i, s.instance? x = some i → s'.instance? x = some { i with host := some h }
  others : ∀ y, y ≠ h → y ≠ x → s'.instance? y = s.instance? y
  rest : s' = { s with population := s'.population }

variable {s s' : Space} {h x id : InstanceId} {i : Instance} {caller : Principal}

theorem intact_iff : s.Intact id ↔ ∀ refusal ∈ s.intactRefusals id, ∀ e, ¬ refusal e := by
  simp only [intactRefusals, List.forall_mem_cons, not_and]
  rw [← state?_eq_none_iff]
  constructor
  · intro hi
    simp [hi.exist, hi.standing]
  · intro hr
    obtain ⟨hexist, hstanding, -⟩ := hr
    exact ⟨fun hn => hexist _ hn rfl, fun hd => hstanding _ hd rfl⟩

theorem answers_invokable : Answers (s.intactRefusals id) (s.invokable id) := by
  unfold invokable
  cases hi : s.instance? id with
  | none => exact .head ⟨hi, rfl⟩
  | some i =>
    have hstate : s.state? id = some i.state := by rw [state?, hi, Option.map_some]
    by_cases hd : i.state = .destroyed
    · simp only [Instance.isDestroyed, hd, decide_true, if_true]
      exact .tail (by simp [hi]) (.head ⟨hd ▸ hstate, rfl⟩)
    · simp only [Instance.isDestroyed, hd, decide_false, Bool.false_eq_true, if_false]
      exact .granted i (intact_iff.mp (intact_of_state hstate hd))

theorem live_iff : s.state? id = some .live ↔
    ∀ refusal ∈ s.livenessRefusals id, ∀ e, ¬ refusal e := by
  simp only [livenessRefusals, List.forall_mem_cons, not_and]
  rw [← state?_eq_none_iff]
  cases s.state? id with
  | none => simp
  | some state => cases state <;> simp

theorem legalAttachment_iff : LegalAttachment s caller h x ↔
    ∀ refusal ∈ s.attachRefusals caller h x, ∀ e, ¬ refusal e := by
  rw [attachRefusals, checkRefusals, List.forall_mem_append, List.forall_mem_append,
    List.forall_mem_append, ← live_iff, ← live_iff]
  simp only [controlRefusal, List.forall_mem_cons, not_and, not_exists]
  constructor
  · intro hl
    refine ⟨⟨hl.host, hl.auxiliary, ?_⟩, ?_⟩
    · simp [hl.hostControlled, hl.auxiliaryControlled, hl.distinct, hl.ordinary, hl.free]
    · simp [hl.apart]
  · intro hr
    obtain ⟨⟨hh, hx, hhc, hxc, hne, ht, hfree, -⟩, hapart, -⟩ := hr
    refine ⟨hh, hx, ?_, ?_, fun heq => hne _ heq rfl, fun hp => ht _ hp rfl, ?_,
      fun hp => hapart _ hp rfl⟩
    · simpa using hhc
    · simpa using hxc
    · refine Option.eq_none_iff_forall_ne_some.mpr fun current hcurrent => ?_
      exact hfree _ current hcurrent rfl

theorem controls_iff (hi : s.instance? id = some i) : s.Controls caller id ↔
    s.isPrivileged caller = true ∨ caller.sameIdentity i.owner = true ∨ caller = .object id := by
  simp [Controls, hi]

theorem answers_live : Answers (s.livenessRefusals id) (s.live id) := by
  show Answers (s.intactRefusals id ++
    [fun e => s.state? id = some .pendingDestroy ∧ e = .notLive id .pendingDestroy]) _
  refine answers_invokable.bind fun i hinvokable => ?_
  obtain ⟨hi, hstanding⟩ := invokable_eq_ok.mp hinvokable
  have hstate : s.state? id = some i.state := by rw [state?, hi, Option.map_some]
  cases hl : i.state with
  | live =>
    rw [if_pos (by simp [Instance.isLive, hl])]
    exact .granted i (by simp [hstate, hl])
  | pendingDestroy =>
    rw [if_neg (by simp [Instance.isLive, hl])]
    exact .head ⟨hl ▸ hstate, rfl⟩
  | destroyed => exact absurd hl hstanding

theorem answers_authorize_of {deed : Deed} {owner : Principal} {allowed : Prop} {why : Refusal}
    (hnone : Permission.refusal? caller (s.isPrivileged caller) deed id owner = none ↔ allowed)
    (hwhy : ∀ other, Permission.refusal? caller (s.isPrivileged caller) deed id owner = some other →
      other = why) :
    Answers [fun e => ¬ allowed ∧ e = .unauthorized id why] (s.authorize caller deed id owner) := by
  unfold authorize
  cases hr : Permission.refusal? caller (s.isPrivileged caller) deed id owner with
  | none => exact .granted () (by simp [hnone.mp hr])
  | some other =>
    have hnot : ¬ allowed := by
      intro hallowed
      rw [hnone.mpr hallowed] at hr
      cases hr
    rw [hwhy other hr]
    exact .head ⟨hnot, rfl⟩

theorem answers_authorize {deed : Deed} (hdeed : deed ≠ .destroy) (hi : s.instance? id = some i) :
    Answers [s.controlRefusal caller id] (s.authorize caller deed id i.owner) := by
  refine answers_authorize_of ?_ fun _ => Permission.eq_noControl_of_refusal? hdeed
  rw [Permission.refusal?_eq_none_iff caller _ deed id i.owner hdeed, controls_iff hi]

theorem answers_checkAttach :
    Answers (s.checkRefusals caller h x) (s.checkAttach h x caller) := by
  refine answers_live.bind fun i hi => answers_live.bind fun j hj => ?_
  obtain ⟨hi, -⟩ := live_eq_ok.mp hi
  obtain ⟨hj, -⟩ := live_eq_ok.mp hj
  refine (answers_authorize (by decide) hi).bind fun _ _ => ?_
  refine (answers_authorize (by decide) hj).bind fun _ _ => ?_
  have htemplate : s.IsTemplate x ↔ j.isPrototype = true := by simp [IsTemplate, hj]
  have hhost : s.host? x = j.host := by rw [host?, hj, Option.bind_some]
  by_cases hne : h = x
  · rw [if_pos hne]
    exact .head ⟨hne, rfl⟩
  · rw [if_neg hne]
    refine .tail (by simp [hne]) ?_
    cases hp : j.isPrototype with
    | true =>
      rw [if_pos rfl]
      exact .head ⟨htemplate.mpr hp, rfl⟩
    | false =>
      refine .tail (by simp [htemplate, hp]) ?_
      cases hn : j.host with
      | none => exact .granted () (by simp [hhost, hn])
      | some current => exact .head ⟨current, hhost.trans hn, rfl⟩

theorem Arboreal.exists_attach (hf : Arboreal s) (h x : InstanceId) (caller : Principal) :
    ∃ r, s.attach h x caller = some r ∧ Answers (s.attachRefusals caller h x) r ∧
      ∀ s', r = .ok s' → s' = s.linkAttachment h x := by
  obtain ⟨cyclic, hcyclic, habove⟩ := hf.exists_hostedBy h x
  have hattach : s.attach h x caller = some (s.checkAttach h x caller >>= fun _ =>
      if cyclic then .error (.attachmentCycle x h) else .ok (s.linkAttachment h x)) := by
    unfold attach
    cases s.checkAttach h x caller with
    | error e => rfl
    | ok _ => simp only [hcyclic]; rfl
  refine ⟨_, hattach, answers_checkAttach.bind fun _ _ => ?_, ?_⟩
  · cases cyclic with
    | true => exact .head ⟨habove.mp rfl, rfl⟩
    | false => exact .granted _ (by simp [← habove])
  · intro s' hs
    obtain ⟨_, -, hs⟩ := bind_eq_ok.mp hs
    cases cyclic with
    | true => cases hs
    | false =>
      cases hs
      rfl

theorem joined_linkAttachment (hne : h ≠ x) : Joined s (s.linkAttachment h x) h x where
  host := by
    intro i hi
    rw [instance?_linkAttachment hne, if_pos rfl, hi, Option.map_some]
  auxiliary := by
    intro i hi
    rw [instance?_linkAttachment hne, if_neg hne.symm, if_pos rfl, hi, Option.map_some]
  others := by
    intro y hh hx
    rw [instance?_linkAttachment hne, if_neg hh, if_neg hx]
  rest := rfl

theorem LegalAttachment.arboreal_link (hl : LegalAttachment s caller h x) (hf : Arboreal s) :
    Arboreal (s.linkAttachment h x) := by
  refine hf.link (by simp [hl.host]) (by simp [hl.auxiliary]) hl.free fun hpath => ?_
  rcases Relation.reflTransGen_iff_eq_or_transGen.mp hpath with heq | hpath
  · exact hl.distinct heq.symm
  · exact hl.apart hpath

/-- Where the links form a forest, every request for an attachment comes to an end. It is granted
exactly if the attachment is legal; then the auxiliary is the last one on its host, nothing else
changes, and the links form a forest again. Otherwise nothing changes, and the error is the one of
the first check that refuses. -/
theorem attach_accepts_legal [Natives] (hf : Arboreal s) (bound : Nat) (h x : InstanceId)
    (caller : Principal) :
    ∃ out s', perform bound (.attach h x caller) s = some (out, s') ∧
      (out = .ok () ↔ LegalAttachment s caller h x) ∧
      Answers (s.attachRefusals caller h x) out ∧
      (out = .ok () → Joined s s' h x ∧ Arboreal s') ∧ ∀ e, out = .error e → s' = s := by
  obtain ⟨r, hr, hanswers, hlink⟩ := hf.exists_attach h x caller
  have hlegal := hanswers.ok_iff.trans legalAttachment_iff.symm
  have hdone := hanswers.map fun _ => ()
  have hperform : perform bound (.attach h x caller) s =
      Run.changeWithin (fun s => s.attach h x caller) s := rfl
  rw [hperform, Run.changeWithin, hr]
  cases r with
  | error e =>
    refine ⟨.error e, s, rfl, ?_, hdone, fun hok => (nomatch hok), fun _ _ => rfl⟩
    refine iff_of_false (fun hok => nomatch hok) fun hl => ?_
    obtain ⟨s', hs⟩ := hlegal.mpr hl
    cases hs
  | ok s' =>
    have hl := hlegal.mp ⟨s', rfl⟩
    obtain rfl := hlink s' rfl
    refine ⟨.ok (), _, rfl, iff_of_true rfl hl, hdone, fun _ => ?_, fun e he => (nomatch he)⟩
    exact ⟨joined_linkAttachment hl.distinct, hl.arboreal_link hf⟩

/-- The smoke may be put on the censer, and the parlour, in which the censer stands, may not. -/
theorem smoke_on_censer : ∃ s₀ s s', ofConfig? (.empty .firstContributor 8 none) .standard = .ok s₀ ∧
    Served s₀ kindling s ∧ Arboreal s ∧ LegalAttachment s .system ⟨2⟩ ⟨3⟩ ∧
    perform 0 (.attach ⟨2⟩ ⟨3⟩ .system) s = some (.ok (), s') ∧ Joined s s' ⟨2⟩ ⟨3⟩ ∧
    perform 0 (.attach ⟨2⟩ ⟨1⟩ .system) s = some (.error (.attachmentCycle ⟨1⟩ ⟨2⟩), s) := by
  have hrun : (ofConfig? (.empty .firstContributor 8 none) .standard).toOption.bind (fun s₀ =>
      (serve 6 kindling s₀).bind fun s =>
        some ((perform 0 (.attach ⟨2⟩ ⟨3⟩ .system) s).map Prod.fst,
          (perform 0 (.attach ⟨2⟩ ⟨1⟩ .system) s).map Prod.fst)) =
      some (some (.ok ()), some (.error (.attachmentCycle ⟨1⟩ ⟨2⟩))) := by
    decide +kernel
  obtain ⟨s₀, s, hok, hserved, hfound⟩ := served_of_found hrun
  obtain ⟨hgranted, hrefused⟩ := Prod.mk.inj (Option.some.inj hfound)
  have hf := ((atRest_of_unloaded hok).served hserved kindling_scripted).forest.arboreal
  obtain ⟨out, s', hattach, hlegal, -, hmade, -⟩ := attach_accepts_legal hf 0 ⟨2⟩ ⟨3⟩ .system
  obtain ⟨out', s'', hattach', -, -, -, hsame⟩ := attach_accepts_legal hf 0 ⟨2⟩ ⟨1⟩ .system
  rw [hattach] at hgranted
  rw [hattach'] at hrefused
  cases hgranted
  cases hrefused
  rw [hsame _ rfl] at hattach'
  exact ⟨s₀, s, s', hok, hserved, hf, hlegal.mp rfl, hattach, (hmade rfl).1, hattach'⟩

end Mudlib.Space
