import Mudlib.Proofs.Space.Moves
import Mudlib.Proofs.Space.Requests
set_option autoImplicit false

namespace Mudlib

inductive LifecycleState.Next : Option LifecycleState → Option LifecycleState → Prop where
  | same (state : Option LifecycleState) : Next state state
  | made : Next none (some .live)
  | marked : Next (some .live) (some .pendingDestroy)
  | released : Next (some .pendingDestroy) (some .destroyed)

namespace Space

open LifecycleState

/-- One change of a space. What is newly attached is there, and not a template. -/
inductive Step : Space → Space → Prop where
  | move {s s' : Space} : Move s s' →
      (∀ h, ∀ x ∈ s'.attached h, x ∈ s.attached h ∨ s.instance? x ≠ none ∧ ¬ s.IsTemplate x) →
      Step s s'
  | file (s : Space) (definition : DefinitionId) (id : InstanceId) : Step s (s.file definition id)

abbrev Steps : Space → Space → Prop := Relation.ReflTransGen Step

structure Elapsed (s s' : Space) : Prop where
  stage : ∀ x, stage (s.state? x) ≤ stage (s'.state? x)
  identity : ∀ {x k}, s.identity? x = some k → s'.identity? x = some k
  journal : s.journal <:+ s'.journal

variable {s s' s₀ s₁ : Space} {x h a root : InstanceId} {ran order : List InstanceId}

section Changes

theorem next_of_move (hm : Move s s') (x : InstanceId) : Next (s.state? x) (s'.state? x) := by
  have hsame : s'.state? x = s.state? x → Next (s.state? x) (s'.state? x) :=
    fun heq => heq ▸ .same _
  cases hm with
  | record e => exact .same _
  | resolve registry => exact .same _
  | chain chain => exact .same _
  | assign hs =>
    obtain ⟨i, -, -, rfl⟩ := assign_eq_ok hs
    exact hsame (map_instance?_update s _ Instance.state fun _ => rfl)
  | allocate t owner privileged =>
    rw [state?_allocate]
    split
    next hx =>
      rw [hx, state?, instance?_nextId]
      exact .made
    next => exact .same _
  | link h _ => exact hsame state?_linkAttachment
  | unlink h a => exact hsame state?_unlinkAttachment
  | mark hlive =>
    rw [state?_markPending]
    split
    next hx =>
      rw [hlive x hx]
      exact .marked
    next => exact .same _
  | release hpending =>
    rw [state?_releaseAll]
    split
    next hx =>
      rw [hpending x hx]
      exact .released
    next => exact .same _

theorem identity?_of_move {k : Identity} (hm : Move s s') (hx : s.identity? x = some k) :
    s'.identity? x = some k := by
  cases hm with
  | record e => exact hx
  | resolve registry => exact hx
  | chain chain => exact hx
  | assign hs => exact (identity?_assign hs x).trans hx
  | allocate t owner privileged =>
    rw [identity?_allocate, if_neg]
    · exact hx
    · rintro rfl
      rw [identity?_eq_none_iff.mpr instance?_nextId] at hx
      cases hx
  | link h _ => exact identity?_linkAttachment.trans hx
  | unlink h a => exact identity?_unlinkAttachment.trans hx
  | mark _ => exact identity?_markPending.trans hx
  | release _ => exact identity?_releaseAll.trans hx

theorem journal_of_move (hm : Move s s') : s.journal <:+ s'.journal := by
  have hsame : s'.journal = s.journal → s.journal <:+ s'.journal :=
    fun heq => heq ▸ List.suffix_refl _
  cases hm with
  | record e => exact List.suffix_cons e _
  | assign hs =>
    obtain ⟨i, -, -, rfl⟩ := assign_eq_ok hs
    exact hsame rfl
  | mark _ => exact hsame (journal_foldl_update _)
  | release _ => exact hsame (journal_foldl_update _)
  | _ => exact hsame rfl

theorem elapsed_order : Run.Order Elapsed where
  refl := fun _ => ⟨fun _ => Nat.le_refl _, id, List.suffix_refl _⟩
  trans := fun h h' => ⟨fun x => Nat.le_trans (h.stage x) (h'.stage x),
    fun hk => h'.identity (h.identity hk), h.journal.trans h'.journal⟩

theorem elapsed_of_step (hs : Step s s') : Elapsed s s' := by
  cases hs with
  | move hm _ => exact ⟨(aged_of_move hm).stage, identity?_of_move hm, journal_of_move hm⟩
  | file definition id => exact ⟨fun _ => Nat.le_refl _, fun hk => hk, List.suffix_refl _⟩

theorem next_of_step (hs : Step s s') (x : InstanceId) : Next (s.state? x) (s'.state? x) := by
  cases hs with
  | move hm _ => exact next_of_move hm x
  | file definition id => exact .same _

theorem Elapsed.exists (h : Elapsed s s') (hx : s.instance? x ≠ none) : s'.instance? x ≠ none :=
  exists_of_identity? h.identity hx

theorem Elapsed.isTemplate_iff (h : Elapsed s s') (hx : s.instance? x ≠ none) :
    s'.IsTemplate x ↔ s.IsTemplate x := by
  rw [ne_eq, ← identity?_eq_none_iff] at hx
  obtain ⟨k, hk⟩ := Option.ne_none_iff_exists'.mp hx
  rw [Space.isTemplate_iff, Space.isTemplate_iff, hk, h.identity hk]

theorem elapsed_of_steps (hs : Steps s s') : Elapsed s s' := by
  induction hs with
  | refl => exact elapsed_order.refl s
  | tail _ hlast ih => exact elapsed_order.trans ih (elapsed_of_step hlast)

/-- A state that is the same before and after was so all the time. -/
theorem state?_between {u : Space} (hu : Steps s u) (hs' : Steps u s')
    (hx : s'.state? x = s.state? x) : u.state? x = s.state? x := by
  have hfrom := (elapsed_of_steps hu).stage x
  have hto := (elapsed_of_steps hs').stage x
  rw [hx] at hto
  exact stage_injective (Nat.le_antisymm hto hfrom)

end Changes

section Stepping

theorem steps_order : Run.Order Steps where
  refl := fun _ => .refl
  trans := Relation.ReflTransGen.trans

theorem step_of_attached (hm : Move s s') (hsub : ∀ h, s'.attached h ⊆ s.attached h) :
    Steps s s' :=
  .single (.move hm fun h _ hx => .inl (hsub h hx))

theorem step_of_population (hm : Move s s') (hp : s'.population = s.population) : Steps s s' := by
  refine step_of_attached hm fun h => ?_
  rw [attached, instance?_of_population hp, attached]
  exact List.Subset.refl _

theorem steps_link (h : InstanceId) (hexists : s.instance? a ≠ none)
    (ha : s.state? a ≠ some .pendingDestroy) (ht : ¬ s.IsTemplate a) :
    Steps s (s.linkAttachment h a) := by
  refine .single (.move (.link h ha) fun k x hx => ?_)
  by_cases hne : x = a
  · exact .inr (hne ▸ ⟨hexists, ht⟩)
  · exact .inl (mem_attached_of_linkAttachment hne hx)

theorem steps_unlink (s : Space) (h a : InstanceId) : Steps s (s.unlinkAttachment h a) := by
  refine step_of_attached (.unlink s h a) fun k => ?_
  rw [attached_unlinkAttachment]
  split
  next hk => exact hk ▸ List.filter_subset_self _
  next => exact List.Subset.refl _

theorem steps_unlinkFromHost (s : Space) (id : InstanceId) : Steps s (s.unlinkFromHost id) := by
  unfold unlinkFromHost
  split
  · exact steps_unlink s _ id
  · exact .refl

theorem steps_allocate (s : Space) (t : Table) (owner : Principal) (privileged : Bool) :
    Steps s (s.allocate t owner privileged) := by
  refine step_of_attached (.allocate s t owner privileged) fun h => ?_
  rw [attached_allocate]
  exact List.Subset.refl _

theorem steps_mark (htree : Tree s root order) : Steps s (s.markPending order) := by
  refine step_of_attached (.mark htree.live) fun k => ?_
  rw [attached_markPending]
  exact List.Subset.refl _

theorem steps_tearOut (hpending : ∀ x ∈ order, s.state? x = some .pendingDestroy) :
    Steps s (s.tear root order) := by
  refine (steps_unlinkFromHost s root).trans (step_of_attached (.release fun x hx => ?_) fun k => ?_)
  · rw [state?_unlinkFromHost]
    exact hpending x hx
  · rw [tear, attached_releaseAll]
    split
    · exact List.nil_subset _
    · exact List.Subset.refl _

theorem steps_tear (htree : Tree s root order) (h : Steps (s.markPending order) s₁)
    (hp : SamePending (s.markPending order) s₁) : Steps s (s₁.tear root order) :=
  ((steps_mark htree).trans h).trans (steps_tearOut fun _ hx => htree.pending hp hx)

theorem steps_join {made : InstanceId} (host : InstanceId) (hnew : s₀.instance? made = none)
    (hmade : s.instance? made ≠ none) (hcourse : Course [] s₀ s) : Steps s (s.join host made) := by
  have hrecorded : Steps s (s.record (.joined host made (s.state? host) (s.state? made)
      (s.host? made))) := step_of_population (.record s _) rfl
  refine hrecorded.trans (steps_link host hmade ?_ ?_)
  · -- what was not there before the creation cannot be pending after it
    rw [state?_record, ne_eq, hcourse.samePending, state?, hnew]
    simp
  · intro ht
    obtain ⟨i, hi, -⟩ := (hcourse.recruits.isTemplate_iff (x := made)).mp ht
    rw [hnew] at hi
    cases hi

theorem steps_of_course (h : Course ran s s') : Steps s s' := by
  induction h with
  | rest s => exact .refl
  | onward _ _ ih ih' => exact ih.trans ih'
  | resolved s operation => exact step_of_population (.resolve s _) rfl
  | chained s chain => exact step_of_population (.chain s chain) rfl
  | logged s v => exact step_of_population (.record s _) rfl
  | entered s this owner method => exact step_of_population (.record s _) rfl
  | hooked s x => exact step_of_population (.record s _) rfl
  | assigned hs =>
    refine step_of_attached (.assign hs) fun h => ?_
    obtain ⟨i, -, -, rfl⟩ := assign_eq_ok hs
    rw [attached_update]
    · exact List.Subset.refl _
    · intro i
      rfl
  | attached hs =>
    have ht := not_isTemplate_of_attach hs
    obtain ⟨-, ha, -, -, -, rfl⟩ := attach_eq_some hs
    exact steps_link _ (by simp [← state?_eq_none_iff, ha]) (by simp [ha]) ht
  | detached hs =>
    obtain ⟨-, -, rfl⟩ := detach_eq_ok hs
    exact steps_unlink _ _ _
  | @allocated s s₁ t definition owner ht _ =>
    obtain rfl := space_of_tableFor ht
    have hresolve := step_of_population (.resolve s (s.registry.after (.get definition))) rfl
    exact hresolve.trans (steps_allocate _ t owner false)
  | joined host hnew hmade hcourse ih => exact ih.trans (steps_join host hnew hmade hcourse)
  | torn horder _ _ _ hhooks ih =>
    exact steps_tear (tree_of_attachmentTree horder) ih hhooks.samePending

theorem lasting_steps : Lasting Steps where
  toOrder := steps_order
  course := steps_of_course
  allocated := steps_allocate
  undone := fun horder _ =>
    steps_tear (tree_of_attachmentTree horder) .refl (samePending_order.refl _)

theorem steps_of_served [Natives] {requests : List Request} (h : Served s₀ requests s) :
    Steps s₀ s :=
  lasting_steps.served (fun s definition id => .single (.file s definition id)) h

end Stepping

section Hooks

def timesHooked (s : Space) (x : InstanceId) : Nat := s.journal.count (.hooked x)

def felled (s : Space) (x : InstanceId) : Nat := if s.state? x = some .destroyed then 1 else 0

/-- A hook that was run on an instance is one of the list, or there is a destruction of the instance
to account for it. -/
def Accounted (ran : List InstanceId) (s s' : Space) : Prop :=
  ∀ x, s'.timesHooked x + s.felled x ≤ s.timesHooked x + ran.count x + s'.felled x

theorem accounted_of_calm (h : Calm s s') : Accounted [] s s' := by
  intro x
  obtain ⟨events, hj, hnone⟩ := h.journal
  have hcount : s'.timesHooked x = s.timesHooked x := by
    rw [timesHooked, hj, List.count_append, List.count_eq_zero.mpr (hnone x), Nat.zero_add,
      timesHooked]
  refine Nat.le_of_eq ?_
  rw [hcount, felled, felled, h.state, List.count_nil, Nat.add_zero]

theorem accounted_hooked (s : Space) (x : InstanceId) : Accounted [x] s (s.record (.hooked x)) := by
  intro y
  by_cases hy : y = x
  · subst hy
    have hcount : (s.record (.hooked y)).timesHooked y = s.timesHooked y + 1 := List.count_cons_self
    rw [hcount, List.count_singleton_self]
    exact Nat.le_refl _
  · have hcount : (s.record (.hooked x)).timesHooked y = s.timesHooked y :=
      List.count_cons_of_ne fun heq => hy (Event.hooked.inj heq).symm
    rw [hcount, List.count_eq_zero.mpr (by simpa using hy)]
    exact Nat.le_refl _

theorem Accounted.trans {more : List InstanceId} {s'' : Space} (h : Accounted ran s s')
    (h' : Accounted more s' s'') : Accounted (ran ++ more) s s'' := by
  intro x
  have hfirst := h x
  have hsecond := h' x
  rw [List.count_append]
  omega

theorem accounted_order : Run.Order (Accounted []) where
  refl := fun _ => accounted_of_calm (calm_of_population rfl rfl)
  trans := Accounted.trans

theorem accounted_allocate (s : Space) (t : Table) (owner : Principal) (privileged : Bool) :
    Accounted [] s (s.allocate t owner privileged) := by
  intro x
  have hruns : (s.allocate t owner privileged).timesHooked x = s.timesHooked x := rfl
  have hfelled : s.felled x ≤ (s.allocate t owner privileged).felled x := by
    rw [felled, felled, state?_allocate]
    by_cases hx : x = s.population.nextId
    · simp [hx, state?, instance?_nextId]
    · simp [hx]
  rw [hruns]
  simpa using hfelled

theorem accounted_tear (htree : Tree s root order) (hsub : ran.Sublist order)
    (h : Accounted ran (s.markPending order) s₁) (hp : SamePending (s.markPending order) s₁) :
    Accounted [] s (s₁.tear root order) := by
  intro x
  have hhooks := h x
  have hmarked : (s.markPending order).timesHooked x = s.timesHooked x := by
    rw [timesHooked, markPending, journal_foldl_update, timesHooked]
  have htorn : (s₁.tear root order).timesHooked x = s₁.timesHooked x := by
    rw [timesHooked, journal_tear, timesHooked]
  have hcount : ran.count x ≤ order.count x := hsub.count_le x
  rw [hmarked] at hhooks
  rw [htorn, List.count_nil, Nat.add_zero]
  unfold felled at hhooks ⊢
  rw [htree.state?_mark] at hhooks
  rw [state?_tear]
  by_cases hx : x ∈ order
  · -- the instance was live, so it is now that it falls; its hook was run once at most
    have hone : order.count x ≤ 1 := List.nodup_iff_count.mp htree.nodup x
    simp only [if_pos hx, htree.live x hx, htree.pending hp hx, Option.map_some] at hhooks ⊢
    simp at hhooks ⊢
    omega
  · have hnone : order.count x = 0 := List.count_eq_zero.mpr hx
    simp only [if_neg hx] at hhooks ⊢
    omega

theorem Course.accounted (h : Course ran s s') : Accounted ran s s' := by
  refine Course.induct ?_ ?_ accounted_hooked ?_ ?_ h
  · exact fun _ => Accounted.trans
  · exact accounted_of_calm
  · exact fun s t owner _ => accounted_allocate s t owner false
  · exact fun htree _ hsub hhooks ih => accounted_tear htree hsub ih hhooks.samePending

theorem lasting_accounted : Lasting (Accounted []) where
  toOrder := accounted_order
  course := Course.accounted
  allocated := accounted_allocate
  undone := fun horder _ => accounted_tear (tree_of_attachmentTree horder) (List.nil_sublist _)
    (accounted_order.refl _) (samePending_order.refl _)

end Hooks

section Rest

variable [Natives] {r : Registry} {config : Config} {requests : List Request}

/-- No destruction is under way between two requests. -/
theorem not_pending_of_served (hstart : ofConfig? r config = .ok s₀) (h : Served s₀ requests s)
    (x : InstanceId) : s.state? x ≠ some .pendingDestroy := by
  have hsame := lasting_samePending.served (fun _ _ _ => samePending_of_population rfl) h
  rw [ne_eq, hsame, state?, instance?_of_ofConfig? hstart]
  simp

/-- All hooks of an instance are accounted for by its one destruction. -/
theorem timesHooked_le_one (hstart : ofConfig? r config = .ok s₀) (h : Served s₀ requests s)
    (x : InstanceId) : s.timesHooked x ≤ 1 := by
  have haccounted := lasting_accounted.served
    (fun _ _ _ => accounted_of_calm (calm_of_population rfl rfl)) h x
  have hnone : s₀.timesHooked x = 0 := by
    rw [timesHooked, journal_of_ofConfig? hstart, List.count_nil]
  have hfelled : s.felled x ≤ 1 := by
    unfold felled
    split <;> simp
  rw [hnone, List.count_nil] at haccounted
  omega

end Rest

/-- Whatever is asked of a new space, whatever bodies run: an instance that is there stays who it is,
and its state goes from live to pending to destroyed, never back; what is created, however deep in
other computations, was not there before; at most one hook is run on each instance, and between two
requests none is pending. -/
theorem lifecycle_only_advances [Natives] {r : Registry} {config : Config} {requests : List Request}
    (hstart : ofConfig? r config = .ok s₀) (hserved : Served s₀ requests s) :
    Steps s₀ s ∧
    (∀ {bound id m args caller u out u'}, (engine bound).call id m args caller u = some (out, u') →
      Steps u u') ∧
    (∀ {bound definition owner privileged allowPrototype u out u'},
      (engine bound).create definition owner privileged allowPrototype u = some (out, u') →
        Steps u u' ∧ ∀ id, out = .ok id → u.instance? id = none ∧ u'.instance? id ≠ none) ∧
    (∀ u u', Steps u u' → ∀ x k, u.identity? x = some k → u'.identity? x = some k) ∧
    (∀ u u', Step u u' → ∀ x, Next (u.state? x) (u'.state? x)) ∧
    (∀ u v w, Steps u v → Steps v w → ∀ x, w.state? x = u.state? x → v.state? x = u.state? x) ∧
    (∀ u, Steps u s → ∀ x, u.timesHooked x ≤ 1) ∧
    ∀ x, s.state? x ≠ some .pendingDestroy := by
  refine ⟨steps_of_served hserved, ?_, ?_, ?_, fun _ _ => next_of_step, ?_, ?_,
    not_pending_of_served hstart hserved⟩
  · intro bound id m args caller u out u' h
    exact steps_of_course (((courses_engine bound).call id m args caller).holds h)
  · intro bound definition owner privileged allowPrototype u out u' h
    refine ⟨lasting_steps.founding (founding_of_create h), fun id hid => ?_⟩
    exact (courses_engine bound).made (hid ▸ h)
  · intro u u' hsteps x k hk
    exact (elapsed_of_steps hsteps).identity hk
  · intro u v w huv hvw x hx
    exact state?_between huv hvw hx
  · intro u hu x
    exact Nat.le_trans ((elapsed_of_steps hu).journal.sublist.count_le _)
      (timesHooked_le_one hstart hserved x)

section Crash

def chandelier : Definition :=
  { Definition.empty ⟨"/chandelier", by decide⟩ with
    methods := Dict.empty.insert "on_destroy" ⟨.native [.mk (.literal .null) (.literal .null) none
      (.command (.destroy (.host .this)))], []⟩ }

def crash : List Request :=
  [.registry (.register chandelier), .instantiate chandelier.id .system,
    .instantiate chandelier.id (.object ⟨1⟩), .attach ⟨2⟩ ⟨1⟩ .system, .destroy ⟨1⟩ .system]

/-- The second destruction begins inside the first. -/
theorem crash_advances : ∃ s₀ s, ofConfig? (.empty .firstContributor 8 none) .standard = .ok s₀ ∧
    Served s₀ crash s ∧ s.state? ⟨1⟩ = some .destroyed ∧ s.state? ⟨2⟩ = some .destroyed ∧
    s.timesHooked ⟨1⟩ = 1 ∧ s.timesHooked ⟨2⟩ = 1 ∧ Steps s₀ s ∧
    (∀ u, Steps u s → ∀ x, u.timesHooked x ≤ 1) ∧ ∀ x, s.state? x ≠ some .pendingDestroy := by
  have hrun : (ofConfig? (.empty .firstContributor 8 none) .standard).toOption.bind
      (fun s₀ => (serve 6 crash s₀).map fun s => (s.state? ⟨1⟩, s.state? ⟨2⟩, s.timesHooked ⟨1⟩,
        s.timesHooked ⟨2⟩)) = some (some .destroyed, some .destroyed, 1, 1) := by
    decide +kernel
  obtain ⟨s₀, hstart, hserve⟩ := Option.bind_eq_some_iff.mp hrun
  obtain ⟨s, hserve, heq⟩ := Option.map_eq_some_iff.mp hserve
  simp only [Prod.mk.injEq] at heq
  obtain ⟨hfirst, hsecond, hruns, hruns'⟩ := heq
  have hok := eq_ok_of_toOption hstart
  have hserved := served_of_serve hserve
  obtain ⟨hsteps, -, -, -, -, -, honce, hpending⟩ := lifecycle_only_advances hok hserved
  exact ⟨s₀, s, hok, hserved, hfirst, hsecond, hruns, hruns', hsteps, honce, hpending⟩

end Crash

end Space

end Mudlib
