import Mudlib.Space.Operations
import Mudlib.Proofs.Space.Guards
import Mudlib.Proofs.Space.Steps
/-!
Courses: what computations do to a space, whatever bodies they start and however these start each
other.

Every computation that a body can start follows a course (`courses_engine`), so that what holds of
all courses, by induction on how they are put together, holds of all computations. Creations that are
asked for from outside may besides give their instance the privilege flag, or make a template;
`Founding` says what becomes of them.
-/
set_option autoImplicit false

namespace Mudlib

/-- Neither privileged nor the template of a prototype definition. -/
structure Identity.Ordinary (k : Identity) : Prop where
  privileged : k.privileged = false
  prototype : k.table.prototype = false

namespace Space

def join (s : Space) (host auxiliary : InstanceId) : Space :=
  (s.record (.joined host auxiliary (s.state? host) (s.state? auxiliary)
    (s.host? auxiliary))).linkAttachment host auxiliary

def tear (s : Space) (root : InstanceId) (order : List InstanceId) : Space :=
  (s.unlinkFromHost root).releaseAll order

/-- What a computation does that a body can start. The list names the instances whose hooks were run,
in this order, by the destruction that waits for the computation. -/
inductive Course : List InstanceId → Space → Space → Prop where
  | rest (s : Space) : Course [] s s
  | onward {ran more : List InstanceId} {s s' s'' : Space} :
      Course ran s s' → Course more s' s'' → Course (ran ++ more) s s''
  | resolved (s : Space) (operation : Registry.Operation) :
      Course [] s { s with registry := s.registry.after operation }
  | chained (s : Space) (chain : List DefinitionId) : Course [] s { s with chain := chain }
  | logged (s : Space) (v : Value) : Course [] s (s.record (.logged v))
  | entered (s : Space) (this : InstanceId) (owner : DefinitionId) (method : String) :
      Course [] s (s.record (.entered this (s.state? this) owner method))
  | hooked (s : Space) (x : InstanceId) : Course [x] s (s.record (.hooked x))
  | assigned {s s' : Space} {id : InstanceId} {field : String} {v : Value} :
      s.assign id field v = .ok s' → Course [] s s'
  | attached {s s' : Space} {h a : InstanceId} {caller : Principal} :
      s.attach h a caller = some (.ok s') → Course [] s s'
  | detached {s s' : Space} {h a : InstanceId} {caller : Principal} :
      s.detach h a caller = .ok s' → Course [] s s'
  /-- A creation has found an ordinary table, and allocates an instance. -/
  | allocated {s s₁ : Space} {t : Table} {definition : DefinitionId} (owner : Principal) :
      s.tableFor definition = (.ok t, s₁) → t.prototype = false →
      Course [] s (s₁.allocate t owner false)
  /-- An auxiliary is attached that was created for this. -/
  | joined {s₀ s : Space} {made : InstanceId} (host : InstanceId) : s₀.instance? made = none →
      s.instance? made ≠ none → Course [] s₀ s → Course [] s₀ (s.join host made)
  /-- A tree is marked, hooks of its members run, and it is released. -/
  | torn {s s₁ : Space} {root : InstanceId} {order ran : List InstanceId} :
      s.attachmentTree root = some order → s.state? root ≠ some .pendingDestroy →
      ¬ s.IsTemplate root → ran.Sublist order → Course ran (s.markPending order) s₁ →
      Course [] s (s₁.tear root order)

variable {s s' s'' s₀ s₁ : Space} {id x h a host made root : InstanceId}
variable {ran order : List InstanceId}

theorem space_of_tableFor {definition : DefinitionId} {result : Except RuntimeError Table}
    (h : s.tableFor definition = (result, s₁)) :
    s₁ = { s with registry := s.registry.after (.get definition) } :=
  (Prod.mk.inj h).2.symm

theorem course_order : Run.Order (Course []) where
  refl := .rest
  trans := fun h h' => h.onward h'

section Calm

/-- Who is there and in what state is as before, and no hook was run. -/
structure Calm (s s' : Space) : Prop where
  state : ∀ x, s'.state? x = s.state? x
  identity : ∀ x, s'.identity? x = s.identity? x
  journal : ∃ events, s'.journal = events ++ s.journal ∧ ∀ x, .hooked x ∉ events

theorem calm_of_population (hp : s'.population = s.population) (hj : s'.journal = s.journal) :
    Calm s s' where
  state := fun x => by rw [state?, instance?_of_population hp, state?]
  identity := fun x => by rw [identity?, instance?_of_population hp, identity?]
  journal := ⟨[], hj, fun _ => List.not_mem_nil⟩

theorem calm_record (s : Space) {e : Event} (he : ∀ x, e ≠ .hooked x) : Calm s (s.record e) :=
  ⟨fun _ => rfl, fun _ => rfl, [e], rfl, fun x hx => he x (List.mem_singleton.mp hx).symm⟩

theorem calm_assign {field : String} {v : Value} (hs : s.assign id field v = .ok s') :
    Calm s s' := by
  refine ⟨?_, identity?_assign hs, ?_⟩
  · obtain ⟨i, -, -, rfl⟩ := assign_eq_ok hs
    exact fun x => map_instance?_update _ _ Instance.state fun _ => rfl
  · obtain ⟨i, -, -, rfl⟩ := assign_eq_ok hs
    exact ⟨[], rfl, fun _ => List.not_mem_nil⟩

theorem calm_link (s : Space) (h a : InstanceId) : Calm s (s.linkAttachment h a) :=
  ⟨fun _ => state?_linkAttachment, fun _ => identity?_linkAttachment, [], rfl,
    fun _ => List.not_mem_nil⟩

theorem calm_unlink (s : Space) (h a : InstanceId) : Calm s (s.unlinkAttachment h a) :=
  ⟨fun _ => state?_unlinkAttachment, fun _ => identity?_unlinkAttachment, [], rfl,
    fun _ => List.not_mem_nil⟩

theorem calm_join (s : Space) (host made : InstanceId) : Calm s (s.join host made) := by
  refine ⟨fun x => state?_linkAttachment, fun x => identity?_linkAttachment, ?_⟩
  refine ⟨[.joined host made (s.state? host) (s.state? made) (s.host? made)], rfl, fun x hx => ?_⟩
  cases List.mem_singleton.mp hx

/-- Induction over courses in which all calm steps are one case. -/
theorem Course.induct {R : List InstanceId → Space → Space → Prop}
    (onward : ∀ {ran more s s' s''}, Course ran s s' → R ran s s' → R more s' s'' →
      R (ran ++ more) s s'')
    (calm : ∀ {s s'}, Calm s s' → R [] s s')
    (hooked : ∀ s x, R [x] s (s.record (.hooked x)))
    (allocated : ∀ s (t : Table) owner, t.prototype = false → R [] s (s.allocate t owner false))
    (torn : ∀ {s s₁ root order ran}, Tree s root order → ¬ s.IsTemplate root →
      ran.Sublist order → Course ran (s.markPending order) s₁ →
      R ran (s.markPending order) s₁ → R [] s (s₁.tear root order))
    (h : Course ran s s') : R ran s s' := by
  induction h with
  | rest s => exact calm (calm_of_population rfl rfl)
  | onward hfirst _ ih ih' => exact onward hfirst ih ih'
  | resolved s operation => exact calm (calm_of_population rfl rfl)
  | chained s chain => exact calm (calm_of_population rfl rfl)
  | logged s v => exact calm (calm_record s fun _ he => nomatch he)
  | entered s this owner method => exact calm (calm_record s fun _ he => nomatch he)
  | hooked s x => exact hooked s x
  | assigned hs => exact calm (calm_assign hs)
  | attached hs =>
    obtain ⟨-, -, -, -, -, rfl⟩ := attach_eq_some hs
    exact calm (calm_link _ _ _)
  | detached hs =>
    obtain ⟨-, -, rfl⟩ := detach_eq_ok hs
    exact calm (calm_unlink _ _ _)
  | @allocated s s₁ t definition owner ht hp =>
    obtain rfl := space_of_tableFor ht
    have hresolved : R [] s { s with registry := s.registry.after (.get definition) } :=
      calm (calm_of_population rfl rfl)
    exact onward (.resolved s _) hresolved (allocated _ t owner hp)
  | joined host _ _ hcourse ih => exact onward hcourse ih (calm (calm_join _ host _))
  | torn horder _ ht hsub hhooks ih => exact torn (tree_of_attachmentTree horder) ht hsub hhooks ih

end Calm

section Pending

theorem samePending_of_state (hs : ∀ x, s'.state? x = s.state? x) : SamePending s s' := by
  intro x
  rw [hs]

theorem samePending_of_population (hp : s'.population = s.population) : SamePending s s' :=
  samePending_of_state fun x => by rw [state?, instance?_of_population hp, state?]

theorem samePending_order : Run.Order SamePending where
  refl := fun _ _ => Iff.rfl
  trans := fun h h' x => (h' x).trans (h x)

theorem samePending_allocate (s : Space) (t : Table) (owner : Principal) (privileged : Bool) :
    SamePending s (s.allocate t owner privileged) := by
  intro x
  rw [state?_allocate]
  split
  next hx => simp [hx, state?, instance?_nextId]
  next => rfl

theorem state?_tear : (s.tear root order).state? x =
    if x ∈ order then (s.state? x).map fun _ => .destroyed else s.state? x := by
  rw [tear, state?_releaseAll, state?_unlinkFromHost]

theorem journal_tear : (s.tear root order).journal = s.journal := by
  rw [tear, releaseAll, journal_foldl_update, journal_unlinkFromHost]

theorem samePending_tear (htree : Tree s root order)
    (hp : SamePending (s.markPending order) s₁) : SamePending s (s₁.tear root order) := by
  intro x
  rw [state?_tear]
  split
  next hx =>
    rw [htree.pending hp hx, htree.live x hx]
    simp
  next hx => rw [hp, htree.state?_mark, if_neg hx]

/-- A destruction that has begun ends before what began it, and no sooner. -/
theorem Course.samePending (h : Course ran s s') : SamePending s s' := by
  refine Course.induct (R := fun _ => SamePending) ?_ ?_ ?_ ?_ ?_ h
  · exact fun _ => samePending_order.trans
  · exact fun hcalm => samePending_of_state hcalm.state
  · exact fun s x => samePending_of_population rfl
  · exact fun s t owner _ => samePending_allocate s t owner false
  · exact fun htree _ _ _ ih => samePending_tear htree ih

end Pending

section Identities

/-- Who was there is who he was, and who is new is ordinary. -/
def Recruits (s s' : Space) : Prop :=
  ∀ x, s'.identity? x = s.identity? x ∨
    s.identity? x = none ∧ ∃ k, s'.identity? x = some k ∧ k.Ordinary

theorem recruits_of_identity (hs : ∀ x, s'.identity? x = s.identity? x) : Recruits s s' :=
  fun x => .inl (hs x)

theorem Recruits.trans (h : Recruits s s') (h' : Recruits s' s'') : Recruits s s'' := by
  intro x
  rcases h' x with heq' | ⟨hnone, hnew⟩
  · rw [heq']
    exact h x
  · rcases h x with heq | ⟨-, k, hk, -⟩
    · exact .inr ⟨heq ▸ hnone, hnew⟩
    · rw [hk] at hnone
      cases hnone

theorem Recruits.identity? {k : Identity} (h : Recruits s s') (hx : s.identity? x = some k) :
    s'.identity? x = some k := by
  rcases h x with heq | ⟨hnone, -⟩
  · rw [heq, hx]
  · rw [hx] at hnone
    cases hnone

theorem Recruits.origin {k : Identity} (h : Recruits s s') (hx : s'.identity? x = some k) :
    s.identity? x = some k ∨ s.identity? x = none ∧ k.Ordinary := by
  rcases h x with heq | ⟨hnone, k', hk', ho⟩
  · exact .inl (heq ▸ hx)
  · rw [hk'] at hx
    cases hx
    exact .inr ⟨hnone, ho⟩

theorem Recruits.isTemplate_iff (h : Recruits s s') : s'.IsTemplate x ↔ s.IsTemplate x := by
  rw [Space.isTemplate_iff, Space.isTemplate_iff]
  constructor
  · intro ht
    obtain ⟨k, hk, hp⟩ := ht
    rcases h x with heq | ⟨-, k', hk', ho⟩
    · exact ⟨k, heq ▸ hk, hp⟩
    · rw [hk] at hk'
      cases hk'
      rw [ho.prototype] at hp
      cases hp
  · intro ht
    obtain ⟨k, hk, hp⟩ := ht
    exact ⟨k, h.identity? hk, hp⟩

theorem Recruits.exists (h : Recruits s s') (hx : s.instance? x ≠ none) : s'.instance? x ≠ none :=
  exists_of_identity? h.identity? hx

theorem identity?_tear : (s.tear root order).identity? x = s.identity? x :=
  identity?_releaseAll.trans identity?_unlinkFromHost

theorem Course.recruits (h : Course ran s s') : Recruits s s' := by
  refine Course.induct (R := fun _ => Recruits) ?_ ?_ ?_ ?_ ?_ h
  · exact fun _ => Recruits.trans
  · exact fun hcalm => recruits_of_identity hcalm.identity
  · exact fun s x => recruits_of_identity fun _ => rfl
  · intro s t owner hp x
    rw [identity?_allocate]
    split
    next hx => exact .inr ⟨identity?_eq_none_iff.mpr (hx ▸ instance?_nextId), _, rfl, rfl, hp⟩
    next => exact .inl rfl
  · intro s s₁ root order ran _ _ _ _ ih
    refine Recruits.trans (recruits_of_identity fun x => identity?_markPending) (ih.trans ?_)
    exact recruits_of_identity fun x => identity?_tear

end Identities

inductive Founding (definition : DefinitionId) (owner : Principal) (privileged allowPrototype : Bool)
    (s : Space) : Except RuntimeError InstanceId → Space → Prop where
  | refused (e : RuntimeError) : Founding definition owner privileged allowPrototype s (.error e)
      { s with registry := s.registry.after (.get definition) }
  | done {t : Table} {s₁ s₂ : Space} : s.tableFor definition = (.ok t, s₁) →
      (t.prototype = true → allowPrototype = true) →
      Course [] (s₁.allocate t owner privileged) s₂ →
      Founding definition owner privileged allowPrototype s (.ok s₁.population.nextId) s₂
  | undone {t : Table} {s₁ s₂ : Space} {order : List InstanceId} (e : RuntimeError) :
      s.tableFor definition = (.ok t, s₁) → (t.prototype = true → allowPrototype = true) →
      Course [] (s₁.allocate t owner privileged) s₂ →
      s₂.attachmentTree s₁.population.nextId = some order →
      Founding definition owner privileged allowPrototype s (.error e)
        ((s₂.markPending order).tear s₁.population.nextId order)

/-- Without a flag and without a prototype, creations are part of courses. -/
theorem Founding.course {definition : DefinitionId} {owner : Principal}
    {out : Except RuntimeError InstanceId} (hf : Founding definition owner false false s out s') :
    Course [] s s' := by
  have ordinary : ∀ {t : Table}, (t.prototype = true → false = true) → t.prototype = false :=
    fun hp => Bool.eq_false_iff.mpr fun ht => Bool.false_ne_true (hp ht)
  cases hf with
  | refused e => exact .resolved s _
  | done ht hp hset => exact course_order.trans (.allocated owner ht (ordinary hp)) hset
  | @undone t s₁ s₂ order e ht hp hset horder =>
    refine course_order.trans (.allocated owner ht (ordinary hp)) (course_order.trans hset ?_)
    refine .torn horder ?_ ?_ (List.nil_sublist order) (.rest _)
    · rw [ne_eq, hset.samePending, state?_allocate, if_pos rfl]
      simp
    · rw [hset.recruits.isTemplate_iff, isTemplate_iff]
      rintro ⟨k, hk, htemplate⟩
      rw [identity?_allocate, if_pos rfl] at hk
      cases hk
      rw [ordinary hp] at htemplate
      cases htemplate

theorem Founding.origin {definition : DefinitionId} {owner : Principal}
    {privileged allowPrototype : Bool} {out : Except RuntimeError InstanceId} {k : Identity}
    (hf : Founding definition owner privileged allowPrototype s out s')
    (hx : s'.identity? x = some k) :
    s.identity? x = some k ∨ s.identity? x = none ∧ (k.Ordinary ∨
      x = s.population.nextId ∧ k.owner = owner ∧ k.privileged = privileged ∧
        (s.registry.get definition).1 = .ok k.table ∧
        (k.table.prototype = true → allowPrototype = true)) := by
  have hset : ∀ {t s₁ s₂}, s.tableFor definition = (.ok t, s₁) →
      (t.prototype = true → allowPrototype = true) →
      Course [] (s₁.allocate t owner privileged) s₂ → s₂.identity? x = some k →
      s.identity? x = some k ∨ s.identity? x = none ∧ (k.Ordinary ∨
        x = s.population.nextId ∧ k.owner = owner ∧ k.privileged = privileged ∧
          (s.registry.get definition).1 = .ok k.table ∧
          (k.table.prototype = true → allowPrototype = true)) := by
    intro t s₁ s₂ ht hp hcourse hx
    obtain rfl := space_of_tableFor ht
    have hget := eq_ok_of_mapError (Prod.mk.inj ht).1
    rcases hcourse.recruits.origin hx with hx | ⟨hnone, ho⟩
    · rw [identity?_allocate] at hx
      split at hx
      next hnext =>
        cases hx
        exact .inr ⟨identity?_eq_none_iff.mpr (hnext ▸ instance?_nextId),
          .inr ⟨hnext, rfl, rfl, hget, hp⟩⟩
      next => exact .inl hx
    · rw [identity?_allocate] at hnone
      split at hnone
      · cases hnone
      · exact .inr ⟨hnone, .inl ho⟩
  cases hf with
  | refused e => exact .inl hx
  | done ht hp hcourse => exact hset ht hp hcourse hx
  | undone e ht hp hcourse _ =>
    rw [identity?_tear, identity?_markPending] at hx
    exact hset ht hp hcourse hx

structure Lasting (R : Space → Space → Prop) : Prop extends Run.Order R where
  course : ∀ {s s'}, Course [] s s' → R s s'
  allocated : ∀ s t owner privileged, R s (s.allocate t owner privileged)
  undone : ∀ {s root order}, s.attachmentTree root = some order →
    s.state? root ≠ some .pendingDestroy → R s ((s.markPending order).tear root order)

theorem Lasting.founding {R : Space → Space → Prop} (hR : Lasting R) {definition : DefinitionId}
    {owner : Principal} {privileged allowPrototype : Bool} {out : Except RuntimeError InstanceId}
    (hf : Founding definition owner privileged allowPrototype s out s') : R s s' := by
  have hset : ∀ {t s₁ s₂}, s.tableFor definition = (.ok t, s₁) →
      Course [] (s₁.allocate t owner privileged) s₂ → R s s₂ := by
    intro t s₁ s₂ ht hcourse
    obtain rfl := space_of_tableFor ht
    have hresolved := hR.course (.resolved s (.get definition))
    exact hR.trans hresolved (hR.trans (hR.allocated _ _ _ _) (hR.course hcourse))
  cases hf with
  | refused e => exact hR.course (.resolved s _)
  | done ht _ hcourse => exact hset ht hcourse
  | @undone t s₁ s₂ order e ht _ hcourse horder =>
    refine hR.trans (hset ht hcourse) (hR.undone horder ?_)
    rw [ne_eq, hcourse.samePending, state?_allocate, if_pos rfl]
    simp

theorem lasting_samePending : Lasting SamePending where
  toOrder := samePending_order
  course := Course.samePending
  allocated := samePending_allocate
  undone := fun horder _ =>
    samePending_tear (tree_of_attachmentTree horder) (samePending_order.refl _)

end Space

namespace Engine

open Space

structure Courses (engine : Engine) : Prop where
  call : ∀ id m args caller, Run.Keeps (Course []) (engine.call id m args caller)
  create : ∀ definition owner, Run.Keeps (Course []) (engine.create definition owner false false)
  made : ∀ {definition owner privileged allowPrototype s id s'},
    engine.create definition owner privileged allowPrototype s = some (.ok id, s') →
      s.instance? id = none ∧ s'.instance? id ≠ none

namespace Courses

variable {engine : Engine} (he : Courses engine)

include he

theorem invoke (id : InstanceId) (method : String) (args : List Value) (caller : Principal) :
    Run.Keeps (Course []) (engine.invoke id method args caller) :=
  .bind course_order (.search course_order _) fun _ => he.call _ _ _ _

theorem createPath (path : String) (owner : Principal) :
    Run.Keeps (Course []) (engine.createPath path owner) := by
  unfold Engine.createPath
  split
  · exact he.create _ _
  · exact .fail course_order _

theorem callBound (ctx : Context) (call : QualifiedCall) (args : List Value) :
    Run.Keeps (Course []) (engine.callBound ctx call args) := by
  unfold Engine.callBound
  split
  · exact he.call _ _ _ _
  · exact .fail course_order _

theorem runHook {hook : String} {id : InstanceId} {s s' : Space} {out : Except RuntimeError Unit}
    (h : engine.runHook hook id s = some (out, s')) :
    ∃ ran, ran.Sublist [id] ∧ Course ran s s' := by
  rw [runHook_eq] at h
  split at h
  · cases h
    exact ⟨[], List.nil_sublist _, .rest s⟩
  · obtain ⟨r, hcall, heq⟩ := Option.map_eq_some_iff.mp h
    cases heq
    exact ⟨[id], List.Sublist.refl _, (Course.hooked s id).onward ((he.call _ _ _ _).holds hcall)⟩

theorem each_runHook {hook : String} {order : List InstanceId} {s s' : Space}
    {out : Except RuntimeError Unit} (h : Run.each (engine.runHook hook) order s = some (out, s')) :
    ∃ ran, ran.Sublist order ∧ Course ran s s' := by
  induction order generalizing s with
  | nil =>
    cases h
    exact ⟨[], List.Sublist.refl _, .rest _⟩
  | cons id order ih =>
    rcases Run.bind_eq_some h with ⟨e, hone, -⟩ | ⟨_, s₁, hone, hrest⟩
    · cases runHook_ok hone
    · obtain ⟨ran, hran, hcourse⟩ := he.runHook hone
      obtain ⟨more, hmore, hcourse'⟩ := ih hrest
      exact ⟨ran ++ more, hran.append hmore, hcourse.onward hcourse'⟩

theorem runHooks {withHooks : Bool} {order : List InstanceId} {s s' : Space}
    {out : Except RuntimeError Unit} (h : engine.runHooks withHooks order s = some (out, s')) :
    ∃ ran, ran.Sublist order ∧ Course ran s s' := by
  rw [runHooks_eq] at h
  split at h
  · cases h
    exact ⟨[], List.nil_sublist _, .rest _⟩
  · exact he.each_runHook h

theorem requestDestroy (id : InstanceId) (caller : Principal) :
    Run.Keeps (Course []) (engine.requestDestroy id caller) := by
  constructor
  intro s out s' h
  rcases requestDestroy_eq_some h with ⟨-, rfl⟩ | ⟨-, hcheck, order, s₁, horder, hhooks, rfl⟩
  · exact .rest _
  · obtain ⟨ran, hran, hcourse⟩ := he.runHooks hhooks
    refine .torn horder ?_ (not_isTemplate_of_checkDestroy hcheck) hran hcourse
    rw [checkDestroy_eq_ok hcheck]
    simp

theorem runScripted (ctx : Context) (body : ScriptedBody) :
    Run.Keeps (Course []) (engine.runScripted ctx body) := by
  refine .bind course_order (.each course_order fun b _ => ?_) fun _ => ?_
  · exact .bind course_order (he.call _ _ _ _) fun _ => .pure course_order _
  · refine .bind course_order (.each course_order fun a _ => ?_) fun _ => .pure course_order _
    exact .change course_order .assigned

theorem conduct {ctx : Context} {α : Type} {m : Run α} (hm : Conduct engine ctx m) :
    Run.Keeps (Course []) m := by
  induction hm with
  | look question => exact .require course_order question
  | bind _ _ ihm ihf => exact .bind course_order ihm ihf
  | attempt _ ih => exact .attempt ih
  | endless => exact .diverge
  | log v => exact .modify fun s => .logged s v
  | set field v => exact .change course_order .assigned
  | call call args => exact he.callBound ctx call args
  | invoke id method args => exact he.invoke id method args ctx.self
  | spawn path => exact he.createPath path ctx.self
  | attach id => exact .changeWithin course_order .attached
  | detach id => exact .change course_order .detached
  | destroy id => exact he.requestDestroy id ctx.self
  | registry operation => exact .modify fun s => .resolved s operation

theorem runImplementation [Natives] (ctx : Context) :
    Run.Keeps (Course []) (engine.runImplementation ctx) := by
  refine .bind course_order (.modify fun s => .entered s _ _ _) fun _ => ?_
  split
  · exact he.conduct (Natives.conduct _ _ _)
  · exact he.runScripted ctx _

theorem addAuxiliary (id : InstanceId) (auxiliary : DefinitionId) :
    Run.Keeps (Course []) (engine.addAuxiliary id auxiliary) := by
  constructor
  intro s out s' h
  rcases Run.bind_eq_some h with ⟨e, hcreate, -⟩ | ⟨made, s₁, hcreate, hjoin⟩
  · exact (he.create _ _).holds hcreate
  · obtain ⟨hnew, hmade⟩ := he.made hcreate
    cases hjoin
    exact .joined id hnew hmade ((he.create _ _).holds hcreate)

theorem setUp (id : InstanceId) (t : Table) : Run.Keeps (Course []) (engine.setUp id t) := by
  constructor
  intro s out s' h
  have hattached : ∀ {out s₁},
      Run.each (engine.addAuxiliary id) (s.auxiliariesOf t) (s.enterChain t.id) = some (out, s₁) →
        Course [] s s₁.leaveChain := by
    intro out s₁ heach
    have heach := (Run.Keeps.each course_order fun a _ => he.addAuxiliary id a).holds heach
    exact course_order.trans (.chained s _) (course_order.trans heach (.chained s₁ _))
  cases settingUp_of_setUp h with
  | cyclic => exact .rest s
  | attached heach => exact hattached heach
  | ran heach _ hcall => exact course_order.trans (hattached heach) ((he.call _ _ _ _).holds hcall)

theorem founding {definition : DefinitionId} {owner : Principal} {privileged allowPrototype : Bool}
    {s s' : Space} {out : Except RuntimeError InstanceId}
    (h : engine.createInstance definition owner privileged allowPrototype s = some (out, s')) :
    Founding definition owner privileged allowPrototype s out s' := by
  rw [createInstance_eq] at h
  rcases htable : s.tableFor definition with ⟨⟨e⟩ | ⟨t⟩, s₁⟩
  · rw [htable] at h
    cases h
    obtain rfl := space_of_tableFor htable
    exact .refused e
  · rw [htable] at h
    simp only at h
    split at h
    · cases h
      obtain rfl := space_of_tableFor htable
      exact .refused _
    next hallowed =>
      have hp : t.prototype = true → allowPrototype = true := by simpa using hallowed
      rcases hset : engine.setUp s₁.population.nextId t (s₁.allocate t owner privileged) with
        _ | ⟨⟨e⟩ | ⟨⟩, s₂⟩
      · rw [hset] at h
        cases h
      · rw [hset] at h
        obtain ⟨r, hdestroy, heq⟩ := Option.map_eq_some_iff.mp h
        cases heq
        obtain ⟨-, order, s₃, horder, hhooks, hs'⟩ := destroyTree_eq_some hdestroy
        obtain rfl := runHooks_false hhooks
        rw [hs']
        exact .undone e htable hp ((he.setUp _ _).holds hset) horder
      · rw [hset] at h
        cases h
        exact .done htable hp ((he.setUp _ _).holds hset)

omit he in
theorem made_of_founding {definition : DefinitionId} {owner : Principal}
    {privileged allowPrototype : Bool} {s s' : Space} {id : InstanceId}
    (h : Founding definition owner privileged allowPrototype s (.ok id) s') :
    s.instance? id = none ∧ s'.instance? id ≠ none := by
  cases h with
  | done ht _ hset =>
    obtain rfl := space_of_tableFor ht
    refine ⟨instance?_nextId, hset.recruits.exists ?_⟩
    rw [instance?_allocate, if_pos rfl]
    simp

end Courses

end Engine

namespace Space

theorem courses_engine [Natives] (bound : Nat) : (engine bound).Courses := by
  induction bound with
  | zero => exact ⟨fun _ _ _ _ => .diverge, fun _ _ => .diverge, fun h => nomatch h⟩
  | succ n ih =>
    constructor
    · intro id m args caller
      exact ih.runImplementation ⟨id, caller, m, args⟩
    · intro definition owner
      exact ⟨fun h => (ih.founding h).course⟩
    · intro definition owner privileged allowPrototype s id s' h
      exact Engine.Courses.made_of_founding (ih.founding h)

theorem founding_of_create [Natives] {bound : Nat} {definition : DefinitionId} {owner : Principal}
    {privileged allowPrototype : Bool} {s s' : Space} {out : Except RuntimeError InstanceId}
    (h : (engine bound).create definition owner privileged allowPrototype s = some (out, s')) :
    Founding definition owner privileged allowPrototype s out s' := by
  cases bound with
  | zero => cases h
  | succ n => exact (courses_engine n).founding h

end Space

end Mudlib
