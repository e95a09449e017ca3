import Mudlib.Proofs.Space.Lifecycle
/-!
Which instances implementations start on.

An invocation answers on an instance only if that is not destroyed, and a hook runs while its
instance is pending. Nothing is looked at before qualified calls, the calls of a scripted body and
the init method, so that these start on a destroyed instance too, if code that ran on it before had
it destroyed. Every such start lies within work that began on the instance while it was intact.
-/
set_option autoImplicit false

namespace Mudlib

namespace Space

variable {s s' s'' s₁ u u' : Space} {x id root : InstanceId} {busy order : List InstanceId}
variable {e : Event} {before : List Event}

theorem destroyed_of_steps (hs : Steps s s') (hx : s.state? x = some .destroyed) :
    s'.state? x = some .destroyed := by
  induction hs with
  | refl => exact hx
  | @tail u v _ hlast ih =>
    have hnext := next_of_step hlast x
    rw [ih] at hnext
    generalize v.state? x = state at hnext
    cases hnext
    rfl

theorem not_cons_suffix {journal : List Event} (h : journal <:+ before) :
    ¬ e :: before <:+ journal := by
  intro hcons
  have hle := h.length_le
  have hgt := hcons.length_le
  rw [List.length_cons] at hgt
  omega

section Work

variable [Natives]

/-- Work on an instance: an implementation runs on it, or it is set up after its allocation. -/
inductive Work : InstanceId → Space → Space → Prop where
  | call {bound : Nat} {id : InstanceId} {m : Implementation} {args : List Value}
      {caller : Principal} {s s' : Space} {out : Except RuntimeError Value} :
      (engine bound).call id m args caller s = some (out, s') → Work id s s'
  | setUp {bound : Nat} {t : Table} {owner : Principal} {privileged : Bool} {s s' : Space}
      {out : Except RuntimeError Unit} :
      (engine bound).setUp s.population.nextId t (s.allocate t owner privileged) = some (out, s') →
      Work s.population.nextId (s.allocate t owner privileged) s'

/-- Work on an intact instance that destroys it, and in whose course an event was recorded on top of
the earlier ones. -/
structure Fatal (x : InstanceId) (e : Event) (before : List Event) (s s' : Space) : Prop where
  work : Work x s s'
  intact : s.Intact x
  destroyed : s'.state? x = some .destroyed
  since : s.journal <:+ before
  recorded : e :: before <:+ s'.journal

def Overtaken (x : InstanceId) (e : Event) (before : List Event) (s s' : Space) : Prop :=
  ∃ u u', Steps s u ∧ Fatal x e before u u' ∧ Steps u' s'

/-- What starts between the two spaces on destroyed instances: it does so on those that are being
worked on all the time, or within work that destroyed its instance. -/
structure Watched (busy : List InstanceId) (s s' : Space) : Prop where
  steps : Steps s s'
  starts : ∀ {x owner method before}, s.journal <:+ before →
    .entered x (some .destroyed) owner method :: before <:+ s'.journal →
    x ∈ busy ∧ s'.state? x = some .destroyed ∨
      Overtaken x (.entered x (some .destroyed) owner method) before s s'

theorem Overtaken.widen (h : Overtaken x e before u u') (hs : Steps s u) (hs' : Steps u' s') :
    Overtaken x e before s s' := by
  obtain ⟨v, v', hv, hfatal, hv'⟩ := h
  exact ⟨v, v', hs.trans hv, hfatal, hv'.trans hs'⟩

theorem watched_of_journal (hs : Steps s s') (hj : s'.journal = s.journal) :
    Watched busy s s' :=
  ⟨hs, fun hnew hrecorded => absurd (hj ▸ hrecorded) (not_cons_suffix hnew)⟩

theorem watched_of_event (hs : Steps s s') (hj : s'.journal = e :: s.journal)
    (he : ∀ {x owner method}, e = .entered x (some .destroyed) owner method →
      x ∈ busy ∧ s'.state? x = some .destroyed) : Watched busy s s' := by
  refine ⟨hs, fun {x owner method before} hnew hrecorded => ?_⟩
  rw [hj] at hrecorded
  rcases List.suffix_cons_iff.mp hrecorded with heq | hearlier
  · exact .inl (he (List.cons.inj heq).1.symm)
  · exact absurd hearlier (not_cons_suffix hnew)

namespace Watched

theorem wider (h : Watched [] s s') : Watched busy s s' :=
  ⟨h.steps, fun hnew hrecorded => .inr ((h.starts hnew hrecorded).resolve_left (by simp))⟩

theorem trans (h : Watched busy s s') (h' : Watched busy s' s'') : Watched busy s s'' := by
  refine ⟨h.steps.trans h'.steps, fun {x owner method before} hnew hrecorded => ?_⟩
  by_cases hlate : s'.journal <:+ before
  · rcases h'.starts hlate hrecorded with hbusy | hover
    · exact .inl hbusy
    · exact .inr (hover.widen h.steps .refl)
  · -- then it was recorded in the first part already
    have hearly : .entered x (some .destroyed) owner method :: before <:+ s'.journal := by
      have hjournal := (elapsed_of_steps h'.steps).journal
      rcases List.suffix_or_suffix_of_suffix hrecorded hjournal with hearly | hlonger
      · exact hearly
      · rcases List.suffix_cons_iff.mp hlonger with heq | hlater
        · exact heq ▸ List.suffix_refl _
        · exact absurd hlater hlate
    rcases h.starts hnew hearly with ⟨hx, hd⟩ | hover
    · exact .inl ⟨hx, destroyed_of_steps h'.steps hd⟩
    · exact .inr (hover.widen .refl h'.steps)

/-- Work that began on an intact instance accounts for what starts on the instance meanwhile. -/
theorem closed (h : Watched [x] s s') (hwork : Work x s s') (hx : s.Intact x) :
    Watched busy s s' := by
  refine ⟨h.steps, fun hnew hrecorded => ?_⟩
  rcases h.starts hnew hrecorded with ⟨hmem, hd⟩ | hover
  · obtain rfl := List.mem_singleton.mp hmem
    exact .inr ⟨s, s', .refl, ⟨hwork, hx, hd, hnew, hrecorded⟩, .refl⟩
  · exact .inr hover

end Watched

theorem watched_order : Run.Order (Watched busy) where
  refl := fun _ => watched_of_journal .refl rfl
  trans := Watched.trans

theorem watched_of_course (h : Course [] s s') (hj : s'.journal = s.journal) :
    Watched busy s s' :=
  watched_of_journal (steps_of_course h) hj

theorem watched_tableFor {definition : DefinitionId} {result : Except RuntimeError Table}
    (h : s.tableFor definition = (result, s₁)) : Watched busy s s₁ := by
  obtain rfl := space_of_tableFor h
  exact watched_of_course (.resolved s (.get definition)) rfl

theorem watched_assign {field : String} {v : Value} (hs : s.assign id field v = .ok s') :
    Watched busy s s' := by
  refine watched_of_course (.assigned hs) ?_
  obtain ⟨i, -, -, rfl⟩ := assign_eq_ok hs
  rfl

theorem watched_attach {h a : InstanceId} {caller : Principal}
    (hs : s.attach h a caller = some (.ok s')) : Watched busy s s' := by
  refine watched_of_course (.attached hs) ?_
  obtain ⟨-, -, -, -, -, rfl⟩ := attach_eq_some hs
  rfl

theorem watched_detach {h a : InstanceId} {caller : Principal}
    (hs : s.detach h a caller = .ok s') : Watched busy s s' := by
  refine watched_of_course (.detached hs) ?_
  obtain ⟨-, -, rfl⟩ := detach_eq_ok hs
  rfl

/-- A destruction, while nothing but the hooks of its members can start. -/
theorem watched_tear (htree : Tree s root order) (h : Watched [] (s.markPending order) s₁)
    (hp : SamePending (s.markPending order) s₁) : Watched [] s (s₁.tear root order) := by
  have hmark : Watched [] s (s.markPending order) :=
    watched_of_journal (steps_mark htree) (journal_foldl_update _)
  have htear : Watched [] s₁ (s₁.tear root order) :=
    watched_of_journal (steps_tearOut fun _ hx => htree.pending hp hx) journal_tear
  exact (hmark.trans h).trans htear

end Work

section Within

open Engine

variable [Natives] {bound : Nat}

structure WatchedWithin (bound : Nat) : Prop where
  call : ∀ x m args caller, Run.Keeps (Watched [x]) ((engine bound).call x m args caller)
  create : ∀ definition owner privileged allowPrototype,
    Run.Keeps (Watched []) ((engine bound).create definition owner privileged allowPrototype)

namespace WatchedWithin

variable (he : WatchedWithin bound)

include he

theorem call_of_intact {m : Implementation} {args : List Value} {caller : Principal}
    {out : Except RuntimeError Value} (h : (engine bound).call x m args caller s = some (out, s'))
    (hx : s.Intact x) : Watched [] s s' :=
  ((he.call x m args caller).holds h).closed (.call h) hx

theorem invoke (id : InstanceId) (method : String) (args : List Value) (caller : Principal) :
    Run.Keeps (Watched []) ((engine bound).invoke id method args caller) := by
  constructor
  intro s out s' h
  unfold Engine.invoke at h
  rw [Run.search_bind] at h
  split at h
  · cases h
  · cases h
    exact watched_order.refl _
  next hfound => exact he.call_of_intact h (intact_of_dispatch hfound)

theorem createPath (path : String) (owner : Principal) :
    Run.Keeps (Watched []) ((engine bound).createPath path owner) := by
  unfold Engine.createPath
  split
  · exact he.create _ _ _ _
  · exact .fail watched_order _

theorem callBound (ctx : Context) (call : QualifiedCall) (args : List Value) :
    Run.Keeps (Watched [ctx.this]) ((engine bound).callBound ctx call args) := by
  unfold Engine.callBound
  split
  · exact he.call _ _ _ _
  · exact .fail watched_order _

theorem runHook {hook : String} {out : Except RuntimeError Unit}
    (h : (engine bound).runHook hook x s = some (out, s'))
    (hx : s.state? x = some .pendingDestroy) : Watched [] s s' := by
  rw [runHook_eq] at h
  split at h
  · cases h
    exact watched_order.refl _
  · obtain ⟨r, hcall, heq⟩ := Option.map_eq_some_iff.mp h
    cases heq
    have hhooked : Watched [] s (s.record (.hooked x)) :=
      watched_of_event (steps_of_course (Course.hooked s x)) rfl fun heq => nomatch heq
    exact hhooked.trans (he.call_of_intact hcall (intact_of_state hx (by simp)))

/-- The members of a tree are pending until the last hook has run. -/
theorem each_runHook {hook : String} {out : Except RuntimeError Unit}
    (h : Run.each ((engine bound).runHook hook) order s = some (out, s'))
    (hpending : ∀ x ∈ order, s.state? x = some .pendingDestroy) : Watched [] s s' := by
  induction order generalizing s with
  | nil =>
    cases h
    exact watched_order.refl _
  | cons id order ih =>
    rcases Run.bind_eq_some h with ⟨e, hone, -⟩ | ⟨_, s₁, hone, hrest⟩
    · cases runHook_ok hone
    · have hfirst := he.runHook hone (hpending id List.mem_cons_self)
      obtain ⟨ran, -, hcourse⟩ := (courses_engine bound).runHook hone
      refine hfirst.trans (ih hrest fun x hx => ?_)
      exact (hcourse.samePending x).mpr (hpending x (List.mem_cons_of_mem _ hx))

theorem destroyTree {withHooks : Bool} {out : Except RuntimeError Unit}
    (h : (engine bound).destroyTree root withHooks s = some (out, s')) : Watched [] s s' := by
  obtain ⟨-, order, s₁, horder, hhooks, rfl⟩ := destroyTree_eq_some h
  have htree := tree_of_attachmentTree horder
  obtain ⟨ran, -, hcourse⟩ := (courses_engine bound).runHooks hhooks
  refine watched_tear htree ?_ hcourse.samePending
  rw [runHooks_eq] at hhooks
  split at hhooks
  · cases hhooks
    exact watched_order.refl _
  · exact he.each_runHook hhooks fun x hx => htree.pending (samePending_order.refl _) hx

theorem requestDestroy (id : InstanceId) (caller : Principal) :
    Run.Keeps (Watched []) ((engine bound).requestDestroy id caller) :=
  .bind watched_order (.require watched_order _) fun _ => ⟨he.destroyTree⟩

theorem runScripted (ctx : Context) (body : ScriptedBody) :
    Run.Keeps (Watched [ctx.this]) ((engine bound).runScripted ctx body) := by
  refine .bind watched_order (.each watched_order fun b _ => ?_) fun _ => ?_
  · exact .bind watched_order (he.call _ _ _ _) fun _ => .pure watched_order _
  · refine .bind watched_order (.each watched_order fun a _ => ?_) fun _ => .pure watched_order _
    exact .change watched_order watched_assign

theorem conduct {ctx : Context} {α : Type} {m : Run α} (hm : Conduct (engine bound) ctx m) :
    Run.Keeps (Watched [ctx.this]) m := by
  induction hm with
  | look question => exact .require watched_order question
  | bind _ _ ihm ihf => exact .bind watched_order ihm ihf
  | attempt _ ih => exact .attempt ih
  | endless => exact .diverge
  | log v =>
    refine .modify fun s => watched_of_event (steps_of_course (.logged s v)) rfl fun heq => ?_
    cases heq
  | set field v => exact .change watched_order watched_assign
  | call call args => exact he.callBound ctx call args
  | invoke id method args => exact ⟨fun h => ((he.invoke id method args ctx.self).holds h).wider⟩
  | spawn path => exact ⟨fun h => ((he.createPath path ctx.self).holds h).wider⟩
  | attach id => exact .changeWithin watched_order watched_attach
  | detach id => exact .change watched_order watched_detach
  | destroy id => exact ⟨fun h => ((he.requestDestroy id ctx.self).holds h).wider⟩
  | registry operation => exact .modify fun s => watched_of_course (.resolved s operation) rfl

theorem runImplementation (ctx : Context) :
    Run.Keeps (Watched [ctx.this]) ((engine bound).runImplementation ctx) := by
  refine .bind watched_order (.modify fun s => ?_) fun _ => ?_
  · refine watched_of_event (steps_of_course (.entered s _ _ _)) rfl fun heq => ?_
    obtain ⟨rfl, hstate, -, -⟩ := Event.entered.inj heq
    exact ⟨List.mem_singleton_self _, hstate⟩
  · split
    · exact he.conduct (Natives.conduct _ _ _)
    · exact he.runScripted ctx _

theorem addAuxiliary (id : InstanceId) (auxiliary : DefinitionId) :
    Run.Keeps (Watched []) ((engine bound).addAuxiliary id auxiliary) := by
  constructor
  intro s out s' h
  rcases Run.bind_eq_some h with ⟨e, hcreate, -⟩ | ⟨made, s₁, hcreate, hjoin⟩
  · exact (he.create _ _ _ _).holds hcreate
  · obtain ⟨hnew, hmade⟩ := (courses_engine bound).made hcreate
    have hcourse := ((courses_engine bound).create _ _).holds hcreate
    cases hjoin
    have hjoined : Watched [] s₁ (s₁.join id made) :=
      watched_of_event (steps_join id hnew hmade hcourse) rfl fun heq => nomatch heq
    exact ((he.create _ _ _ _).holds hcreate).trans hjoined

theorem setUp (id : InstanceId) (t : Table) :
    Run.Keeps (Watched [id]) ((engine bound).setUp id t) := by
  constructor
  intro s out s' h
  have hattached : ∀ {out s₁}, Run.each ((engine bound).addAuxiliary id) (s.auxiliariesOf t)
      (s.enterChain t.id) = some (out, s₁) → Watched [id] s s₁.leaveChain := by
    intro out s₁ heach
    have heach := (Run.Keeps.each watched_order fun a _ => he.addAuxiliary id a).holds heach
    have henter : Watched [id] s (s.enterChain t.id) := watched_of_course (.chained s _) rfl
    exact (henter.trans heach.wider).trans (watched_of_course (.chained s₁ _) rfl)
  cases settingUp_of_setUp h with
  | cyclic => exact watched_order.refl s
  | attached heach => exact hattached heach
  | ran heach _ hcall => exact (hattached heach).trans ((he.call _ _ _ _).holds hcall)

theorem createInstance (definition : DefinitionId) (owner : Principal)
    (privileged allowPrototype : Bool) : Run.Keeps (Watched [])
      ((engine bound).createInstance definition owner privileged allowPrototype) := by
  constructor
  intro s out s' h
  -- from the allocation on, all is work on the new instance
  have hset : ∀ {t s₁ out s₂}, s.tableFor definition = (.ok t, s₁) →
      (engine bound).setUp s₁.population.nextId t (s₁.allocate t owner privileged) =
        some (out, s₂) → Watched [] s s₂ := by
    intro t s₁ out s₂ htable hset
    have hallocated : Watched [] s₁ (s₁.allocate t owner privileged) :=
      watched_of_journal (steps_allocate s₁ t owner privileged) rfl
    have hintact : (s₁.allocate t owner privileged).Intact s₁.population.nextId :=
      intact_of_state (by rw [state?_allocate, if_pos rfl]) (by simp)
    have hdone : Watched [] (s₁.allocate t owner privileged) s₂ :=
      ((he.setUp _ t).holds hset).closed (.setUp hset) hintact
    exact ((watched_tableFor htable).trans hallocated).trans hdone
  cases creation_of_createInstance h with
  | refused heq =>
    exact watched_tableFor (Prod.ext rfl heq)
  | done htable hset' => exact hset htable hset'
  | undone htable hset' hdestroy => exact (hset htable hset').trans (he.destroyTree hdestroy)

end WatchedWithin

theorem watched_engine (bound : Nat) : WatchedWithin bound := by
  induction bound with
  | zero => exact ⟨fun _ _ _ _ => .diverge, fun _ _ _ _ => .diverge⟩
  | succ n ih =>
    constructor
    · intro x m args caller
      exact ih.runImplementation ⟨x, caller, m, args⟩
    · intro definition owner privileged allowPrototype
      exact ih.createInstance definition owner privileged allowPrototype

end Within

section Requests

variable [Natives] {bound : Nat}

theorem watched_of_perform {request : Request} {out : Except RuntimeError Unit}
    (h : perform bound request s = some (out, s')) : Watched [] s s' := by
  have he := watched_engine bound
  cases request with
  | instantiate definition owner =>
    obtain ⟨result, h⟩ := Run.exists_of_dropped h
    exact (he.create definition owner false false).holds h
  | instantiatePrivileged definition owner caller =>
    obtain ⟨result, h⟩ := Run.exists_of_dropped h
    rcases instantiatePrivileged_eq_some h with rfl | ⟨-, hcreate⟩
    · exact watched_order.refl _
    · exact (he.create definition owner true false).holds hcreate
  | loadPrototype definition caller =>
    obtain ⟨result, h⟩ := Run.exists_of_dropped h
    rcases loadPrototype_eq_some h with ⟨-, rfl, -⟩ |
      ⟨-, ⟨id, -, -, rfl⟩ | ⟨-, ⟨e, -, hcreate⟩ | ⟨id, s₁, -, hcreate, rfl⟩⟩⟩
    · exact watched_order.refl _
    · exact watched_order.refl _
    · exact (he.create definition caller false true).holds hcreate
    · have hfiled : Watched [] s₁ (s₁.file definition id) :=
        watched_of_journal (.single (.file s₁ definition id)) rfl
      exact ((he.create definition caller false true).holds hcreate).trans hfiled
  | invoke id method args caller =>
    obtain ⟨result, h⟩ := Run.exists_of_dropped h
    exact (he.invoke id method args caller).holds h
  | setField id field v caller =>
    have hkeeps : Run.Keeps (Watched []) (Run.change fun s => s.setField id field v caller) :=
      .change watched_order fun hs => watched_assign (setField_eq_ok hs)
    exact hkeeps.holds h
  | attach host auxiliary caller =>
    have hkeeps : Run.Keeps (Watched [])
        (Run.changeWithin fun s => s.attach host auxiliary caller) :=
      .changeWithin watched_order watched_attach
    exact hkeeps.holds h
  | detach host auxiliary caller =>
    have hkeeps : Run.Keeps (Watched []) (Run.change fun s => s.detach host auxiliary caller) :=
      .change watched_order watched_detach
    exact hkeeps.holds h
  | destroy id caller => exact (he.requestDestroy id caller).holds h
  | registry operation =>
    cases h
    exact watched_of_course (.resolved s operation) rfl

theorem watched_of_served {requests : List Request} (h : Served s requests s') :
    Watched [] s s' := by
  induction h with
  | nil s => exact watched_order.refl s
  | cons hone _ ih => exact (watched_of_perform hone).trans ih

theorem start_recorded {m : Implementation} {args : List Value} {caller : Principal}
    {out : Except RuntimeError Value}
    (h : (engine (bound + 1)).call x m args caller s = some (out, s')) :
    .entered x (s.state? x) m.owner m.name :: s.journal <:+ s'.journal := by
  have hbody : Course [] (s.record (.entered x (s.state? x) m.owner m.name)) s' := by
    obtain ⟨stamp, owner, name, body, calls⟩ := m
    cases body with
    | native code => exact ((courses_engine bound).conduct (Natives.conduct _ _ code)).holds h
    | scripted body => exact ((courses_engine bound).runScripted _ body).holds h
  exact (elapsed_of_steps (steps_of_course hbody)).journal

end Requests

/-- Whatever is asked of a new space, whatever bodies run: an implementation starts on a destroyed
instance only within work on the instance, a run of an implementation or its setting up, that began
while the instance was intact and has destroyed it. An invocation of a destroyed instance starts
nothing and is refused; what starts is recorded with the state that its instance is in. -/
theorem destroyed_starts_within_fatal_work [Natives] {r : Registry} {config : Config} {s₀ : Space}
    {requests : List Request} (hstart : ofConfig? r config = .ok s₀)
    (hserved : Served s₀ requests s) :
    (∀ x owner method before,
      .entered x (some .destroyed) owner method :: before <:+ s.journal →
        Overtaken x (.entered x (some .destroyed) owner method) before s₀ s) ∧
    (∀ bound x method args caller u, u.state? x = some .destroyed →
      invoke bound x method args caller u = some (.error (.useAfterDestroy x), u)) ∧
    ∀ {bound x m args caller u out u'},
      (engine (bound + 1)).call x m args caller u = some (out, u') →
        .entered x (u.state? x) m.owner m.name :: u.journal <:+ u'.journal := by
  refine ⟨?_, ?_, start_recorded⟩
  · intro x owner method before hrecorded
    have hnew : s₀.journal <:+ before := by
      rw [journal_of_ofConfig? hstart]
      exact List.nil_suffix
    exact ((watched_of_served hserved).starts hnew hrecorded).resolve_left (by simp)
  · intro bound x method args caller u hx
    unfold invoke Engine.invoke
    rw [Run.search_bind, dispatch_of_destroyed hx]

section Tower

def tower : Definition :=
  { Definition.empty ⟨"/tower", by decide⟩ with
    methods := (Dict.empty.insert "raze"
      ⟨.native [.mk (.literal .null) (.literal .null) none (.command (.destroy .this))], []⟩).insert
      "create" ⟨.native [], []⟩
    auxiliaries := [⟨"/mason", by decide⟩] }

def mason : Definition :=
  { Definition.empty ⟨"/mason", by decide⟩ with
    methods := Dict.empty.insert "create" ⟨.native [.mk (.literal .null) (.literal .null) none
      (.command (.invoke (.literal (.int 1)) "raze"))], []⟩ }

def razing : List Request :=
  [.registry (.register tower), .registry (.register mason),
    .instantiatePrivileged tower.id .system .system]

/-- The init method of the tower starts when the mason is done with it. -/
theorem razing_overtaken : ∃ s₀ s before,
    ofConfig? (.empty .firstContributor 8 none) .standard = .ok s₀ ∧ Served s₀ razing s ∧
    .entered ⟨1⟩ (some .destroyed) tower.id "create" :: before = s.journal ∧
    Overtaken ⟨1⟩ (.entered ⟨1⟩ (some .destroyed) tower.id "create") before s₀ s := by
  have hrun : (ofConfig? (.empty .firstContributor 8 none) .standard).toOption.bind
      (fun s₀ => (serve 6 razing s₀).bind fun s => s.journal.head?) =
        some (.entered ⟨1⟩ (some .destroyed) tower.id "create") := by
    decide +kernel
  obtain ⟨s₀, s, hok, hserved, hhead⟩ := served_of_found hrun
  have hjournal := List.eq_cons_of_mem_head? hhead
  obtain ⟨hovertaken, -⟩ := destroyed_starts_within_fatal_work hok hserved
  exact ⟨s₀, s, s.journal.tail, hok, hserved, hjournal.symm,
    hovertaken _ _ _ _ (hjournal ▸ List.suffix_refl _)⟩

end Tower

section Taper

def flame : Definition :=
  { Definition.empty ⟨"/flame", by decide⟩ with
    methods := Dict.empty.insert "blow"
      ⟨.native [.mk (.literal (.str "out")) (.literal .null) none .finish], []⟩ }

def taper : Definition :=
  { Definition.empty ⟨"/taper", by decide⟩ with
    ancestors := [flame.id]
    methods := Dict.empty.insert "blow"
      ⟨.native [.mk (.literal .null) (.literal .null) none (.command (.destroy .this)),
        .mk (.literal .null) (.literal .null) (some "result") (.command (.call "blow")),
        .mk (.var "result") (.literal .null) none .finish], [⟨none, "blow"⟩]⟩ }

def lighting : List Request :=
  [.registry (.register flame), .registry (.register taper),
    .instantiatePrivileged taper.id .system .system]

/-- An ancestor's method starts on a destroyed instance, and all ends well. -/
theorem taper_blown_when_destroyed : ∃ s₀ s₁ s,
    ofConfig? (.empty .firstContributor 8 none) .standard = .ok s₀ ∧ Served s₀ lighting s₁ ∧
    invoke 6 ⟨1⟩ "blow" [] .system s₁ = some (.ok (.str "out"), s) ∧
    .entered ⟨1⟩ (some .destroyed) flame.id "blow" ∈ s.journal := by
  have hrun : (ofConfig? (.empty .firstContributor 8 none) .standard).toOption.bind
      (fun s₀ => (serve 6 lighting s₀).bind fun s₁ =>
        (invoke 6 ⟨1⟩ "blow" [] .system s₁).map fun r =>
          (r.1.toOption, decide (.entered ⟨1⟩ (some .destroyed) flame.id "blow" ∈ r.2.journal))) =
        some (some (.str "out"), true) := by
    decide +kernel
  obtain ⟨s₀, s₁, hok, hserved, hrun⟩ := served_of_found hrun
  obtain ⟨⟨out, s⟩, hinvoke, heq⟩ := Option.map_eq_some_iff.mp hrun
  obtain ⟨hout, hentered⟩ := Prod.mk.inj heq
  obtain rfl : out = .ok (.str "out") := eq_ok_of_toOption hout
  exact ⟨s₀, s₁, s, hok, hserved, hinvoke, of_decide_eq_true hentered⟩

end Taper

end Space

end Mudlib
