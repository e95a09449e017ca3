import Mudlib.Proofs.Space.Jobs
/-!
Where a failure for a cycle of auxiliaries comes from.

Native code may fail as it likes; it is candid if it fails for a cycle of auxiliaries only when
something that it began did. Code that is carried out instruction by instruction is. Then every such
failure goes back to an instance that was refused its auxiliaries.
-/
set_option autoImplicit false

namespace Mudlib

open Space

section Clear

variable {α β : Type}

def Clear (x : Except RuntimeError α) : Prop := ∀ d, x ≠ .error (.auxiliaryCycle d)

theorem clear_ok (a : α) : Clear (.ok a : Except RuntimeError α) := fun _ hd => by cases hd

theorem Clear.bind {x : Except RuntimeError α} {f : α → Except RuntimeError β} (hx : Clear x)
    (hf : ∀ a, Clear (f a)) : Clear (x >>= f) := by
  intro d h
  rcases bind_eq_error.mp h with he | ⟨a, -, he⟩
  · exact hx d he
  · exact hf a d he

namespace Space

variable (s : Space) (id h a : InstanceId) (caller : Principal)

theorem clear_invokable : Clear (s.invokable id) := by
  unfold invokable
  split
  · exact fun _ hd => by cases hd
  · split <;> exact fun _ hd => by cases hd

theorem clear_live : Clear (s.live id) := by
  refine (clear_invokable s id).bind fun i => ?_
  split <;> exact fun _ hd => by cases hd

theorem clear_authorize (deed : Deed) (owner : Principal) :
    Clear (s.authorize caller deed id owner) := by
  unfold authorize
  split <;> exact fun _ hd => by cases hd

theorem clear_getField (field : String) : Clear (s.getField id field) := by
  refine (clear_invokable s id).bind fun i => ?_
  split <;> exact fun _ hd => by cases hd

theorem clear_assign (field : String) (v : Value) : Clear (s.assign id field v) := by
  refine (clear_invokable s id).bind fun i => ?_
  split
  · exact fun _ hd => by cases hd
  · split <;> exact fun _ hd => by cases hd

theorem clear_checkAttach : Clear (s.checkAttach h a caller) := by
  unfold checkAttach
  refine (clear_live s h).bind fun i => (clear_live s a).bind fun j => ?_
  refine (clear_authorize s h caller _ _).bind fun _ => ?_
  refine (clear_authorize s a caller _ _).bind fun _ => ?_
  by_cases hne : h = a
  · rw [if_pos hne]
    exact fun _ h => by cases h
  · rw [if_neg hne]
    cases hp : j.isPrototype with
    | true => exact fun _ h => by cases h
    | false => cases hh : j.host <;> exact fun _ h => by cases h

theorem clear_detach : Clear (s.detach h a caller) := by
  unfold detach
  refine (clear_live s h).bind fun i => ?_
  split
  · exact fun _ hd => by cases hd
  · refine (clear_invokable s a).bind fun j => ?_
    refine (clear_authorize s h caller _ _).bind fun _ => ?_
    exact (clear_authorize s a caller _ _).bind fun _ => clear_ok _

theorem clear_checkDestroy : Clear (s.checkDestroy id caller) := by
  unfold checkDestroy
  split
  · exact fun _ hd => by cases hd
  next i _ =>
    split
    · exact fun _ hd => by cases hd
    · exact fun _ hd => by cases hd
    · split
      next he =>
        intro d hd
        cases hd
        exact clear_authorize s id caller .destroy i.owner d he
      · split <;> exact fun _ hd => by cases hd

theorem clear_tableFor (definition : DefinitionId) : Clear (s.tableFor definition).1 := by
  have heq : (s.tableFor definition).1 = (s.registry.get definition).1.mapError .compile := rfl
  rw [heq]
  cases (s.registry.get definition).1 <;> exact fun _ hd => by cases hd

theorem clear_attach {r : Except RuntimeError Space} (hr : s.attach h a caller = some r) :
    Clear r := by
  unfold attach at hr
  split at hr
  next e he =>
    cases hr
    intro d hd
    cases hd
    exact clear_checkAttach s h a caller d he
  next =>
    obtain ⟨cyclic, -, rfl⟩ := Option.map_eq_some_iff.mp hr
    split <;> exact fun _ hd => by cases hd

theorem clear_firstAnswer
    {ask : InstanceId → Option (Except RuntimeError (InstanceId × Implementation))}
    {otherwise : RuntimeError} {ids : List InstanceId}
    {r : Except RuntimeError (InstanceId × Implementation)}
    (hask : ∀ {id r}, ask id = some r → Clear r) (ho : ∀ d, otherwise ≠ .auxiliaryCycle d)
    (hr : firstAnswer ask otherwise ids = some r) : Clear r := by
  induction ids with
  | nil =>
    cases hr
    exact fun d hd => ho d (Except.error.inj hd)
  | cons id ids ih =>
    unfold firstAnswer at hr
    split at hr
    · exact ih hr
    · exact hask hr

theorem clear_dispatchWithin {method : String} {n : Nat}
    {r : Except RuntimeError (InstanceId × Implementation)}
    (hr : s.dispatchWithin method n id = some r) : Clear r := by
  induction n generalizing id r with
  | zero => cases hr
  | succ n ih =>
    unfold dispatchWithin at hr
    split at hr
    next e he =>
      cases hr
      intro d hd
      cases hd
      exact clear_invokable s id d he
    next i _ =>
      split at hr
      · cases hr
        exact clear_ok _
      · refine clear_firstAnswer (ih _) ?_ hr
        exact fun _ hd => by cases hd

end Space

theorem Context.clear_target (ctx : Context) (v : Value) : Clear (ctx.target v) := by
  unfold Context.target
  split <;> exact fun _ hd => by cases hd

mutual

theorem Expr.clear_eval (ctx : Context) (vars : Variables) (s : Space) :
    (e : Expr) → Clear (e.eval ctx vars s)
  | .literal v => clear_ok v
  | .arg _ => clear_ok _
  | .arguments => clear_ok _
  | .this => clear_ok _
  | .caller => clear_ok _
  | .method => clear_ok _
  | .definition => clear_ok _
  | .var _ => clear_ok _
  | .field name => clear_getField s ctx.this name
  | .live => clear_ok _
  | .state e => (e.clear_eval ctx vars s).bind fun v =>
      (ctx.clear_target v).bind fun _ => clear_ok _
  | .host e => (e.clear_eval ctx vars s).bind fun v =>
      (ctx.clear_target v).bind fun _ => clear_ok _
  | .attachments e => (e.clear_eval ctx vars s).bind fun v =>
      (ctx.clear_target v).bind fun _ => clear_ok _
  | .list items => (clear_evalAll ctx vars s items).bind fun _ => clear_ok _
  | .equal a b => (a.clear_eval ctx vars s).bind fun _ =>
      (b.clear_eval ctx vars s).bind fun _ => clear_ok _

theorem Expr.clear_evalAll (ctx : Context) (vars : Variables) (s : Space) :
    (es : List Expr) → Clear (Expr.evalAll ctx vars s es)
  | [] => clear_ok _
  | e :: es => (e.clear_eval ctx vars s).bind fun _ =>
      (clear_evalAll ctx vars s es).bind fun _ => clear_ok _

end

end Clear

section Candid

variable {engine : Engine} {ctx : Context} {α β : Type}

def Blames (engine : Engine) (ctx : Context) (m : Run α) (s : Space) (d : DefinitionId) : Prop :=
  ∃ errand w w', Begins engine ctx m s errand w ∧
    errand.work engine w = some (.error (.auxiliaryCycle d), w')

namespace Blames

variable {m : Run α} {f : α → Run β} {s s₁ : Space} {d : DefinitionId} {a : α}

theorem first (h : Blames engine ctx m s d) : Blames engine ctx (m >>= f) s d := by
  obtain ⟨errand, w, w', hbegins, hfails⟩ := h
  exact ⟨errand, w, w', .first hbegins, hfails⟩

theorem later (hm : Conduct engine ctx m) (hdone : m s = some (.ok a, s₁))
    (h : Blames engine ctx (f a) s₁ d) : Blames engine ctx (m >>= f) s d := by
  obtain ⟨errand, w, w', hbegins, hfails⟩ := h
  exact ⟨errand, w, w', .later hm hdone hbegins, hfails⟩

theorem attempt (h : Blames engine ctx m s d) : Blames engine ctx (Run.attempt m) s d := by
  obtain ⟨errand, w, w', hbegins, hfails⟩ := h
  exact ⟨errand, w, w', .attempt hbegins, hfails⟩

end Blames

/-- Code that fails for a cycle of auxiliaries only when something that it begins does. -/
def Candid (engine : Engine) (ctx : Context) (m : Run α) : Prop :=
  ∀ s s' d, m s = some (.error (.auxiliaryCycle d), s') → Blames engine ctx m s d

namespace Candid

variable {m : Run α} {f : α → Run β}

theorem bind (hm : Conduct engine ctx m) (hc : Candid engine ctx m)
    (hf : ∀ a, Candid engine ctx (f a)) : Candid engine ctx (m >>= f) := by
  intro s s' d h
  rcases Run.bind_eq_some h with ⟨e, he, heq⟩ | ⟨a, s₁, ha, h⟩
  · cases heq
    exact (hc _ _ _ he).first
  · exact (hf a _ _ _ h).later hm ha

theorem pure (a : α) : Candid engine ctx (Pure.pure a : Run α) := by
  intro s s' d h
  cases h

theorem look {question : Space → Except RuntimeError α} (h : ∀ s, Clear (question s)) :
    Candid engine ctx (Run.require question) := by
  intro s s' d hs
  exact absurd (Run.require_eq_some hs).1 (h s d)

theorem modify (change : Space → Space) : Candid engine ctx (Run.modify change) := by
  intro s s' d h
  cases h

theorem change {step : Space → Except RuntimeError Space} (h : ∀ s, Clear (step s)) :
    Candid engine ctx (Run.change step) := by
  intro s s' d hs
  unfold Run.change at hs
  split at hs
  · cases hs
  next he =>
    cases hs
    exact absurd he (h s d)

theorem changeWithin {step : Space → Option (Except RuntimeError Space)}
    (h : ∀ {s r}, step s = some r → Clear r) : Candid engine ctx (Run.changeWithin step) := by
  intro s s' d hs
  unfold Run.changeWithin at hs
  split at hs
  · cases hs
  · cases hs
  next he =>
    cases hs
    exact absurd rfl (h he d)

theorem callBound (call : QualifiedCall) (args : List Value) :
    Candid engine ctx (engine.callBound ctx call args) := by
  intro s s' d h
  cases htarget : ctx.implementation.bound? call with
  | none =>
    rw [Engine.callBound, htarget] at h
    cases h
  | some target =>
    refine ⟨_, s, s', .call s htarget, Run.dropped_eq_error.mpr ?_⟩
    rw [Engine.callBound, htarget] at h
    exact h

theorem invoke (id : InstanceId) (method : String) (args : List Value) :
    Candid engine ctx (engine.invoke id method args ctx.self) := by
  intro s s' d h
  unfold Engine.invoke at h
  rw [Run.search_bind] at h
  split at h
  · cases h
  next he =>
    cases h
    exact absurd rfl (clear_dispatchWithin s id he d)
  next found hfound => exact ⟨_, s, s', .invoke hfound, Run.dropped_eq_error.mpr h⟩

theorem spawn (path : String) : Candid engine ctx (engine.createPath path ctx.self) := by
  intro s s' d h
  cases hid : DefinitionId.ofPath? path with
  | error fault =>
    rw [Engine.createPath, hid] at h
    cases h
  | ok id =>
    refine ⟨_, s, s', .spawn s hid, Run.dropped_eq_error.mpr ?_⟩
    rw [Engine.createPath, hid] at h
    exact h

theorem destroy (id : InstanceId) : Candid engine ctx (engine.requestDestroy id ctx.self) :=
  fun s s' _ h => ⟨_, s, s', .destroy id s, h⟩

theorem targetOf (target : Expr) (vars : Variables) :
    Candid engine ctx (Engine.perform.targetOf ctx vars target) :=
  look fun s => (target.clear_eval ctx vars s).bind fun v => ctx.clear_target v

theorem perform (vars : Variables) (v : Value) (args : List Value) (c : Command) :
    Candid engine ctx (engine.perform ctx vars v args c) := by
  cases c with
  | bind => exact pure v
  | set field => exact bind (.set field v) (change fun s => clear_assign s _ _ _) fun _ => pure _
  | append field =>
    refine bind (.look _) (look fun s => clear_getField s _ _) fun held => ?_
    exact bind (.set field _) (change fun s => clear_assign s _ _ _) fun _ => pure _
  | log => exact bind (.log v) (modify _) fun _ => pure _
  | call method => exact callBound _ args
  | callOf ancestor method =>
    simp only [Engine.perform]
    split
    · exact callBound _ args
    · exact fun s s' d h => by cases h
  | invoke target method =>
    exact bind (.look _) (targetOf target vars) fun id => invoke id method args
  | spawn path => exact bind (.spawn path) (spawn path) fun _ => pure _
  | attach target =>
    refine bind (.look _) (targetOf target vars) fun id => ?_
    exact bind (.attach id) (changeWithin fun hr => clear_attach _ _ _ _ hr) fun _ => pure _
  | detach target =>
    refine bind (.look _) (targetOf target vars) fun id => ?_
    exact bind (.detach id) (change fun s => clear_detach s _ _ _) fun _ => pure _
  | destroy target =>
    refine bind (.look _) (targetOf target vars) fun id => ?_
    exact bind (.destroy id) (destroy id) fun _ => pure _
  | fail message => exact fun s s' d h => by cases h
  | unknown name => exact fun s s' d h => by cases h

end Candid

inductive EndsIn (d : DefinitionId) : Except RuntimeError (Outcome × Variables) → Prop where
  | error : EndsIn d (.error (.auxiliaryCycle d))
  | failed (vars : Variables) : EndsIn d (.ok (.failed (.auxiliaryCycle d), vars))

def CandidLeaving (engine : Engine) (ctx : Context) (m : Run (Outcome × Variables)) : Prop :=
  ∀ s out s' d, m s = some (out, s') → EndsIn d out → Blames engine ctx m s d

namespace CandidLeaving

theorem leave {outcome : Outcome} (vars : Variables)
    (h : ∀ d, outcome ≠ .failed (.auxiliaryCycle d)) :
    CandidLeaving engine ctx (Pure.pure (outcome, vars)) := by
  intro s out s' d hs hout
  cases hs
  cases hout
  exact absurd rfl (h d)

/-- What follows on an outcome may pass a failure on, or forget it. -/
theorem andThen {m : Run (Outcome × Variables)}
    {f : Outcome × Variables → Run (Outcome × Variables)} (hm : Conduct engine ctx m)
    (hc : CandidLeaving engine ctx m) (hnext : ∀ vars, CandidLeaving engine ctx (f (.next, vars)))
    (hreturned : ∀ v vars, CandidLeaving engine ctx (f (.returned v, vars)))
    (hfailed : ∀ e vars s out s' d, f (.failed e, vars) s = some (out, s') → EndsIn d out →
      e = .auxiliaryCycle d) :
    CandidLeaving engine ctx (m >>= f) := by
  intro s out s' d h hout
  rcases Run.bind_eq_some h with ⟨e, he, rfl⟩ | ⟨⟨outcome, vars⟩, s₁, hdone, hrest⟩
  · cases hout
    exact (hc _ _ _ _ he .error).first
  · cases outcome with
    | next => exact (hnext vars _ _ _ _ hrest hout).later hm hdone
    | returned v => exact (hreturned v vars _ _ _ _ hrest hout).later hm hdone
    | failed e =>
      obtain rfl := hfailed e vars _ _ _ _ hrest hout
      exact (hc _ _ _ _ hdone (.failed vars)).first

mutual

theorem execute : (i : Instruction) → (vars : Variables) →
    CandidLeaving engine ctx (engine.execute ctx i vars)
  | .mk value args var action, vars => by
    intro s out s' d h hout
    have hclear : ∀ s, Clear (do
        let v ← value.eval ctx vars s
        let a ← args.eval ctx vars s
        return (v, (a.asList?).getD []) : Except RuntimeError (Value × List Value)) := fun s =>
      (value.clear_eval ctx vars s).bind fun v =>
        (args.clear_eval ctx vars s).bind fun _ => clear_ok _
    unfold Engine.execute at h ⊢
    rcases Run.bind_eq_some h with ⟨e, he, -⟩ | ⟨inputs, s₁, hinputs, hrest⟩
    · obtain ⟨_, -, heq⟩ := Run.attempt_eq_some he
      cases heq
    · refine Blames.later (Conduct.look _).attempt hinputs ?_
      obtain ⟨_, hresult, heq⟩ := Run.attempt_eq_some hinputs
      obtain rfl := Except.ok.inj heq
      cases inputs with
      | error e =>
        refine leave vars ?_ _ _ _ _ hrest hout
        intro d' hd
        cases hd
        exact hclear s d' (Run.require_eq_some hresult).1
      | ok found => exact act vars var found.1 found.2 action _ _ _ _ hrest hout

theorem act (vars : Variables) (var : Option String) (v : Value) (args : List Value) :
    (a : Action) → CandidLeaving engine ctx (engine.act ctx vars var v args a)
  | .finish => leave vars fun _ => nofun
  | .branch onTrue onFalse => by
    unfold Engine.act
    split
    · exact executeAll onFalse vars
    · exact executeAll onTrue vars
  | .guard body => by
    refine andThen (Conduct.executeAll body vars) (executeAll body vars) ?_ ?_ ?_
    · exact fun vars => leave _ fun _ => nofun
    · exact fun v vars => leave _ fun _ => nofun
    · intro e vars s out s' d h hout
      cases h
      cases hout
  | .command c => by
    intro s out s' d h hout
    rcases Run.bind_eq_some h with ⟨e, he, -⟩ | ⟨result, s₁, hresult, hrest⟩
    · obtain ⟨_, -, heq⟩ := Run.attempt_eq_some he
      cases heq
    · obtain ⟨_, hperform, heq⟩ := Run.attempt_eq_some hresult
      obtain rfl := Except.ok.inj heq
      cases result with
      | ok r =>
        cases hrest
        cases hout
      | error e =>
        cases hrest
        cases hout
        exact (Candid.perform vars v args c _ _ _ hperform).attempt.first

theorem executeAll : (is : List Instruction) → (vars : Variables) →
    CandidLeaving engine ctx (engine.executeAll ctx is vars)
  | [], vars => leave vars fun _ => nofun
  | i :: is, vars => by
    refine andThen (Conduct.execute i vars) (execute i vars) (executeAll is) ?_ ?_
    · exact fun v vars => leave vars fun _ => nofun
    · intro e vars s out s' d h hout
      cases h
      cases hout
      rfl

end

end CandidLeaving

theorem Candid.runNative (code : List Instruction) :
    Candid engine ctx (engine.runNative ctx code) := by
  intro s s' d h
  rcases Run.bind_eq_some h with ⟨e, he, heq⟩ | ⟨⟨outcome, vars⟩, s₁, hdone, hrest⟩
  · cases heq
    exact (CandidLeaving.executeAll code .empty _ _ _ _ he .error).first
  · cases outcome with
    | next => cases hrest
    | returned v => cases hrest
    | failed e =>
      cases hrest
      exact (CandidLeaving.executeAll code .empty _ _ _ _ hdone (.failed vars)).first

def Natives.Candid [Natives] : Prop :=
  ∀ engine ctx code, Mudlib.Candid engine ctx (Natives.run engine ctx code)

theorem candid_standard : @Natives.Candid Natives.standard := fun _ _ => Candid.runNative

end Candid

namespace Space.Job

variable [Natives] {j k : Job} {n : Nat} {s : Space} {d : DefinitionId}

def FailsAt (j : Job) (d : DefinitionId) : Prop :=
  ∃ s', j.errand.work (engine j.bound) j.space = some (.error (.auxiliaryCycle d), s')

/-- An instance is to be set up while its definition is attaching auxiliaries, which is refused. -/
def Refuses (j : Job) (d : DefinitionId) : Prop := ∃ t, j.SetsUp t ∧ t.id = d ∧ d ∈ j.space.chain

def Meets (j : Job) (d : DefinitionId) : Prop := ∃ k, j.Covers k ∧ k.Refuses d

theorem Meets.of_leads (h : j.Leads k) (hk : k.Meets d) : j.Meets d := by
  obtain ⟨i, hi, hrefuses⟩ := hk
  exact ⟨i, .head h hi, hrefuses⟩

structure Traced (n : Nat) : Prop where
  create : ∀ {definition owner privileged allowPrototype s d},
    FailsAt ⟨n, .create definition owner privileged allowPrototype, s⟩ d →
      Meets ⟨n, .create definition owner privileged allowPrototype, s⟩ d
  run : ∀ {id m args caller s d}, FailsAt ⟨n, .run id m args caller, s⟩ d →
    Meets ⟨n, .run id m args caller, s⟩ d

theorem Traced.setUp (h : Traced n) {id : InstanceId} {t : Table}
    (hf : FailsAt ⟨n, .setUp id t, s⟩ d) : Meets ⟨n, .setUp id t, s⟩ d := by
  obtain ⟨s', hf⟩ := hf
  have hset : (engine n).setUp id t s = some (.error (.auxiliaryCycle d), s') := hf
  rw [Engine.setUp_eq] at hset
  split at hset
  next hmem =>
    cases hset
    exact ⟨_, .refl, t, ⟨id, rfl⟩, rfl, hmem⟩
  next hnew =>
    split at hset
    · cases hset
    next s₁ heach =>
      cases hset
      obtain ⟨before, a, after, s₂, heq, hbefore, ha⟩ := Run.each_eq_error heach
      rcases Run.bind_eq_some ha with ⟨e, hcreate, he⟩ | ⟨made, s₃, -, hjoin⟩
      · cases he
        have hfails : FailsAt ⟨n, .create a (.object id) false false, s₂⟩ d :=
          ⟨_, Run.dropped_eq_error.mpr hcreate⟩
        exact .of_leads (.inl (.auxiliary hnew heq hbefore)) (h.create hfails)
      · cases hjoin
    next s₁ heach =>
      split at hset
      · cases hset
      next m hm =>
        obtain ⟨⟨result, s₂⟩, hcall, heq⟩ := Option.map_eq_some_iff.mp hset
        obtain ⟨hresult, rfl⟩ := Prod.mk.inj heq
        obtain rfl := eq_error_of_map hresult
        exact .of_leads (.inr (.init hnew heach hm)) (h.run ⟨_, Run.dropped_eq_error.mpr hcall⟩)

/-- A destruction takes no notice of the failures of its hooks. -/
theorem not_failsAt_destroy {id : InstanceId} {caller : Principal} :
    ¬ FailsAt ⟨n, .destroy id caller, s⟩ d := by
  rintro ⟨s', hf⟩
  rcases Run.bind_eq_some hf with ⟨e, hcheck, he⟩ | ⟨_, s₁, -, hdestroy⟩
  · cases he
    exact clear_checkDestroy s id caller d (Run.require_eq_some hcheck).1
  · cases (Engine.destroyTree_eq_some hdestroy).1

theorem Traced.errand (h : Traced n) {errand : Errand} (hf : FailsAt ⟨n, errand, s⟩ d) :
    Meets ⟨n, errand, s⟩ d := by
  cases errand with
  | create definition owner privileged allowPrototype => exact h.create hf
  | setUp id t => exact h.setUp hf
  | run id m args caller => exact h.run hf
  | destroy id caller => exact absurd hf not_failsAt_destroy

theorem Traced.createInstance (h : Traced n) {definition : DefinitionId} {owner : Principal}
    {privileged allowPrototype : Bool}
    (hf : FailsAt ⟨n + 1, .create definition owner privileged allowPrototype, s⟩ d) :
    Meets ⟨n + 1, .create definition owner privileged allowPrototype, s⟩ d := by
  obtain ⟨s', hf⟩ := hf
  have hcreate : (engine n).createInstance definition owner privileged allowPrototype s =
      some (.error (.auxiliaryCycle d), s') := Run.dropped_eq_error.mp hf
  rw [Engine.createInstance_eq] at hcreate
  rcases htable : s.tableFor definition with ⟨⟨e⟩ | ⟨t⟩, s₁⟩
  · rw [htable] at hcreate
    cases hcreate
    exact absurd (congrArg Prod.fst htable) (clear_tableFor s definition d)
  · rw [htable] at hcreate
    simp only at hcreate
    split at hcreate
    · cases hcreate
    next hallowed =>
      rcases hset : (engine n).setUp s₁.population.nextId t (s₁.allocate t owner privileged) with
        _ | ⟨⟨e⟩ | ⟨⟩, s₂⟩
      · rw [hset] at hcreate
        cases hcreate
      · rw [hset] at hcreate
        obtain ⟨r, -, heq⟩ := Option.map_eq_some_iff.mp hcreate
        cases heq
        have hp : t.prototype = true → allowPrototype = true := by simpa using hallowed
        exact .of_leads (.inl (.setUp htable hp)) (h.setUp ⟨s₂, hset⟩)
      · rw [hset] at hcreate
        cases hcreate

theorem Traced.runImplementation (hcandid : Natives.Candid) (h : Traced n) {id : InstanceId}
    {m : Implementation} {args : List Value} {caller : Principal}
    (hf : FailsAt ⟨n + 1, .run id m args caller, s⟩ d) :
    Meets ⟨n + 1, .run id m args caller, s⟩ d := by
  obtain ⟨s', hf⟩ := hf
  have hrun : (engine n).runImplementation ⟨id, caller, m, args⟩ s =
      some (.error (.auxiliaryCycle d), s') := Run.dropped_eq_error.mp hf
  unfold Engine.runImplementation at hrun
  rw [Run.modify_bind] at hrun
  cases hbody : m.body with
  | native code =>
    simp only [hbody] at hrun
    obtain ⟨errand, w, w', hbegins, hfails⟩ := hcandid _ _ _ _ _ _ hrun
    exact .of_leads (.inr (.native hbody hbegins)) (h.errand ⟨w', hfails⟩)
  | scripted body =>
    simp only [hbody] at hrun
    rcases Run.bind_eq_some hrun with ⟨e, hcalls, he⟩ | ⟨_, s₁, -, hrest⟩
    · cases he
      obtain ⟨before, b, after, s₂, heq, hbefore, hb⟩ := Run.each_eq_error hcalls
      exact .of_leads (.inr (.scripted hbody heq hbefore)) (h.run ⟨_, hb⟩)
    · rcases Run.bind_eq_some hrest with ⟨e, hassign, he⟩ | ⟨_, s₂, -, hret⟩
      · cases he
        obtain ⟨before, a, after, s₂, -, -, ha⟩ := Run.each_eq_error hassign
        unfold Run.change at ha
        split at ha
        · cases ha
        next he =>
          cases ha
          exact absurd he (clear_assign _ _ _ _ d)
      · cases hret

theorem traced (hcandid : Natives.Candid) (n : Nat) : Traced n := by
  induction n with
  | zero =>
    have hnone : ∀ {α : Type} {s s' : Space} {e : RuntimeError},
        (do let _ ← (Run.diverge : Run α) : Run Unit) s ≠ some (.error e, s') := nofun
    exact ⟨fun ⟨_, hf⟩ => absurd hf hnone, fun ⟨_, hf⟩ => absurd hf hnone⟩
  | succ n ih => exact ⟨ih.createInstance, ih.runImplementation hcandid⟩

/-- Whatever fails for a cycle of auxiliaries has met an instance that was refused for it. -/
theorem meets_of_failsAt (hcandid : Natives.Candid) (h : j.FailsAt d) : j.Meets d :=
  (traced hcandid j.bound).errand h

end Space.Job

end Mudlib
