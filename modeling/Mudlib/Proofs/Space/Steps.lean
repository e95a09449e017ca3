import Mudlib.Space.Operations
import Mudlib.Proofs.Space.Guards
import Mudlib.Proofs.Space.Tree
set_option autoImplicit false

namespace Mudlib

namespace Run

variable {α β : Type}

theorem bind_eq_some {m : Run α} {f : α → Run β} {s s' : Space} {out : Except RuntimeError β}
    (h : (m >>= f) s = some (out, s')) :
    (∃ e, m s = some (.error e, s') ∧ out = .error e) ∨
      ∃ a s₁, m s = some (.ok a, s₁) ∧ f a s₁ = some (out, s') := by
  rw [bind_apply] at h
  split at h
  · cases h
  next e s₁ he =>
    cases h
    exact .inl ⟨e, he, rfl⟩
  next a s₁ ha => exact .inr ⟨a, s₁, ha, h⟩

theorem attempt_eq_some {m : Run α} {s s' : Space}
    {out : Except RuntimeError (Except RuntimeError α)} (h : attempt m s = some (out, s')) :
    ∃ result, m s = some (result, s') ∧ out = .ok result := by
  obtain ⟨⟨result, s₁⟩, hm, heq⟩ := Option.map_eq_some_iff.mp h
  cases heq
  exact ⟨result, hm, rfl⟩

theorem require_eq_some {question : Space → Except RuntimeError α} {s s' : Space}
    {out : Except RuntimeError α} (h : require question s = some (out, s')) :
    question s = out ∧ s' = s := by
  obtain ⟨rfl, rfl⟩ := Prod.mk.inj (Option.some.inj h)
  exact ⟨rfl, rfl⟩

theorem change_eq_some {step : Space → Except RuntimeError Space} {s s' : Space}
    {out : Except RuntimeError Unit} (h : change step s = some (out, s')) :
    s' = s ∨ step s = .ok s' := by
  unfold change at h
  split at h
  next hs =>
    cases h
    exact .inr hs
  next =>
    cases h
    exact .inl rfl

theorem changeWithin_eq_some {step : Space → Option (Except RuntimeError Space)} {s s' : Space}
    {out : Except RuntimeError Unit} (h : changeWithin step s = some (out, s')) :
    s' = s ∨ step s = some (.ok s') := by
  unfold changeWithin at h
  split at h
  · cases h
  next hs =>
    cases h
    exact .inr hs
  next =>
    cases h
    exact .inl rfl

theorem exists_of_dropped {m : Run α} {s s' : Space} {out : Except RuntimeError Unit}
    (h : (do let _ ← m : Run Unit) s = some (out, s')) : ∃ result, m s = some (result, s') := by
  rcases bind_eq_some h with ⟨e, hm, -⟩ | ⟨a, s₁, hm, hret⟩
  · exact ⟨.error e, hm⟩
  · cases hret
    exact ⟨.ok a, hm⟩

theorem dropped_eq_error {m : Run α} {s s' : Space} {e : RuntimeError} :
    (do let _ ← m : Run Unit) s = some (.error e, s') ↔ m s = some (.error e, s') := by
  constructor
  · intro h
    rcases bind_eq_some h with ⟨e', hm, heq⟩ | ⟨a, s₁, -, hret⟩
    · cases heq
      exact hm
    · cases hret
  · intro h
    rw [bind_apply, h]

theorem each_cons (f : α → Run Unit) (a : α) (as : List α) :
    each f (a :: as) = f a >>= fun _ => each f as := rfl

theorem each_eq_error {f : α → Run Unit} {as : List α} {s s' : Space} {e : RuntimeError}
    (h : each f as s = some (.error e, s')) :
    ∃ before a after s₁, as = before ++ a :: after ∧ each f before s = some (.ok (), s₁) ∧
      f a s₁ = some (.error e, s') := by
  induction as generalizing s with
  | nil => cases h
  | cons a as ih =>
    rcases bind_eq_some h with ⟨e', ha, heq⟩ | ⟨_, s₁, hone, hrest⟩
    · cases heq
      exact ⟨[], a, as, s, rfl, rfl, ha⟩
    · obtain ⟨before, b, after, s₂, rfl, hbefore, hb⟩ := ih hrest
      refine ⟨a :: before, b, after, s₂, rfl, ?_, hb⟩
      rw [each_cons, bind_apply, hone]
      exact hbefore

structure Order (R : Space → Space → Prop) : Prop where
  refl : ∀ s, R s s
  trans : ∀ {s s' s''}, R s s' → R s' s'' → R s s''

/-- However the computation ends, the relation holds between its two spaces. -/
structure Keeps (R : Space → Space → Prop) (m : Run α) : Prop where
  holds : ∀ {s out s'}, m s = some (out, s') → R s s'

namespace Keeps

variable {R : Space → Space → Prop}

theorem diverge : Keeps R (Run.diverge : Run α) := by
  constructor
  intro s out s' h
  cases h

theorem require (hR : Order R) (question : Space → Except RuntimeError α) :
    Keeps R (Run.require question) := by
  constructor
  intro s out s' h
  cases h
  exact hR.refl s

theorem ask (hR : Order R) (question : Space → α) : Keeps R (Run.ask question) := by
  constructor
  intro s out s' h
  cases h
  exact hR.refl s

theorem fail (hR : Order R) (e : RuntimeError) : Keeps R (Run.fail e : Run α) := by
  constructor
  intro s out s' h
  cases h
  exact hR.refl s

theorem pure (hR : Order R) (a : α) : Keeps R (Pure.pure a : Run α) := by
  constructor
  intro s out s' h
  cases h
  exact hR.refl s

theorem search (hR : Order R) (question : Space → Option (Except RuntimeError α)) :
    Keeps R (Run.search question) := by
  constructor
  intro s out s' h
  obtain ⟨answer, -, heq⟩ := Option.map_eq_some_iff.mp h
  cases heq
  exact hR.refl s

theorem modify {change : Space → Space} (h : ∀ s, R s (change s)) : Keeps R (Run.modify change) := by
  constructor
  intro s out s' heq
  cases heq
  exact h s

theorem change (hR : Order R) {step : Space → Except RuntimeError Space}
    (h : ∀ {s s'}, step s = .ok s' → R s s') : Keeps R (Run.change step) := by
  constructor
  intro s out s' heq
  rcases change_eq_some heq with rfl | hs
  · exact hR.refl _
  · exact h hs

theorem changeWithin (hR : Order R) {step : Space → Option (Except RuntimeError Space)}
    (h : ∀ {s s'}, step s = some (.ok s') → R s s') : Keeps R (Run.changeWithin step) := by
  constructor
  intro s out s' heq
  rcases changeWithin_eq_some heq with rfl | hs
  · exact hR.refl _
  · exact h hs

theorem bind (hR : Order R) {m : Run α} {f : α → Run β} (hm : Keeps R m)
    (hf : ∀ a, Keeps R (f a)) : Keeps R (m >>= f) := by
  constructor
  intro s out s' h
  rcases bind_eq_some h with ⟨e, he, -⟩ | ⟨a, s₁, ha, h⟩
  · exact hm.holds he
  · exact hR.trans (hm.holds ha) ((hf a).holds h)

theorem attempt {m : Run α} (hm : Keeps R m) : Keeps R (Run.attempt m) := by
  constructor
  intro s out s' h
  obtain ⟨result, h, -⟩ := attempt_eq_some h
  exact hm.holds h

theorem each (hR : Order R) {f : α → Run Unit} {as : List α} (h : ∀ a ∈ as, Keeps R (f a)) :
    Keeps R (Run.each f as) := by
  induction as with
  | nil => exact pure hR ()
  | cons a as ih =>
    refine bind hR (h a List.mem_cons_self) ?_
    intro _
    exact ih fun b hb => h b (List.mem_cons_of_mem _ hb)

end Keeps

end Run

namespace Engine

open Space

variable {engine : Engine} {R : Space → Space → Prop} {s s' : Space} {id : InstanceId}

theorem runHook_eq (engine : Engine) (hook : String) (id : InstanceId) (s : Space) :
    engine.runHook hook id s =
      match s.hookOf? id hook with
      | none => some (.ok (), s)
      | some m =>
        (engine.call id m [] .system (s.record (.hooked id))).map fun r => (.ok (), r.2) := by
  unfold runHook
  rw [Run.bind_apply]
  simp only [Run.ask]
  cases s.hookOf? id hook with
  | none => rfl
  | some m =>
    simp only [Run.bind_apply, Run.modify, Run.attempt]
    cases engine.call id m [] .system (s.record (.hooked id)) <;> rfl

theorem runHooks_eq (engine : Engine) (withHooks : Bool) (order : List InstanceId) (s : Space) :
    engine.runHooks withHooks order s =
      match s.destroyHook.filter fun _ => withHooks with
      | none => some (.ok (), s)
      | some hook => Run.each (engine.runHook hook) order s := by
  unfold runHooks
  rw [Run.bind_apply]
  simp only [Run.ask]
  cases s.destroyHook.filter fun _ => withHooks <;> rfl

theorem runHook_ok {hook : String} {out : Except RuntimeError Unit}
    (h : engine.runHook hook id s = some (out, s')) : out = .ok () := by
  rw [runHook_eq] at h
  split at h
  · cases h
    rfl
  · obtain ⟨r, -, heq⟩ := Option.map_eq_some_iff.mp h
    cases heq
    rfl

theorem runHooks_ok {withHooks : Bool} {order : List InstanceId} {out : Except RuntimeError Unit}
    (h : engine.runHooks withHooks order s = some (out, s')) : out = .ok () := by
  have heach : ∀ hook order s s' out, Run.each (engine.runHook hook) order s = some (out, s') →
      out = .ok () := by
    intro hook order
    induction order with
    | nil =>
      intro s s' out h
      cases h
      rfl
    | cons id order ih =>
      intro s s' out h
      rcases Run.bind_eq_some h with ⟨e, he, -⟩ | ⟨_, s₁, -, h⟩
      · cases runHook_ok he
      · exact ih s₁ s' out h
  rw [runHooks_eq] at h
  split at h
  · cases h
    rfl
  · exact heach _ order s s' out h

theorem runHooks_false {order : List InstanceId} {out : Except RuntimeError Unit}
    (h : engine.runHooks false order s = some (out, s')) : s' = s := by
  rw [runHooks_eq] at h
  cases hd : s.destroyHook with
  | none =>
    rw [hd] at h
    cases h
    rfl
  | some hook =>
    rw [hd] at h
    cases h
    rfl

/-- The three steps of a destruction: its tree is marked, the hooks run, the tree is released. -/
theorem destroyTree_eq_some {withHooks : Bool} {out : Except RuntimeError Unit}
    (h : engine.destroyTree id withHooks s = some (out, s')) :
    out = .ok () ∧ ∃ order s₁, s.attachmentTree id = some order ∧
      engine.runHooks withHooks order (s.markPending order) = some (.ok (), s₁) ∧
      s' = (s₁.unlinkFromHost id).releaseAll order := by
  unfold destroyTree at h
  rw [Run.search_bind] at h
  cases horder : s.attachmentTree id with
  | none =>
    rw [horder] at h
    cases h
  | some order =>
    rw [horder] at h
    simp only [Option.map_some] at h
    rw [Run.modify_bind, Run.bind_apply] at h
    rcases hhooks : engine.runHooks withHooks order (s.markPending order) with _ | ⟨result, s₁⟩
    · rw [hhooks] at h
      cases h
    · obtain rfl := runHooks_ok hhooks
      rw [hhooks] at h
      cases h
      exact ⟨rfl, order, s₁, rfl, hhooks, rfl⟩

theorem requestDestroy_eq_some {caller : Principal} {out : Except RuntimeError Unit}
    (h : engine.requestDestroy id caller s = some (out, s')) :
    (∃ e, out = .error e) ∧ s' = s ∨
      out = .ok () ∧ s.checkDestroy id caller = .ok () ∧ ∃ order s₁,
        s.attachmentTree id = some order ∧
        engine.runHooks true order (s.markPending order) = some (.ok (), s₁) ∧
        s' = (s₁.unlinkFromHost id).releaseAll order := by
  rcases Run.bind_eq_some h with ⟨e, hcheck, he⟩ | ⟨_, s₁, hcheck, hdestroy⟩
  · exact .inl ⟨⟨e, he⟩, (Run.require_eq_some hcheck).2⟩
  · obtain ⟨hcheck, rfl⟩ := Run.require_eq_some hcheck
    obtain ⟨hout, hrest⟩ := destroyTree_eq_some hdestroy
    exact .inr ⟨hout, hcheck, hrest⟩

theorem requestDestroy_of_refused {caller : Principal} {e : RuntimeError}
    (h : s.checkDestroy id caller = .error e) :
    engine.requestDestroy id caller s = some (.error e, s) := by
  unfold requestDestroy
  rw [Run.require_bind, h]

theorem requestDestroy_of_granted {caller : Principal} (h : s.checkDestroy id caller = .ok ()) :
    engine.requestDestroy id caller s = engine.destroyTree id true s := by
  unfold requestDestroy
  rw [Run.require_bind, h]

inductive SettingUp (engine : Engine) (id : InstanceId) (t : Table) (s : Space) : Space → Prop where
  | cyclic : SettingUp engine id t s s
  | attached {out s₁} :
      Run.each (engine.addAuxiliary id) (s.auxiliariesOf t) (s.enterChain t.id) = some (out, s₁) →
      SettingUp engine id t s s₁.leaveChain
  | ran {out s₁ m owner result s₂} :
      Run.each (engine.addAuxiliary id) (s.auxiliariesOf t) (s.enterChain t.id) = some (out, s₁) →
      t.method? s₁.leaveChain.initMethod = some m →
      engine.call id m [] owner s₁.leaveChain = some (result, s₂) → SettingUp engine id t s s₂

theorem setUp_eq (engine : Engine) (id : InstanceId) (t : Table) (s : Space) :
    engine.setUp id t s =
      if t.id ∈ s.chain then some (.error (.auxiliaryCycle t.id), s)
      else
        match Run.each (engine.addAuxiliary id) (s.auxiliariesOf t) (s.enterChain t.id) with
        | none => none
        | some (.error e, s₁) => some (.error e, s₁.leaveChain)
        | some (.ok (), s₁) =>
          match t.method? s₁.leaveChain.initMethod with
          | none => some (.ok (), s₁.leaveChain)
          | some m =>
            (engine.call id m [] (((s₁.leaveChain.instance? id).map Instance.owner).getD .system)
              s₁.leaveChain).map fun r => (r.1.map fun _ => (), r.2) := by
  unfold setUp
  rw [Run.ask_bind]
  by_cases hcyclic : t.id ∈ s.chain
  · simp only [hcyclic, decide_true, if_true]
    rfl
  · simp only [hcyclic, decide_false, if_false, Bool.false_eq_true, Run.ask_bind, Run.modify_bind,
      Run.attempt_bind, Run.require_bind]
    rcases Run.each (engine.addAuxiliary id) (s.auxiliariesOf t) (s.enterChain t.id) with
      _ | ⟨⟨e⟩ | ⟨⟩, s₁⟩
    · rfl
    · rfl
    · simp only
      cases t.method? s₁.leaveChain.initMethod with
      | none => rfl
      | some m =>
        simp only [Run.ask_bind]
        rw [Run.bind_apply]
        rcases engine.call id m [] _ s₁.leaveChain with _ | ⟨⟨e⟩ | ⟨v⟩, s₂⟩ <;> rfl

theorem settingUp_of_setUp {t : Table} {out : Except RuntimeError Unit}
    (h : engine.setUp id t s = some (out, s')) : SettingUp engine id t s s' := by
  rw [setUp_eq] at h
  split at h
  · cases h
    exact .cyclic
  · split at h
    · cases h
    next heach =>
      cases h
      exact .attached heach
    next heach =>
      split at h
      · cases h
        exact .attached heach
      next m hm =>
        obtain ⟨r, hcall, heq⟩ := Option.map_eq_some_iff.mp h
        cases heq
        exact .ran heach hm hcall

/-- A setting up that succeeds: the auxiliaries are attached, and the init method, if there is one,
is run after that. -/
theorem setUp_eq_ok {t : Table} (h : engine.setUp id t s = some (.ok (), s')) :
    ∃ s₁, Run.each (engine.addAuxiliary id) (s.auxiliariesOf t) (s.enterChain t.id) =
        some (.ok (), s₁) ∧
      (t.method? s₁.initMethod = none ∧ s' = s₁.leaveChain ∨
        ∃ m owner v, t.method? s₁.initMethod = some m ∧
          engine.call id m [] owner s₁.leaveChain = some (.ok v, s')) := by
  rw [setUp_eq] at h
  split at h
  · cases h
  · split at h
    · cases h
    · cases h
    next s₁ heach =>
      refine ⟨s₁, heach, ?_⟩
      split at h
      next hnone =>
        cases h
        exact .inl ⟨hnone, rfl⟩
      next m hm =>
        obtain ⟨⟨result, s₂⟩, hcall, heq⟩ := Option.map_eq_some_iff.mp h
        obtain ⟨hresult, rfl⟩ := Prod.mk.inj heq
        obtain ⟨v, rfl, -⟩ := map_eq_ok.mp hresult
        exact .inr ⟨m, _, v, hm, hcall⟩

inductive Creation (engine : Engine) (definition : DefinitionId) (owner : Principal)
    (privileged : Bool) (s : Space) : Except RuntimeError InstanceId → Space → Prop where
  | refused {e s₁} : (s.tableFor definition).2 = s₁ →
      Creation engine definition owner privileged s (.error e) s₁
  | done {t s₁ s₂} : s.tableFor definition = (.ok t, s₁) →
      engine.setUp s₁.population.nextId t (s₁.allocate t owner privileged) = some (.ok (), s₂) →
      Creation engine definition owner privileged s (.ok s₁.population.nextId) s₂
  | undone {t s₁ e s₂ s₃ e'} : s.tableFor definition = (.ok t, s₁) →
      engine.setUp s₁.population.nextId t (s₁.allocate t owner privileged) = some (.error e, s₂) →
      engine.destroyTree s₁.population.nextId false s₂ = some (.ok (), s₃) →
      Creation engine definition owner privileged s (.error e') s₃

theorem createInstance_eq (engine : Engine) (definition : DefinitionId) (owner : Principal)
    (privileged allowPrototype : Bool) (s : Space) :
    engine.createInstance definition owner privileged allowPrototype s =
      match s.tableFor definition with
      | (.error e, s₁) => some (.error e, s₁)
      | (.ok t, s₁) =>
        if t.prototype && !allowPrototype then
          some (.error (.cannotInstantiatePrototype definition), s₁)
        else
          match engine.setUp s₁.population.nextId t (s₁.allocate t owner privileged) with
          | none => none
          | some (.ok (), s₂) => some (.ok s₁.population.nextId, s₂)
          | some (.error e, s₂) =>
            (engine.destroyTree s₁.population.nextId false s₂).map fun r => (.error e, r.2) := by
  unfold createInstance
  rw [Run.step_bind]
  rcases s.tableFor definition with ⟨⟨e⟩ | ⟨t⟩, s₁⟩
  · rfl
  · simp only
    split
    · rfl
    · simp only [Run.ask_bind, Run.modify_bind, Run.attempt_bind]
      rcases engine.setUp s₁.population.nextId t (s₁.allocate t owner privileged) with
        _ | ⟨⟨e⟩ | ⟨⟩, s₂⟩
      · rfl
      · simp only [Run.bind_apply]
        rcases hdestroy : engine.destroyTree s₁.population.nextId false s₂ with _ | ⟨result, s₃⟩
        · rfl
        · obtain ⟨rfl, -⟩ := destroyTree_eq_some hdestroy
          rfl
      · rfl

theorem creation_of_createInstance {definition : DefinitionId} {owner : Principal}
    {privileged allowPrototype : Bool} {out : Except RuntimeError InstanceId}
    (h : engine.createInstance definition owner privileged allowPrototype s = some (out, s')) :
    Creation engine definition owner privileged s out s' := by
  rw [createInstance_eq] at h
  rcases htable : s.tableFor definition with ⟨⟨e⟩ | ⟨t⟩, s₁⟩
  · rw [htable] at h
    cases h
    exact .refused (congrArg Prod.snd htable)
  · rw [htable] at h
    simp only at h
    split at h
    · cases h
      exact .refused (congrArg Prod.snd htable)
    · rcases hset : engine.setUp s₁.population.nextId t (s₁.allocate t owner privileged) with
        _ | ⟨⟨e⟩ | ⟨⟩, s₂⟩
      · rw [hset] at h
        cases h
      · rw [hset] at h
        obtain ⟨⟨result, s₃⟩, hdestroy, heq⟩ := Option.map_eq_some_iff.mp h
        cases heq
        obtain ⟨rfl, -⟩ := destroyTree_eq_some hdestroy
        exact .undone htable hset hdestroy
      · rw [hset] at h
        cases h
        exact .done htable hset

end Engine

namespace Space

variable [Natives] {s s' : Space} {bound : Nat} {definition : DefinitionId}
variable {owner caller : Principal} {out : Except RuntimeError InstanceId}

theorem instantiatePrivileged_eq_some
    (h : instantiatePrivileged bound definition owner caller s = some (out, s')) :
    s' = s ∨ s.isPrivileged caller = true ∧
      (engine bound).create definition owner true false s = some (out, s') := by
  unfold instantiatePrivileged at h
  rw [Run.require_bind] at h
  split at h
  · cases h
    exact .inl rfl
  next hok => exact .inr ⟨requirePrivileged_eq_ok.mp hok, h⟩

theorem loadPrototype_eq_some (h : loadPrototype bound definition caller s = some (out, s')) :
    (s.isPrivileged caller = false ∧ s' = s ∧ ∃ e, out = .error e) ∨
      s.isPrivileged caller = true ∧
        ((∃ id, s.template? definition = some id ∧ out = .ok id ∧ s' = s) ∨
          s.template? definition = none ∧ ((∃ e, out = .error e ∧
            (engine bound).create definition caller false true s = some (.error e, s')) ∨
            ∃ id s₁, out = .ok id ∧
              (engine bound).create definition caller false true s = some (.ok id, s₁) ∧
              s' = { s₁ with prototypes := s₁.prototypes.insert definition id })) := by
  unfold loadPrototype at h
  rw [Run.require_bind] at h
  split at h
  next e he =>
    cases h
    exact .inl ⟨requirePrivileged_eq_error he, rfl, e, rfl⟩
  next hok =>
    refine .inr ⟨requirePrivileged_eq_ok.mp hok, ?_⟩
    rw [Run.ask_bind] at h
    cases htemplate : s.template? definition with
    | some id =>
      rw [htemplate] at h
      cases h
      exact .inl ⟨id, rfl, rfl, rfl⟩
    | none =>
      rw [htemplate] at h
      refine .inr ⟨rfl, ?_⟩
      rcases Run.bind_eq_some h with ⟨e, hcreate, rfl⟩ | ⟨id, s₁, hcreate, h⟩
      · exact .inl ⟨e, rfl, hcreate⟩
      · cases h
        exact .inr ⟨id, s₁, rfl, hcreate, rfl⟩

end Space

end Mudlib
