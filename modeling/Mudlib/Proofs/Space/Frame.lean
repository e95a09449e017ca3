import Mudlib.Space.Operations
import Mudlib.Proofs.Space.Guards
import Mudlib.Proofs.Space.Steps
set_option autoImplicit false

namespace Mudlib

namespace Space

/-- All but registry, instances and journal is as before. -/
structure Framed (s s' : Space) : Prop where
  chain : s'.chain = s.chain
  prototypes : s'.prototypes = s.prototypes
  initMethod : s'.initMethod = s.initMethod
  destroyHook : s'.destroyHook = s.destroyHook
  baseAuxiliary : s'.baseAuxiliary = s.baseAuxiliary

theorem framed_order : Run.Order Framed where
  refl := fun _ => ⟨rfl, rfl, rfl, rfl, rfl⟩
  trans := fun h h' =>
    ⟨h'.chain.trans h.chain, h'.prototypes.trans h.prototypes, h'.initMethod.trans h.initMethod,
      h'.destroyHook.trans h.destroyHook, h'.baseAuxiliary.trans h.baseAuxiliary⟩

variable {s s' : Space} {id h a : InstanceId} {order : List InstanceId}

theorem Framed.symm (hs : Framed s s') : Framed s' s :=
  ⟨hs.chain.symm, hs.prototypes.symm, hs.initMethod.symm, hs.destroyHook.symm,
    hs.baseAuxiliary.symm⟩

theorem framed_foldl_update (f : Instance → Instance) :
    Framed s (order.foldl (fun s id => s.update id f) s) := by
  induction order generalizing s with
  | nil => exact framed_order.refl s
  | cons id order ih =>
    have hstep : Framed s (s.update id f) := ⟨rfl, rfl, rfl, rfl, rfl⟩
    exact framed_order.trans hstep ih

theorem framed_unlinkFromHost : Framed s (s.unlinkFromHost id) := by
  unfold unlinkFromHost
  split <;> exact ⟨rfl, rfl, rfl, rfl, rfl⟩

end Space

namespace Engine

open Space

structure Frames (engine : Engine) : Prop where
  call : ∀ id m args caller, Run.Keeps Framed (engine.call id m args caller)
  create : ∀ definition owner privileged allowPrototype,
    Run.Keeps Framed (engine.create definition owner privileged allowPrototype)

namespace Frames

variable {engine : Engine} (he : Frames engine)

include he

theorem callBound (ctx : Context) (call : QualifiedCall) (args : List Value) :
    Run.Keeps Framed (engine.callBound ctx call args) := by
  unfold Engine.callBound
  split
  · exact he.call _ _ _ _
  · exact .fail framed_order _

theorem createPath (path : String) (owner : Principal) :
    Run.Keeps Framed (engine.createPath path owner) := by
  unfold Engine.createPath
  split
  · exact he.create _ _ _ _
  · exact .fail framed_order _

theorem invoke (id : InstanceId) (method : String) (args : List Value) (caller : Principal) :
    Run.Keeps Framed (engine.invoke id method args caller) :=
  .bind framed_order (.search framed_order _) fun _ => he.call _ _ _ _

theorem runHook (hook : String) (id : InstanceId) : Run.Keeps Framed (engine.runHook hook id) := by
  refine .bind framed_order (.ask framed_order _) fun found => ?_
  cases found with
  | none => exact .pure framed_order _
  | some m =>
    refine .bind framed_order (.modify fun s => ⟨rfl, rfl, rfl, rfl, rfl⟩) fun _ => ?_
    exact .bind framed_order (.attempt (he.call _ _ _ _)) fun _ => .pure framed_order _

theorem runHooks (withHooks : Bool) (order : List InstanceId) :
    Run.Keeps Framed (engine.runHooks withHooks order) := by
  refine .bind framed_order (.ask framed_order _) fun hook => ?_
  cases hook with
  | none => exact .pure framed_order _
  | some hook => exact .each framed_order fun id _ => he.runHook hook id

theorem destroyTree (id : InstanceId) (withHooks : Bool) :
    Run.Keeps Framed (engine.destroyTree id withHooks) := by
  refine .bind framed_order (.search framed_order _) fun order => ?_
  refine .bind framed_order (.modify fun s => framed_foldl_update _) fun _ => ?_
  refine .bind framed_order (he.runHooks withHooks order) fun _ => .modify fun s => ?_
  exact framed_order.trans framed_unlinkFromHost (framed_foldl_update _)

theorem requestDestroy (id : InstanceId) (caller : Principal) :
    Run.Keeps Framed (engine.requestDestroy id caller) :=
  .bind framed_order (.require framed_order _) fun _ => he.destroyTree id true

theorem runScripted (ctx : Context) (body : ScriptedBody) :
    Run.Keeps Framed (engine.runScripted ctx body) := by
  refine .bind framed_order (.each framed_order fun b _ => ?_) fun _ => ?_
  · exact .bind framed_order (he.call _ _ _ _) fun _ => .pure framed_order _
  · refine .bind framed_order (.each framed_order fun a _ => ?_) fun _ => .pure framed_order _
    refine .change framed_order fun hs => ?_
    obtain ⟨i, -, -, rfl⟩ := assign_eq_ok hs
    exact ⟨rfl, rfl, rfl, rfl, rfl⟩

theorem conduct {ctx : Context} {α : Type} {m : Run α} (hm : Conduct engine ctx m) :
    Run.Keeps Framed m := by
  induction hm with
  | look question => exact .require framed_order question
  | bind _ _ ihm ihf => exact .bind framed_order ihm ihf
  | attempt _ ih => exact .attempt ih
  | endless => exact .diverge
  | log v => exact .modify fun s => ⟨rfl, rfl, rfl, rfl, rfl⟩
  | set field v =>
    refine .change framed_order fun hs => ?_
    obtain ⟨i, -, -, rfl⟩ := assign_eq_ok hs
    exact ⟨rfl, rfl, rfl, rfl, rfl⟩
  | call call args => exact he.callBound ctx call args
  | invoke id method args => exact he.invoke id method args ctx.self
  | spawn path => exact he.createPath path ctx.self
  | attach id =>
    refine .changeWithin framed_order fun hs => ?_
    obtain ⟨-, -, -, -, -, rfl⟩ := attach_eq_some hs
    exact ⟨rfl, rfl, rfl, rfl, rfl⟩
  | detach id =>
    refine .change framed_order fun hs => ?_
    obtain ⟨-, -, rfl⟩ := detach_eq_ok hs
    exact ⟨rfl, rfl, rfl, rfl, rfl⟩
  | destroy id => exact he.requestDestroy id ctx.self
  | registry operation => exact .modify fun s => ⟨rfl, rfl, rfl, rfl, rfl⟩

theorem runImplementation [Natives] (ctx : Context) :
    Run.Keeps Framed (engine.runImplementation ctx) := by
  refine .bind framed_order (.modify fun s => ⟨rfl, rfl, rfl, rfl, rfl⟩) fun _ => ?_
  split
  · exact he.conduct (Natives.conduct _ _ _)
  · exact he.runScripted ctx _

theorem addAuxiliary (id : InstanceId) (auxiliary : DefinitionId) :
    Run.Keeps Framed (engine.addAuxiliary id auxiliary) :=
  .bind framed_order (he.create _ _ _ _) fun _ => .modify fun _ => ⟨rfl, rfl, rfl, rfl, rfl⟩

/-- The definition is on the stack while its auxiliaries are attached, and off it again after. -/
theorem setUp (id : InstanceId) (t : Table) : Run.Keeps Framed (engine.setUp id t) := by
  constructor
  intro s out s' h
  have hattached : ∀ {out s₁},
      Run.each (engine.addAuxiliary id) (s.auxiliariesOf t) (s.enterChain t.id) = some (out, s₁) →
        Framed s s₁.leaveChain := by
    intro out s₁ heach
    have heach := (Run.Keeps.each framed_order fun a _ => he.addAuxiliary id a).holds heach
    refine ⟨?_, heach.prototypes, heach.initMethod, heach.destroyHook, heach.baseAuxiliary⟩
    rw [leaveChain, heach.chain, enterChain, List.dropLast_concat]
  cases settingUp_of_setUp h with
  | cyclic => exact framed_order.refl s
  | attached heach => exact hattached heach
  | ran heach _ hcall => exact framed_order.trans (hattached heach) ((he.call _ _ _ _).holds hcall)

theorem createInstance (definition : DefinitionId) (owner : Principal)
    (privileged allowPrototype : Bool) :
    Run.Keeps Framed (engine.createInstance definition owner privileged allowPrototype) := by
  constructor
  intro s out s' h
  have hallocated : ∀ {t s₁}, s.tableFor definition = (.ok t, s₁) →
      Framed s (s₁.allocate t owner privileged) := by
    intro t s₁ ht
    obtain ⟨-, rfl⟩ := Prod.mk.inj ht
    exact ⟨rfl, rfl, rfl, rfl, rfl⟩
  cases creation_of_createInstance h with
  | refused hs =>
    subst hs
    exact ⟨rfl, rfl, rfl, rfl, rfl⟩
  | done ht hset => exact framed_order.trans (hallocated ht) ((he.setUp _ _).holds hset)
  | undone ht hset hdestroy =>
    refine framed_order.trans (hallocated ht) (framed_order.trans ((he.setUp _ _).holds hset) ?_)
    exact (he.destroyTree _ _).holds hdestroy

end Frames

end Engine

namespace Space

variable [Natives] {s s' s₀ : Space} {out : Except RuntimeError Unit}

theorem frames_engine (bound : Nat) : (engine bound).Frames := by
  induction bound with
  | zero => exact ⟨fun _ _ _ _ => .diverge, fun _ _ _ _ => .diverge⟩
  | succ n ih =>
    exact ⟨fun id m args caller => ih.runImplementation ⟨id, caller, m, args⟩, ih.createInstance⟩

theorem chain_perform {bound : Nat} {request : Request}
    (h : perform bound request s = some (out, s')) : s'.chain = s.chain := by
  have he := frames_engine bound
  cases request with
  | instantiate definition owner =>
    obtain ⟨result, h⟩ := Run.exists_of_dropped h
    exact ((he.create _ _ _ _).holds h).chain
  | instantiatePrivileged definition owner caller =>
    obtain ⟨result, h⟩ := Run.exists_of_dropped h
    rcases instantiatePrivileged_eq_some h with rfl | ⟨-, hcreate⟩
    · rfl
    · exact ((he.create _ _ _ _).holds hcreate).chain
  | loadPrototype definition caller =>
    obtain ⟨result, h⟩ := Run.exists_of_dropped h
    rcases loadPrototype_eq_some h with ⟨-, rfl, -⟩ |
      ⟨-, ⟨id, -, -, rfl⟩ | ⟨-, ⟨e, -, hcreate⟩ | ⟨id, s₁, -, hcreate, rfl⟩⟩⟩
    · rfl
    · rfl
    · exact ((he.create _ _ _ _).holds hcreate).chain
    · have hkept : s₁.chain = s.chain := ((he.create _ _ _ _).holds hcreate).chain
      exact hkept
  | invoke id method args caller =>
    obtain ⟨result, h⟩ := Run.exists_of_dropped h
    exact ((he.invoke id method args caller).holds h).chain
  | setField id field v caller =>
    have hkeeps : Run.Keeps Framed (Run.change fun s => s.setField id field v caller) := by
      refine .change framed_order fun hs => ?_
      obtain ⟨i, -, -, rfl⟩ := assign_eq_ok (setField_eq_ok hs)
      exact ⟨rfl, rfl, rfl, rfl, rfl⟩
    exact (hkeeps.holds h).chain
  | attach host auxiliary caller =>
    have hkeeps : Run.Keeps Framed
        (Run.changeWithin fun s => s.attach host auxiliary caller) := by
      refine .changeWithin framed_order fun hs => ?_
      obtain ⟨-, -, -, -, -, rfl⟩ := attach_eq_some hs
      exact ⟨rfl, rfl, rfl, rfl, rfl⟩
    exact (hkeeps.holds h).chain
  | detach host auxiliary caller =>
    have hkeeps : Run.Keeps Framed (Run.change fun s => s.detach host auxiliary caller) := by
      refine .change framed_order fun hs => ?_
      obtain ⟨-, -, rfl⟩ := detach_eq_ok hs
      exact ⟨rfl, rfl, rfl, rfl, rfl⟩
    exact (hkeeps.holds h).chain
  | destroy id caller => exact ((he.requestDestroy id caller).holds h).chain
  | registry operation =>
    cases h
    rfl

theorem chain_served {requests : List Request} (h : Served s₀ requests s) :
    s.chain = s₀.chain := by
  induction h with
  | nil s => rfl
  | cons hone _ ih => exact ih.trans (chain_perform hone)

end Space

end Mudlib
