import Mathlib.Logic.Relation
import Mudlib.Proofs.Space.Frame
import Mudlib.Proofs.Space.Templates
/-!
Jobs: what computations begin, and what these begin in turn.

A creation entails setting up its instance, and that entails creating the auxiliaries. Bodies are
started besides: the init method once an instance has its auxiliaries, what bodies call, and whatever
else code comes to that works through its context. A job is something of the kind that is begun, with
the space as it is then.
-/
set_option autoImplicit false

namespace Mudlib

inductive Errand where
  | create (definition : DefinitionId) (owner : Principal) (privileged allowPrototype : Bool)
  /-- Attaching the auxiliaries of a new instance, and running its init method. -/
  | setUp (id : InstanceId) (t : Table)
  | run (id : InstanceId) (m : Implementation) (args : List Value) (caller : Principal)
  | destroy (id : InstanceId) (caller : Principal)

def Errand.work (engine : Engine) : Errand → Run Unit
  | .create definition owner privileged allowPrototype => do
    let _ ← engine.create definition owner privileged allowPrototype
  | .setUp id t => engine.setUp id t
  | .run id m args caller => do
    let _ ← engine.call id m args caller
  | .destroy id caller => engine.requestDestroy id caller

/-- Code that works through its context comes to an errand, and begins it in this space. -/
inductive Begins (engine : Engine) (ctx : Context) :
    {α : Type} → Run α → Space → Errand → Space → Prop where
  | first {α β : Type} {m : Run α} {f : α → Run β} {s w : Space} {errand : Errand} :
      Begins engine ctx m s errand w → Begins engine ctx (m >>= f) s errand w
  | later {α β : Type} {m : Run α} {f : α → Run β} {a : α} {s s₁ w : Space} {errand : Errand} :
      Conduct engine ctx m → m s = some (.ok a, s₁) → Begins engine ctx (f a) s₁ errand w →
      Begins engine ctx (m >>= f) s errand w
  | attempt {α : Type} {m : Run α} {s w : Space} {errand : Errand} :
      Begins engine ctx m s errand w → Begins engine ctx (Run.attempt m) s errand w
  | call {call : QualifiedCall} {args : List Value} {target : Implementation} (s : Space) :
      ctx.implementation.bound? call = some target →
      Begins engine ctx (engine.callBound ctx call args) s (.run ctx.this target args ctx.caller) s
  | invoke {id : InstanceId} {method : String} {args : List Value}
      {found : InstanceId × Implementation} {s : Space} :
      s.dispatch id method = some (.ok found) →
      Begins engine ctx (engine.invoke id method args ctx.self) s
        (.run found.1 found.2 args ctx.self) s
  | spawn {path : String} {id : DefinitionId} (s : Space) : DefinitionId.ofPath? path = .ok id →
      Begins engine ctx (engine.createPath path ctx.self) s (.create id ctx.self false false) s
  | destroy (id : InstanceId) (s : Space) :
      Begins engine ctx (engine.requestDestroy id ctx.self) s (.destroy id ctx.self) s

namespace Space

/-- An errand, how deep calls and creations may go in it, and the space in which it is begun. -/
structure Job where
  bound : Nat
  errand : Errand
  space : Space

section Regular

variable {s s' : Space} {ran : List InstanceId} {α : Type} {m : Run α}

structure Regular (s s' : Space) : Prop extends Framed s s' where
  coherent : s.registry.Coherent → s'.registry.Coherent

theorem regular_order : Run.Order Regular where
  refl := fun s => ⟨framed_order.refl s, id⟩
  trans := fun h h' =>
    ⟨framed_order.trans h.toFramed h'.toFramed, fun hc => h'.coherent (h.coherent hc)⟩

theorem regular_of_course (hf : Framed s s') (hc : Course ran s s') : Regular s s' :=
  ⟨hf, hc.orderly.coherent⟩

theorem regular_record (s : Space) (e : Event) : Regular s (s.record e) :=
  ⟨⟨rfl, rfl, rfl, rfl, rfl⟩, id⟩

theorem regular_mark (s : Space) (order : List InstanceId) : Regular s (s.markPending order) :=
  ⟨framed_foldl_update _, orderly_mark.coherent⟩

theorem keeps_regular (hf : Run.Keeps Framed m) (hc : Run.Keeps (Course []) m) :
    Run.Keeps Regular m :=
  ⟨fun h => regular_of_course (hf.holds h) (hc.holds h)⟩

end Regular

namespace Job

section Kinds

variable {j : Job} {t u : Table} {a b : DefinitionId}

def SetsUp (j : Job) (t : Table) : Prop := ∃ id, j.errand = .setUp id t

def Creates (j : Job) (a : DefinitionId) : Prop :=
  ∃ owner privileged allowPrototype, j.errand = .create a owner privileged allowPrototype

theorem SetsUp.unique (ht : j.SetsUp t) (hu : j.SetsUp u) : t = u := by
  obtain ⟨id, ht⟩ := ht
  obtain ⟨id', hu⟩ := hu
  cases ht.symm.trans hu
  rfl

theorem Creates.unique (ha : j.Creates a) (hb : j.Creates b) : a = b := by
  obtain ⟨owner, privileged, allowPrototype, ha⟩ := ha
  obtain ⟨owner', privileged', allowPrototype', hb⟩ := hb
  cases ha.symm.trans hb
  rfl

theorem Creates.not_setsUp (ha : j.Creates a) : ¬ j.SetsUp t := by
  obtain ⟨owner, privileged, allowPrototype, ha⟩ := ha
  rintro ⟨id, ht⟩
  cases ha.symm.trans ht

end Kinds

section Steps

variable [Natives]

/-- What a job comes to without any body: a creation to the setting up of its instance, and that to
the creations of the auxiliaries, one after the other. -/
inductive Entails : Job → Job → Prop where
  | setUp {n : Nat} {definition : DefinitionId} {owner : Principal}
      {privileged allowPrototype : Bool} {s s₁ : Space} {t : Table} :
      s.tableFor definition = (.ok t, s₁) → (t.prototype = true → allowPrototype = true) →
      Entails ⟨n + 1, .create definition owner privileged allowPrototype, s⟩
        ⟨n, .setUp s₁.population.nextId t, s₁.allocate t owner privileged⟩
  | auxiliary {n : Nat} {id : InstanceId} {t : Table} {s s₁ : Space}
      {before after : List DefinitionId} {a : DefinitionId} :
      t.id ∉ s.chain → s.auxiliariesOf t = before ++ a :: after →
      Run.each ((engine n).addAuxiliary id) before (s.enterChain t.id) = some (.ok (), s₁) →
      Entails ⟨n, .setUp id t, s⟩ ⟨n, .create a (.object id) false false, s₁⟩

inductive Starts : Job → Job → Prop where
  | init {n : Nat} {id : InstanceId} {t : Table} {m : Implementation} {s s₁ : Space} :
      t.id ∉ s.chain →
      Run.each ((engine n).addAuxiliary id) (s.auxiliariesOf t) (s.enterChain t.id) =
        some (.ok (), s₁) →
      t.method? s₁.leaveChain.initMethod = some m →
      Starts ⟨n, .setUp id t, s⟩
        ⟨n, .run id m [] (((s₁.leaveChain.instance? id).map Instance.owner).getD .system),
          s₁.leaveChain⟩
  | scripted {n : Nat} {id : InstanceId} {m : Implementation} {args : List Value}
      {caller : Principal} {s s₁ : Space} {body : ScriptedBody}
      {before after : List (QualifiedCall × Implementation)} {b : QualifiedCall × Implementation} :
      m.body = .scripted body → m.calls = before ++ b :: after →
      Run.each (fun b => do let _ ← (engine n).call id b.2 args caller) before
        (s.record (.entered id (s.state? id) m.owner m.name)) = some (.ok (), s₁) →
      Starts ⟨n + 1, .run id m args caller, s⟩ ⟨n, .run id b.2 args caller, s₁⟩
  | native {n : Nat} {id : InstanceId} {m : Implementation} {args : List Value}
      {caller : Principal} {s w : Space} {code : List Instruction} {errand : Errand} :
      m.body = .native code →
      Begins (engine n) ⟨id, caller, m, args⟩ (Natives.run (engine n) ⟨id, caller, m, args⟩ code)
        (s.record (.entered id (s.state? id) m.owner m.name)) errand w →
      Starts ⟨n + 1, .run id m args caller, s⟩ ⟨n, errand, w⟩
  | hook {n : Nat} {id x : InstanceId} {caller : Principal} {s s₁ : Space}
      {before after : List InstanceId} {hook : String} {m : Implementation} :
      s.checkDestroy id caller = .ok () → s.attachmentTree id = some (before ++ x :: after) →
      s.destroyHook = some hook →
      Run.each ((engine n).runHook hook) before (s.markPending (before ++ x :: after)) =
        some (.ok (), s₁) →
      s₁.hookOf? x hook = some m →
      Starts ⟨n, .destroy id caller, s⟩ ⟨n, .run x m [] .system, s₁.record (.hooked x)⟩

def Leads (j k : Job) : Prop := j.Entails k ∨ j.Starts k

abbrev Covers : Job → Job → Prop := Relation.ReflTransGen Leads

variable {j k root : Job} {n : Nat} {s w : Space}

theorem regular_of_begins {ctx : Context} {α : Type} {m : Run α} {errand : Errand}
    (h : Begins (engine n) ctx m s errand w) : Regular s w := by
  induction h with
  | first _ ih => exact ih
  | later hm hdone _ ih =>
    have hfirst := keeps_regular ((frames_engine n).conduct hm) ((courses_engine n).conduct hm)
    exact regular_order.trans (hfirst.holds hdone) ih
  | attempt _ ih => exact ih
  | call s _ => exact regular_order.refl s
  | invoke _ => exact regular_order.refl _
  | spawn s _ => exact regular_order.refl s
  | destroy _ s => exact regular_order.refl s

theorem regular_addAuxiliaries {id : InstanceId} {as : List DefinitionId}
    {out : Except RuntimeError Unit}
    (h : Run.each ((engine n).addAuxiliary id) as s = some (out, w)) : Regular s w := by
  have hone := fun a => keeps_regular ((frames_engine n).addAuxiliary id a)
    ((courses_engine n).addAuxiliary id a)
  exact (Run.Keeps.each regular_order fun a _ => hone a).holds h

theorem regular_calls {id : InstanceId} {args : List Value} {caller : Principal}
    {calls : List (QualifiedCall × Implementation)} {out : Except RuntimeError Unit}
    (h : Run.each (fun b => do let _ ← (engine n).call id b.2 args caller) calls s =
      some (out, w)) : Regular s w := by
  refine (Run.Keeps.each regular_order fun b _ => ?_).holds h
  have hone := keeps_regular ((frames_engine n).call id b.2 args caller)
    ((courses_engine n).call id b.2 args caller)
  exact .bind regular_order hone fun _ => .pure regular_order _

theorem regular_hooks {hook : String} {order : List InstanceId} {out : Except RuntimeError Unit}
    (h : Run.each ((engine n).runHook hook) order s = some (out, w)) : Regular s w := by
  obtain ⟨ran, -, hcourse⟩ := (courses_engine n).each_runHook h
  have hframed := Run.Keeps.each framed_order fun x (_ : x ∈ order) =>
    (frames_engine n).runHook hook x
  exact regular_of_course (hframed.holds h) hcourse

/-- What one step to another job leaves as it is, and what becomes of the stack: while auxiliaries are
created, the definition of their host is on it. -/
structure Sequel (j k : Job) : Prop where
  initMethod : k.space.initMethod = j.space.initMethod
  baseAuxiliary : k.space.baseAuxiliary = j.space.baseAuxiliary
  coherent : j.space.registry.Coherent → k.space.registry.Coherent
  chain : k.space.chain = j.space.chain ∨ ∃ t, j.SetsUp t ∧ j.Entails k ∧ t.id ∉ j.space.chain ∧
    k.space.chain = j.space.chain ++ [t.id]

theorem sequel_of_regular (h : Regular j.space k.space) : Sequel j k :=
  ⟨h.initMethod, h.baseAuxiliary, h.coherent, .inl h.chain⟩

theorem Entails.sequel (h : j.Entails k) : Sequel j k := by
  cases h with
  | @setUp n definition owner privileged allowPrototype s s₁ t ht hp =>
    obtain rfl := space_of_tableFor ht
    have hcoherent := (orderly_resolve s (.get definition)).coherent
    exact ⟨rfl, rfl, hcoherent, .inl rfl⟩
  | auxiliary hnew heq heach =>
    have hregular := regular_addAuxiliaries heach
    exact ⟨hregular.initMethod, hregular.baseAuxiliary, hregular.coherent,
      .inr ⟨_, ⟨_, rfl⟩, .auxiliary hnew heq heach, hnew, hregular.chain⟩⟩

theorem Starts.sequel (h : j.Starts k) : Sequel j k := by
  cases h with
  | init _ heach _ =>
    have hregular := regular_addAuxiliaries heach
    refine ⟨hregular.initMethod, hregular.baseAuxiliary, hregular.coherent, .inl ?_⟩
    simp only [leaveChain]
    rw [hregular.chain, enterChain, List.dropLast_concat]
  | scripted _ _ heach =>
    exact sequel_of_regular (regular_order.trans (regular_record _ _) (regular_calls heach))
  | native _ hbegins =>
    exact sequel_of_regular (regular_order.trans (regular_record _ _) (regular_of_begins hbegins))
  | hook _ _ _ heach _ =>
    have hran := regular_order.trans (regular_mark _ _) (regular_hooks heach)
    exact sequel_of_regular (regular_order.trans hran (regular_record _ _))

theorem Leads.sequel (h : j.Leads k) : Sequel j k := h.elim Entails.sequel Starts.sequel

end Steps

end Job

end Space

end Mudlib
