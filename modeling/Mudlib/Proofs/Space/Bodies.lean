import Mudlib.Proofs.Space.Descent
import Mudlib.Proofs.Space.Frame
import Mudlib.Proofs.Space.Templates
set_option autoImplicit false

namespace Mudlib.Space

open Implementation Registry

section Meaning

variable [Natives] {s s' u : Space} {id made : InstanceId} {m : Implementation} {t : Table}
variable {definition : DefinitionId} {owner : Principal} {privileged : Bool} {n : Nat}

/-- A new instance has its auxiliaries, and its init method has not been run. -/
inductive Fitted (n : Nat) (definition : DefinitionId) (owner : Principal) (privileged : Bool)
    (s : Space) (made : InstanceId) (t : Table) : Space → Prop where
  | intro {r : Registry} {w : Space} :
      s.registry.get definition = (.ok t, r) → s.population.nextId = made →
      Run.each ((engine n).addAuxiliary made) (s.auxiliariesOf t)
        (({ s with registry := r }.allocate t owner privileged).enterChain t.id) =
          some (.ok (), w) →
      Fitted n definition owner privileged s made t w.leaveChain

theorem Fitted.table (h : Fitted n definition owner privileged s made t u) :
    ∃ r, s.registry.get definition = (.ok t, r) := by
  obtain ⟨hget, -, -⟩ := h
  exact ⟨_, hget⟩

theorem Fitted.framed (h : Fitted n definition owner privileged s made t u) : Framed s u := by
  obtain ⟨-, -, heach⟩ := h
  have hkept := (Run.Keeps.each framed_order fun a _ => (frames_engine n).addAuxiliary made a).holds
    heach
  refine ⟨?_, hkept.prototypes, hkept.initMethod, hkept.destroyHook, hkept.baseAuxiliary⟩
  rw [leaveChain, hkept.chain, enterChain, List.dropLast_concat]
  rfl

theorem Fitted.exists (h : Fitted n definition owner privileged s made t u) :
    u.instance? made ≠ none := by
  obtain ⟨-, rfl, heach⟩ := h
  have hcourse := (Run.Keeps.each course_order fun a _ => (courses_engine n).addAuxiliary _ a).holds
    heach
  refine hcourse.recruits.exists fun hnone => ?_
  have hsome := hnone.symm.trans instance?_allocate_self
  cases hsome

theorem Fitted.defaults (h : Fitted n definition owner privileged s made t u)
    (hnone : s.auxiliariesOf t = []) : u.fields? made = some t.defaultFields := by
  obtain ⟨-, rfl, heach⟩ := h
  rw [hnone] at heach
  cases heach
  exact congrArg (Option.map Instance.fields) instance?_allocate_self

/-- A successful creation runs the init method last, on the fitted instance. -/
theorem exists_fitted {bound : Nat} {allowPrototype : Bool}
    (h : (engine bound).create definition owner privileged allowPrototype s =
      some (.ok made, s')) :
    ∃ n t u, Fitted n definition owner privileged s made t u ∧
      ∀ m, t.method? s.initMethod = some m →
        ∃ caller v, callWithin n made m [] caller u = some (.ok v, s') := by
  cases bound with
  | zero => cases h
  | succ n =>
    cases Engine.creation_of_createInstance h with
    | @done t s₁ _ htable hset =>
      obtain ⟨hresult, rfl⟩ := Prod.mk.inj htable
      obtain ⟨w, heach, hrun⟩ := Engine.setUp_eq_ok hset
      have hfitted : Fitted n definition owner privileged s _ t w.leaveChain :=
        .intro (Prod.ext (eq_ok_of_mapError hresult) rfl) rfl heach
      refine ⟨n, t, _, hfitted, fun m hm => ?_⟩
      have hinit : w.initMethod = s.initMethod := hfitted.framed.initMethod
      rcases hrun with ⟨hnone, -⟩ | ⟨m', caller, v, hm', hcall⟩
      · rw [hinit, hm] at hnone
        cases hnone
      · rw [hinit, hm] at hm'
        cases hm'
        exact ⟨caller, v, hcall⟩

/-- A scripted method comes to an end wherever it is run, and if it succeeds it has done what its tree
of bound calls says: it returns what its own body returns, the assignments of all bodies are made,
those of a body after those of the bodies that it calls, every body has run as many times as it is
called, and nothing else has changed. So a new instance of a line of definitions, each of which calls
the init method that it inherits, is initialized by every body of the line once, the oldest first, and
of several bodies that assign a field the youngest decides. -/
theorem scripted_methods_run_in_sequence {policy : AmbiguityPolicy} {maxDepth : Nat}
    {loader : Option Loader} {config : Config} {s₀ w : Space} {requests : List Request}
    {ran : List InstanceId} (hstart : ofConfig? (.empty policy maxDepth loader) config = .ok s₀)
    (hserved : Served s₀ requests w) (hcourse : Course ran w s) :
    (∀ id m args caller, m.Scripted →
      (∀ bound, m.postOrder.length ≤ bound → callWithin bound id m args caller s ≠ none) ∧
      ∀ bound v s', callWithin bound id m args caller s = some (.ok v, s') →
        v = m.returns ∧ Rewritten id m.writes m.starts s s' ∧ m.starts.Perm m.postOrder) ∧
    ∀ head above, Descent s.registry.effective? s.initMethod head above →
      ∀ bound owner privileged allowPrototype made s',
        (engine bound).create head.1 owner privileged allowPrototype s = some (.ok made, s') →
        ∃ n t u started, Fitted n head.1 owner privileged s made t u ∧
          (s.auxiliariesOf t = [] → u.fields? made = some t.defaultFields) ∧
          Rewritten made ((head :: above).reverse.flatMap fun e => e.2.assign.toList) started u s' ∧
          started.map (fun m => (m.owner, m.name)) =
            (head :: above).map (fun e => (e.1, s.initMethod)) ∧
          ∃ before after, u.fields? made = some before ∧ s'.fields? made = some after ∧
            ∀ field, after.get? field =
              ((head :: above).findSome? fun e => e.2.assign.get? field).or (before.get? field) := by
  constructor
  · intro id m args caller hm
    refine ⟨fun bound hb => ends_callWithin hm hb id args caller s, fun bound v s' h => ?_⟩
    rcases rewritten_of_callWithin hm h with ⟨hv, hr⟩ | ⟨_, _, _, _, _, _, _, _, _, _, hv⟩
    · exact ⟨Except.ok.inj hv, hr, starts_perm_postOrder hm⟩
    · cases hv
  · intro head above hline bound owner privileged allowPrototype made s' h
    obtain ⟨n, t, u, hfitted, hinit⟩ := exists_fitted h
    obtain ⟨r, hget⟩ := hfitted.table
    have hc := hcourse.orderly.coherent (coherent_of_served hstart hserved)
    have hresolved := resolved_get hc head.1
    rw [hget] at hresolved
    have hsources : r.effective? = s.registry.effective? :=
      funext hresolved.walk.grows.effective
    obtain ⟨hc', hcached⟩ := hc.of_get hget
    obtain ⟨m, hm, hruns⟩ := hc'.descended (hsources ▸ hline) hcached
    obtain ⟨caller, v, hcall⟩ := hinit m hm
    rcases rewritten_of_callWithin hruns.scripted hcall with
      ⟨-, hr⟩ | ⟨_, _, _, _, _, _, _, _, _, _, hv⟩
    · rw [hruns.writes] at hr
      obtain ⟨i, hi⟩ := Option.ne_none_iff_exists'.mp hfitted.exists
      have hbefore : u.fields? made = some i.fields := by rw [fields?, hi, Option.map_some]
      refine ⟨n, t, u, m.starts, hfitted, hfitted.defaults, hr, hruns.starts, i.fields, _, hbefore,
        ?_, get?_writeAll_line (head :: above) i.fields⟩
      rw [hr.fields?, hbefore, Option.map_some]
    · cases hv

end Meaning

section Pyre

def ember : Definition :=
  { Definition.empty ⟨"/ember", by decide⟩ with
    fields := (Dict.empty.insert "glow" ⟨.int, .int 0⟩).insert "warmth" ⟨.int, .int 0⟩
    methods := Dict.empty.insert "create"
      ⟨.scripted ⟨(Dict.empty.insert "glow" (.int 1)).insert "warmth" (.int 1), .null⟩, []⟩ }

def adorned (id ancestor : DefinitionId) (field : String) (v : Value) : Definition :=
  { Definition.empty id with
    ancestors := [ancestor]
    methods := Dict.empty.insert "create"
      ⟨.scripted ⟨Dict.empty.insert field v, .null⟩, [⟨none, "create"⟩]⟩ }

def brand : Definition := adorned ⟨"/brand", by decide⟩ ember.id "warmth" (.int 2)

def pyre : Definition := adorned ⟨"/pyre", by decide⟩ brand.id "glow" (.int 3)

def brandLine : List (DefinitionId × ScriptedBody) :=
  [(brand.id, ⟨Dict.empty.insert "warmth" (.int 2), .null⟩),
    (ember.id, ⟨(Dict.empty.insert "glow" (.int 1)).insert "warmth" (.int 1), .null⟩)]

/-- A pyre glows as pyres do and is as warm as a brand. -/
theorem pyre_initialized : ∃ s₀ s s' fields,
    ofConfig? (.empty .firstContributor 8 none) .standard = .ok s₀ ∧
    Served s₀ ([ember, brand, pyre].map fun d => .registry (.register d)) s ∧
    Descent s.registry.effective? s.initMethod
      (pyre.id, ⟨Dict.empty.insert "glow" (.int 3), .null⟩) brandLine ∧
    (engine 6).create pyre.id .system false false s = some (.ok ⟨1⟩, s') ∧
    s'.fields? ⟨1⟩ = some fields ∧ fields.get? "glow" = some (.int 3) ∧
    fields.get? "warmth" = some (.int 2) := by
  have hrun : (ofConfig? (.empty .firstContributor 8 none) .standard).toOption.bind (fun s₀ =>
      (serve 6 ([ember, brand, pyre].map fun d => .registry (.register d)) s₀).bind fun s =>
        ((engine 6).create pyre.id .system false false s).map fun r =>
          (s.initMethod, r.1.toOption)) = some ("create", some ⟨1⟩) := by
    decide +kernel
  obtain ⟨s₀, s, hok, hserved, hfound⟩ := served_of_found hrun
  obtain ⟨⟨out, s'⟩, hcreate, hfound⟩ := Option.map_eq_some_iff.mp hfound
  obtain ⟨hinit, hmade⟩ := Prod.mk.inj hfound
  obtain rfl := eq_ok_of_toOption hmade
  have hregistry : s.registry = ((s₀.registry.register ember).register brand).register pyre := by
    obtain _ | ⟨hember, _ | ⟨hbrand, _ | ⟨hpyre, hnil⟩⟩⟩ := hserved
    cases hember
    cases hbrand
    cases hpyre
    cases hnil
    rfl
  have hsource : ∀ id, s.registry.effective? id = if id = pyre.id then some pyre else
      if id = brand.id then some brand else if id = ember.id then some ember else
        s₀.registry.effective? id := by
    intro id
    rw [hregistry, effective?_register, effective?_register, effective?_register]
  have hline : Descent s.registry.effective? s.initMethod
      (pyre.id, ⟨Dict.empty.insert "glow" (.int 3), .null⟩) brandLine := by
    have hpyre : s.registry.effective? pyre.id = some pyre := by rw [hsource, if_pos rfl]
    have hbrand : s.registry.effective? brand.id = some brand := by
      rw [hsource, if_neg (by decide), if_pos rfl]
    have hember : s.registry.effective? ember.id = some ember := by
      rw [hsource, if_neg (by decide), if_neg (by decide), if_pos rfl]
    rw [hinit]
    exact .next hpyre rfl rfl rfl (.next hbrand rfl rfl rfl (.first hember rfl rfl))
  obtain ⟨-, hcreated⟩ := scripted_methods_run_in_sequence hok hserved (.rest s)
  obtain ⟨n, t, u, started, -, -, -, -, before, after, -, hafter, hfields⟩ :=
    hcreated _ _ hline 6 .system false false ⟨1⟩ s' hcreate
  refine ⟨s₀, s, s', after, hok, hserved, hline, hcreate, hafter, ?_, ?_⟩
  · rw [hfields]
    rfl
  · rw [hfields]
    rfl

end Pyre

end Mudlib.Space
