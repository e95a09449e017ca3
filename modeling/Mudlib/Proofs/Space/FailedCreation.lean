import Mudlib.Proofs.Space.AuxiliaryGraph
import Mudlib.Proofs.Space.Tombstones
/-!
A creation that fails, at whatever depth, leaves tombstones and a larger cache, and nothing else; what
is created afterwards turns out as it would have turned out before.

Only the cache may be noticed: a chain of ancestors that the failed creation has resolved is not
walked again, so that a definition below it may fail for another reason than its depth.
-/
set_option autoImplicit false

namespace Mudlib.Space

/-- The errors are the same up to the instances that they happen to, unless what lies too deep decides
which of several faults is met. -/
inductive SameFailure : RuntimeError → RuntimeError → Prop where
  | refl (e : RuntimeError) : SameFailure e e
  | compile {cause cause' : ResolveError} :
      cause.Akin cause' → SameFailure (.compile cause) (.compile cause')
  | noSuchField (id id' : InstanceId) (field : String) :
      SameFailure (.noSuchField id field) (.noSuchField id' field)
  | typeMismatch (id id' : InstanceId) (field : String) (expected : FieldType) :
      SameFailure (.typeMismatch id field expected) (.typeMismatch id' field expected)

theorem sameFailure_of_tells {r : Registry} {mishap : Mishap} {e e' : RuntimeError}
    (h : mishap.Tells r e) (h' : mishap.Tells r e') : SameFailure e e' := by
  cases h with
  | unresolved hblames =>
    cases h' with
    | unresolved hblames' => exact .compile (hblames.akin hblames')
  | prototype =>
    cases h'
    exact .refl _
  | cyclic =>
    cases h'
    exact .refl _
  | unknownField id field =>
    cases h' with
    | unknownField id' => exact .noSuchField id id' field
  | mistyped id field expected =>
    cases h' with
    | mistyped id' => exact .typeMismatch id id' field expected

/-- Runs from two spaces that end in the same way: neither within its bound, both with the same
failure, both with the template that there was, or both with the same assembly, each from the id on
that comes next. -/
inductive Parallel (s s' : Space) : Option (Except RuntimeError InstanceId × Space) →
    Option (Except RuntimeError InstanceId × Space) → Prop where
  | endless : Parallel s s' none none
  | failed {e e' : RuntimeError} {s₁ s₁' : Space} :
      SameFailure e e' → Parallel s s' (some (.error e, s₁)) (some (.error e', s₁'))
  | found (id : InstanceId) : Parallel s s' (some (.ok id, s)) (some (.ok id, s'))
  | made {a : Assembly} {owner : Principal} {privileged : Bool} {id id' : InstanceId}
      {s₁ s₁' : Space} : Made s s owner privileged a id s₁ → Made s s' owner privileged a id' s₁' →
      Parallel s s' (some (.ok id, s₁)) (some (.ok id', s₁'))

variable {s s' s₀ s₁ : Space} {n bound : Nat} {e : RuntimeError} {definition : DefinitionId}
variable {owner : Principal} {privileged allowPrototype : Bool}

theorem parallel_of_follows {p : Forecast Mishap Assembly} {r : Registry}
    {out out' : Option (Except RuntimeError InstanceId × Space)}
    (h : Follows (Made s s owner privileged) (Mishap.Tells r) p out)
    (h' : Follows (Made s s' owner privileged) (Mishap.Tells r) p out') : Parallel s s' out out' := by
  cases h with
  | endless =>
    cases h'
    exact .endless
  | failed htells =>
    cases h' with
    | failed htells' => exact .failed (sameFailure_of_tells htells htells')
  | done hmade =>
    cases h' with
    | done hmade' => exact .made hmade hmade'

structure Undone (s s' : Space) : Prop where
  rest : AtRest s'
  kept : Kept s s'
  destroyed : ∀ x, s.instance? x = none → s'.instance? x ≠ none → s'.state? x = some .destroyed
  onward : Onward s s'
  framed : Framed s s'

namespace Undone

theorem refl (h : AtRest s) : Undone s s :=
  ⟨h, fun _ _ => rfl, fun _ hx hx' => absurd hx hx', .refl h.scripted, framed_order.refl s⟩

/-- Nothing new is live. -/
theorem alike (h : Undone s s') : Alike s s' where
  invokable := by
    intro x i
    rw [invokable_eq_ok, invokable_eq_ok]
    by_cases hx : s.instance? x = none
    · rw [hx]
      refine iff_of_false ?_ (fun hi => nomatch hi.1)
      rintro ⟨hi, hd⟩
      have hstate := h.destroyed x hx (by simp [hi])
      rw [state?, hi] at hstate
      exact hd (Option.some.inj hstate)
    · rw [h.kept x hx]
  effective := h.onward.registry.effective
  settings := ⟨h.onward.registry.policy, h.onward.registry.maxDepth, h.onward.registry.loader⟩
  framed := h.framed

end Undone

theorem Alike.governs (ha : Alike s s') (h' : AtRest s') : Governs s s' where
  registry := ⟨⟨h'.scripted.registry.coherent, ha.effective, ha.settings.policy,
    ha.settings.maxDepth⟩, ha.settings.loader⟩
  initMethod := ha.framed.initMethod
  baseAuxiliary := ha.framed.baseAuxiliary

section Creating

variable [Natives] {request : Request} {creation : Run InstanceId}

def Request.creation? (bound : Nat) : Request → Option (Run InstanceId)
  | .instantiate definition owner => some (Space.instantiate bound definition owner)
  | .instantiatePrivileged definition owner caller =>
    some (Space.instantiatePrivileged bound definition owner caller)
  | .loadPrototype definition caller => some (Space.loadPrototype bound definition caller)
  | _ => none

theorem undone_create (h : AtRest s)
    (hrun : (engine bound).create definition owner privileged allowPrototype s =
      some (.error e, s')) : Undone s s' := by
  have htraced := traces_engine bound h.forest h.scripted hrun
  exact ⟨h.create hrun, (creates_engine bound h.forest h.scripted hrun).kept, htraced.undone e rfl,
    htraced.onward, ((frames_engine bound).create _ _ _ _).holds hrun⟩

theorem undone_creation (h : AtRest s) (hcreation : request.creation? bound = some creation)
    (hrun : creation s = some (.error e, s')) : Undone s s' := by
  cases request with
  | instantiate definition owner =>
    cases hcreation
    exact undone_create h hrun
  | instantiatePrivileged definition owner caller =>
    cases hcreation
    rcases instantiatePrivileged_eq_some hrun with rfl | ⟨-, hcreate⟩
    · exact .refl h
    · exact undone_create h hcreate
  | loadPrototype definition caller =>
    cases hcreation
    rcases loadPrototype_eq_some hrun with ⟨-, rfl, -⟩ |
      ⟨-, ⟨id, -, -, rfl⟩ | ⟨-, ⟨e', he, hcreate⟩ | ⟨id, s₁, hok, -⟩⟩⟩
    · exact .refl h
    · exact .refl h
    · cases he
      exact undone_create h hcreate
    · cases hok
  | _ => cases hcreation

theorem follows_create (h : AtRest s) (h' : AtRest s') (ha : Alike s s') (bound : Nat)
    (definition : DefinitionId) (owner : Principal) (privileged allowPrototype : Bool) :
    Follows (Made s s' owner privileged) (Mishap.Tells s.registry)
      (s.plan bound allowPrototype s.chain definition)
      ((engine bound).create definition owner privileged allowPrototype s') := by
  have hfollows : Follows (Made s s' owner privileged) (Mishap.Tells s.registry)
      (s.plan bound allowPrototype s'.chain definition)
      ((engine bound).create definition owner privileged allowPrototype s') :=
    fulfils h.scripted.registry.coherent bound h'.forest h'.scripted (ha.governs h')
  rwa [ha.framed.chain] at hfollows

theorem follows_loadPrototype (h : AtRest s) (h' : AtRest s') (ha : Alike s s') (bound : Nat)
    (definition : DefinitionId) (caller : Principal) :
    Follows (Made s s' caller false) (Mishap.Tells s.registry) (s.plan bound true s.chain definition)
      ((do
        let id ← (engine bound).create definition caller false true
        Run.modify fun s => { s with prototypes := s.prototypes.insert definition id }
        return id : Run InstanceId) s') := by
  rw [← Forecast.andThen_ok (s.plan bound true s.chain definition)]
  refine .bind (follows_create h h' ha bound definition caller false true) ?_
  intro a id s₁ _ hmade
  exact .done ⟨hmade.id_eq, hmade.stands.of_same a fun _ _ _ => rfl, hmade.size⟩

theorem parallel_create (h : AtRest s) (h' : AtRest s') (ha : Alike s s') (bound : Nat)
    (definition : DefinitionId) (owner : Principal) (privileged allowPrototype : Bool) :
    Parallel s s' ((engine bound).create definition owner privileged allowPrototype s)
      ((engine bound).create definition owner privileged allowPrototype s') :=
  parallel_of_follows
    (follows_create h h (.refl s) bound definition owner privileged allowPrototype)
    (follows_create h h' ha bound definition owner privileged allowPrototype)

theorem parallel_creation (h : AtRest s) (h' : AtRest s') (ha : Alike s s')
    (hcreation : request.creation? bound = some creation) :
    Parallel s s' (creation s) (creation s') := by
  cases request with
  | instantiate definition owner =>
    cases hcreation
    exact parallel_create h h' ha bound definition owner false false
  | instantiatePrivileged definition owner caller =>
    cases hcreation
    unfold instantiatePrivileged
    rw [Run.require_bind, Run.require_bind, ha.requirePrivileged_eq]
    split
    · exact .failed (.refl _)
    · exact parallel_create h h' ha bound definition owner true false
  | loadPrototype definition caller =>
    cases hcreation
    unfold loadPrototype
    rw [Run.require_bind, Run.require_bind, ha.requirePrivileged_eq]
    split
    · exact .failed (.refl _)
    · rw [Run.ask_bind, Run.ask_bind, ha.template?_eq]
      cases s.template? definition with
      | some id => exact .found id
      | none =>
        exact parallel_of_follows (follows_loadPrototype h h (.refl s) bound definition caller)
          (follows_loadPrototype h h' ha bound definition caller)
  | _ => cases hcreation

theorem perform_creation (hcreation : request.creation? bound = some creation) :
    perform bound request = (do let _ ← creation : Run Unit) := by
  cases request with
  | instantiate definition owner => cases hcreation; rfl
  | instantiatePrivileged definition owner caller => cases hcreation; rfl
  | loadPrototype definition caller => cases hcreation; rfl
  | _ => cases hcreation

theorem exists_creation (hbarren : ¬ request.Barren)
    (hrun : perform bound request s = some (.error e, s')) :
    ∃ creation, request.creation? bound = some creation ∧ creation s = some (.error e, s') := by
  have hfailed : ∀ {creation}, request.creation? bound = some creation →
      creation s = some (.error e, s') := by
    intro creation hcreation
    rw [perform_creation hcreation] at hrun
    exact Run.dropped_eq_error.mp hrun
  cases request with
  | instantiate definition owner => exact ⟨_, rfl, hfailed rfl⟩
  | instantiatePrivileged definition owner caller => exact ⟨_, rfl, hfailed rfl⟩
  | loadPrototype definition caller => exact ⟨_, rfl, hfailed rfl⟩
  | registry operation => cases hrun
  | _ => exact absurd trivial hbarren

/-- What was asked made no instance and compiled nothing, in that it was not asked for or failed. -/
inductive Fruitless : Space → List Request → Space → Prop where
  | nil (s : Space) : Fruitless s [] s
  | cons {s s₁ s' : Space} {bound : Nat} {request : Request} {requests : List Request}
      {out : Except RuntimeError Unit} : request.Scripted →
      perform bound request s = some (out, s₁) → request.Barren ∨ (∃ e, out = .error e) →
      Fruitless s₁ requests s' → Fruitless s (request :: requests) s'

theorem Alike.failed (h : AtRest s) (h' : AtRest s') (ha : Alike s s')
    (hcreation : request.creation? bound = some creation)
    (hrun : creation s = some (.error e, s₁)) :
    ∃ e' s₁', creation s' = some (.error e', s₁') ∧ Alike s₁ s₁' := by
  have hparallel := parallel_creation h h' ha hcreation
  rw [hrun] at hparallel
  generalize hrun' : creation s' = out at hparallel
  cases hparallel with
  | @failed _ e' _ s₁' _ =>
    have hundone := undone_creation h hcreation hrun
    have hundone' := undone_creation h' hcreation hrun'
    exact ⟨e', s₁', rfl, hundone.alike.symm.trans (ha.trans hundone'.alike)⟩

/-- Alike spaces are served alike, and stay so. -/
theorem Alike.fruitless {requests : List Request} (hserved : Fruitless s requests s₁) (h : AtRest s)
    (h' : AtRest s') (ha : Alike s s') :
    ∃ s₁', Fruitless s' requests s₁' ∧ AtRest s₁ ∧ AtRest s₁' ∧ Alike s₁ s₁' := by
  induction hserved generalizing s' with
  | nil s => exact ⟨s', .nil s', h, h', ha⟩
  | @cons s s₂ s₁ bound request requests out hscripted hrun hfruitless _ ih =>
    obtain ⟨out', s₂', hrun', hfruitless', ha₂⟩ : ∃ out' s₂',
        Space.perform bound request s' = some (out', s₂') ∧
        (request.Barren ∨ ∃ e, out' = .error e) ∧ Alike s₂ s₂' := by
      by_cases hbarren : request.Barren
      · have hends : Run.EndsAlike Alike (Space.perform bound request s)
            (Space.perform bound request s') := ha.perform h h' hbarren
        rw [hrun] at hends
        obtain ⟨out', s₂', hrun', ha₂⟩ := hends.exists_of_eq_some
        exact ⟨out', s₂', hrun', .inl hbarren, ha₂⟩
      · -- what failed from the one space fails from the other, and is undone in both
        obtain ⟨e, rfl⟩ := hfruitless.resolve_left hbarren
        obtain ⟨creation, hcreation, hfailed⟩ := exists_creation hbarren hrun
        obtain ⟨e', s₂', hfailed', ha₂⟩ := ha.failed h h' hcreation hfailed
        refine ⟨.error e', s₂', ?_, .inr ⟨e', rfl⟩, ha₂⟩
        rw [perform_creation hcreation]
        exact Run.dropped_eq_error.mpr hfailed'
    obtain ⟨s₁', hserved', hends⟩ := ih (h.perform hscripted hrun) (h'.perform hscripted hrun') ha₂
    exact ⟨s₁', .cons hscripted hrun' hfruitless' hserved', hends⟩

/-- A creation that fails is undone. All instances that there were are as before, and all that it made
are destroyed and hang on nothing; no hook has run, the templates are the same and no definition is
left that attaches auxiliaries; and every further creation ends just as it would have ended without
it, apart from the ids, and from what is complained of first where something lies too deep.

So it does when other requests come in between. They may do anything but make an instance, after
which the ids differ, and compile a definition, which may find it unchanged in the cache. -/
theorem failed_creation_undone {policy : AmbiguityPolicy} {maxDepth : Nat} {loader : Option Loader}
    {config : Config} {requests : List Request}
    (hloader : ∀ load id d, loader = some load → load id = .ok (some d) → d.Scripted)
    (hstart : ofConfig? (.empty policy maxDepth loader) config = .ok s₀)
    (hrequests : ∀ request ∈ requests, request.Scripted) (hserved : Served s₀ requests s)
    (hcreation : request.creation? bound = some creation)
    (hrun : creation s = some (.error e, s')) :
    Kept s s' ∧
    (∀ x, s.instance? x = none → s'.instance? x ≠ none →
      s'.state? x = some .destroyed ∧ s'.host? x = none ∧ s'.attached x = []) ∧
    Quiet s s' ∧ s'.prototypes = s.prototypes ∧ s'.chain = [] ∧
    (∀ bound (request : Request) creation, request.creation? bound = some creation →
      Parallel s s' (creation s) (creation s')) ∧
    Undone s s' ∧ Alike s s' ∧
    ∀ between t, Fruitless s between t → ∃ t', Fruitless s' between t' ∧ Alike t t' ∧
      ∀ bound (request : Request) creation, request.creation? bound = some creation →
        Parallel t t' (creation t) (creation t') := by
  obtain ⟨hrest, hchain⟩ := rest_of_served hloader hstart hrequests hserved
  have hu := undone_creation hrest hcreation hrun
  refine ⟨hu.kept, fun x hx hx' => ?_, hu.onward.quiet, hu.framed.prototypes,
    hu.framed.chain.trans hchain,
    fun bound request creation => parallel_creation hrest hu.rest hu.alike, hu, hu.alike, ?_⟩
  · have hd := hu.destroyed x hx hx'
    have hlive : s'.state? x ≠ some .live := by simp [hd]
    exact ⟨hd, hu.rest.forest.no_host_of_not_live hlive,
      hu.rest.forest.no_attachments_of_not_live hlive⟩
  · intro between t hbetween
    obtain ⟨t', hbetween', ht, ht', halike⟩ := hu.alike.fruitless hbetween hrest hu.rest
    exact ⟨t', hbetween', halike, fun bound request creation => parallel_creation ht ht' halike⟩

end Creating

section Throne

def canopy : DefinitionId := ⟨"/canopy", by decide⟩

def chair : Definition :=
  (Definition.empty ⟨"/chair", by decide⟩).addAncestor ⟨"/seat", by decide⟩

def dais : Definition :=
  { Definition.empty ⟨"/dais", by decide⟩ with auxiliaries := [chair.id, canopy] }

def throne : Definition :=
  ((Definition.empty ⟨"/throne", by decide⟩).addAncestor chair.id).addAncestor canopy

def furnishing : List Request :=
  [.registry (.register (.empty ⟨"/seat", by decide⟩)), .registry (.register chair),
    .registry (.register dais), .registry (.register throne)]

theorem furnishing_scripted : ∀ request ∈ furnishing, request.Scripted := by
  intro request hmem
  simp only [furnishing, List.mem_cons, List.not_mem_nil, or_false] at hmem
  rcases hmem with rfl | rfl | rfl | rfl
  all_goals
    intro name decl hdecl
    cases hdecl

def mending : List Request :=
  [.instantiate dais.id .system, .registry (.register (.empty canopy))]

theorem fruitless_mending {s s' : Space}
    (hrun : instantiate 3 dais.id .system s = some (.error e, s')) :
    Fruitless s mending { s' with registry := s'.registry.after (.register (.empty canopy)) } := by
  have hcanopy : (Request.registry (.register (.empty canopy))).Scripted := nofun
  have hregister : perform 0 (.registry (.register (.empty canopy))) s' = some (.ok (),
      { s' with registry := s'.registry.after (.register (.empty canopy)) }) := rfl
  refine .cons trivial (Run.dropped_eq_error.mpr hrun) (.inr ⟨e, rfl⟩) ?_
  exact .cons hcanopy hregister (.inl trivial) (.nil _)

/-- The chair of the dais is complete when the canopy is missed, and destroyed with it. When the dais
has been tried again and the canopy is there, the dais is made as it would be made without the first
attempt. -/
theorem dais_undone : ∃ s₀ s s', ofConfig? (.empty .firstContributor 1 none) .standard = .ok s₀ ∧
    Served s₀ furnishing s ∧
    instantiate 3 dais.id .system s = some (.error (.compile (.unknownDefinition canopy)), s') ∧
    Kept s s' ∧ s.state? ⟨2⟩ = none ∧ s'.state? ⟨2⟩ = some .destroyed ∧ s'.host? ⟨2⟩ = none ∧
    s'.attached ⟨2⟩ = [] ∧ Quiet s s' ∧ s'.prototypes = s.prototypes ∧ s'.chain = [] ∧
    Parallel s s' (instantiate 3 chair.id .system s) (instantiate 3 chair.id .system s') ∧
    ∃ t t' t₁, Fruitless s mending t ∧ Fruitless s' mending t' ∧ Alike t t' ∧
      instantiate 3 dais.id .system t = some (.ok ⟨3⟩, t₁) ∧
      Parallel t t' (instantiate 3 dais.id .system t) (instantiate 3 dais.id .system t') := by
  have hrun : (ofConfig? (.empty .firstContributor 1 none) .standard).toOption.bind (fun s₀ =>
      (serve 1 furnishing s₀).bind fun s => (instantiate 3 dais.id .system s).bind fun r =>
        (instantiate 3 dais.id .system
          { r.2 with registry := r.2.registry.after (.register (.empty canopy)) }).map fun q =>
            (r.1, s.state? ⟨2⟩, (r.2.instance? ⟨2⟩).isSome, q.1)) =
      some (.error (.compile (.unknownDefinition canopy)), none, true, .ok ⟨3⟩) := by
    decide +kernel
  obtain ⟨s₀, hstart, hrun⟩ := Option.bind_eq_some_iff.mp hrun
  obtain ⟨s, hserve, hrun⟩ := Option.bind_eq_some_iff.mp hrun
  obtain ⟨⟨out, s'⟩, hcreate, hrun⟩ := Option.bind_eq_some_iff.mp hrun
  obtain ⟨⟨again, t₁⟩, hretry, heq⟩ := Option.map_eq_some_iff.mp hrun
  simp only [Prod.mk.injEq] at heq
  obtain ⟨rfl, hnew, hmade, rfl⟩ := heq
  have hok := eq_ok_of_toOption hstart
  have hloader : ∀ load id d, (none : Option Loader) = some load → load id = .ok (some d) →
      d.Scripted := nofun
  have hserved := served_of_serve hserve
  have hcreation : (Request.instantiate dais.id .system).creation? 3 =
      some (instantiate 3 dais.id .system) := rfl
  obtain ⟨hkept, hdestroyed, hquiet, hprototypes, hchain, hparallel, -, -, hcarried⟩ :=
    failed_creation_undone hloader hok furnishing_scripted hserved hcreation hcreate
  obtain ⟨hstate, hhost, hattached⟩ :=
    hdestroyed ⟨2⟩ (state?_eq_none_iff.mp hnew) (Option.isSome_iff_ne_none.mp hmade)
  have hmending := fruitless_mending hcreate
  obtain ⟨t', hmending', halike, hlater⟩ := hcarried mending _ hmending
  exact ⟨s₀, s, s', hok, hserved, hcreate, hkept, hnew, hstate, hhost, hattached, hquiet,
    hprototypes, hchain, hparallel 3 (.instantiate chair.id .system) _ rfl, _, t', t₁, hmending,
    hmending', halike, hretry, hlater 3 (.instantiate dais.id .system) _ rfl⟩

/-- The seat lies too deep for the throne, unless the dais was tried before: then the chair is cached,
and it is the canopy that is missed first. -/
theorem throne_fails_otherwise : ∃ s₀ s s' s₁ s₁',
    ofConfig? (.empty .firstContributor 1 none) .standard = .ok s₀ ∧ Served s₀ furnishing s ∧
    instantiate 3 dais.id .system s = some (.error (.compile (.unknownDefinition canopy)), s') ∧
    instantiate 3 throne.id .system s = some (.error (.compile (.tooDeep throne.id 1)), s₁) ∧
    instantiate 3 throne.id .system s' =
      some (.error (.compile (.unknownDefinition canopy)), s₁') := by
  have hrun : (ofConfig? (.empty .firstContributor 1 none) .standard).toOption.bind (fun s₀ =>
      (serve 1 furnishing s₀).bind fun s => (instantiate 3 dais.id .system s).bind fun r =>
        (instantiate 3 throne.id .system s).bind fun q =>
          (instantiate 3 throne.id .system r.2).map fun q' => (r.1, q.1, q'.1)) =
      some (.error (.compile (.unknownDefinition canopy)),
        .error (.compile (.tooDeep throne.id 1)),
        .error (.compile (.unknownDefinition canopy))) := by
    decide +kernel
  obtain ⟨s₀, hstart, hrun⟩ := Option.bind_eq_some_iff.mp hrun
  obtain ⟨s, hserve, hrun⟩ := Option.bind_eq_some_iff.mp hrun
  obtain ⟨⟨out, s'⟩, hcreate, hrun⟩ := Option.bind_eq_some_iff.mp hrun
  obtain ⟨⟨before, s₁⟩, hbefore, hrun⟩ := Option.bind_eq_some_iff.mp hrun
  obtain ⟨⟨after, s₁'⟩, hafter, heq⟩ := Option.map_eq_some_iff.mp hrun
  simp only [Prod.mk.injEq] at heq
  obtain ⟨rfl, rfl, rfl⟩ := heq
  have hok := eq_ok_of_toOption hstart
  exact ⟨s₀, s, s', s₁, s₁', hok, served_of_serve hserve, hcreate, hbefore, hafter⟩

end Throne

end Mudlib.Space
