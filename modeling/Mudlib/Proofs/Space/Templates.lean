import Mudlib.Proofs.Registry.Operations
import Mudlib.Proofs.Space.Frame
import Mudlib.Proofs.Space.Lifecycle
set_option autoImplicit false

namespace Mudlib.Space

variable {s s' s₀ s₁ u : Space} {x id root : InstanceId} {ran order : List InstanceId}
variable {definition : DefinitionId} {owner caller : Principal} {privileged allowPrototype : Bool}
variable {out : Except RuntimeError InstanceId}

section Listed

def Listed (s : Space) : Prop := ∀ h, ∀ x ∈ s.attached h, s.instance? x ≠ none ∧ ¬ s.IsTemplate x

theorem Listed.step (hl : Listed s) (hs : Step s s') : Listed s' := by
  intro h x hx
  have helapsed := elapsed_of_step hs
  have hbefore : s.instance? x ≠ none ∧ ¬ s.IsTemplate x := by
    cases hs with
    | move _ hnew => exact (hnew h x hx).elim (hl h x) id
    | file definition id => exact hl h x hx
  exact ⟨helapsed.exists hbefore.1, fun ht => hbefore.2 ((helapsed.isTemplate_iff hbefore.1).mp ht)⟩

theorem Listed.steps (hl : Listed s) (hs : Steps s s') : Listed s' := by
  induction hs with
  | refl => exact hl
  | tail _ hlast ih => exact ih.step hlast

theorem Tree.not_isTemplate (htree : Tree s root order) (hl : Listed s) (hx : x ∈ order)
    (hne : x ≠ root) : ¬ s.IsTemplate x := by
  obtain ⟨h, -, hmem⟩ := (htree.below x hx).resolve_left hne
  exact (hl h x hmem).2

end Listed

section Sparing

theorem state?_tear_of_not_mem (hx : x ∉ order) : (s.tear root order).state? x = s.state? x := by
  rw [state?_tear, if_neg hx]

theorem exists_of_isTemplate (ht : s.IsTemplate x) : s.instance? x ≠ none := by
  obtain ⟨i, hi, -⟩ := ht
  simp [hi]

theorem Course.spares (h : Course ran s s') (hl : Listed s) (ht : s.IsTemplate x) :
    s'.state? x = s.state? x := by
  refine Course.induct (R := fun _ s s' => Listed s → s.IsTemplate x → s'.state? x = s.state? x)
    ?_ ?_ ?_ ?_ ?_ h hl ht
  · intro ran more s s' s'' hfirst ih ih' hl ht
    have hl' := hl.steps (steps_of_course hfirst)
    exact (ih' hl' (hfirst.recruits.isTemplate_iff.mpr ht)).trans (ih hl ht)
  · exact fun hcalm _ _ => hcalm.state x
  · exact fun _ _ _ _ => rfl
  · intro s t owner _ _ ht
    rw [state?_allocate, if_neg]
    rintro rfl
    exact exists_of_isTemplate ht instance?_nextId
  · intro s s₁ root order ran htree hroot _ _ ih hl ht
    have hout : x ∉ order := by
      intro hx
      by_cases heq : x = root
      · exact hroot (heq ▸ ht)
      · exact htree.not_isTemplate hl hx heq ht
    have hmarked : Listed (s.markPending order) := hl.steps (steps_mark htree)
    have htemplate : (s.markPending order).IsTemplate x := by
      rw [isTemplate_iff, identity?_markPending]
      exact isTemplate_iff.mp ht
    rw [state?_tear_of_not_mem hout, ih hmarked htemplate, htree.state?_mark, if_neg hout]

theorem isTemplate_allocate {t : Table} : (s.allocate t owner privileged).IsTemplate x ↔
    if x = s.population.nextId then t.prototype = true else s.IsTemplate x := by
  rw [isTemplate_iff, identity?_allocate]
  split
  · simp
  · rw [isTemplate_iff]

/-- A creation leaves all templates in their states; its own, if it makes one, is live when it
succeeds and destroyed when it fails. -/
theorem Founding.templates
    (hf : Founding definition owner privileged allowPrototype s out s') (hl : Listed s)
    (ht : s'.IsTemplate x) :
    s.IsTemplate x ∧ s'.state? x = s.state? x ∨
      s.instance? x = none ∧ allowPrototype = true ∧
        (out = .ok x ∧ s'.state? x = some .live ∨
          s'.state? x = some .destroyed ∧ ∃ e, out = .error e) := by
  -- up to where a creation is undone, its instance is the only template that may be new
  have hset : ∀ {t s₁ s₂}, s.tableFor definition = (.ok t, s₁) →
      (t.prototype = true → allowPrototype = true) →
      Course [] (s₁.allocate t owner privileged) s₂ → s₂.IsTemplate x →
      Listed s₂ ∧ (s.IsTemplate x ∧ s₂.state? x = s.state? x ∨ x = s₁.population.nextId ∧
        s.instance? x = none ∧ allowPrototype = true ∧ s₂.state? x = some .live) := by
    intro t s₁ s₂ htable hp hcourse ht
    obtain rfl := space_of_tableFor htable
    have hallocated := (hcourse.recruits.isTemplate_iff).mp ht
    have hl₁ : Listed { s with registry := s.registry.after (.get definition) } := hl
    have hl₂ := hl₁.steps (steps_allocate _ t owner privileged)
    refine ⟨hl₂.steps (steps_of_course hcourse), ?_⟩
    rw [hcourse.spares hl₂ hallocated, state?_allocate]
    rw [isTemplate_allocate] at hallocated
    split at hallocated
    next hx =>
      rw [if_pos hx]
      exact .inr ⟨hx, hx ▸ instance?_nextId, hp hallocated, rfl⟩
    next hx =>
      rw [if_neg hx]
      exact .inl ⟨hallocated, rfl⟩
  cases hf with
  | refused e => exact .inl ⟨ht, rfl⟩
  | done htable hp hcourse =>
    rcases (hset htable hp hcourse ht).2 with hold | ⟨rfl, hnew, hallow, hlive⟩
    · exact .inl hold
    · exact .inr ⟨hnew, hallow, .inl ⟨rfl, hlive⟩⟩
  | @undone t s₁ s₂ order e htable hp hcourse horder =>
    have htree := tree_of_attachmentTree horder
    rw [isTemplate_iff, identity?_tear, identity?_markPending, ← isTemplate_iff] at ht
    obtain ⟨hl₂, hstate⟩ := hset htable hp hcourse ht
    by_cases hx : x = s₁.population.nextId
    · rcases hstate with ⟨hold, -⟩ | ⟨-, hnew, hallow, hlive⟩
      · obtain rfl := space_of_tableFor htable
        exact absurd instance?_nextId (hx ▸ exists_of_isTemplate hold)
      · refine .inr ⟨hnew, hallow, .inr ⟨?_, e, rfl⟩⟩
        have hmem : x ∈ order := hx ▸ htree.rooted (hx ▸ hlive)
        rw [state?_tear, if_pos hmem, htree.state?_mark, if_pos hmem, Option.map_some]
    · have hout : x ∉ order := fun hmem => htree.not_isTemplate hl₂ hmem hx ht
      rw [state?_tear_of_not_mem hout, htree.state?_mark, if_neg hout]
      rcases hstate with hold | ⟨hnext, -⟩
      · exact .inl hold
      · exact absurd hnext hx

end Sparing

section Filing

structure Orderly (s s' : Space) : Prop where
  prototypes : s'.prototypes = s.prototypes
  coherent : s.registry.Coherent → s'.registry.Coherent

theorem orderly_of_registry (hp : s'.prototypes = s.prototypes) (hr : s'.registry = s.registry) :
    Orderly s s' :=
  ⟨hp, fun hc => hr ▸ hc⟩

theorem orderly_order : Run.Order Orderly where
  refl := fun _ => ⟨rfl, id⟩
  trans := fun h h' => ⟨h'.prototypes.trans h.prototypes, fun hc => h'.coherent (h.coherent hc)⟩

theorem orderly_resolve (s : Space) (operation : Registry.Operation) :
    Orderly s { s with registry := s.registry.after operation } :=
  ⟨rfl, fun hc => hc.after operation⟩

theorem orderly_mark : Orderly s (s.markPending order) :=
  orderly_of_registry (framed_foldl_update _).prototypes (registry_foldl_update _)

theorem orderly_tear (s : Space) (root : InstanceId) (order : List InstanceId) :
    Orderly s (s.tear root order) := by
  refine orderly_of_registry ?_ ?_
  · exact (framed_order.trans framed_unlinkFromHost (framed_foldl_update _)).prototypes
  · exact (registry_foldl_update _).trans registry_unlinkFromHost

theorem Course.orderly (h : Course ran s s') : Orderly s s' := by
  induction h with
  | onward _ _ ih ih' => exact orderly_order.trans ih ih'
  | resolved s operation => exact orderly_resolve s operation
  | assigned hs =>
    obtain ⟨i, -, -, rfl⟩ := assign_eq_ok hs
    exact orderly_of_registry rfl rfl
  | attached hs =>
    obtain ⟨-, -, -, -, -, rfl⟩ := attach_eq_some hs
    exact orderly_of_registry rfl rfl
  | detached hs =>
    obtain ⟨-, -, rfl⟩ := detach_eq_ok hs
    exact orderly_of_registry rfl rfl
  | @allocated s s₁ t definition owner ht _ =>
    obtain rfl := space_of_tableFor ht
    exact orderly_order.trans (orderly_resolve s (.get definition)) (orderly_of_registry rfl rfl)
  | joined host _ _ _ ih => exact orderly_order.trans ih (orderly_of_registry rfl rfl)
  | torn _ _ _ _ _ ih =>
    exact orderly_order.trans orderly_mark (orderly_order.trans ih (orderly_tear _ _ _))
  | _ => exact orderly_of_registry rfl rfl

theorem lasting_orderly : Lasting Orderly where
  toOrder := orderly_order
  course := Course.orderly
  allocated := fun _ _ _ _ => orderly_of_registry rfl rfl
  undone := fun _ _ => orderly_order.trans orderly_mark (orderly_tear _ _ _)

theorem coherent_of_served [Natives] {policy : AmbiguityPolicy} {maxDepth : Nat}
    {loader : Option Loader} {config : Config} {requests : List Request}
    (hstart : ofConfig? (.empty policy maxDepth loader) config = .ok s₀)
    (hserved : Served s₀ requests s) : s.registry.Coherent := by
  have hR : Lasting fun s s' => s.registry.Coherent → s'.registry.Coherent :=
    ⟨⟨fun _ hc => hc, fun h h' hc => h' (h hc)⟩, fun h => h.orderly.coherent,
      fun s t owner privileged => (lasting_orderly.allocated s t owner privileged).coherent,
      fun htree h hc => (lasting_orderly.undone htree h).coherent hc⟩
  refine hR.served (fun _ _ _ hc => hc) hserved ?_
  rw [(population_of_ofConfig? hstart).2]
  exact Registry.coherent_empty policy maxDepth loader

theorem template?_eq_some_iff : s.template? definition = some id ↔
    s.prototypes.get? definition = some id ∧ s.state? id = some .live := by
  rw [template?, Option.filter_eq_some_iff]
  refine and_congr_right fun _ => ?_
  cases hi : s.instance? id with
  | none => simp [state?, hi]
  | some i => simp [state?, hi, Instance.isLive]

end Filing

/-- A space between two requests: every template that is not destroyed is the one on file for its
definition. -/
structure Curated (s : Space) : Prop where
  coherent : s.registry.Coherent
  listed : Listed s
  filed : ∀ {x k}, s.identity? x = some k → k.table.prototype = true →
    s.state? x ≠ some .destroyed →
    s.state? x = some .live ∧ s.prototypes.get? k.table.id = some x

namespace Curated

theorem of_spared (h : Curated s) (hs : Steps s s') (ho : Orderly s s')
    (hspared : ∀ x, s'.IsTemplate x → s'.state? x ≠ some .destroyed →
      s.IsTemplate x ∧ s'.state? x = s.state? x) : Curated s' where
  coherent := ho.coherent h.coherent
  listed := h.listed.steps hs
  filed := by
    intro x k hk hp hstate
    obtain ⟨hbefore, heq⟩ := hspared x (isTemplate_iff.mpr ⟨k, hk, hp⟩) hstate
    obtain ⟨k', hk', hp'⟩ := isTemplate_iff.mp hbefore
    have hsame := (elapsed_of_steps hs).identity hk'
    rw [hk] at hsame
    cases hsame
    rw [heq, ho.prototypes]
    exact h.filed hk' hp' (heq ▸ hstate)

theorem course (h : Curated s) (hc : Course [] s s') : Curated s' := by
  refine h.of_spared (steps_of_course hc) hc.orderly fun x ht _ => ?_
  have hbefore := hc.recruits.isTemplate_iff.mp ht
  exact ⟨hbefore, hc.spares h.listed hbefore⟩

theorem founding (h : Curated s)
    (hf : Founding definition owner privileged allowPrototype s out s')
    (hno : allowPrototype = true → ∃ e, out = .error e) : Curated s' := by
  refine h.of_spared (lasting_steps.founding hf) (lasting_orderly.founding hf) fun x ht hstate => ?_
  rcases hf.templates h.listed ht with hbefore | ⟨-, hallow, ⟨rfl, -⟩ | ⟨hdestroyed, -⟩⟩
  · exact hbefore
  · obtain ⟨e, he⟩ := hno hallow
    cases he
  · exact absurd hdestroyed hstate

theorem file (h : Curated s) (hnone : s.template? definition = none)
    (hf : Founding definition owner privileged true s (.ok id) s₁) :
    Curated (s₁.file definition id) where
  coherent := (lasting_orderly.founding hf).coherent h.coherent
  listed := h.listed.steps ((lasting_steps.founding hf).tail (.file s₁ definition id))
  filed := by
    intro x k hk hp hstate
    have hk₁ : s₁.identity? x = some k := hk
    have hprototypes := (lasting_orderly.founding hf).prototypes
    rw [Space.file, hprototypes]
    rcases hf.templates h.listed (isTemplate_iff.mpr ⟨k, hk, hp⟩) with
      ⟨hbefore, heq⟩ | ⟨hnew, -, ⟨hid, hlive⟩ | ⟨-, e, he⟩⟩
    · obtain ⟨k', hk', hp'⟩ := isTemplate_iff.mp hbefore
      have hsame := (elapsed_of_steps (lasting_steps.founding hf)).identity hk'
      rw [hk₁] at hsame
      cases hsame
      obtain ⟨hlive, hget⟩ := h.filed hk' hp' (heq ▸ hstate)
      refine ⟨heq.trans hlive, (Dict.get?_insert_of_ne _ _ ?_).trans hget⟩
      -- else there would have been a template to find
      rintro rfl
      rw [template?_eq_some_iff.mpr ⟨hget, hlive⟩] at hnone
      cases hnone
    · cases hid
      rcases hf.origin hk₁ with hold | ⟨-, ho | ⟨-, -, -, htable, -⟩⟩
      · rw [identity?_eq_none_iff.mpr hnew] at hold
        cases hold
      · exact absurd (ho.prototype.symm.trans hp) Bool.false_ne_true
      · rw [h.coherent.id_of_get htable]
        exact ⟨hlive, Dict.get?_insert_self _ _ _⟩
    · cases he

theorem loading (h : Curated s) (hl : Loading definition caller s out s') : Curated s' := by
  cases hl with
  | refused e _ => exact h
  | found _ _ => exact h
  | failed _ _ hf => exact h.founding hf fun _ => ⟨_, rfl⟩
  | filed _ hnone hf => exact h.file hnone hf

theorem served [Natives] {requests : List Request} (h : Curated s₀)
    (hs : Served s₀ requests s) : Curated s := by
  induction hs with
  | nil s => exact h
  | cons hone _ ih =>
    refine ih ?_
    cases answered_of_perform hone with
    | course hcourse => exact h.course hcourse
    | privileged _ hf => exact h.founding hf fun hallow => nomatch hallow
    | template hloading => exact h.loading hloading

theorem unique (h : Curated s) {y : InstanceId} {k k' : Identity} (hx : s.identity? x = some k)
    (hy : s.identity? y = some k') (hp : k.table.prototype = true)
    (hp' : k'.table.prototype = true) (hsame : k.table.id = k'.table.id)
    (hd : s.state? x ≠ some .destroyed) (hd' : s.state? y ≠ some .destroyed) : x = y := by
  have hfiled := (h.filed hx hp hd).2
  rw [hsame, (h.filed hy hp' hd').2] at hfiled
  exact (Option.some.inj hfiled).symm

end Curated

section Standing

structure Standing (definition : DefinitionId) (id : InstanceId) (s : Space) : Prop where
  listed : Listed s
  template : s.IsTemplate id
  found : s.template? definition = some id

namespace Standing

theorem live (h : Standing definition id s) : s.state? id = some .live :=
  (template?_eq_some_iff.mp h.found).2

theorem of_spared (h : Standing definition id s) (hs : Steps s s') (ho : Orderly s s')
    (hspared : s'.state? id = s.state? id) : Standing definition id s' where
  listed := h.listed.steps hs
  template :=
    ((elapsed_of_steps hs).isTemplate_iff (exists_of_isTemplate h.template)).mpr h.template
  found := by
    obtain ⟨hget, hlive⟩ := template?_eq_some_iff.mp h.found
    exact template?_eq_some_iff.mpr ⟨ho.prototypes ▸ hget, hspared.trans hlive⟩

theorem founding (h : Standing definition id s) {another : DefinitionId}
    (hf : Founding another owner privileged allowPrototype s out s') :
    Standing definition id s' := by
  have hsteps := lasting_steps.founding hf
  refine h.of_spared hsteps (lasting_orderly.founding hf) ?_
  have ht := (elapsed_of_steps hsteps).isTemplate_iff (exists_of_isTemplate h.template)
  rcases hf.templates h.listed (ht.mpr h.template) with ⟨-, hstate⟩ | ⟨hnew, -⟩
  · exact hstate
  · exact absurd hnew (exists_of_isTemplate h.template)

theorem loading (h : Standing definition id s) {another : DefinitionId}
    (hl : Loading another caller s out s') : Standing definition id s' := by
  cases hl with
  | refused e _ => exact h
  | found _ _ => exact h
  | failed _ _ hf => exact h.founding hf
  | @filed made s₁ _ hnone hf =>
    obtain ⟨hlisted, htemplate, hfound⟩ := h.founding hf
    obtain ⟨hget, hlive⟩ := template?_eq_some_iff.mp hfound
    have hne : definition ≠ another := by
      rintro rfl
      rw [h.found] at hnone
      cases hnone
    have hfiled := (Dict.get?_insert_of_ne s₁.prototypes made hne).trans hget
    exact ⟨hlisted, htemplate, template?_eq_some_iff.mpr ⟨hfiled, hlive⟩⟩

variable [Natives] {bound : Nat}

theorem served {requests : List Request} (h : Standing definition id s₀)
    (hs : Served s₀ requests s) : Standing definition id s := by
  induction hs with
  | nil s => exact h
  | cons hone _ ih =>
    refine ih ?_
    cases answered_of_perform hone with
    | course hc =>
      exact h.of_spared (steps_of_course hc) hc.orderly (hc.spares h.listed h.template)
    | privileged _ hf => exact h.founding hf
    | template hloading => exact h.loading hloading

theorem of_loadPrototype (hl : Listed s)
    (h : loadPrototype bound definition caller s = some (.ok id, s')) (ht : s'.IsTemplate id) :
    Standing definition id s' := by
  cases loading_of_loadPrototype h with
  | found _ hfound => exact ⟨hl, ht, hfound⟩
  | @filed _ s₁ _ _ hf =>
    have hsteps := (lasting_steps.founding hf).tail (.file s₁ definition id)
    refine ⟨hl.steps hsteps, ht, template?_eq_some_iff.mpr ⟨Dict.get?_insert_self _ _ _, ?_⟩⟩
    have hnew := (Engine.Courses.made_of_founding hf).1
    rcases hf.templates hl ht with ⟨hold, -⟩ | ⟨-, -, ⟨-, hlive⟩ | ⟨-, e, he⟩⟩
    · exact absurd hnew (exists_of_isTemplate hold)
    · exact hlive
    · cases he

theorem loadPrototype_eq (h : Standing definition id s) (hcaller : s.isPrivileged caller = true)
    (bound : Nat) : loadPrototype bound definition caller s = some (.ok id, s) := by
  unfold loadPrototype
  rw [Run.require_bind, requirePrivileged_eq_ok.mpr hcaller]
  simp only
  rw [Run.ask_bind, h.found]
  rfl

end Standing

end Standing

/-- Whatever is asked of a new space, whatever bodies run and however definitions change: between two
requests each definition has at most one template that is not destroyed. One that was asked for is
live and attached to nothing from then on, also in the midst of later requests, and whoever is
privileged gets the same one again. -/
theorem templates_are_permanent [Natives] {policy : AmbiguityPolicy} {maxDepth : Nat}
    {loader : Option Loader} {config : Config} {requests : List Request}
    (hstart : ofConfig? (.empty policy maxDepth loader) config = .ok s₀)
    (hserved : Served s₀ requests u) :
    (∀ x y k k', u.identity? x = some k → u.identity? y = some k' → k.table.prototype = true →
      k'.table.prototype = true → k.table.id = k'.table.id → u.state? x ≠ some .destroyed →
      u.state? y ≠ some .destroyed → x = y) ∧
    ∀ bound definition caller id u', loadPrototype bound definition caller u = some (.ok id, u') →
      u'.IsTemplate id → ∀ later s, Served u' later s →
        (∀ v, Steps u' v → Steps v s → v.state? id = some .live ∧ ∀ h, id ∉ v.attached h) ∧
        ∀ bound' caller', s.isPrivileged caller' = true →
          loadPrototype bound' definition caller' s = some (.ok id, s) := by
  have hnew : Curated s₀ := by
    have hnone := instance?_of_ofConfig? hstart
    refine ⟨?_, ?_, ?_⟩
    · rw [(population_of_ofConfig? hstart).2]
      exact Registry.coherent_empty policy maxDepth loader
    · intro h x hx
      simp [attached, hnone] at hx
    · intro x k hk
      simp [identity?, hnone] at hk
  have hcurated := hnew.served hserved
  refine ⟨fun x y k k' => hcurated.unique, ?_⟩
  intro bound definition caller id u' hload ht later s hlater
  have hfirst : Standing definition id u' := .of_loadPrototype hcurated.listed hload ht
  have hlast := hfirst.served hlater
  refine ⟨fun v hv hs => ⟨?_, fun h hmem => ?_⟩, fun bound' caller' hcaller => ?_⟩
  · exact (state?_between hv hs (hlast.live.trans hfirst.live.symm)).trans hfirst.live
  · have htemplate := ((elapsed_of_steps hv).isTemplate_iff (exists_of_isTemplate ht)).mpr ht
    exact (hfirst.listed.steps hv h id hmem).2 htemplate
  · exact hlast.loadPrototype_eq hcaller bound'

section Goblin

def goblin : Definition := { Definition.empty ⟨"/goblin", by decide⟩ with prototype := true }

def banishment : List Request :=
  [.destroy ⟨1⟩ .system, .registry (.register { goblin with prototype := false }),
    .instantiate goblin.id .system, .attach ⟨2⟩ ⟨1⟩ .system, .destroy ⟨1⟩ .system]

theorem goblin_stays : ∃ s₀ u u' s, ofConfig? (.empty .firstContributor 8 none) .standard = .ok s₀ ∧
    Served s₀ [.registry (.register goblin)] u ∧
    loadPrototype 6 goblin.id .system u = some (.ok ⟨1⟩, u') ∧ Served u' banishment s ∧
    s.population.size = 2 ∧ s.state? ⟨1⟩ = some .live ∧ (∀ h, ⟨1⟩ ∉ s.attached h) ∧
    loadPrototype 6 goblin.id (.account "ada" .wizard) s = some (.ok ⟨1⟩, s) := by
  have hrun : (ofConfig? (.empty .firstContributor 8 none) .standard).toOption.bind
      (fun s₀ => (serve 6 [.registry (.register goblin)] s₀).bind fun u =>
        (loadPrototype 6 goblin.id .system u).bind fun r => (serve 6 banishment r.2).map fun s =>
          (r.1.toOption, (r.2.instance? ⟨1⟩).map Instance.isPrototype, s.population.size)) =
            some (some ⟨1⟩, some true, 2) := by
    decide +kernel
  obtain ⟨s₀, hstart, hrest⟩ := Option.bind_eq_some_iff.mp hrun
  obtain ⟨u, hserve, hrest⟩ := Option.bind_eq_some_iff.mp hrest
  obtain ⟨⟨out, u'⟩, hload, hrest⟩ := Option.bind_eq_some_iff.mp hrest
  obtain ⟨s, hserve', heq⟩ := Option.map_eq_some_iff.mp hrest
  simp only [Prod.mk.injEq] at heq
  obtain ⟨hout, htemplate, hsize⟩ := heq
  obtain rfl := eq_ok_of_toOption hout
  have hok := eq_ok_of_toOption hstart
  have hserved := served_of_serve hserve
  have hlater := served_of_serve hserve'
  obtain ⟨-, hpermanent⟩ := templates_are_permanent hok hserved
  have ht : u'.IsTemplate ⟨1⟩ := Option.map_eq_some_iff.mp htemplate
  obtain ⟨hstays, hfound⟩ := hpermanent 6 goblin.id .system ⟨1⟩ u' hload ht banishment s hlater
  obtain ⟨hlive, hfree⟩ := hstays s (steps_of_served hlater) .refl
  exact ⟨s₀, u, u', s, hok, hserved, hload, hlater, hsize, hlive, hfree,
    hfound 6 (.account "ada" .wizard) rfl⟩

end Goblin

end Mudlib.Space
