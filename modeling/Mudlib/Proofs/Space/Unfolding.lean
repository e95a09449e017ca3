import Mudlib.Proofs.Registry.Rollback
import Mudlib.Proofs.Space.Frame
import Mudlib.Proofs.Space.Layout
import Mudlib.Proofs.Space.Walk
set_option autoImplicit false

namespace Mudlib

open Assembly

namespace Follows

variable {ε α β β' : Type} {bad : ε → RuntimeError → Prop}

theorem map {good : β → α → Space → Prop} {good' : β' → α → Space → Prop} {p : Forecast ε β}
    {r : Option (Except RuntimeError α × Space)} (g : β → β') (h : Follows good bad p r)
    (himp : ∀ b a s', r = some (.ok a, s') → good b a s' → good' (g b) a s') :
    Follows good' bad (p.andThen fun b => some (.ok (g b))) r := by
  cases h with
  | endless => exact .endless
  | failed h => exact .failed h
  | done h => exact .done (himp _ _ _ rfl h)

theorem discard {α' : Type} {good : β → Space → Prop} {p : Forecast ε β}
    {r : Option (Except RuntimeError α × Space)} (h : Follows (fun b _ s' => good b s') bad p r)
    (f : α → α') :
    Follows (fun b _ s' => good b s') bad p (r.map fun r => (r.1.map f, r.2)) := by
  cases h with
  | endless => exact .endless
  | failed h => exact .failed h
  | done h => exact .done h

end Follows

namespace Engine

theorem destroyTree_false_ne_none (engine : Engine) {s : Space} (hf : s.Arboreal)
    (id : InstanceId) :
    engine.destroyTree id false s ≠ none := by
  obtain ⟨order, horder⟩ := Option.ne_none_iff_exists'.mp (hf.branching.attachmentTree_ne_none id)
  have hhooks : engine.runHooks false order (s.markPending order) =
      some (.ok (), s.markPending order) := by
    rw [runHooks_eq]
    cases (s.markPending order).destroyHook <;> rfl
  unfold destroyTree
  rw [Run.search_bind, horder]
  simp only [Option.map_some]
  rw [Run.modify_bind, Run.bind_apply, hhooks]
  exact Option.some_ne_none _

end Engine

namespace Space

structure Governs (s₀ s : Space) : Prop where
  registry : Registry.Continues s₀.registry s.registry
  initMethod : s.initMethod = s₀.initMethod
  baseAuxiliary : s.baseAuxiliary = s₀.baseAuxiliary

variable {s₀ s s' s₁ : Space} {definition : DefinitionId} {id made x : InstanceId} {i : Instance}

namespace Governs

theorem refl (hs : Scripted s) : Governs s s := ⟨.refl hs.registry.coherent, rfl, rfl⟩

theorem after (h : Governs s₀ s) (ho : Onward s s') (hf : Framed s s') : Governs s₀ s' :=
  ⟨h.registry.trans ho.registry, hf.initMethod.trans h.initMethod,
    hf.baseAuxiliary.trans h.baseAuxiliary⟩

theorem auxiliariesOf_eq (h : Governs s₀ s) {t u : Table} (hu : u.Alike t) :
    s.auxiliariesOf u = s₀.auxiliariesOf t := by
  have hisA : u.isA = t.isA := hu.map_eq Table.isA fun _ => rfl
  have hauxiliaries : u.auxiliaries = t.auxiliaries := hu.map_eq Table.auxiliaries fun _ => rfl
  rw [auxiliariesOf, auxiliariesOf, h.baseAuxiliary, hisA, hauxiliaries]

theorem tableFor_error (h : Governs s₀ s) (hc : s₀.registry.Coherent) {e : ResolveError}
    (hget : (s₀.registry.get definition).1 = .error e) :
    ∃ cause, (s.tableFor definition).1 = .error (.compile cause) ∧
      s₀.registry.Blames definition cause := by
  cases hget' : (s.registry.get definition).1 with
  | error cause =>
    refine ⟨cause, ?_, s.registry, h.registry, hget'⟩
    rw [tableFor]
    simp only [hget']
    rfl
  | ok u =>
    obtain ⟨t, ht⟩ := ((h.registry.toReached.agrees hc).succeeds definition).mp ⟨u, hget'⟩
    rw [hget] at ht
    cases ht

theorem tableFor_ok (h : Governs s₀ s) (hc : s₀.registry.Coherent) {t : Table}
    (hget : (s₀.registry.get definition).1 = .ok t) :
    ∃ u, (s.tableFor definition).1 = .ok u ∧ u.Alike t ∧ u.id = definition := by
  obtain ⟨u, hu⟩ := ((h.registry.toReached.agrees hc).succeeds definition).mpr ⟨t, hget⟩
  refine ⟨u, ?_, (h.registry.toReached.agrees hc).alike hget hu, ?_⟩
  · rw [tableFor]
    simp only [hu]
    rfl
  · obtain ⟨hc', hcached⟩ := h.registry.coherent.of_get (Prod.ext hu rfl)
    exact hc'.id_eq hcached

end Governs

theorem size_linkAttachment (s : Space) (h a : InstanceId) :
    (s.linkAttachment h a).population.size = s.population.size :=
  (Population.size_update _ _ _).trans (Population.size_update _ _ _)

/-- An instance with these attachments so far is being set up, with the tables and settings of
`s₀`. -/
structure Underway (s₀ : Space) (id : InstanceId) (i : Instance) (attachments : List InstanceId)
    (s : Space) : Prop where
  building : Building id s s
  governed : Governs s₀ s
  instance? : s.instance? id = some { i with attachments := attachments }

variable {attachments : List InstanceId}

theorem Underway.ne_later (h : Underway s₀ id i attachments s) {k : Nat}
    (hk : s.population.size < k) : (⟨k⟩ : InstanceId) ≠ id := by
  have hexists : s.instance? id ≠ none := by
    rw [h.instance?]
    exact Option.some_ne_none _
  rintro rfl
  exact Nat.not_lt.mpr (instance?_ne_none_iff.mp hexists).2 hk

theorem Building.restart (h : Building id s s') : Building id s' s' :=
  ⟨h.forest, h.scripted, fun _ _ _ => rfl, h.live, h.free⟩

/-- The assembly was made: it stands behind all instances that there were, and is all that was added
to them. -/
structure Made (s₀ s : Space) (owner : Principal) (privileged : Bool) (a : Assembly)
    (id : InstanceId) (s' : Space) : Prop where
  id_eq : id = s.population.nextId
  stands : a.StandsAt s₀ s' (s.population.size + 1) owner privileged none
  size : s'.population.size = s.population.size + a.size

variable [Natives] {n : Nat}

def Fulfils (s₀ : Space) (n : Nat) : Prop :=
  ∀ {definition owner privileged allowPrototype s}, Forest s → Scripted s → Governs s₀ s →
    Follows (Made s₀ s owner privileged) (Mishap.Tells s₀.registry)
      (s₀.plan n allowPrototype s.chain definition)
      ((engine n).create definition owner privileged allowPrototype s)

theorem follows_addAuxiliary (he : Fulfils s₀ n) (h : Underway s₀ id i attachments s) :
    Follows
      (fun a _ s' => Underway s₀ id i (attachments ++ [s.population.nextId]) s' ∧
        s'.chain = s.chain ∧
        a.StandsAt s₀ s' (s.population.size + 1) (.object id) false (some id) ∧
        s'.population.size = s.population.size + a.size)
      (Mishap.Tells s₀.registry) (s₀.plan n false s.chain definition)
      ((engine n).addAuxiliary id definition s) := by
  rw [← Forecast.andThen_ok (s₀.plan n false s.chain definition)]
  refine .bind (he h.building.forest h.building.scripted h.governed) ?_
  intro a made s₁ hrun hgood
  obtain ⟨rfl, hstand, hsize⟩ := hgood
  have hb := h.building
  have hcreated := creates_engine n hb.forest hb.scripted hrun
  have htraced := traces_engine n hb.forest hb.scripted hrun
  have hframed := ((frames_engine n).create _ _ _ _).holds hrun
  have hexists : s.instance? id ≠ none := by
    rw [h.instance?]
    exact Option.some_ne_none _
  have hnext : s.population.nextId ≠ id := h.ne_later (Nat.lt_succ_self _)
  have hid : s₁.instance? id = some { i with attachments := attachments } :=
    (hcreated.kept id hexists).trans h.instance?
  have hgoverned := h.governed.after htraced.onward hframed
  refine .done ⟨⟨?_, ⟨hgoverned.registry, hgoverned.initMethod, hgoverned.baseAuxiliary⟩, ?_⟩,
    hframed.chain, hstand.rehost ?_ fun k hk _ => ?_, ?_⟩
  · refine Building.restart (s := s) ?_
    exact (hb.join hcreated).of_population rfl rfl
  · rw [instance?_linkAttachment hnext.symm, if_pos rfl, instance?_record, hid]
    rfl
  · have hroot : (⟨s.population.size + 1⟩ : InstanceId) = s.population.nextId := rfl
    rw [instance?_linkAttachment hnext.symm, if_neg (hroot ▸ hnext), if_pos hroot,
      instance?_record]
  · have hk' : (⟨k⟩ : InstanceId) ≠ s.population.nextId := fun heq =>
      Nat.ne_of_gt hk (congrArg InstanceId.number heq)
    rw [instance?_linkAttachment hnext.symm, if_neg (h.ne_later (by omega)), if_neg hk',
      instance?_record]
  · exact (size_linkAttachment _ _ _).trans hsize

theorem follows_parts (he : Fulfils s₀ n) (definitions : List DefinitionId)
    (h : Underway s₀ id i attachments s) :
    Follows
      (fun parts _ s' =>
        s'.instance? id =
          some { i with attachments := attachments ++ idsFrom (s.population.size + 1) parts } ∧
        StandFrom s₀ s' parts (s.population.size + 1) id ∧
        s'.population.size = s.population.size + sizeAll parts)
      (Mishap.Tells s₀.registry) (Forecast.collect (s₀.plan n false s.chain) definitions)
      (Run.each ((engine n).addAuxiliary id) definitions s) := by
  induction definitions generalizing attachments s with
  | nil =>
    refine .done ⟨?_, trivial, rfl⟩
    rw [h.instance?, idsFrom, List.append_nil]
  | cons definition definitions ih =>
    refine .bind (follows_addAuxiliary he h) ?_
    intro part _ s₁ hone hgood
    obtain ⟨h₁, hchain, hstand, hsize⟩ := hgood
    have hrest := ih h₁
    rw [hchain] at hrest
    refine hrest.map _ ?_
    intro parts _ s' hrun hgood
    obtain ⟨hid, hparts, hsize'⟩ := hgood
    have hkept := (building_each (creates_engine n) h₁.building hrun).kept
    have hnumber : s.population.size + part.size + 1 = s.population.size + 1 + part.size := by omega
    rw [hsize, hnumber] at hid hparts
    refine ⟨?_, ⟨hstand.of_same _ fun k hk hk' => ?_, hparts⟩, ?_⟩
    · rw [hid, List.append_assoc]
      rfl
    · exact hkept ⟨k⟩ (h.ne_later (by omega)) (exists_of_le (by omega) (by omega))
    · rw [hsize', hsize, sizeAll, Nat.add_assoc]

theorem follows_startUp {k : Nat} {t u : Table} {owner : Principal} {privileged : Bool}
    {parts : List Assembly} (ht : (s₀.registry.get definition).1 = .ok t) (hu : u.Alike t)
    (hs : u.Scripted) (hparts : parts.map Assembly.definition = s₀.auxiliariesOf t)
    (hi : s.instance? ⟨k⟩ =
      some { Instance.create u owner privileged with attachments := idsFrom (k + 1) parts })
    (hstand : StandFrom s₀ s parts (k + 1) ⟨k⟩) (caller : Principal) :
    Follows
      (fun (a : Assembly) _ s' => a.StandsAt s₀ s' k owner privileged none ∧
        s'.population.size + sizeAll parts + 1 = s.population.size + a.size)
      (Mishap.Tells s₀.registry)
      ((t.startUp s₀.initMethod n).andThen fun fields =>
        some (.ok (Assembly.mk definition fields parts)))
      (match u.method? s₀.initMethod with
        | none => some (.ok (), s)
        | some m => (callWithin n ⟨k⟩ m [] caller s).map fun r => (r.1.map fun _ => (), r.2)) := by
  have hstands : ∀ {fields s'}, s'.instance? ⟨k⟩ = some ⟨u, owner, privileged, .live, fields,
      idsFrom (k + 1) parts, none⟩ → (∀ x, x ≠ ⟨k⟩ → s'.instance? x = s.instance? x) →
      (Assembly.mk definition fields parts).StandsAt s₀ s' k owner privileged none := by
    intro fields s' hi' hothers
    refine ⟨⟨t, u, ht, hu, hparts, hi'⟩, StandFrom.of_same parts hstand fun j hj _ => ?_⟩
    exact hothers ⟨j⟩ fun heq => Nat.ne_of_gt hj (congrArg InstanceId.number heq)
  rw [← hu.startUp_eq, Table.startUp]
  cases hm : u.method? s₀.initMethod with
  | none =>
    refine .done ⟨hstands hi fun _ _ => rfl, ?_⟩
    rw [Assembly.size, Nat.add_assoc]
  | some m =>
    have hstart : Holds ⟨k⟩ ⟨u, owner, privileged, .live, u.defaultFields, idsFrom (k + 1) parts,
        none⟩ s.population.size u.defaultFields s := ⟨hi, rfl⟩
    have hcall := follows_callWithin s₀.registry n (hs.method hm) (by simp) [] caller hstart
    refine (hcall.map _ ?_).discard _
    intro fields _ s' hrun hholds
    have htouched := (touched_callWithin n (hs.method hm) ⟨k⟩ [] caller).holds hrun
    refine ⟨hstands hholds.1 fun x hx => htouched.others hx, ?_⟩
    rw [hholds.2, Assembly.size, Nat.add_assoc]

theorem follows_setUp (he : Fulfils s₀ n) {t u : Table} {owner : Principal} {privileged : Bool}
    (ht : (s₀.registry.get definition).1 = .ok t) (hu : u.Alike t) (hid : u.id = definition)
    (hs : u.Scripted)
    (h : Underway s₀ ⟨s.population.size⟩ (.create u owner privileged) [] s) :
    Follows
      (fun a _ s' => a.StandsAt s₀ s' s.population.size owner privileged none ∧
        s'.population.size + 1 = s.population.size + a.size)
      (Mishap.Tells s₀.registry)
      (s₀.planSetUp (s₀.plan n false (s.chain ++ [definition])) n s.chain definition t)
      ((engine n).setUp ⟨s.population.size⟩ u s) := by
  rw [Engine.setUp_eq, hid, planSetUp]
  by_cases hmem : definition ∈ s.chain
  · rw [if_pos hmem, if_pos hmem]
    exact .failed (.cyclic definition)
  · rw [if_neg hmem, if_neg hmem, h.governed.auxiliariesOf_eq hu]
    have hentered : Underway s₀ ⟨s.population.size⟩ (.create u owner privileged) []
        (s.enterChain definition) :=
      ⟨Building.restart (h.building.of_population rfl rfl),
        ⟨h.governed.registry, h.governed.initMethod, h.governed.baseAuxiliary⟩, h.instance?⟩
    have heach := follows_parts he (s₀.auxiliariesOf t) hentered
    rw [show (s.enterChain definition).chain = s.chain ++ [definition] from rfl] at heach
    generalize hp : Forecast.collect (s₀.plan n false (s.chain ++ [definition]))
      (s₀.auxiliariesOf t) = p at heach
    generalize hr : Run.each ((engine n).addAuxiliary ⟨s.population.size⟩) (s₀.auxiliariesOf t)
      (s.enterChain definition) = r at heach
    cases heach with
    | endless => exact .endless
    | failed hbad => exact .failed hbad
    | @done parts _ s₁ hgood =>
      obtain ⟨hi, hstand, hsize⟩ := hgood
      have hparts := definitions_of_parts (Forecast.collect_eq_ok.mp hp)
      have hframed : Framed (s.enterChain definition) s₁ :=
        (Run.Keeps.each framed_order fun a _ => (frames_engine n).addAuxiliary _ a).holds hr
      have hinit : s₁.leaveChain.initMethod = s₀.initMethod :=
        hframed.initMethod.trans h.governed.initMethod
      have hleft : StandFrom s₀ s₁.leaveChain parts (s.population.size + 1) ⟨s.population.size⟩ :=
        StandFrom.of_same parts hstand fun _ _ _ => rfl
      simp only [Forecast.andThen, hinit]
      refine (follows_startUp (s := s₁.leaveChain) ht hu hs hparts hi hleft _).imp ?_
      intro a _ s' _ hgood
      refine ⟨hgood.1, ?_⟩
      have hsize' : s₁.population.size = s.population.size + sizeAll parts := hsize
      have hgood' : s'.population.size + sizeAll parts + 1 = s₁.population.size + a.size := hgood.2
      omega

section Allocated

variable {t u : Table} {owner : Principal} {privileged : Bool}

omit [Natives] in
theorem underway_allocate (hf : Forest s) (hs : Scripted s) (hg : Governs s₀ s)
    (htable : s.tableFor definition = (.ok u, s₁)) (owner : Principal) (privileged : Bool) :
    Underway s₀ s₁.population.nextId (.create u owner privileged) []
      (s₁.allocate u owner privileged) := by
  obtain ⟨hs₁, hscripted⟩ := hs.tableFor htable
  have hb := building_allocate (hf.of_population (population_tableFor htable)) hs₁ (hscripted u rfl)
    owner privileged
  have hregistry := (onward_tableFor hs htable).registry
  obtain ⟨-, rfl⟩ := Prod.mk.inj htable
  refine ⟨hb.restart, ⟨hg.registry.trans hregistry, hg.initMethod, hg.baseAuxiliary⟩, ?_⟩
  rw [instance?_allocate, if_pos rfl]
  rfl

/-- The table is found: an instance is allocated and set up, and destroyed again if that fails. -/
theorem follows_allocate (he : Fulfils s₀ n) (hf : Forest s) (hs : Scripted s) (hg : Governs s₀ s)
    (htable : s.tableFor definition = (.ok u, s₁)) (ht : (s₀.registry.get definition).1 = .ok t)
    (hu : u.Alike t) (hid : u.id = definition) :
    Follows (Made s₀ s owner privileged) (Mishap.Tells s₀.registry)
      (s₀.planSetUp (s₀.plan n false (s.chain ++ [definition])) n s.chain definition t)
      (match (engine n).setUp s₁.population.nextId u (s₁.allocate u owner privileged) with
        | none => none
        | some (.ok (), s₂) => some (.ok s₁.population.nextId, s₂)
        | some (.error e, s₂) =>
          ((engine n).destroyTree s₁.population.nextId false s₂).map fun r => (.error e, r.2)) := by
  have hscripted := (hs.tableFor htable).2 u rfl
  have hunder := underway_allocate hf hs hg htable owner privileged
  have hsize : (s₁.allocate u owner privileged).population.size = s.population.size + 1 := by
    rw [allocate, Population.size_add, population_tableFor htable]
  have hnext : s₁.population.nextId = ⟨(s₁.allocate u owner privileged).population.size⟩ := by
    rw [hsize, population_tableFor htable]
    rfl
  have hchain : (s₁.allocate u owner privileged).chain = s.chain := by
    obtain ⟨-, rfl⟩ := Prod.mk.inj htable
    rfl
  have hset := follows_setUp he ht hu hid hscripted (hnext ▸ hunder)
  rw [← hnext, hchain, hsize] at hset
  generalize s₀.planSetUp (s₀.plan n false (s.chain ++ [definition])) n s.chain definition t = p
    at hset
  generalize hr : (engine n).setUp s₁.population.nextId u (s₁.allocate u owner privileged) = r
    at hset
  cases hset with
  | endless => exact .endless
  | failed hbad =>
    have hf₂ := (building_setUp (creates_engine n) hscripted hunder.building hr).forest
    obtain ⟨r, hdestroy⟩ := Option.ne_none_iff_exists'.mp
      (Engine.destroyTree_false_ne_none (engine n) hf₂.arboreal s₁.population.nextId)
    simp only [hdestroy]
    exact .failed hbad
  | done hgood =>
    refine .done ⟨?_, hgood.1, ?_⟩
    · rw [population_tableFor htable]
    · have hmade := hgood.2
      omega

end Allocated

theorem fulfils (hc : s₀.registry.Coherent) (n : Nat) : Fulfils s₀ n := by
  induction n with
  | zero =>
    intro definition owner privileged allowPrototype s _ _ _
    exact .endless
  | succ n ih =>
    intro definition owner privileged allowPrototype s hf hs hg
    have hrun : (engine (n + 1)).create definition owner privileged allowPrototype s =
        (engine n).createInstance definition owner privileged allowPrototype s := rfl
    rw [hrun, Engine.createInstance_eq, plan]
    rcases htable : s.tableFor definition with ⟨out, s₁⟩
    cases hget : (s₀.registry.get definition).1 with
    | error e =>
      obtain ⟨cause, hcause, hblames⟩ := hg.tableFor_error hc hget
      rw [htable] at hcause
      obtain rfl : out = .error (.compile cause) := hcause
      exact .failed (.unresolved hblames)
    | ok t =>
      obtain ⟨u, hu, halike, hid⟩ := hg.tableFor_ok hc hget
      rw [htable] at hu
      obtain rfl : out = .ok u := hu
      have hprototype : u.prototype = t.prototype := halike.map_eq Table.prototype fun _ => rfl
      simp only [hprototype]
      split
      · exact .failed (.prototype definition)
      · exact follows_allocate ih hf hs hg htable hget halike hid

end Space

end Mudlib
