import Mudlib.Proofs.Link.Faults
import Mudlib.Proofs.Registry.Causes
import Mudlib.Proofs.Registry.Rollback
set_option autoImplicit false

namespace Mudlib

theorem not_ofDepth_of_link {stamp : Nat} {d : Definition} {parents : List Table}
    {policy : AmbiguityPolicy} {e : ResolveError} (h : link stamp d parents policy = .error e) :
    ¬ e.OfDepth := by
  rintro ⟨definition, limit, rfl⟩
  cases faulty_of_link h with
  | call _ _ hunbound => cases hunbound

namespace Registry

/-- A chain of distinct ancestors lies above the id that is longer than the limit. -/
def Towers (sources : DefinitionId → Option Definition) (limit : Nat) (id : DefinitionId) : Prop :=
  ∃ path, List.IsChain (Inherits sources) (id :: path) ∧ (id :: path).Nodup ∧ limit < path.length

def TooDeepAbove (r : Registry) (id : DefinitionId) (e : ResolveError) : Prop :=
  ∃ a, Above r.effective? id a ∧ e = .tooDeep a r.maxDepth ∧ Towers r.effective? r.maxDepth a

variable {visiting : List DefinitionId} {id a : DefinitionId} {r₀ r r₁ r' : Registry}
variable {d : Definition} {parents : List Table} {e e' : ResolveError} {room : Nat}

theorem nodup_of_acyclic {sources : DefinitionId → Option Definition} {path : List DefinitionId}
    (hpath : List.IsChain (Inherits sources) (id :: path))
    (hacyclic : ∀ a, Above sources id a → ¬ Relation.TransGen (Inherits sources) a a) :
    (id :: path).Nodup := by
  induction path generalizing id with
  | nil => exact List.nodup_singleton id
  | cons b path ih =>
    obtain ⟨hb, hrest⟩ := List.isChain_cons_cons.mp hpath
    refine List.nodup_cons.mpr ⟨fun hmem => ?_, ih hrest fun a ha => hacyclic a (.head hb ha)⟩
    exact hacyclic id .refl ((hpath.imp fun _ _ => Relation.TransGen.single).rel_cons hmem)

theorem Coherent.towers_of_linked (hc : Coherent r) (hd : r.effective? id = some d)
    (hn : r.cached? id = none)
    (hp : List.Forall₂ (fun a p => r.cached? a = some p) d.ancestors parents) {limit : Nat}
    (hdeep : limit < Link.depthOf parents) : Towers r.effective? limit id := by
  obtain ⟨path, hpath, hlength⟩ := exists_chain_of_parents hd hp fun a p _ hap => hc.exists_chain hap
  refine ⟨path, hpath, nodup_of_acyclic hpath ?_, hlength ▸ hdeep⟩
  intro a ha hcycle
  -- what lies above the definition is cached, and it is not
  have hcached : ∀ {b}, Relation.TransGen (Inherits r.effective?) id b →
      ∃ u, r.cached? b = some u := by
    intro b hb
    obtain ⟨c, hinherits, hcb⟩ := Relation.TransGen.head'_iff.mp hb
    obtain ⟨e, he, hmem⟩ := hinherits
    obtain rfl := Option.some.inj (hd.symm.trans he)
    obtain ⟨p, -, hcp⟩ := exists_mem_of_forall₂ hp.flip hmem
    exact hc.cached_of_above hcp hcb
  rcases Relation.reflTransGen_iff_eq_or_transGen.mp ha with rfl | ha
  · obtain ⟨u, hu⟩ := hcached hcycle
    rw [hn] at hu
    cases hu
  · obtain ⟨u, hu⟩ := hcached ha
    exact (hc.resolvable_of_cached hu).acyclic .refl hcycle

theorem above_headD (hchain : List.IsChain (Inherits r₀.effective?) (visiting ++ [id])) :
    Above r₀.effective? (visiting.headD id) id := by
  cases visiting with
  | nil => exact .refl
  | cons b visiting =>
    have hmem : id ∈ visiting ++ [id] := List.mem_append_right _ (List.mem_singleton_self id)
    exact ((hchain.imp fun _ _ => Relation.TransGen.single).rel_cons hmem).to_reflTransGen

theorem nodup_visiting (hnodup : visiting.Nodup) (hv : id ∉ visiting) :
    (visiting ++ [id]).Nodup := by
  rw [List.nodup_append_comm]
  exact List.nodup_cons.mpr ⟨hv, hnodup⟩

/-- A walk that complains of depth has neither stopped at a cached table nor at a cycle. -/
theorem entered_of_ofDepth (h : resolveWithin room visiting id r = (.error e, r'))
    (he : e.OfDepth) : r.cached? id = none ∧ id ∉ visiting := by
  cases ht : r.cached? id with
  | some t =>
    rw [resolveWithin_cached room ht] at h
    cases h
  | none =>
    refine ⟨rfl, fun hv => ?_⟩
    rw [resolveWithin_visiting room ht hv] at h
    cases h
    obtain ⟨definition, limit, he⟩ := he
    cases he

/-- How a walk got to an id: from ancestor to ancestor, meeting none twice, and with the room that the
limit leaves. -/
structure Arrived (r₀ : Registry) (room : Nat) (visiting : List DefinitionId) (id : DefinitionId) :
    Prop where
  path : List.IsChain (Inherits r₀.effective?) (visiting ++ [id])
  nodup : visiting.Nodup
  room : room + visiting.length = r₀.maxDepth + 1

theorem arrived_first (r₀ : Registry) (id : DefinitionId) : Arrived r₀ (r₀.maxDepth + 1) [] id :=
  ⟨.singleton id, .nil, rfl⟩

theorem Arrived.next (h : Arrived r₀ (room + 1) visiting id) (hv : id ∉ visiting)
    (ha : Inherits r₀.effective? id a) : Arrived r₀ room (visiting ++ [id]) a where
  path := h.path.append (.singleton a) (by simpa using ha)
  nodup := nodup_visiting h.nodup hv
  room := by
    have hroom := h.room
    rw [List.length_append, List.length_singleton]
    omega

/-- What goes wrong among the ancestors of an id goes wrong at one of them, where the walk arrives
next. -/
theorem Arrived.blocked (h : Arrived r₀ (room + 1) visiting id) (hr : Continues r₀ r)
    (hn : r.cached? id = none) (hv : id ∉ visiting) (hload : r.loadSource id = (.ok d, r₁))
    (hancestors : resolveEach (resolveWithin room (visiting ++ [id])) d.ancestors r₁ =
      (.error e, r')) :
    ∃ a r₂, Arrived r₀ room (visiting ++ [id]) a ∧ Continues r₀ r₂ ∧
      resolveWithin room (visiting ++ [id]) a r₂ = (.error e, r') := by
  have hwalk : Walk (visiting ++ [id]) r (r.loadSource id).2 := walk_loadSource hn
  rw [hload] at hwalk
  obtain ⟨hd, -, -⟩ := loadSource_ok hload
  rw [hr.effective] at hd
  obtain ⟨before, a, after, r₂, heq, hr₂, ha, -⟩ :=
    first_of_each (fun a r hr => resolved_within room hr) (hr.walk hwalk) hancestors
  exact ⟨a, r₂, h.next hv (inherits_of_split hd heq), hr₂, ha⟩

/-- Whatever walk complains of depth, the sources bear it out. -/
theorem tooDeepAbove_within (hr : Continues r₀ r) (harrived : Arrived r₀ room visiting id)
    (h : resolveWithin room visiting id r = (.error e, r')) (he : e.OfDepth) :
    r₀.TooDeepAbove (visiting.headD id) e := by
  induction room generalizing visiting id r r' with
  | zero =>
    obtain ⟨ht, hv⟩ := entered_of_ofDepth h he
    rw [resolveWithin_zero ht hv] at h
    cases h
    -- the ids that were entered are a chain that is too long
    have hroom := harrived.room
    cases visiting with
    | nil => simp at hroom
    | cons b visiting =>
      refine ⟨b, .refl, by rw [hr.maxDepth]; rfl, visiting ++ [id], harrived.path, ?_, ?_⟩
      · exact nodup_visiting harrived.nodup hv
      · simp only [List.length_cons, List.length_append, List.length_nil] at hroom ⊢
        omega
  | succ room ih =>
    obtain ⟨ht, hv⟩ := entered_of_ofDepth h he
    have hentered := entered_resolveWithin room ht hv
    rw [h] at hentered
    generalize hout : (Except.error e, r') = out at hentered
    cases hentered with
    | unloaded h₁ =>
      cases hout
      obtain ⟨definition, limit, rfl⟩ := he
      obtain ⟨-, -, he | ⟨fault, he⟩, -⟩ := loadSource_error h₁ <;> cases he
    | @blocked d r₁ e r₂ h₁ h₂ =>
      cases hout
      obtain ⟨a, r₃, hnext, hr₃, ha⟩ := harrived.blocked hr ht hv h₁ h₂
      have hdeep := ih hr₃ hnext ha
      cases visiting with
      | nil => exact hdeep
      | cons b visiting => exact hdeep
    | @reached d r₁ parents r₂ h₁ h₂ =>
      have hload : Walk (visiting ++ [id]) r (r.loadSource id).2 := walk_loadSource ht
      rw [h₁] at hload
      have hr₁ := hr.walk hload
      obtain ⟨hd, hsource, -⟩ := loadSource_ok h₁
      obtain rfl := hr₁.coherent.keyed hsource
      obtain ⟨hwalk, hp⟩ :=
        resolved_each (fun a r hr => resolved_within room hr) d.ancestors hr₁.coherent
      rw [h₂] at hwalk hp
      have hr₂ := hr₁.walk hwalk
      have hn := (hload.trans hwalk).avoids d.id (by simp) ht
      rw [hr.effective, ← hr₂.effective] at hd
      rcases linkAndKeep_error hout.symm with ⟨hl, -⟩ | ⟨t, hl, hdeep, he, -⟩
      · exact absurd he (not_ofDepth_of_link hl)
      · have htowers := hr₂.coherent.towers_of_linked hd hn (hp parents rfl)
          (depth_of_link hl ▸ hdeep)
        rw [hr₂.effective, hr₂.maxDepth] at htowers
        exact ⟨d.id, above_headD harrived.path, hr₂.maxDepth ▸ he, htowers⟩

theorem tooDeepAbove_get (hr : Continues r₀ r) (h : (r.get id).1 = .error e) (he : e.OfDepth) :
    r₀.TooDeepAbove id e := by
  have hget : resolveWithin (r.maxDepth + 1) [] id r = (.error e, (r.get id).2) := Prod.ext h rfl
  rw [hr.maxDepth] at hget
  exact tooDeepAbove_within hr (arrived_first r₀ id) hget he

theorem Continues.idles (h : Continues r₀ r) (hidles : Idles r r') : Continues r₀ r' := by
  induction hidles with
  | refl => exact h
  | tail _ hstep ih =>
    obtain ⟨operation, hidle, rfl⟩ := hstep
    exact ⟨ih.toReached.idle hidle, (sameSettings_after ih.coherent operation).loader.trans ih.loader⟩

/-- What a failing look-up complains of does not depend on what was looked up, dropped or compiled in
vain before, whatever registries with the same sources and settings it was looked up in: it fails
again, with the same error, unless one of the two errors is that a definition at or above this one
lies too deep. Such a definition has a chain of distinct ancestors above it that is longer than the
limit, so that the errors are the same wherever there is none. -/
theorem failure_forgets_history (policy : AmbiguityPolicy) (maxDepth : Nat)
    (loader : Option Loader) {operations operations' : List Operation} {id : DefinitionId}
    {r r' r₁ r₁' : Registry} {e : ResolveError}
    (hr : r = (empty policy maxDepth loader).afterAll operations)
    (hr' : r' = (empty policy maxDepth loader).afterAll operations')
    (hsources : ∀ a, r'.source? a = r.source? a) (hidles : Idles r r₁) (hidles' : Idles r' r₁')
    (hfail : (r₁.get id).1 = .error e) :
    ∃ e', (r₁'.get id).1 = .error e' ∧
      (e' = e ∨ r.TooDeepAbove id e ∨ r.TooDeepAbove id e') := by
  have hc : Coherent r := hr ▸ coherent_afterAll policy maxDepth loader operations
  have hc' : Coherent r' := hr' ▸ coherent_afterAll policy maxDepth loader operations'
  have hsame := sameSettings_afterAll (coherent_empty policy maxDepth loader) operations
  have hsame' := sameSettings_afterAll (coherent_empty policy maxDepth loader) operations'
  rw [← hr] at hsame
  rw [← hr'] at hsame'
  have hloader : r'.loader = r.loader := hsame'.loader.trans hsame.loader.symm
  have heffective : r'.effective? = r.effective? := by
    funext a
    rw [effective?, effective?, hsources, loadable?, loadable?, hloader]
  have hstart : Continues r r' := ⟨⟨hc', heffective, hsame'.policy.trans hsame.policy.symm,
    hsame'.maxDepth.trans hsame.maxDepth.symm⟩, hloader⟩
  have hr₁ := (Continues.refl hc).idles hidles
  have hr₁' := hstart.idles hidles'
  cases hget : (r₁'.get id).1 with
  | ok t =>
    have hok := ((hr₁'.toReached.agrees hc).succeeds id).mp ⟨t, hget⟩
    obtain ⟨u, hu⟩ := ((hr₁.toReached.agrees hc).succeeds id).mpr hok
    rw [hfail] at hu
    cases hu
  | error e' =>
    refine ⟨e', rfl, ?_⟩
    have hblames : r.Blames id e := ⟨r₁, hr₁, hfail⟩
    rcases hblames.akin ⟨r₁', hr₁', hget⟩ with heq | hdeep | hdeep
    · exact .inl heq.symm
    · exact .inr (.inl (tooDeepAbove_get hr₁ hfail hdeep))
    · exact .inr (.inr (tooDeepAbove_get hr₁' hget hdeep))

section Loft

def ladder : Definition :=
  (Definition.empty ⟨"/ladder", by decide⟩).addAncestor ⟨"/rope", by decide⟩

def hatch : DefinitionId := ⟨"/hatch", by decide⟩

def loft : Definition :=
  ((Definition.empty ⟨"/loft", by decide⟩).addAncestor ladder.id).addAncestor hatch

def attic : List Operation :=
  [.register (.empty ⟨"/rope", by decide⟩), .register ladder, .register loft]

def named : List DefinitionId := [loft.id, ladder.id, ⟨"/rope", by decide⟩, hatch]

theorem not_towers_attic {r : Registry} {a : DefinitionId}
    (hr : r = (empty .firstContributor 8 none).afterAll attic)
    (ha : Above r.effective? loft.id a) : ¬ Towers r.effective? 8 a := by
  have hclosed : ∀ x ∈ named,
      ∀ y ∈ ((r.effective? x).map Definition.ancestors).getD [], y ∈ named := by
    rw [hr]
    decide +kernel
  have hinherits : ∀ x y, Inherits r.effective? x y → x ∈ named → y ∈ named := by
    intro x y hxy hx
    obtain ⟨d, hd, hy⟩ := hxy
    exact hclosed x hx y (by rwa [hd])
  have habove : ∀ x, Above r.effective? loft.id x → x ∈ named := by
    intro x hx
    induction hx with
    | refl => exact List.mem_cons_self
    | tail _ hxy ih => exact hinherits _ _ hxy ih
  rintro ⟨path, hpath, hnodup, hlong⟩
  have hsub : a :: path ⊆ named := by
    intro x hx
    rcases List.mem_cons.mp hx with rfl | hx
    · exact habove x ha
    · have hax := (hpath.imp fun _ _ => Relation.TransGen.single).rel_cons hx
      exact habove x (ha.trans hax.to_reflTransGen)
  have hlength := (List.Nodup.subperm hnodup hsub).length_le
  simp only [named, List.length_cons, List.length_nil] at hlength
  omega

/-- Where there is room enough, it is the hatch that is missed, the ladder looked up before or not. -/
theorem loft_misses_hatch : ∃ r r₁, r = (empty .firstContributor 8 none).afterAll attic ∧
    Idles r r₁ ∧ (r₁.cached? ladder.id).isSome ∧
    (r.get loft.id).1 = .error (.unknownDefinition hatch) ∧
    (r₁.get loft.id).1 = .error (.unknownDefinition hatch) := by
  have hrun : ((((empty .firstContributor 8 none).afterAll attic).get loft.id).1.map Table.id,
      ((((empty .firstContributor 8 none).afterAll attic).after (.get ladder.id)).cached?
        ladder.id).isSome) = (.error (.unknownDefinition hatch), true) := by
    decide +kernel
  obtain ⟨hfail, hcached⟩ := Prod.mk.inj hrun
  have hfail := eq_error_of_map hfail
  have hidles : Idles ((empty .firstContributor 8 none).afterAll attic)
      (((empty .firstContributor 8 none).afterAll attic).after (.get ladder.id)) :=
    .single ⟨.get ladder.id, trivial, rfl⟩
  obtain ⟨e', hfail', hsame⟩ := failure_forgets_history .firstContributor 8 none rfl rfl
    (fun _ => rfl) .refl hidles hfail
  refine ⟨_, _, rfl, hidles, hcached, hfail, ?_⟩
  rcases hsame with rfl | ⟨a, -, he, -⟩ | ⟨a, ha, -, htowers⟩
  · exact hfail'
  · cases he
  · exact absurd htowers (not_towers_attic rfl ha)

/-- Where one level is all there may be, the rope lies too deep for the loft, unless the ladder was
looked up before: then it is the hatch that is missed first. -/
theorem loft_complains_otherwise :
    let r := (empty .firstContributor 1 none).afterAll attic
    Idles r (r.after (.get ladder.id)) ∧
    (r.get loft.id).1 = .error (.tooDeep loft.id 1) ∧
    ((r.after (.get ladder.id)).get loft.id).1 = .error (.unknownDefinition hatch) := by
  intro r
  have hrun : ((r.get loft.id).1.map Table.id,
      ((r.after (.get ladder.id)).get loft.id).1.map Table.id) =
        (.error (.tooDeep loft.id 1), .error (.unknownDefinition hatch)) := by
    decide +kernel
  obtain ⟨hcold, hwarm⟩ := Prod.mk.inj hrun
  exact ⟨.single ⟨.get ladder.id, trivial, rfl⟩, eq_error_of_map hcold, eq_error_of_map hwarm⟩

end Loft

end Registry

end Mudlib
