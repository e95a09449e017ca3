import Mudlib.Proofs.Space.AuxiliaryGraph
import Mudlib.Proofs.Space.Candor
/-!
When an instance is refused for a cycle of auxiliaries.

The stack of definitions that attach auxiliaries tells which instances are being set up around a job.
An instance of one of them that is come to is refused: because the first one needs it, which is a
cycle, or because the init method of some auxiliary of the first one was started and led to it, which
need not be one.
-/
set_option autoImplicit false

namespace Mudlib.Space

namespace Job

def RunsScript (j : Job) : Prop := ∃ id m args caller, j.errand = .run id m args caller ∧ m.Scripted

theorem RunsScript.not_setsUp {j : Job} {t : Table} (hj : j.RunsScript) : ¬ j.SetsUp t := by
  obtain ⟨id, m, args, caller, hj, -⟩ := hj
  rintro ⟨id', ht⟩
  cases hj.symm.trans ht

section Stack

variable [Natives] {root outer inner j k : Job} {t u : Table} {d : DefinitionId}

structure Outermost (root : Job) : Prop where
  chain : root.space.chain = []
  coherent : root.space.registry.Coherent

theorem Covers.coherent (h : root.Covers j) (hc : root.space.registry.Coherent) :
    j.space.registry.Coherent := by
  induction h with
  | refl => exact hc
  | tail _ hlast ih => exact hlast.sequel.coherent ih

theorem Covers.baseAuxiliary (h : root.Covers j) :
    j.space.baseAuxiliary = root.space.baseAuxiliary := by
  induction h with
  | refl => rfl
  | tail _ hlast ih => exact hlast.sequel.baseAuxiliary.trans ih

theorem Covers.initMethod (h : root.Covers j) : j.space.initMethod = root.space.initMethod := by
  induction h with
  | refl => rfl
  | tail _ hlast ih => exact hlast.sequel.initMethod.trans ih

theorem Covers.auxiliariesOf (h : root.Covers j) (t : Table) :
    j.space.auxiliariesOf t = root.space.auxiliariesOf t := by
  unfold Space.auxiliariesOf
  rw [h.baseAuxiliary]

/-- What is on the stack is being set up: the job lies in the course of creating an auxiliary. -/
theorem exists_open (hroot : root.space.chain = []) (hj : root.Covers j) (hd : d ∈ j.space.chain) :
    ∃ outer first t, root.Covers outer ∧ outer.SetsUp t ∧ t.id = d ∧ d ∉ outer.space.chain ∧
      outer.Entails first ∧ first.Covers j := by
  induction hj with
  | refl =>
    rw [hroot] at hd
    cases hd
  | @tail j k hj hlast ih =>
    have earlier : d ∈ j.space.chain → ∃ outer first t, root.Covers outer ∧ outer.SetsUp t ∧
        t.id = d ∧ d ∉ outer.space.chain ∧ outer.Entails first ∧ first.Covers k := by
      intro hd
      obtain ⟨outer, first, t, hcovers, ht, hid, hnew, hfirst, hrest⟩ := ih hd
      exact ⟨outer, first, t, hcovers, ht, hid, hnew, hfirst, hrest.tail hlast⟩
    rcases hlast.sequel.chain with hsame | ⟨t, ht, hentails, hnew, hmore⟩
    · exact earlier (hsame ▸ hd)
    · rw [hmore, List.mem_append, List.mem_singleton] at hd
      rcases hd with hd | rfl
      · exact earlier hd
      · exact ⟨j, k, t, hj, ht, rfl, hnew, hentails, .refl⟩

/-- No body is started on the way to a job, or there is a first one. -/
theorem entailed_or_started (h : j.Covers k) : Relation.ReflTransGen Entails j k ∨
    ∃ x y, Relation.ReflTransGen Entails j x ∧ x.Starts y ∧ y.Covers k := by
  induction h using Relation.ReflTransGen.head_induction_on with
  | refl => exact .inl .refl
  | head hfirst hrest ih =>
    rcases hfirst with hentails | hstarts
    · rcases ih with hall | ⟨x, y, hx, hy, hk⟩
      · exact .inl (.head hentails hall)
      · exact .inr ⟨x, y, .head hentails hx, hy, hk⟩
    · exact .inr ⟨_, _, .refl, hstarts, hrest⟩

theorem covers_of_entails (h : Relation.TransGen Entails j k) : j.Covers k :=
  Relation.ReflTransGen.mono (fun _ _ hjk => .inl hjk) _ _ h.to_reflTransGen

theorem Entails.cases (h : j.Entails k) :
    (∃ t a, j.SetsUp t ∧ a ∈ j.space.auxiliariesOf t ∧ k.Creates a) ∨
      ∃ a t, j.Creates a ∧ (j.space.registry.get a).1 = .ok t ∧ k.SetsUp t := by
  cases h with
  | setUp ht _ =>
    exact .inr ⟨_, _, ⟨_, _, _, rfl⟩, eq_ok_of_mapError (Prod.mk.inj ht).1, _, rfl⟩
  | auxiliary _ heq _ =>
    exact .inl ⟨_, _, ⟨_, rfl⟩, by simp [heq], _, _, _, rfl⟩

theorem setsUp_of_starts (h : j.Entails k) {l : Job} (hstarts : k.Starts l) :
    ∃ t, k.SetsUp t := by
  rcases h.cases with ⟨_, a, -, -, _, _, _, hk⟩ | ⟨_, t, -, -, ht⟩
  · obtain ⟨n, errand, s⟩ := k
    cases hk
    cases hstarts
  · exact ⟨t, ht⟩

/-- All that is started when an instance is set up is its init method. -/
theorem Starts.of_setsUp (h : j.Starts k) (ht : j.SetsUp t) : ∃ id m owner,
    t.method? j.space.initMethod = some m ∧ k.errand = .run id m [] owner := by
  obtain ⟨n, errand, s⟩ := j
  obtain ⟨id, rfl⟩ := ht
  cases h with
  | init _ heach hm =>
    have hinit := (regular_addAuxiliaries heach).initMethod
    exact ⟨id, _, _, hinit ▸ hm, rfl⟩

theorem RunsScript.of_covers (h : j.Covers k) (hj : j.RunsScript) : k.RunsScript := by
  induction h with
  | refl => exact hj
  | @tail j k _ hlast ih =>
    obtain ⟨id, m, args, caller, herrand, hm⟩ := ih
    obtain ⟨n, errand, s⟩ := j
    obtain rfl : errand = .run id m args caller := herrand
    rcases hlast with hentails | hstarts
    · cases hentails
    · cases hm with
      | mk hcalls =>
        cases hstarts with
        | @scripted _ _ _ _ _ _ _ _ before after b _ heq _ =>
          have hb : b ∈ before ++ b :: after := by simp
          rw [← heq] at hb
          exact ⟨id, b.2, args, caller, rfl, hcalls b hb⟩
        | native hbody _ => cases hbody

/-- Instances with the first table are given auxiliaries with the second one, which is served in the
course of the job. -/
def Supplies (root : Job) (t u : Table) : Prop :=
  u.id ∈ root.space.auxiliariesOf t ∧
    ∃ j, root.Covers j ∧ (j.space.registry.get u.id).1 = .ok u

theorem Supplies.of_covers (h : k.Supplies t u) (hk : root.Covers k) : root.Supplies t u := by
  obtain ⟨hmem, j, hj, hget⟩ := h
  exact ⟨hk.auxiliariesOf t ▸ hmem, j, hk.trans hj, hget⟩

/-- The job creates, or sets up, an instance that another one with this table needs. -/
inductive Needed (root : Job) (t : Table) (j : Job) : Prop where
  | create {u : Table} {a : DefinitionId} : Relation.ReflTransGen root.Supplies t u →
      a ∈ root.space.auxiliariesOf u → j.Creates a → Needed root t j
  | setUp {u : Table} : Relation.TransGen root.Supplies t u → j.SetsUp u → Needed root t j

theorem needed_of_entails (hroot : root.space.registry.Coherent) (houter : root.Covers outer)
    (ht : outer.SetsUp t) (h : Relation.TransGen Entails outer j) : Needed root t j := by
  induction h with
  | single hfirst =>
    rcases hfirst.cases with ⟨u, a, hu, ha, hcreates⟩ | ⟨a, u, ha, -, -⟩
    · obtain rfl := ht.unique hu
      exact .create .refl (houter.auxiliariesOf t ▸ ha) hcreates
    · exact absurd ht ha.not_setsUp
  | @tail j k hpath hlast ih =>
    have hj : root.Covers j := houter.trans (covers_of_entails hpath)
    rcases hlast.cases with ⟨u, a, hu, ha, hcreates⟩ | ⟨a, u, ha, hget, hsetsUp⟩
    · cases ih with
      | create _ _ hb => exact absurd hu hb.not_setsUp
      | setUp hneeds hv =>
        obtain rfl := hv.unique hu
        exact .create hneeds.to_reflTransGen (hj.auxiliariesOf _ ▸ ha) hcreates
    · cases ih with
      | create hneeds hmem hb =>
        obtain rfl := hb.unique ha
        obtain rfl := (hj.coherent hroot).id_of_get hget
        exact .setUp (.tail' hneeds ⟨hmem, j, hj, hget⟩) hsetsUp
      | setUp _ hv => exact absurd hv ha.not_setsUp

theorem transGen_of_needed (h : Needed root t j) (hu : j.SetsUp u) :
    Relation.TransGen root.Supplies t u := by
  cases h with
  | create _ _ ha => exact absurd hu ha.not_setsUp
  | setUp hneeds hv => exact hv.unique hu ▸ hneeds

/-- An instance that one with this table needs was set up, and its init method, which is not scripted,
was started and led to the job. -/
structure Strays (root outer inner x y : Job) (t v : Table) (m : Implementation) : Prop where
  path : Relation.TransGen Entails outer x
  setsUp : x.SetsUp v
  needed : Relation.TransGen root.Supplies t v
  init : v.method? root.space.initMethod = some m
  native : ¬ m.Scripted
  starts : x.Starts y
  covers : y.Covers inner

/-- How it comes, in the course of a job, that an instance is to be set up while its definition is
attaching auxiliaries: an instance of this definition is being set up further out, and needs the
second one; or it needs some other, whose init method led to the second one. -/
structure Recurrence (root outer inner : Job) (t u : Table) : Prop where
  covers : root.Covers outer
  first : outer.SetsUp t
  second : inner.SetsUp u
  same : u.id = t.id
  admitted : t.id ∉ outer.space.chain
  refused : u.id ∈ inner.space.chain
  cause : Relation.TransGen Entails outer inner ∧ Relation.TransGen root.Supplies t u ∨
    ∃ x y v m, Strays root outer inner x y t v m

theorem exists_recurrence (hroot : root.Outermost) (hinner : root.Covers inner)
    (hu : inner.SetsUp u) (hmem : u.id ∈ inner.space.chain) :
    ∃ outer t, Recurrence root outer inner t u := by
  obtain ⟨outer, first, t, hcovers, ht, hid, hnew, hfirst, hrest⟩ :=
    exists_open hroot.chain hinner hmem
  refine ⟨outer, t, hcovers, ht, hu, hid.symm, hid ▸ hnew, hmem, ?_⟩
  have hneeded := fun {k} (h : Relation.TransGen Entails outer k) =>
    needed_of_entails hroot.coherent hcovers ht h
  rcases entailed_or_started hrest with hall | ⟨x, y, hx, hstarts, hy⟩
  · have hpath := Relation.TransGen.head' hfirst hall
    exact .inl ⟨hpath, transGen_of_needed (hneeded hpath) hu⟩
  · -- up to the first body all instances on the path are needed, the one whose body it is with them
    have hpath := Relation.TransGen.head' hfirst hx
    obtain ⟨i, -, hlast⟩ := Relation.TransGen.tail'_iff.mp hpath
    obtain ⟨v, hv⟩ := setsUp_of_starts hlast hstarts
    obtain ⟨id, m, owner, hm, herrand⟩ := hstarts.of_setsUp hv
    have hinit : x.space.initMethod = root.space.initMethod :=
      Covers.initMethod (hcovers.trans (covers_of_entails hpath))
    refine .inr ⟨x, y, v, m, hpath, hv, transGen_of_needed (hneeded hpath) hv, hinit ▸ hm, ?_,
      hstarts, hy⟩
    exact fun hscripted =>
      (RunsScript.of_covers hy ⟨id, m, [], owner, herrand, hscripted⟩).not_setsUp hu

theorem Recurrence.of_covers (h : Recurrence k outer inner t u) (hk : root.Covers k) :
    Recurrence root outer inner t u where
  covers := hk.trans h.covers
  first := h.first
  second := h.second
  same := h.same
  admitted := h.admitted
  refused := h.refused
  cause := by
    have hmono := fun {v} (hv : Relation.TransGen k.Supplies t v) =>
      Relation.TransGen.mono (fun _ _ hs => Supplies.of_covers hs hk) _ _ hv
    rcases h.cause with ⟨hpath, hneeds⟩ | ⟨x, y, v, m, hs⟩
    · exact .inl ⟨hpath, hmono hneeds⟩
    · exact .inr ⟨x, y, v, m, hs.path, hs.setsUp, hmono hs.needed, hk.initMethod ▸ hs.init,
        hs.native, hs.starts, hs.covers⟩

end Stack

end Job

open Job

variable {s s₀ : Space}

/-- However bodies start each other, in an instantiation that is asked for or that a body spawns: when
it fails for a cycle of auxiliaries, a definition came back to itself. An instance of it was being set
up and needed a second one, which is a cycle in the tables that were served; or it needed some other
instance, whose init method is not scripted, was started, and led to the second one. If no definition
was attaching auxiliaries when the instantiation began, all this lies within it. -/
theorem reported_auxiliary_cycles_recur [Natives] (hcandid : Natives.Candid)
    {policy : AmbiguityPolicy} {maxDepth : Nat} {loader : Option Loader} {config : Config}
    {requests : List Request} (hstart : ofConfig? (.empty policy maxDepth loader) config = .ok s₀)
    (hserved : Served s₀ requests s) {root : Job} (hroot : root.space = s) {bound : Nat}
    {definition d : DefinitionId} {owner : Principal} {privileged allowPrototype : Bool}
    {w w' : Space}
    (hcovers : root.Covers ⟨bound, .create definition owner privileged allowPrototype, w⟩)
    (h : (engine bound).create definition owner privileged allowPrototype w =
      some (.error (.auxiliaryCycle d), w')) :
    ∃ outer inner t u, t.id = d ∧ Recurrence root outer inner t u ∧
      Covers ⟨bound, .create definition owner privileged allowPrototype, w⟩ inner ∧
      (w.chain = [] →
        Covers ⟨bound, .create definition owner privileged allowPrototype, w⟩ outer) := by
  have houtermost : root.Outermost := by
    subst hroot
    exact ⟨(chain_served hserved).trans (chain_of_ofConfig? hstart),
      coherent_of_served hstart hserved⟩
  have hfails : FailsAt ⟨bound, .create definition owner privileged allowPrototype, w⟩ d :=
    ⟨w', Run.dropped_eq_error.mpr h⟩
  obtain ⟨inner, hinner, u, hu, rfl, hmem⟩ := meets_of_failsAt hcandid hfails
  by_cases hw : w.chain = []
  · have hwithin := hcovers.coherent houtermost.coherent
    obtain ⟨outer, t, hr⟩ := exists_recurrence ⟨hw, hwithin⟩ hinner hu hmem
    exact ⟨outer, inner, t, u, hr.same.symm, hr.of_covers hcovers, hinner, fun _ => hr.covers⟩
  · obtain ⟨outer, t, hr⟩ := exists_recurrence houtermost (hcovers.trans hinner) hu hmem
    exact ⟨outer, inner, t, u, hr.same.symm, hr, hinner, fun hnone => absurd hnone hw⟩

section Hive

def queen : Definition :=
  { Definition.empty ⟨"/queen", by decide⟩ with
    methods := Dict.empty.insert "create" ⟨.native [.mk (.equal .live (.literal (.int 2)))
      (.literal .null) none (.branch [.mk (.literal .null) (.literal .null) none
        (.command (.spawn "/hive"))] [])], []⟩ }

def hive : Definition :=
  { Definition.empty ⟨"/hive", by decide⟩ with auxiliaries := [queen.id] }

theorem mem_of_needs {a b : DefinitionId} {needed : List DefinitionId}
    (h : (s.registry.get a).1.toOption.map s.auxiliariesOf = some needed) (hneeds : s.Needs a b) :
    b ∈ needed := by
  obtain ⟨t, ht, hmem⟩ := hneeds
  rw [ht] at h
  cases h
  exact hmem

/-- A hive needs a queen, and a queen nothing, but the hive that the first queen leaves for is refused
since the first hive has not got her yet. -/
theorem hive_refused : ∃ s₀ s s', ofConfig? (.empty .firstContributor 8 none) .standard = .ok s₀ ∧
    Served s₀ [.registry (.register queen), .registry (.register hive)] s ∧
    instantiate 6 hive.id .system s = some (.error (.auxiliaryCycle hive.id), s') ∧
    ¬ Relation.TransGen s.Needs hive.id hive.id := by
  have hrun : (ofConfig? (.empty .firstContributor 8 none) .standard).toOption.bind (fun s₀ =>
      (serve 6 [.registry (.register queen), .registry (.register hive)] s₀).bind fun s =>
        (instantiate 6 hive.id .system s).map fun r =>
          (r.1, (s.registry.get hive.id).1.toOption.map s.auxiliariesOf,
            (s.registry.get queen.id).1.toOption.map s.auxiliariesOf)) =
      some (.error (.auxiliaryCycle hive.id), some [queen.id], some []) := by
    decide +kernel
  obtain ⟨s₀, s, hok, hserved, hfound⟩ := served_of_found hrun
  obtain ⟨⟨out, s'⟩, hcreate, heq⟩ := Option.map_eq_some_iff.mp hfound
  simp only [Prod.mk.injEq] at heq
  obtain ⟨rfl, hhive, hqueen⟩ := heq
  refine ⟨s₀, s, s', hok, hserved, hcreate, fun hcycle => ?_⟩
  obtain ⟨x, hx, hback⟩ := Relation.TransGen.head'_iff.mp hcycle
  obtain rfl := List.mem_singleton.mp (mem_of_needs hhive hx)
  rcases Relation.ReflTransGen.cases_head hback with heq | ⟨y, hy, -⟩
  · exact absurd heq (by decide)
  · exact absurd (mem_of_needs hqueen hy) List.not_mem_nil

def box : Definition :=
  { Definition.empty ⟨"/box", by decide⟩ with auxiliaries := [⟨"/lid", by decide⟩] }

def lid : Definition := { Definition.empty ⟨"/lid", by decide⟩ with auxiliaries := [box.id] }

theorem box_recurs : ∃ s₀ s s' outer inner t u,
    ofConfig? (.empty .firstContributor 8 none) .standard = .ok s₀ ∧
    Served s₀ [.registry (.register box), .registry (.register lid)] s ∧
    instantiate 6 box.id .system s = some (.error (.auxiliaryCycle box.id), s') ∧ t.id = box.id ∧
    Recurrence ⟨6, .create box.id .system false false, s⟩ outer inner t u := by
  have hrun : (ofConfig? (.empty .firstContributor 8 none) .standard).toOption.bind (fun s₀ =>
      (serve 6 [.registry (.register box), .registry (.register lid)] s₀).bind fun s =>
        (instantiate 6 box.id .system s).map Prod.fst) =
      some (.error (.auxiliaryCycle box.id)) := by
    decide +kernel
  obtain ⟨s₀, s, hok, hserved, hfound⟩ := served_of_found hrun
  obtain ⟨⟨out, s'⟩, hcreate, rfl⟩ := Option.map_eq_some_iff.mp hfound
  obtain ⟨outer, inner, t, u, hid, hr, -⟩ :=
    reported_auxiliary_cycles_recur candid_standard hok hserved rfl .refl hcreate
  exact ⟨s₀, s, s', outer, inner, t, u, hok, hserved, hcreate, hid, hr⟩

end Hive

end Mudlib.Space
