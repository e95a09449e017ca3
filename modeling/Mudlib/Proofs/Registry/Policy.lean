import Mudlib.Proofs.Link.Policy
import Mudlib.Proofs.Registry.Failure
import Mudlib.Proofs.Registry.Rollback
/-!
Resolution by the two policies for ambiguous calls, from the same sources.

Both walks go side by side, linking by linking, until the stricter one meets an ambiguous call and is
given up. What it calls ambiguous is so by owners: parents that show one implementation, on whatever
ways it came to them, show one object.
-/
set_option autoImplicit false

namespace Mudlib

theorem Table.Alike.owner_method? {t u : Table} (h : t.Alike u) (name : String) :
    (t.method? name).map Implementation.owner = (u.method? name).map Implementation.owner := by
  have howner := congrArg (fun t => (t.method? name).map Implementation.owner) h
  simpa [method?_restamp, Function.comp_def] using howner

namespace Registry

def stricter (r : Registry) : Registry := { r with policy := .reject }

/-- What a walk comes to by the stricter policy beside what it comes to by the other. -/
inductive Abreast {α : Type} :
    Except ResolveError α × Registry → Except ResolveError α × Registry → Prop where
  | same (out : Except ResolveError α) {r : Registry} : r.policy = .firstContributor →
      Abreast (out, r.stricter) (out, r)
  | refused {e : ResolveError} (r : Registry) (out : Except ResolveError α × Registry) :
      e.OfAmbiguity → Abreast (.error e, r) out

section Walking

variable {r : Registry} {visiting : List DefinitionId} {id : DefinitionId}

theorem cached?_stricter (r : Registry) (id : DefinitionId) :
    r.stricter.cached? id = r.cached? id := rfl

theorem loadSource_stricter (r : Registry) (id : DefinitionId) :
    r.stricter.loadSource id = ((r.loadSource id).1, (r.loadSource id).2.stricter) := by
  have hsource : r.stricter.source? id = r.source? id := rfl
  have hloader : r.stricter.loader = r.loader := rfl
  unfold loadSource
  rw [hsource, hloader]
  cases r.source? id with
  | some d => rfl
  | none =>
    cases r.loader with
    | none => rfl
    | some load =>
      rcases hload : load id with _ | _ | d
      · simp only [hload]
      · simp only [hload]
      · simp only [hload]
        split <;> rfl

theorem policy_loadSource (r : Registry) (id : DefinitionId) :
    (r.loadSource id).2.policy = r.policy := by
  unfold loadSource
  repeat' split
  all_goals rfl

theorem abreast_linkAndKeep (d : Definition) (parents : List Table)
    (hr : r.policy = .firstContributor) :
    Abreast (linkAndKeep d parents r.stricter) (linkAndKeep d parents r) := by
  have hlink := restricts_link r.linked d parents
  rw [← hr] at hlink
  unfold linkAndKeep
  rcases hlink with heq | ⟨e, heq, he⟩
  · have hstricter : link r.stricter.linked d parents r.stricter.policy =
        link r.linked d parents r.policy := heq
    rw [hstricter]
    cases link r.linked d parents r.policy with
    | error e => exact .same _ hr
    | ok t =>
      by_cases hdeep : r.maxDepth < t.depth
      · have hdeep' : r.stricter.maxDepth < t.depth := hdeep
        have hlinked : Registry.policy { r with linked := r.linked + 1 } = .firstContributor := hr
        simp only [if_pos hdeep, if_pos hdeep']
        exact .same _ hlinked
      · have hdeep' : ¬ r.stricter.maxDepth < t.depth := hdeep
        have hkept : Registry.policy { r with
            linked := r.linked + 1, tables := r.tables.insert d.id t } = .firstContributor := hr
        simp only [if_neg hdeep, if_neg hdeep']
        exact .same _ hkept
  · have hstricter : link r.stricter.linked d parents r.stricter.policy = .error e := heq
    rw [hstricter]
    exact .refused _ _ he

theorem abreast_each
    {resolveOne : DefinitionId → Registry → Except ResolveError Table × Registry}
    (hone : ∀ a r, r.policy = .firstContributor →
      Abreast (resolveOne a r.stricter) (resolveOne a r))
    (ids : List DefinitionId) (hr : r.policy = .firstContributor) :
    Abreast (resolveEach resolveOne ids r.stricter) (resolveEach resolveOne ids r) := by
  induction ids generalizing r with
  | nil => exact .same _ hr
  | cons id ids ih =>
    have hfirst := hone id r hr
    unfold resolveEach
    generalize resolveOne id r.stricter = x at hfirst
    generalize resolveOne id r = y at hfirst
    cases hfirst with
    | refused r' out he => exact .refused _ _ he
    | @same out r₁ hr₁ =>
      cases out with
      | error e => exact .same _ hr₁
      | ok t =>
        have hrest := ih hr₁
        simp only
        generalize resolveEach resolveOne ids r₁.stricter = xs at hrest
        generalize resolveEach resolveOne ids r₁ = ys at hrest
        cases hrest with
        | refused r' out he => exact .refused _ _ he
        | same outs hr₂ => cases outs <;> exact .same _ hr₂

theorem abreast_within (room : Nat) (hr : r.policy = .firstContributor) :
    Abreast (resolveWithin room visiting id r.stricter) (resolveWithin room visiting id r) := by
  induction room generalizing visiting id r with
  | zero =>
    unfold resolveWithin
    rw [cached?_stricter]
    cases r.cached? id with
    | some t => exact .same _ hr
    | none =>
      simp only
      split
      · exact .same _ hr
      · exact .same _ hr
  | succ room ih =>
    unfold resolveWithin
    rw [cached?_stricter]
    cases r.cached? id with
    | some t => exact .same _ hr
    | none =>
      simp only
      split
      · exact .same _ hr
      · have hr₁ := (policy_loadSource r id).trans hr
        rw [loadSource_stricter]
        generalize r.loadSource id = loaded at hr₁
        obtain ⟨_ | d, r₁⟩ := loaded
        · exact .same _ hr₁
        · have hone : ∀ a r, r.policy = .firstContributor →
              Abreast (resolveWithin room (visiting ++ [id]) a r.stricter)
                (resolveWithin room (visiting ++ [id]) a r) := fun a r hr => ih hr
          have hparents := abreast_each hone d.ancestors hr₁
          simp only
          generalize resolveEach (resolveWithin room (visiting ++ [id])) d.ancestors
            r₁.stricter = x at hparents
          generalize resolveEach (resolveWithin room (visiting ++ [id])) d.ancestors r₁ = y
            at hparents
          cases hparents with
          | refused r' out he => exact .refused _ _ he
          | @same out r₂ hr₂ =>
            cases out with
            | error e => exact .same _ hr₂
            | ok parents => exact abreast_linkAndKeep d parents hr₂

end Walking

/-- Two direct ancestors of the definition run implementations of different owners for the method. -/
def Divided (r : Registry) (d : Definition) (method : String) : Prop :=
  ∃ a ∈ d.ancestors, ∃ b ∈ d.ancestors, a ≠ b ∧ ∃ t u m n, (r.get a).1 = .ok t ∧
    (r.get b).1 = .ok u ∧ t.method? method = some m ∧ u.method? method = some n ∧
    m.owner ≠ n.owner

section Ambiguity

variable {r r₁ : Registry} {id a : DefinitionId} {d : Definition} {parents : List Table}

/-- What is linked against in the course of a resolution can be had from the start. -/
theorem Coherent.get_of_cached (hc : Coherent r) (hr : Reached r r₁) {p : Table} {name : String}
    {m : Implementation} (hp : r₁.cached? a = some p) (hm : p.method? name = some m) :
    ∃ t n, (r.get a).1 = .ok t ∧ t.method? name = some n ∧ n.owner = m.owner := by
  have hagrees := hr.agrees hc
  have hget : r₁.get a = (.ok p, r₁) := resolveWithin_cached _ hp
  obtain ⟨t, ht⟩ := (hagrees.succeeds a).mp ⟨p, by rw [hget]⟩
  have halike : p.Alike t := hagrees.alike ht (by rw [hget])
  have howner := halike.owner_method? name
  rw [hm, Option.map_some] at howner
  obtain ⟨n, hn, hn'⟩ := Option.map_eq_some_iff.mp howner.symm
  exact ⟨t, n, ht, hn, hn'⟩

theorem Coherent.divided_of_get (hc : Coherent r) {method : String}
    {candidates : List DefinitionId}
    (h : (r.get id).1 = .error (.ambiguousAncestorCall a method candidates)) :
    ∃ d, Above r.effective? id a ∧ r.effective? a = some d ∧ r.Divided d method := by
  cases raised_get hc (Prod.ext h rfl) with
  | cycle chain he => cases he
  | depth b he => cases he
  | load b _ he => rcases he with he | ⟨fault, he⟩ <;> cases he
  | link b d parents r₁ habove hd hid hc₁ hg hp hl =>
    obtain ⟨rfl, p, hpmem, q, hqmem, m, n, hm, hn, hapart⟩ := ambiguous_of_link hl
    obtain ⟨x, hx, hxp⟩ := exists_mem_of_forall₂ hp hpmem
    obtain ⟨y, hy, hyq⟩ := exists_mem_of_forall₂ hp hqmem
    have hr : Reached r r₁ := ⟨hc₁, funext hg.effective, hg.policy, hg.maxDepth⟩
    -- parents that show one owner's implementation show one object
    have howner : m.owner ≠ n.owner := by
      intro heq
      obtain ⟨slot, hslot, hmem⟩ := Link.method?_eq_some hm
      obtain ⟨slot', hslot', hmem'⟩ := Link.method?_eq_some hn
      have hsame := (hc₁.same_iff ⟨p, slot, hxp, hslot, hmem⟩ ⟨q, slot', hyq, hslot', hmem'⟩).mpr heq
      rw [hapart] at hsame
      cases hsame
    have hne : x ≠ y := by
      rintro rfl
      obtain rfl := Option.some.inj (hxp.symm.trans hyq)
      obtain rfl := Option.some.inj (hm.symm.trans hn)
      exact howner rfl
    obtain ⟨t, m', ht, hm', howner₁⟩ := hc.get_of_cached hr hxp hm
    obtain ⟨u, n', hu, hn', howner₂⟩ := hc.get_of_cached hr hyq hn
    refine ⟨d, hid ▸ habove, hid ▸ hd, x, hx, y, hy, hne, t, u, m', n', ht, hu, hm', hn', ?_⟩
    rw [howner₁, howner₂]
    exact howner

end Ambiguity

variable (maxDepth : Nat) (loader : Option Loader)

theorem stricter_registered (definitions : List Definition) :
    (empty .reject maxDepth loader).afterAll (definitions.map .register) =
      ((empty .firstContributor maxDepth loader).afterAll
        (definitions.map .register)).stricter := by
  suffices hg : ∀ r : Registry, r.stricter.afterAll (definitions.map .register) =
      (r.afterAll (definitions.map .register)).stricter from
    hg (empty .firstContributor maxDepth loader)
  induction definitions with
  | nil => exact fun _ => rfl
  | cons d definitions ih => exact fun r => ih (r.register d)

theorem policy_registered (policy : AmbiguityPolicy) (definitions : List Definition) :
    ((empty policy maxDepth loader).afterAll (definitions.map .register)).policy = policy :=
  (sameSettings_afterAll (coherent_empty policy maxDepth loader) _).policy

/-- From the same sources, resolution by the stricter policy gives what it gives by the other, the
same table or the same error, or it calls a call ambiguous. That happens only where two direct
ancestors of the calling definition run implementations of different owners, and so never where they
all share one, on whatever ways it came to them. -/
theorem reject_restricts_firstContributor (definitions : List Definition) (id : DefinitionId) :
    let lenient := (empty .firstContributor maxDepth loader).afterAll (definitions.map .register)
    let strict := (empty .reject maxDepth loader).afterAll (definitions.map .register)
    ((strict.get id).1 = (lenient.get id).1 ∨ ∃ a method candidates,
      (strict.get id).1 = .error (.ambiguousAncestorCall a method candidates)) ∧
    (∀ a method candidates,
      (strict.get id).1 = .error (.ambiguousAncestorCall a method candidates) →
        ∃ d, Above strict.effective? id a ∧ strict.effective? a = some d ∧
          strict.Divided d method) ∧
    ∀ a d method candidates owner, strict.effective? a = some d →
      (∀ b ∈ d.ancestors, ∀ t m, (strict.get b).1 = .ok t → t.method? method = some m →
        m.owner = owner) →
      (strict.get id).1 ≠ .error (.ambiguousAncestorCall a method candidates) := by
  intro lenient strict
  have hstricter : strict = lenient.stricter := stricter_registered maxDepth loader definitions
  have hc : Coherent strict := coherent_afterAll .reject maxDepth loader _
  have hdivided : ∀ a method candidates,
      (strict.get id).1 = .error (.ambiguousAncestorCall a method candidates) →
        ∃ d, Above strict.effective? id a ∧ strict.effective? a = some d ∧
          strict.Divided d method := fun a method candidates h => hc.divided_of_get h
  refine ⟨?_, hdivided, ?_⟩
  · have habreast : Abreast (strict.get id) (lenient.get id) := by
      rw [hstricter]
      exact abreast_within _ (policy_registered maxDepth loader .firstContributor definitions)
    generalize strict.get id = x at habreast
    generalize lenient.get id = y at habreast
    cases habreast with
    | same out _ => exact .inl rfl
    | refused r' out he =>
      obtain ⟨a, method, candidates, rfl⟩ := he
      exact .inr ⟨a, method, candidates, rfl⟩
  · intro a d method candidates owner hd hshared h
    obtain ⟨d', -, hd', x, hx, y, hy, -, t, u, m, n, ht, hu, hm, hn, howner⟩ :=
      hdivided a method candidates h
    obtain rfl := Option.some.inj (hd.symm.trans hd')
    exact howner ((hshared x hx t m ht hm).trans (hshared y hy u n hu hn).symm)

end Registry

end Mudlib
