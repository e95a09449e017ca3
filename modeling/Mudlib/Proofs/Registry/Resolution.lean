import Mudlib.Registry.Resolve
import Mudlib.Proofs.Registry.Coherence
/-!
What resolution does to a registry: it only adds to it, and what it adds keeps the cache coherent.

A failed resolution leaves the tables and sources found on the way, but never a table of the
definition asked for, nor of one that is being resolved further down. That is why the source of a
definition whose compilation failed may be put back.
-/
set_option autoImplicit false

namespace Mudlib.Registry

/-- The second registry has all that the first has, and no id has another source than before. -/
structure Grows (r r' : Registry) : Prop where
  policy : r'.policy = r.policy
  maxDepth : r'.maxDepth = r.maxDepth
  loader : r'.loader = r.loader
  linked : r.linked ≤ r'.linked
  cached : ∀ {id t}, r.cached? id = some t → r'.cached? id = some t
  source : ∀ {id d}, r.source? id = some d → r'.source? id = some d
  effective : ∀ id, r'.effective? id = r.effective? id

namespace Grows

variable {r r' r'' : Registry}

theorem refl (r : Registry) : Grows r r :=
  ⟨rfl, rfl, rfl, Nat.le_refl _, id, id, fun _ => rfl⟩

theorem trans (h : Grows r r') (h' : Grows r' r'') : Grows r r'' where
  policy := h'.policy.trans h.policy
  maxDepth := h'.maxDepth.trans h.maxDepth
  loader := h'.loader.trans h.loader
  linked := Nat.le_trans h.linked h'.linked
  cached := fun ht => h'.cached (h.cached ht)
  source := fun hd => h'.source (h.source hd)
  effective := fun id => (h'.effective id).trans (h.effective id)

end Grows

/-- A step of the walk below the ids of `visiting`, none of which it may finish. -/
structure Walk (visiting : List DefinitionId) (r r' : Registry) : Prop where
  coherent : Coherent r → Coherent r'
  grows : Grows r r'
  avoids : ∀ a ∈ visiting, r.cached? a = none → r'.cached? a = none

namespace Walk

variable {visiting more : List DefinitionId} {r r' r'' : Registry}

theorem refl (visiting : List DefinitionId) (r : Registry) : Walk visiting r r :=
  ⟨id, .refl r, fun _ _ => id⟩

theorem trans (h : Walk visiting r r') (h' : Walk visiting r' r'') : Walk visiting r r'' where
  coherent := fun hr => h'.coherent (h.coherent hr)
  grows := h.grows.trans h'.grows
  avoids := fun a ha hn => h'.avoids a ha (h.avoids a ha hn)

theorem of_append (h : Walk (visiting ++ more) r r') : Walk visiting r r' where
  coherent := h.coherent
  grows := h.grows
  avoids := fun a ha => h.avoids a (List.mem_append_left _ ha)

end Walk

section Steps

variable {visiting : List DefinitionId} {id : DefinitionId} {r r' : Registry}

theorem loadable?_eq_some {d : Definition} :
    r.loadable? id = some d ↔ ∃ load, r.loader = some load ∧ load id = .ok (some d) := by
  cases hl : r.loader with
  | none => simp [loadable?, hl]
  | some load =>
    cases hd : load id with
    | error fault => simp [loadable?, hl, hd, Except.toOption]
    | ok found => simp [loadable?, hl, hd, Except.toOption]

/-- What loading gives: the source that counts, now stored, unless it declares another id. -/
theorem loadSource_ok {d : Definition} (h : r.loadSource id = (.ok d, r')) :
    r.effective? id = some d ∧ r'.source? id = some d ∧
      (r' = r ∨ (r.source? id = none ∧ d.id = id ∧
        r' = { r with sources := r.sources.insert d.id d })) := by
  unfold loadSource at h
  split at h
  next e he =>
    cases h
    exact ⟨by simp [effective?, he], he, .inl rfl⟩
  next hn =>
    split at h
    · cases h
    next load hl =>
      split at h
      · cases h
      · cases h
      next e he =>
        split at h
        next hid =>
          cases h
          subst hid
          have hload := loadable?_eq_some.mpr ⟨load, hl, he⟩
          exact ⟨by simp [effective?, hn, hload], Dict.get?_insert_self _ _ _, .inr ⟨hn, rfl, rfl⟩⟩
        next => cases h

theorem loadSource_error {e : ResolveError} (h : r.loadSource id = (.error e, r')) :
    r' = r ∧ r.source? id = none ∧ (e = .unknownDefinition id ∨ ∃ fault, e = .source id fault) ∧
      ∀ d, r.effective? id = some d → d.id ≠ id := by
  unfold loadSource at h
  split at h
  · cases h
  next hn =>
    have heff : r.effective? id = r.loadable? id := by simp [effective?, hn]
    split at h
    next hl =>
      cases h
      exact ⟨rfl, hn, .inl rfl, by simp [heff, loadable?, hl]⟩
    next load hl =>
      split at h
      next fault hf =>
        cases h
        exact ⟨rfl, hn, .inr ⟨fault, rfl⟩, by simp [heff, loadable?, hl, hf, Except.toOption]⟩
      next hf =>
        cases h
        exact ⟨rfl, hn, .inl rfl, by simp [heff, loadable?, hl, hf, Except.toOption]⟩
      next d hd =>
        split at h
        · cases h
        next hid =>
          cases h
          refine ⟨rfl, hn, .inr ⟨_, rfl⟩, ?_⟩
          intro d' hd'
          obtain rfl : d = d' := by simpa [heff, loadable?, hl, hd, Except.toOption] using hd'
          exact hid

theorem grows_insertSource {d : Definition} (hn : r.source? d.id = none)
    (hd : r.effective? d.id = some d) :
    Grows r { r with sources := r.sources.insert d.id d } where
  policy := rfl
  maxDepth := rfl
  loader := rfl
  linked := Nat.le_refl _
  cached := id
  source := by
    intro id e he
    have hid : id ≠ d.id := by
      intro heq
      rw [heq, hn] at he
      cases he
    exact (Dict.get?_insert_of_ne _ _ hid).trans he
  effective := by
    intro id
    by_cases hid : id = d.id
    · subst hid
      rw [hd]
      simp [effective?, source?]
    · simp only [effective?, source?, Dict.get?_insert_of_ne _ _ hid]
      rfl

theorem walk_loadSource (hn : r.cached? id = none) : Walk visiting r (r.loadSource id).2 := by
  rcases h : r.loadSource id with ⟨out, r'⟩
  cases out with
  | error e => exact (loadSource_error h).1 ▸ .refl visiting r
  | ok d =>
    obtain ⟨he, -, rfl | ⟨hs, rfl, rfl⟩⟩ := loadSource_ok h
    · exact .refl visiting r'
    · exact ⟨fun hr => hr.insertSource hn, grows_insertSource hs he, fun _ _ => id⟩

variable {d : Definition} {parents : List Table} {t : Table}

theorem linkAndKeep_ok (h : linkAndKeep d parents r = (.ok t, r')) :
    link r.linked d parents r.policy = .ok t ∧ t.depth ≤ r.maxDepth ∧
      r' = { r with linked := r.linked + 1, tables := r.tables.insert d.id t } := by
  simp only [linkAndKeep] at h
  split at h
  · cases h
  next u hu =>
    split at h
    · cases h
    next hdepth =>
      cases h
      exact ⟨hu, Nat.le_of_not_lt hdepth, rfl⟩

theorem linkAndKeep_error {e : ResolveError} (h : linkAndKeep d parents r = (.error e, r')) :
    (link r.linked d parents r.policy = .error e ∧ r' = r) ∨
      ∃ t, link r.linked d parents r.policy = .ok t ∧ r.maxDepth < t.depth ∧
        e = .tooDeep d.id r.maxDepth ∧ r' = { r with linked := r.linked + 1 } := by
  simp only [linkAndKeep] at h
  split at h
  next hl =>
    cases h
    exact .inl ⟨hl, rfl⟩
  next t ht =>
    split at h
    next hdepth =>
      cases h
      exact .inr ⟨t, ht, hdepth, rfl, rfl⟩
    next => cases h

theorem walk_count (r : Registry) : Walk visiting r { r with linked := r.linked + 1 } where
  coherent := fun h =>
    ⟨h.keyed, h.made, fun ht => Nat.lt_succ_of_lt (h.fresh ht), h.apart, h.shallow⟩
  grows := ⟨rfl, rfl, rfl, Nat.le_succ _, id, id, fun _ => rfl⟩
  avoids := fun _ _ => id

/-- A new table is kept beside the others: its stamp is new, and nothing embeds it yet. -/
theorem walk_keep (hsource : r.source? d.id = some d) (hn : r.cached? d.id = none)
    (hv : d.id ∉ visiting)
    (hp : List.Forall₂ (fun a p => r.cached? a = some p) d.ancestors parents)
    (hl : link r.linked d parents r.policy = .ok t) (hdepth : t.depth ≤ r.maxDepth) :
    Walk visiting r { r with linked := r.linked + 1, tables := r.tables.insert d.id t } := by
  have hself : Registry.cached? { r with linked := r.linked + 1, tables := r.tables.insert d.id t }
      d.id = some t := Dict.get?_insert_self _ _ _
  have hother : ∀ {a}, a ≠ d.id →
      Registry.cached? { r with linked := r.linked + 1, tables := r.tables.insert d.id t } a =
        r.cached? a := fun ha => Dict.get?_insert_of_ne _ _ ha
  have hkept : ∀ {a u}, r.cached? a = some u →
      Registry.cached? { r with linked := r.linked + 1, tables := r.tables.insert d.id t } a =
        some u := by
    intro a u hu
    refine (hother ?_).trans hu
    intro heq
    rw [heq, hn] at hu
    cases hu
  have hcases : ∀ {a u},
      Registry.cached? { r with linked := r.linked + 1, tables := r.tables.insert d.id t } a =
        some u → (a = d.id ∧ u = t) ∨ r.cached? a = some u := by
    intro a u hu
    by_cases ha : a = d.id
    · subst ha
      rw [hself] at hu
      cases hu
      exact .inl ⟨rfl, rfl⟩
    · exact .inr ((hother ha).symm.trans hu)
  have hstamp := stamp_of_link hl
  refine ⟨fun h => ?_, ⟨rfl, rfl, rfl, Nat.le_succ _, hkept, id, fun _ => rfl⟩, ?_⟩
  · constructor
    case keyed => exact h.keyed
    case made =>
      intro a u hu
      rcases hcases hu with ⟨rfl, rfl⟩ | hu
      · exact ⟨d, parents, hsource, hp.imp fun _ _ => hkept, hstamp ▸ hl⟩
      · obtain ⟨e, ps, he, hps, hlink⟩ := h.made hu
        exact ⟨e, ps, he, hps.imp fun _ _ => hkept, hlink⟩
    case fresh =>
      intro a u hu
      rcases hcases hu with ⟨rfl, rfl⟩ | hu
      · exact hstamp ▸ Nat.lt_succ_self _
      · exact Nat.lt_succ_of_lt (h.fresh hu)
    case apart =>
      intro a b u v hu hv heq
      -- the new linking has a number above all that are in use
      rcases hcases hu with ⟨rfl, rfl⟩ | hu' <;> rcases hcases hv with ⟨rfl, rfl⟩ | hv'
      · rfl
      · exact absurd (heq.symm.trans hstamp) (Nat.ne_of_lt (h.fresh hv'))
      · exact absurd (heq.trans hstamp) (Nat.ne_of_lt (h.fresh hu'))
      · exact h.apart hu' hv' heq
    case shallow =>
      intro a u hu
      rcases hcases hu with ⟨rfl, rfl⟩ | hu
      · exact hdepth
      · exact h.shallow hu
  · intro a ha hna
    refine (hother ?_).trans hna
    intro heq
    exact hv (heq ▸ ha)

end Steps

structure Resolved (visiting : List DefinitionId) (id : DefinitionId) (r : Registry)
    (out : Except ResolveError Table × Registry) : Prop where
  walk : Walk visiting r out.2
  found : ∀ t, out.1 = .ok t → out.2.cached? id = some t
  missing : ∀ e, out.1 = .error e → out.2.cached? id = none

section Resolving

variable {visiting : List DefinitionId} {id : DefinitionId} {r : Registry}
variable {resolveOne : DefinitionId → Registry → Except ResolveError Table × Registry}

theorem resolved_each (h : ∀ id r, Coherent r → Resolved visiting id r (resolveOne id r))
    (ids : List DefinitionId) (hc : Coherent r) :
    Walk visiting r (resolveEach resolveOne ids r).2 ∧
      ∀ ts, (resolveEach resolveOne ids r).1 = .ok ts →
        List.Forall₂ (fun a t => (resolveEach resolveOne ids r).2.cached? a = some t) ids ts := by
  induction ids generalizing r with
  | nil =>
    refine ⟨.refl visiting r, ?_⟩
    intro ts hts
    cases hts
    exact .nil
  | cons id ids ih =>
    have hone := h id r hc
    rcases h₁ : resolveOne id r with ⟨out, r₁⟩
    rw [h₁] at hone
    cases out with
    | error e => simpa [resolveEach, h₁] using hone.walk
    | ok t =>
      obtain ⟨hwalk, hrest⟩ := ih (hone.walk.coherent hc)
      rcases h₂ : resolveEach resolveOne ids r₁ with ⟨outs, r₂⟩
      rw [h₂] at hwalk hrest
      have hall := hone.walk.trans hwalk
      cases outs with
      | error e => simpa [resolveEach, h₁, h₂] using hall
      | ok ts =>
        have hfound := hwalk.grows.cached (hone.found t rfl)
        simpa [resolveEach, h₁, h₂] using And.intro hall (And.intro hfound (hrest ts rfl))

theorem resolveWithin_cached {t : Table} (room : Nat) (ht : r.cached? id = some t) :
    resolveWithin room visiting id r = (.ok t, r) := by
  cases room <;> simp only [resolveWithin, ht]

theorem resolveWithin_visiting (room : Nat) (hn : r.cached? id = none) (hv : id ∈ visiting) :
    resolveWithin room visiting id r = (.error (.inheritanceCycle (visiting ++ [id])), r) := by
  cases room <;> simp only [resolveWithin, hn, if_pos hv]

theorem resolveWithin_zero (hn : r.cached? id = none) (hv : id ∉ visiting) :
    resolveWithin 0 visiting id r = (.error (.tooDeep (visiting.headD id) r.maxDepth), r) := by
  simp only [resolveWithin, hn, if_neg hv]

inductive Entered (room : Nat) (visiting : List DefinitionId) (id : DefinitionId) (r : Registry) :
    Except ResolveError Table × Registry → Prop where
  | unloaded {e r₁} : r.loadSource id = (.error e, r₁) → Entered room visiting id r (.error e, r₁)
  | blocked {d r₁ e r₂} : r.loadSource id = (.ok d, r₁) →
      resolveEach (resolveWithin room (visiting ++ [id])) d.ancestors r₁ = (.error e, r₂) →
      Entered room visiting id r (.error e, r₂)
  | reached {d r₁ parents r₂} : r.loadSource id = (.ok d, r₁) →
      resolveEach (resolveWithin room (visiting ++ [id])) d.ancestors r₁ = (.ok parents, r₂) →
      Entered room visiting id r (linkAndKeep d parents r₂)

theorem entered_resolveWithin (room : Nat) (hn : r.cached? id = none) (hv : id ∉ visiting) :
    Entered room visiting id r (resolveWithin (room + 1) visiting id r) := by
  simp only [resolveWithin, hn, if_neg hv]
  rcases h₁ : r.loadSource id with ⟨loaded, r₁⟩
  cases loaded with
  | error e => exact .unloaded h₁
  | ok d =>
    rcases h₂ : resolveEach (resolveWithin room (visiting ++ [id])) d.ancestors r₁ with ⟨out, r₂⟩
    cases out with
    | error e => simpa only [h₂] using Entered.blocked h₁ h₂
    | ok parents => simpa only [h₂] using Entered.reached h₁ h₂

theorem resolved_unchanged {e : ResolveError} (hn : r.cached? id = none) :
    Resolved visiting id r (.error e, r) :=
  ⟨.refl visiting r, (fun _ ht => nomatch ht), fun _ _ => hn⟩

theorem resolved_linkAndKeep {d : Definition} {parents : List Table}
    (hsource : r.source? d.id = some d) (hn : r.cached? d.id = none) (hv : d.id ∉ visiting)
    (hp : List.Forall₂ (fun a p => r.cached? a = some p) d.ancestors parents) :
    Resolved visiting d.id r (linkAndKeep d parents r) := by
  rcases h : linkAndKeep d parents r with ⟨out, r'⟩
  cases out with
  | error e =>
    rcases linkAndKeep_error h with ⟨-, rfl⟩ | ⟨t, -, -, -, rfl⟩
    · exact resolved_unchanged hn
    · exact ⟨walk_count r, (fun _ ht => nomatch ht), fun _ _ => hn⟩
  | ok t =>
    obtain ⟨hl, hdepth, rfl⟩ := linkAndKeep_ok h
    refine ⟨walk_keep hsource hn hv hp hl hdepth, ?_, fun _ he => nomatch he⟩
    intro u hu
    cases hu
    exact Dict.get?_insert_self _ _ _

theorem Resolved.after_walk {r' : Registry} {out : Except ResolveError Table × Registry}
    (hw : Walk visiting r r') (h : Resolved visiting id r' out) : Resolved visiting id r out :=
  ⟨hw.trans h.walk, h.found, h.missing⟩

theorem resolved_within (room : Nat) (hc : Coherent r) :
    Resolved visiting id r (resolveWithin room visiting id r) := by
  induction room generalizing visiting id r with
  | zero =>
    cases ht : r.cached? id with
    | some t =>
      rw [resolveWithin_cached 0 ht]
      exact ⟨.refl visiting r, fun u hu => Except.ok.inj hu ▸ ht, fun _ he => nomatch he⟩
    | none =>
      by_cases hv : id ∈ visiting
      · rw [resolveWithin_visiting 0 ht hv]
        exact resolved_unchanged ht
      · rw [resolveWithin_zero ht hv]
        exact resolved_unchanged ht
  | succ room ih =>
    cases ht : r.cached? id with
    | some t =>
      rw [resolveWithin_cached (room + 1) ht]
      exact ⟨.refl visiting r, fun u hu => Except.ok.inj hu ▸ ht, fun _ he => nomatch he⟩
    | none =>
      by_cases hv : id ∈ visiting
      · rw [resolveWithin_visiting (room + 1) ht hv]
        exact resolved_unchanged ht
      have hload : Walk (visiting ++ [id]) r (r.loadSource id).2 := walk_loadSource ht
      have hentered := entered_resolveWithin room ht hv
      generalize resolveWithin (room + 1) visiting id r = out at hentered
      cases hentered with
      | unloaded h₁ =>
        obtain ⟨rfl, -⟩ := loadSource_error h₁
        exact resolved_unchanged ht
      | @blocked d r₁ e r₂ h₁ h₂ =>
        rw [h₁] at hload
        obtain ⟨hwalk, -⟩ := resolved_each (fun a r hr => ih hr) d.ancestors
          (hload.coherent hc)
        rw [h₂] at hwalk
        have hall := hload.trans hwalk
        exact ⟨hall.of_append, (fun _ ht => nomatch ht), fun _ _ => hall.avoids id (by simp) ht⟩
      | @reached d r₁ parents r₂ h₁ h₂ =>
        rw [h₁] at hload
        have hc₁ := hload.coherent hc
        obtain ⟨hwalk, hrest⟩ := resolved_each (fun a r hr => ih hr) d.ancestors hc₁
        rw [h₂] at hwalk hrest
        have hall := hload.trans hwalk
        -- the definition itself was being visited, so nothing has put it in the cache meanwhile
        obtain ⟨-, hsource, -⟩ := loadSource_ok h₁
        obtain rfl := hc₁.keyed hsource
        exact (resolved_linkAndKeep (hwalk.grows.source hsource) (hall.avoids d.id (by simp) ht) hv
          (hrest parents rfl)).after_walk hall.of_append

theorem resolved_get (hc : Coherent r) (id : DefinitionId) : Resolved [] id r (r.get id) :=
  resolved_within (r.maxDepth + 1) hc

end Resolving

end Mudlib.Registry
