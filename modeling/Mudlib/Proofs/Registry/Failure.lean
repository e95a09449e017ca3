import Mudlib.Proofs.Registry.BottomUp
set_option autoImplicit false

namespace Mudlib.Registry

/-- The error is raised at a definition at or above this one: the definition is met again on its own
chain or lies too deep, its source does not load, or its source does not link. -/
inductive RaisedAbove (r : Registry) (id : DefinitionId) (e : ResolveError) : Prop where
  | cycle (chain : List DefinitionId) : e = .inheritanceCycle chain → RaisedAbove r id e
  | depth (a : DefinitionId) : e = .tooDeep a r.maxDepth → RaisedAbove r id e
  | load (a : DefinitionId) : Above r.effective? id a →
      e = .unknownDefinition a ∨ (∃ fault, e = .source a fault) → RaisedAbove r id e
  | link (a : DefinitionId) (d : Definition) (parents : List Table) (r₁ : Registry) :
      Above r.effective? id a → r.effective? a = some d → d.id = a → Coherent r₁ → Grows r r₁ →
      List.Forall₂ (fun b p => r₁.cached? b = some p) d.ancestors parents →
      Mudlib.link r₁.linked d parents r₁.policy = .error e → RaisedAbove r id e

section Raising

variable {visiting : List DefinitionId} {id : DefinitionId} {r r₁ r' : Registry}
variable {e : ResolveError}

theorem RaisedAbove.of_above {a : DefinitionId} (hg : Grows r r₁) (ha : Above r.effective? id a)
    (h : RaisedAbove r₁ a e) : RaisedAbove r id e := by
  have hsources : r₁.effective? = r.effective? := funext hg.effective
  cases h with
  | cycle chain he => exact .cycle chain he
  | depth b he => exact .depth b (hg.maxDepth ▸ he)
  | load b hb he => exact .load b (ha.trans (hsources ▸ hb)) he
  | link b d parents r₂ hb hd hid hc hg₂ hp hl =>
    rw [hsources] at hb hd
    exact .link b d parents r₂ (ha.trans hb) hd hid hc (hg.trans hg₂) hp hl

theorem raised_each
    {resolveOne : DefinitionId → Registry → Except ResolveError Table × Registry}
    (hone : ∀ id r, Coherent r → Resolved visiting id r (resolveOne id r))
    (hraised : ∀ id r r' e, Coherent r → resolveOne id r = (.error e, r') → RaisedAbove r id e)
    (ids : List DefinitionId) (hc : Coherent r)
    (h : resolveEach resolveOne ids r = (.error e, r')) :
    ∃ a ∈ ids, ∃ r₁, Grows r r₁ ∧ RaisedAbove r₁ a e := by
  induction ids generalizing r with
  | nil => cases h
  | cons id ids ih =>
    have hwalk := (hone id r hc).walk
    rcases h₁ : resolveOne id r with ⟨out, r₁⟩
    rw [h₁] at hwalk
    cases out with
    | error e' =>
      simp only [resolveEach, h₁] at h
      cases h
      exact ⟨id, List.mem_cons_self, r, .refl r, hraised id r _ _ hc h₁⟩
    | ok t =>
      rcases h₂ : resolveEach resolveOne ids r₁ with ⟨outs, r₂⟩
      simp only [resolveEach, h₁, h₂] at h
      cases outs with
      | error e' =>
        cases h
        obtain ⟨a, ha, r₃, hg, hr⟩ := ih (hwalk.coherent hc) h₂
        exact ⟨a, List.mem_cons_of_mem _ ha, r₃, hwalk.grows.trans hg, hr⟩
      | ok ts => cases h

theorem raised_within (room : Nat) (hc : Coherent r)
    (h : resolveWithin room visiting id r = (.error e, r')) : RaisedAbove r id e := by
  induction room generalizing visiting id r r' e with
  | zero =>
    cases ht : r.cached? id with
    | some t =>
      rw [resolveWithin_cached 0 ht] at h
      cases h
    | none =>
      by_cases hv : id ∈ visiting
      · rw [resolveWithin_visiting 0 ht hv] at h
        cases h
        exact .cycle _ rfl
      · rw [resolveWithin_zero ht hv] at h
        cases h
        exact .depth _ rfl
  | succ room ih =>
    cases ht : r.cached? id with
    | some t =>
      rw [resolveWithin_cached (room + 1) ht] at h
      cases h
    | none =>
      by_cases hv : id ∈ visiting
      · rw [resolveWithin_visiting (room + 1) ht hv] at h
        cases h
        exact .cycle _ rfl
      have hload : Walk (visiting ++ [id]) r (r.loadSource id).2 := walk_loadSource ht
      have hentered := entered_resolveWithin room ht hv
      rw [h] at hentered
      generalize hout : (Except.error e, r') = out at hentered
      cases hentered with
      | unloaded h₁ =>
        cases hout
        obtain ⟨-, -, he, -⟩ := loadSource_error h₁
        exact .load id .refl he
      | @blocked d r₁ e r₂ h₁ h₂ =>
        cases hout
        rw [h₁] at hload
        obtain ⟨heff, -, -⟩ := loadSource_ok h₁
        -- what is raised at or above an ancestor is raised above the definition
        obtain ⟨a, ha, r₃, hg, hr⟩ := raised_each (fun a r hr => resolved_within room hr)
          (fun _ _ _ _ hr he => ih hr he) d.ancestors (hload.coherent hc) h₂
        exact hr.of_above (hload.grows.trans hg) (.single ⟨d, heff, ha⟩)
      | @reached d r₁ parents r₂ h₁ h₂ =>
        rw [h₁] at hload
        have hc₁ := hload.coherent hc
        obtain ⟨heff, hsource, -⟩ := loadSource_ok h₁
        obtain ⟨hwalk, hp⟩ := resolved_each (fun a r hr => resolved_within room hr) d.ancestors hc₁
        rw [h₂] at hwalk hp
        have hall := hload.trans hwalk
        rcases linkAndKeep_error hout.symm with ⟨hl, -⟩ | ⟨-, -, -, he, -⟩
        · exact .link id d parents r₂ .refl heff (hc₁.keyed hsource) (hall.coherent hc)
            hall.grows (hp parents rfl) hl
        · exact .depth d.id (hall.grows.maxDepth ▸ he)

theorem raised_get (hc : Coherent r) (h : r.get id = (.error e, r')) : RaisedAbove r id e :=
  raised_within (r.maxDepth + 1) hc h

end Raising

end Mudlib.Registry
