import Mudlib.Proofs.Registry.BottomUp
set_option autoImplicit false

namespace Mudlib.Registry

variable {visiting : List DefinitionId} {id a : DefinitionId} {r r₀ : Registry} {d : Definition}

structure Reached (r₀ r : Registry) : Prop where
  coherent : Coherent r
  effective : r.effective? = r₀.effective?
  policy : r.policy = r₀.policy
  maxDepth : r.maxDepth = r₀.maxDepth

theorem Reached.refl (h : Coherent r) : Reached r r := ⟨h, rfl, rfl, rfl⟩

theorem Reached.walk {r' : Registry} (h : Reached r₀ r) (hw : Walk visiting r r') :
    Reached r₀ r' where
  coherent := hw.coherent h.coherent
  effective := (funext hw.grows.effective).trans h.effective
  policy := hw.grows.policy.trans h.policy
  maxDepth := hw.grows.maxDepth.trans h.maxDepth

theorem resolveEach_succeeds
    {resolveOne : DefinitionId → Registry → Except ResolveError Table × Registry}
    {ids : List DefinitionId} (hr : Reached r₀ r)
    (h : ∀ a ∈ ids, ∀ r, Reached r₀ r →
      (∃ t, (resolveOne a r).1 = .ok t) ∧ Reached r₀ (resolveOne a r).2) :
    ∃ ts, (resolveEach resolveOne ids r).1 = .ok ts := by
  induction ids generalizing r with
  | nil => exact ⟨[], rfl⟩
  | cons a ids ih =>
    obtain ⟨⟨t, ht⟩, hr₁⟩ := h a List.mem_cons_self r hr
    rcases h₁ : resolveOne a r with ⟨out, r₁⟩
    rw [h₁] at ht hr₁
    obtain rfl : out = .ok t := ht
    obtain ⟨ts, hts⟩ := ih hr₁ fun b hb => h b (List.mem_cons_of_mem _ hb)
    rcases h₂ : resolveEach resolveOne ids r₁ with ⟨outs, r₂⟩
    rw [h₂] at hts
    obtain rfl : outs = .ok ts := hts
    exact ⟨t :: ts, by simp only [resolveEach, h₁, h₂]⟩

theorem loadSource_succeeds (hd : r.effective? id = some d) (hid : d.id = id) :
    (r.loadSource id).1 = .ok d := by
  rcases h : r.loadSource id with ⟨out, r'⟩
  cases out with
  | error e =>
    obtain ⟨-, -, -, hother⟩ := loadSource_error h
    exact absurd hid (hother d hd)
  | ok e =>
    obtain ⟨he, -, -⟩ := loadSource_ok h
    rw [hd] at he
    cases he
    rfl

theorem linkAndKeep_succeeds {parents : List Table} (hc : Coherent r)
    (h : Resolvable r.effective? r.policy r.maxDepth d.id) (hd : r.effective? d.id = some d)
    (hp : List.Forall₂ (fun a p => r.cached? a = some p) d.ancestors parents) :
    ∃ t, (linkAndKeep d parents r).1 = .ok t := by
  obtain ⟨tables, hb⟩ := h.linkable
  have heq : ∀ a, ∀ p ∈ parents, r.cached? a = some p → a ∈ d.ancestors →
      tables a = p.restamp fun b => (tables b).stamp := fun a p _ hap ha =>
    hc.bottomUp_eq (hb.of_above (.single ⟨d, hd, ha⟩)) hap
  have hmap := hc.link_bottomUp hb hd rfl hp heq r.linked
  obtain ⟨t, hl, -⟩ := map_eq_ok.mp hmap
  obtain ⟨path, hpath, hlength⟩ := Coherent.exists_chain_of_parents hd hp
    fun a p _ hap => hc.exists_chain hap
  have hdepth : t.depth ≤ r.maxDepth := by
    rw [depth_of_link hl, ← hlength]
    exact h.shallow hpath
  exact ⟨t, by simp only [linkAndKeep, hl, if_neg (Nat.not_lt.mpr hdepth)]⟩

theorem Resolvable.weaken {sources : DefinitionId → Option Definition} {policy : AmbiguityPolicy}
    {m n : Nat} (h : Resolvable sources policy m id) (hmn : m ≤ n) :
    Resolvable sources policy n id :=
  ⟨h.sourced, h.acyclic, fun hpath => Nat.le_trans (h.shallow hpath) hmn, h.linkable⟩

theorem succeeds_of_ancestors {n room : Nat} (hr : Reached r₀ r)
    (h : Resolvable r₀.effective? r₀.policy n id) (hn : n ≤ r₀.maxDepth)
    (hv : ∀ a ∈ visiting, ¬ Above r₀.effective? id a)
    (hancestors : ∀ a, Inherits r₀.effective? id a → ∀ r, Reached r₀ r →
      ∃ t, (resolveWithin room (visiting ++ [id]) a r).1 = .ok t) :
    ∃ t, (resolveWithin (room + 1) visiting id r).1 = .ok t := by
  cases ht : r.cached? id with
  | some t => exact ⟨t, by rw [resolveWithin_cached _ ht]⟩
  | none =>
    have hid : id ∉ visiting := fun hmem => hv id hmem .refl
    have hentered := entered_resolveWithin room ht hid
    generalize resolveWithin (room + 1) visiting id r = out at hentered
    obtain ⟨d, hd, hdid⟩ := h.sourced .refl
    rw [← hr.effective] at hd
    have hload := loadSource_succeeds hd hdid
    have hwalk : Walk (visiting ++ [id]) r (r.loadSource id).2 := walk_loadSource ht
    have hsucceeds : ∀ r₁, Reached r₀ r₁ → ∃ ts,
        (resolveEach (resolveWithin room (visiting ++ [id])) d.ancestors r₁).1 = .ok ts := by
      intro r₁ hr₁
      refine resolveEach_succeeds hr₁ ?_
      intro a ha r₂ hr₂
      exact ⟨hancestors a ⟨d, hr.effective ▸ hd, ha⟩ r₂ hr₂,
        hr₂.walk (resolved_within room hr₂.coherent).walk⟩
    cases hentered with
    | unloaded h₁ => rw [h₁] at hload; cases hload
    | @blocked d' r₁ e r₂ h₁ h₂ =>
      rw [h₁] at hload hwalk
      cases hload
      obtain ⟨ts, hts⟩ := hsucceeds r₁ (hr.walk hwalk)
      rw [h₂] at hts
      cases hts
    | @reached d' r₁ parents r₂ h₁ h₂ =>
      rw [h₁] at hload hwalk
      cases hload
      have hr₁ := hr.walk hwalk
      obtain ⟨hwalk₂, hp⟩ := resolved_each
        (fun a r hr => resolved_within room hr) d.ancestors hr₁.coherent
      rw [h₂] at hwalk₂ hp
      have hr₂ := hr₁.walk hwalk₂
      subst hdid
      refine linkAndKeep_succeeds hr₂.coherent ?_ ?_ (hp parents rfl)
      · rw [hr₂.effective, hr₂.policy, hr₂.maxDepth]
        exact h.weaken hn
      · rw [hr₂.effective, ← hr.effective]
        exact hd

theorem succeeds_within {n : Nat} (hr : Reached r₀ r)
    (h : Resolvable r₀.effective? r₀.policy n id) (hn : n ≤ r₀.maxDepth)
    (hv : ∀ a ∈ visiting, ¬ Above r₀.effective? id a) :
    ∃ t, (resolveWithin (n + 1) visiting id r).1 = .ok t := by
  induction n generalizing visiting id r with
  | zero => exact succeeds_of_ancestors hr h hn hv fun a ha => absurd ha h.not_inherits
  | succ n ih =>
    refine succeeds_of_ancestors hr h hn hv ?_
    intro a ha r₁ hr₁
    refine ih hr₁ (h.of_inherits ha) (Nat.le_of_succ_le hn) ?_
    intro b hb hab
    -- what is being visited is not above an ancestor, or there would be a cycle
    rcases List.mem_append.mp hb with hb | hb
    · exact hv b hb (.head ha hab)
    · obtain rfl := List.mem_singleton.mp hb
      exact h.acyclic .refl (.head' ha hab)

namespace Coherent

theorem get_ok_iff_resolvable (h : Coherent r) (id : DefinitionId) :
    (∃ t, (r.get id).1 = .ok t) ↔ Resolvable r.effective? r.policy r.maxDepth id := by
  constructor
  · intro hok
    obtain ⟨t, ht⟩ := hok
    have hresolved := resolved_get h id
    have hr := (Reached.refl h).walk hresolved.walk
    have hres := hr.coherent.resolvable_of_cached (hresolved.found t ht)
    rwa [hr.effective, hr.policy, hr.maxDepth] at hres
  · intro hres
    exact succeeds_within (.refl h) hres (Nat.le_refl _) (by simp)

theorem get_eq_bottomUp (h : Coherent r) {t : Table} (ht : (r.get id).1 = .ok t)
    {tables : DefinitionId → Table} (hb : BottomUp r.effective? r.policy id tables) :
    tables id = t.restamp fun a => (tables a).stamp := by
  have hresolved := resolved_get h id
  have hr := (Reached.refl h).walk hresolved.walk
  rw [← hr.effective, ← hr.policy] at hb
  exact hr.coherent.bottomUp_eq hb (hresolved.found t ht)

end Coherent

/-- The operation leaves the sources as they are: it looks an id up, drops tables, or compiles in
vain. -/
def Operation.Idle (r : Registry) : Operation → Prop
  | .get _ => True
  | .invalidate _ => True
  | .compile d => ∃ e, (r.compile d).1 = .error e
  | _ => False

abbrev Idles : Registry → Registry → Prop :=
  Relation.ReflTransGen fun r r' => ∃ operation, Operation.Idle r operation ∧ r' = r.after operation

theorem Reached.idle {operation : Operation} (h : Reached r₀ r) (hidle : operation.Idle r) :
    Reached r₀ (r.after operation) := by
  have hsame := sameSettings_after h.coherent operation
  refine ⟨h.coherent.after operation, .trans ?_ h.effective, hsame.policy.trans h.policy,
    hsame.maxDepth.trans h.maxDepth⟩
  cases operation with
  | register d => cases hidle
  | unload id => cases hidle
  | invalidate id => rfl
  | get id => exact funext (resolved_get h.coherent id).walk.grows.effective
  | compile d =>
    obtain ⟨e, he⟩ := hidle
    rcases hout : r.compile d with ⟨out, r'⟩
    rw [hout] at he
    obtain rfl : out = .error e := he
    have heffective := effective?_compile_error h.coherent hout
    simp only [after, hout]
    exact funext heffective

theorem Reached.idles (h : Reached r₀ r) {r' : Registry} (hidles : Idles r r') : Reached r₀ r' := by
  induction hidles with
  | refl => exact h
  | tail _ hstep ih =>
    obtain ⟨operation, hidle, rfl⟩ := hstep
    exact ih.idle hidle

/-- In every state that operations can bring about, a definition has a table exactly when the
sources above it can be linked bottom-up, and it is the table made so, with the linkings numbered as
they were made there. What was looked up, dropped or tried in vain in between changes neither. -/
theorem get_agrees_bottomUp (policy : AmbiguityPolicy) (maxDepth : Nat) (loader : Option Loader)
    (operations : List Operation) (id : DefinitionId) :
    let r := (empty policy maxDepth loader).afterAll operations
    ((∃ t, (r.get id).1 = .ok t) ↔ Resolvable r.effective? policy maxDepth id) ∧
    (∀ t tables, (r.get id).1 = .ok t → BottomUp r.effective? policy id tables →
      tables id = t.restamp fun a => (tables a).stamp) ∧
    ∀ r', Idles r r' → ((∃ t, (r'.get id).1 = .ok t) ↔ ∃ t, (r.get id).1 = .ok t) ∧
      ∀ t t', (r.get id).1 = .ok t → (r'.get id).1 = .ok t' → t'.Alike t := by
  intro r
  have hc : Coherent r := coherent_afterAll policy maxDepth loader operations
  have hsame := sameSettings_afterAll (coherent_empty policy maxDepth loader) operations
  have hpolicy : r.policy = policy := hsame.policy
  have hdepth : r.maxDepth = maxDepth := hsame.maxDepth
  have hiff := hc.get_ok_iff_resolvable id
  refine ⟨by rwa [hpolicy, hdepth] at hiff, ?_, ?_⟩
  · intro t tables ht hb
    exact hc.get_eq_bottomUp ht (hpolicy ▸ hb)
  · intro r' hidles
    have hr' := (Reached.refl hc).idles hidles
    have hiff' := hr'.coherent.get_ok_iff_resolvable id
    rw [hr'.effective, hr'.policy, hr'.maxDepth] at hiff'
    refine ⟨hiff'.trans hiff.symm, ?_⟩
    intro t t' ht ht'
    obtain ⟨tables, hb⟩ := (hiff.mp ⟨t, ht⟩).linkable
    have heq := hc.get_eq_bottomUp ht hb
    rw [← hr'.effective, ← hr'.policy] at hb
    have heq' := hr'.coherent.get_eq_bottomUp ht' hb
    exact (Table.alike_restamp _ t').symm.trans (heq' ▸ heq ▸ Table.alike_restamp _ t)

end Mudlib.Registry
