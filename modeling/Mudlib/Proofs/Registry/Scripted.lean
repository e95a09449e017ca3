import Mudlib.Proofs.Registry.Operations
set_option autoImplicit false

namespace Mudlib

inductive Implementation.Scripted : Implementation → Prop where
  | mk {stamp : Nat} {owner : DefinitionId} {name : String} {body : ScriptedBody}
      {calls : List (QualifiedCall × Implementation)} :
      (∀ b ∈ calls, Scripted b.2) → Scripted (.mk stamp owner name (.scripted body) calls)

def Table.Scripted (t : Table) : Prop :=
  ∀ name slot, t.methods.get? name = some slot → ∀ m ∈ slot.implementations, m.Scripted

def Definition.Scripted (d : Definition) : Prop :=
  ∀ name decl, d.methods.get? name = some decl → decl.body.isScripted = true

theorem Table.Scripted.method {t : Table} (h : t.Scripted) {name : String} {m : Implementation}
    (hm : t.method? name = some m) : m.Scripted := by
  obtain ⟨slot, hslot, hmem⟩ := Link.method?_eq_some hm
  exact h name slot hslot m hmem

variable {stamp : Nat} {d : Definition} {parents : List Table} {policy : AmbiguityPolicy} {t : Table}

theorem scripted_linkMethod {id : DefinitionId} {e : String × MethodDecl} {m : Implementation}
    (hp : ∀ p ∈ parents, p.Scripted) (he : e.2.body.isScripted = true)
    (h : Link.linkMethod stamp id parents policy e = .ok m) : m.Scripted := by
  obtain ⟨calls, hcalls, rfl⟩ := Link.linkMethod_eq_ok.mp h
  cases hbody : e.2.body with
  | native code =>
    rw [hbody] at he
    cases he
  | scripted body =>
    constructor
    intro b hb
    obtain ⟨call, -, hcall⟩ := exists_mem_of_forall₂ hcalls hb
    obtain ⟨target, htarget, rfl⟩ := map_eq_ok.mp hcall
    obtain ⟨p, hmem, hm, -⟩ := Link.resolveQualifiedCall_eq_ok htarget
    exact (hp p hmem).method hm

theorem scripted_link (hd : d.Scripted) (hp : ∀ p ∈ parents, p.Scripted)
    (h : link stamp d parents policy = .ok t) : t.Scripted := by
  intro name slot hslot m hm
  rcases mem_methods_of_link h hslot hm with ⟨p, hmem, s, hs, hm⟩ | ⟨decl, hdecl, hm⟩
  · exact hp p hmem name s hs m hm
  · exact scripted_linkMethod (e := (name, decl)) hp (hd name decl hdecl) hm

namespace Registry

structure Scripted (r : Registry) : Prop where
  coherent : Coherent r
  source : ∀ {id d}, r.source? id = some d → d.Scripted
  loadable : ∀ {id d}, r.loadable? id = some d → d.Scripted

def Operation.Scripted : Operation → Prop
  | .register d => d.Scripted
  | .compile d => d.Scripted
  | _ => True

namespace Scripted

variable {r r' : Registry} {id : DefinitionId}

theorem effective (h : Scripted r) (hd : r.effective? id = some d) : d.Scripted := by
  rcases Option.or_eq_some_iff.mp hd with hd | ⟨-, hd⟩
  · exact h.source hd
  · exact h.loadable hd

theorem cached (h : Scripted r) (ht : r.cached? id = some t) : t.Scripted := by
  refine h.coherent.of_parents (P := fun _ t => t.Scripted) ?_ ht
  intro id t d parents _ hd _ hp hl ih
  refine scripted_link (h.effective hd) ?_ hl
  intro p hmem
  obtain ⟨a, -, hap⟩ := exists_mem_of_forall₂ hp hmem
  exact ih a p hmem hap

theorem grows (h : Scripted r) (hc : Coherent r') (hg : Grows r r') : Scripted r' where
  coherent := hc
  source := by
    intro id d hd
    have heffective : r.effective? id = some d := by
      rw [← hg.effective]
      simp [effective?, hd]
    exact h.effective heffective
  loadable := by
    intro id d hd
    have hloadable : r.loadable? id = some d := by
      rw [loadable?, ← hg.loader]
      exact hd
    exact h.loadable hloadable

theorem get (h : Scripted r) (id : DefinitionId) : Scripted (r.get id).2 :=
  h.grows (h.coherent.get id) (resolved_get h.coherent id).walk.grows

theorem get_ok (h : Scripted r) (ht : (r.get id).1 = .ok t) : t.Scripted :=
  (h.get id).cached ((resolved_get h.coherent id).found t ht)

theorem register (h : Scripted r) (hd : d.Scripted) : Scripted (r.register d) where
  coherent := h.coherent.register d
  source := by
    intro id e he
    rw [source?, get?_sources_register] at he
    split at he
    · cases he
      exact hd
    · exact h.source he
  loadable := h.loadable

theorem restoreSource (h : Scripted r) {former : Option Definition}
    (hf : ∀ d, former = some d → d.Scripted) (hc : Coherent (r.restoreSource id former)) :
    Scripted (r.restoreSource id former) := by
  refine ⟨hc, ?_, ?_⟩
  · intro a d hd
    cases former with
    | none =>
      rw [source?, Registry.restoreSource, Dict.get?_erase] at hd
      split at hd
      · cases hd
      · exact h.source hd
    | some former =>
      rw [source?, Registry.restoreSource, Dict.get?_insert] at hd
      split at hd
      · exact hf d hd
      · exact h.source hd
  · intro a d hd
    cases former with
    | none => exact h.loadable hd
    | some former => exact h.loadable hd

theorem compile (h : Scripted r) (hd : d.Scripted) : Scripted (r.compile d).2 := by
  cases hu : r.unchanged? d with
  | some t =>
    rw [compile_unchanged hu]
    exact h
  | none =>
    have hget := (h.register hd).get d.id
    have hcoherent := h.coherent.compile d
    rcases hg : (r.register d).get d.id with ⟨out, r'⟩
    rw [hg] at hget
    cases out with
    | ok t =>
      rw [compile_ok hu hg]
      exact hget
    | error e =>
      rw [compile_error hu hg] at hcoherent ⊢
      exact hget.restoreSource (fun _ he => h.source he) hcoherent

theorem after (h : Scripted r) {operation : Operation} (ho : operation.Scripted) :
    Scripted (r.after operation) := by
  cases operation with
  | register d => exact h.register ho
  | compile d => exact h.compile ho
  | get id => exact h.get id
  | invalidate id => exact ⟨h.coherent.invalidate id, h.source, h.loadable⟩
  | unload id =>
    refine ⟨h.coherent.unload id, ?_, h.loadable⟩
    intro a d hd
    rw [source?, Registry.after, get?_sources_unload] at hd
    split at hd
    · cases hd
    · exact h.source hd

end Scripted

theorem scripted_empty (policy : AmbiguityPolicy) (maxDepth : Nat) {loader : Option Loader}
    (h : ∀ load id d, loader = some load → load id = .ok (some d) → d.Scripted) :
    Scripted (empty policy maxDepth loader) where
  coherent := coherent_empty policy maxDepth loader
  source := by
    intro id d hd
    cases hd
  loadable := by
    intro id d hd
    obtain ⟨load, hl, hload⟩ := loadable?_eq_some.mp hd
    exact h load id d hl hload

end Registry

end Mudlib
