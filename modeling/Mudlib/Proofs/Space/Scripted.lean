import Mudlib.Space.Operations
import Mudlib.Proofs.Registry.Scripted
import Mudlib.Proofs.Space.Guards
import Mudlib.Proofs.Space.Steps
import Mudlib.Proofs.Space.Tidiness
set_option autoImplicit false

namespace Mudlib

namespace Space

def Retouched (before after : Option Instance) : Prop :=
  after = before ∨ ∃ i fields, before = some i ∧ i.state ≠ .destroyed ∧
    after = some { i with fields := fields }

structure Touched (which : InstanceId → Prop) (s s' : Space) : Prop where
  registry : s'.registry = s.registry
  others : ∀ {x}, ¬ which x → s'.instance? x = s.instance? x
  each : ∀ x, Retouched (s.instance? x) (s'.instance? x)

variable {which : InstanceId → Prop} {s s' s'' : Space} {id x : InstanceId}

theorem Retouched.trans {a b c : Option Instance} (h : Retouched a b) (h' : Retouched b c) :
    Retouched a c := by
  rcases h with rfl | ⟨i, fields, rfl, hd, rfl⟩
  · exact h'
  · rcases h' with rfl | ⟨j, fields', hj, -, rfl⟩
    · exact .inr ⟨i, fields, rfl, hd, rfl⟩
    · cases hj
      exact .inr ⟨i, fields', rfl, hd, rfl⟩

theorem touched_order (which : InstanceId → Prop) : Run.Order (Touched which) where
  refl := fun _ => ⟨rfl, fun _ => rfl, fun _ => .inl rfl⟩
  trans := fun h h' =>
    ⟨h'.registry.trans h.registry, fun hx => (h'.others hx).trans (h.others hx),
      fun x => (h.each x).trans (h'.each x)⟩

namespace Touched

theorem any (h : Touched which s s') : Touched (fun _ => True) s s' :=
  ⟨h.registry, fun hx => absurd trivial hx, h.each⟩

theorem map_instance? {β : Type} (h : Touched which s s') (g : Instance → β)
    (hg : ∀ i fields, g { i with fields := fields } = g i) (x : InstanceId) :
    (s'.instance? x).map g = (s.instance? x).map g := by
  rcases h.each x with heq | ⟨i, fields, hi, -, hi'⟩
  · rw [heq]
  · rw [hi, hi', Option.map_some, Option.map_some, hg]

theorem sameLinks (h : Touched which s s') : SameLinks s s' where
  state := h.map_instance? Instance.state fun _ _ => rfl
  host := by
    intro x
    rw [host?_eq_join, h.map_instance? Instance.host fun _ _ => rfl, host?_eq_join]
  attached := by
    intro x
    rw [attached, h.map_instance? Instance.attachments fun _ _ => rfl, attached]

theorem table? (h : Touched which s s') (x : InstanceId) : s'.table? x = s.table? x :=
  h.map_instance? Instance.table (fun _ _ => rfl) x

theorem fields?_of_destroyed (h : Touched which s s') (hx : s.state? x = some .destroyed) :
    s'.fields? x = s.fields? x := by
  rcases h.each x with heq | ⟨i, fields, hi, hd, -⟩
  · rw [fields?, heq, fields?]
  · rw [state?, hi] at hx
    exact absurd (Option.some.inj hx) hd

end Touched

theorem touched_record (s : Space) (e : Event) : Touched which s (s.record e) :=
  ⟨rfl, fun _ => rfl, fun _ => .inl rfl⟩

theorem touched_assign {field : String} {v : Value} (h : s.assign id field v = .ok s') :
    Touched (· = id) s s' := by
  obtain ⟨i, hi, hd, rfl⟩ := assign_eq_ok h
  refine ⟨rfl, fun hx => instance?_update_of_ne s _ hx, ?_⟩
  intro x
  by_cases hx : x = id
  · subst hx
    exact .inr ⟨i, _, hi, hd, by rw [instance?_update_self, hi]; rfl⟩
  · exact .inl (instance?_update_of_ne s _ hx)

theorem touched_callWithin [Natives] (bound : Nat) {m : Implementation} (hm : m.Scripted)
    (id : InstanceId) (args : List Value) (caller : Principal) :
    Run.Keeps (Touched (· = id)) (callWithin bound id m args caller) := by
  have hR := touched_order (· = id)
  induction bound generalizing m args caller with
  | zero => exact .diverge
  | succ n ih =>
    cases hm with
    | @mk stamp owner name body calls hcalls =>
      refine .bind hR (.modify fun s => touched_record s _) fun _ => ?_
      refine .bind hR (.each hR fun b hb => ?_) fun _ => ?_
      · exact .bind hR (ih (hcalls b hb) _ _) fun _ => .pure hR _
      · exact .bind hR (.each hR fun a _ => .change hR touched_assign) fun _ => .pure hR _

structure Scripted (s : Space) : Prop where
  registry : s.registry.Scripted
  table : ∀ {x t}, s.table? x = some t → t.Scripted

theorem Scripted.of_table? (h : Scripted s) (hr : s'.registry = s.registry)
    (ht : ∀ x, s'.table? x = s.table? x) : Scripted s' :=
  ⟨hr ▸ h.registry, fun {x _} hx => h.table (ht x ▸ hx)⟩

theorem Touched.scripted (h : Touched which s s') (hs : Scripted s) : Scripted s' :=
  hs.of_table? h.registry h.table?

theorem Scripted.hook (h : Scripted s) {hook : String} {m : Implementation}
    (hm : s.hookOf? id hook = some m) : m.Scripted := by
  obtain ⟨i, hi, hm⟩ := Option.bind_eq_some_iff.mp hm
  have htable : s.table? id = some i.table := by rw [table?, hi, Option.map_some]
  exact (h.table htable).method hm

theorem Scripted.allocate (h : Scripted s) {t : Table} (ht : t.Scripted) (owner : Principal)
    (privileged : Bool) : Scripted (s.allocate t owner privileged) where
  registry := h.registry
  table := by
    intro x u hu
    rw [table?, instance?_allocate] at hu
    split at hu
    · cases hu
      exact ht
    · exact h.table hu

end Space

namespace Engine

open Space

variable [Natives] {s s' : Space}

theorem touched_runHook {bound : Nat} {hook : String} {id : InstanceId}
    {out : Except RuntimeError Unit} (hs : Scripted s)
    (h : (engine bound).runHook hook id s = some (out, s')) : Touched (fun _ => True) s s' := by
  have hR := touched_order fun _ => True
  rw [runHook_eq] at h
  split at h
  · cases h
    exact hR.refl s
  next m hm =>
    obtain ⟨r, hr, heq⟩ := Option.map_eq_some_iff.mp h
    cases heq
    have hcall := touched_callWithin bound (hs.hook hm) id [] .system
    exact hR.trans (touched_record s _) (hcall.holds hr).any

theorem touched_each_runHook {bound : Nat} {hook : String} {order : List InstanceId}
    {out : Except RuntimeError Unit} (hs : Scripted s)
    (h : Run.each ((engine bound).runHook hook) order s = some (out, s')) :
    Touched (fun _ => True) s s' := by
  have hR := touched_order fun _ => True
  induction order generalizing s with
  | nil =>
    cases h
    exact hR.refl _
  | cons id order ih =>
    rcases Run.bind_eq_some h with ⟨e, he, -⟩ | ⟨_, s₁, hone, h⟩
    · exact touched_runHook hs he
    · have ht := touched_runHook hs hone
      exact hR.trans ht (ih (ht.scripted hs) h)

theorem touched_runHooks {bound : Nat} {withHooks : Bool} {order : List InstanceId}
    {out : Except RuntimeError Unit} (hs : Scripted s)
    (h : (engine bound).runHooks withHooks order s = some (out, s')) :
    Touched (fun _ => True) s s' := by
  rw [runHooks_eq] at h
  split at h
  · cases h
    exact (touched_order _).refl s
  · exact touched_each_runHook hs h

end Engine

end Mudlib
