import Mudlib.Proofs.Space.Course
/-!
Relations between the space before and after, kept by every step that a computation can take and
therefore by all computations, whatever bodies they start and however these start each other.

A destruction that waits for its hooks is the one thing that makes a difference between steps: while
it waits, hooks of its own members are run, and only those.
-/
set_option autoImplicit false

namespace Mudlib

namespace Space

/-- A family of relations kept by every step. `R busy` is about what happens while a destruction
waits for the hooks of the instances in `busy`. -/
structure Stepwise (R : List InstanceId → Space → Space → Prop) : Prop where
  refl : ∀ busy s, R busy s s
  trans : ∀ {busy s s' s''}, R busy s s' → SamePending s s' → R busy s' s'' → R busy s s''
  wider : ∀ {busy s s'}, R [] s s' → R busy s s'
  resolved : ∀ s registry, R [] s { s with registry := registry }
  chained : ∀ s chain, R [] s { s with chain := chain }
  logged : ∀ s v, R [] s (s.record (.logged v))
  entered : ∀ s this owner method,
    R [] s (s.record (.entered this (s.state? this) owner method))
  hooked : ∀ {busy x}, x ∈ busy → ∀ s, R busy s (s.record (.hooked x))
  assigned : ∀ {s s' id field v}, s.assign id field v = .ok s' → R [] s s'
  attached : ∀ {s s' h a caller}, s.attach h a caller = some (.ok s') → R [] s s'
  detached : ∀ {s s' h a caller}, s.detach h a caller = .ok s' → R [] s s'
  allocated : ∀ s t owner privileged, R [] s (s.allocate t owner privileged)
  /-- An auxiliary is attached that was created for this. -/
  joined : ∀ {s₀ s host made}, s₀.instance? made = none → R [] s₀ s → SamePending s₀ s →
    R [] s₀ (s.join host made)
  torn : ∀ {s s₁ root order}, s.attachmentTree root = some order →
    s.state? root ≠ some .pendingDestroy → R order (s.markPending order) s₁ →
    SamePending (s.markPending order) s₁ → R [] s (s₁.tear root order)

def Held (R : List InstanceId → Space → Space → Prop) (busy : List InstanceId) (s s' : Space) :
    Prop :=
  R busy s s' ∧ SamePending s s'

theorem Stepwise.held {R : List InstanceId → Space → Space → Prop} (hR : Stepwise R)
    (busy : List InstanceId) : Run.Order (Held R busy) where
  refl := fun s => ⟨hR.refl busy s, samePending_order.refl s⟩
  trans := fun h h' => ⟨hR.trans h.1 h.2 h'.1, samePending_order.trans h.2 h'.2⟩

namespace Stepwise

variable {R : List InstanceId → Space → Space → Prop} (hR : Stepwise R) {s s' : Space}

include hR

theorem course {ran busy : List InstanceId} (h : Course ran s s') (hran : ∀ x ∈ ran, x ∈ busy) :
    R busy s s' := by
  induction h generalizing busy with
  | rest s => exact hR.refl busy s
  | onward hfirst _ ih ih' =>
    have hfirst' := ih fun x hx => hran x (List.mem_append_left _ hx)
    exact hR.trans hfirst' hfirst.samePending (ih' fun x hx => hran x (List.mem_append_right _ hx))
  | resolved s operation => exact hR.wider (hR.resolved s _)
  | chained s chain => exact hR.wider (hR.chained s chain)
  | logged s v => exact hR.wider (hR.logged s v)
  | entered s this owner method => exact hR.wider (hR.entered s this owner method)
  | hooked s x => exact hR.hooked (hran x (List.mem_singleton_self x)) s
  | assigned hs => exact hR.wider (hR.assigned hs)
  | attached hs => exact hR.wider (hR.attached hs)
  | detached hs => exact hR.wider (hR.detached hs)
  | @allocated s s₁ t definition owner ht _ =>
    obtain rfl := space_of_tableFor ht
    have hresolved := hR.resolved s (s.registry.after (.get definition))
    exact hR.wider
      (hR.trans hresolved (samePending_of_population rfl) (hR.allocated _ _ owner false))
  | joined host hnew _ hmade ih =>
    exact hR.wider (hR.joined hnew (ih (List.forall_mem_nil _)) hmade.samePending)
  | torn horder hroot _ hsub hhooks ih =>
    exact hR.wider (hR.torn horder hroot (ih fun x hx => hsub.subset hx) hhooks.samePending)

theorem held_course (h : Course [] s s') : Held R [] s s' :=
  ⟨hR.course h (List.forall_mem_nil _), h.samePending⟩

theorem lasting : Lasting (Held R []) where
  toOrder := hR.held []
  course := hR.held_course
  allocated := fun s t owner privileged =>
    ⟨hR.allocated s t owner privileged, samePending_allocate s t owner privileged⟩
  undone := by
    intro s root order horder hroot
    refine ⟨hR.torn horder hroot (hR.refl order _) (samePending_order.refl _), ?_⟩
    exact samePending_tear (tree_of_attachmentTree horder) (samePending_order.refl _)

end Stepwise

end Space

namespace Engine

open Space

structure Upholds (R : List InstanceId → Space → Space → Prop) (engine : Engine) : Prop where
  call : ∀ id m args caller, Run.Keeps (Held R []) (engine.call id m args caller)
  create : ∀ definition owner privileged allowPrototype,
    Run.Keeps (Held R []) (engine.create definition owner privileged allowPrototype)

namespace Upholds

variable {R : List InstanceId → Space → Space → Prop} {engine : Engine}
variable (hR : Stepwise R) (he : Upholds R engine)

include hR he

theorem runHook {busy : List InstanceId} (hook : String) {id : InstanceId} (hid : id ∈ busy) :
    Run.Keeps (Held R busy) (engine.runHook hook id) := by
  refine .bind (hR.held busy) (.ask (hR.held busy) _) fun found => ?_
  cases found with
  | none => exact .pure (hR.held busy) _
  | some m =>
    refine .bind (hR.held busy) (.modify fun s => ⟨hR.hooked hid s, ?_⟩) fun _ => ?_
    · exact samePending_of_population rfl
    · refine .bind (hR.held busy) (.attempt ⟨fun hcall => ?_⟩) fun _ => .pure (hR.held busy) _
      exact ((he.call _ _ _ _).holds hcall).imp_left hR.wider

theorem runHooks (withHooks : Bool) (order : List InstanceId) :
    Run.Keeps (Held R order) (engine.runHooks withHooks order) := by
  refine .bind (hR.held order) (.ask (hR.held order) _) fun hook => ?_
  cases hook with
  | none => exact .pure (hR.held order) _
  | some hook => exact .each (hR.held order) fun id hid => he.runHook hR hook hid

end Upholds

end Engine

namespace Space

theorem Stepwise.engine [Natives] {R : List InstanceId → Space → Space → Prop} (hR : Stepwise R)
    (bound : Nat) : (engine bound).Upholds R where
  call := fun id m args caller =>
    ⟨fun h => hR.held_course (((courses_engine bound).call id m args caller).holds h)⟩
  create := fun _ _ _ _ => ⟨fun h => hR.lasting.founding (founding_of_create h)⟩

end Space

end Mudlib
