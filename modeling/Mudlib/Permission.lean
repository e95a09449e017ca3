import Mudlib.Principal
/-!
Authorization. The caller is always given, never taken from the surroundings.

Privileged callers and owners may do everything. An instance may besides modify itself and manage its
own attachments, but not destroy itself.
-/
set_option autoImplicit false

namespace Mudlib

inductive Deed where
  | destroy
  /-- Assign a field from outside. -/
  | modify
  /-- Attach or detach auxiliaries. -/
  | attach
  deriving DecidableEq, Repr

inductive Refusal where
  | selfDestruction (target : InstanceId)
  | noControl (caller : Principal) (target : InstanceId)
  deriving DecidableEq, Repr

def Refusal.reason : Refusal → String
  | .selfDestruction target => target.text ++ " cannot destroy itself"
  | .noControl caller target =>
    caller.text ++ " is neither the owner of " ++ target.text ++ " nor privileged"

namespace Permission

/-- Whether a caller may do something to a target with this owner; none means yes. -/
def refusal? (caller : Principal) (privileged : Bool) (deed : Deed) (target : InstanceId)
    (owner : Principal) : Option Refusal :=
  if privileged then none
  else if caller.sameIdentity owner then none
  else if caller = .object target then
    match deed with
    | .modify | .attach => none
    | .destroy => some (.selfDestruction target)
  else some (.noControl caller target)

theorem refusal?_destroy_eq_none_iff (caller : Principal) (privileged : Bool) (target : InstanceId)
    (owner : Principal) :
    refusal? caller privileged .destroy target owner = none ↔
      privileged = true ∨ caller.sameIdentity owner = true := by
  unfold refusal?
  split
  next h => simp [h]
  next h =>
    split
    next ho => simp [ho]
    next ho => split <;> simp [h, ho]

theorem refusal?_eq_none_iff (caller : Principal) (privileged : Bool) (deed : Deed)
    (target : InstanceId) (owner : Principal) (h : deed ≠ .destroy) :
    refusal? caller privileged deed target owner = none ↔
      privileged = true ∨ caller.sameIdentity owner = true ∨ caller = .object target := by
  unfold refusal?
  split
  next hp => simp [hp]
  next hp =>
    split
    next ho => simp [ho]
    next ho =>
      split
      next hs => cases deed <;> simp_all
      next hs => simp [hp, ho, hs]

/-- A destruction is refused to the instance itself in other words than to everyone else. -/
theorem eq_of_refusal?_destroy {caller : Principal} {privileged : Bool} {target : InstanceId}
    {owner : Principal} {why : Refusal}
    (hr : refusal? caller privileged .destroy target owner = some why) :
    why = if caller = .object target then .selfDestruction target else .noControl caller target := by
  unfold refusal? at hr
  split at hr
  · cases hr
  · split at hr
    · cases hr
    · split at hr
      next hself =>
        rw [if_pos hself]
        exact (Option.some.inj hr).symm
      next hself =>
        rw [if_neg hself]
        exact (Option.some.inj hr).symm

theorem eq_noControl_of_refusal? {caller : Principal} {privileged : Bool} {deed : Deed}
    {target : InstanceId} {owner : Principal} {why : Refusal} (h : deed ≠ .destroy)
    (hr : refusal? caller privileged deed target owner = some why) :
    why = .noControl caller target := by
  unfold refusal? at hr
  split at hr
  · cases hr
  · split at hr
    · cases hr
    · split at hr
      · cases deed
        · exact absurd rfl h
        · cases hr
        · cases hr
      · exact (Option.some.inj hr).symm

end Permission

end Mudlib
