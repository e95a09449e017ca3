import Mathlib.Data.List.Perm.Basic
import Mudlib.Proofs.Space.Scripted
/-!
A scripted method as one sequence of starts and assignments.

The tree of its bound calls is laid out flat: each body starts, makes its calls, and then assigns its
fields. Running the method is taking these steps, up to the first assignment that is refused.
-/
set_option autoImplicit false

namespace Mudlib

namespace Run

variable {α β γ : Type}

theorem bind_assoc (m : Run α) (f : α → Run β) (g : β → Run γ) :
    ((m >>= f) >>= g) = m >>= fun a => f a >>= g := by
  funext s
  simp only [bind_apply]
  rcases m s with _ | ⟨_ | _, s₁⟩ <;> rfl

theorem bind_pure_unit (m : Run Unit) : (m >>= fun _ => (pure () : Run Unit)) = m := by
  funext s
  simp only [bind_apply]
  rcases m s with _ | ⟨_ | _, s₁⟩ <;> rfl

theorem each_append (f : α → Run Unit) (as bs : List α) :
    each f (as ++ bs) = each f as >>= fun _ => each f bs := by
  induction as with
  | nil => rfl
  | cons a as ih => rw [List.cons_append, each_cons, each_cons, bind_assoc, ih]

theorem each_map (f : β → Run Unit) (g : α → β) (as : List α) :
    each f (as.map g) = each (fun a => f (g a)) as := by
  induction as with
  | nil => rfl
  | cons a as ih => rw [List.map_cons, each_cons, each_cons, ih]

theorem each_flatMap (f : β → Run Unit) (g : α → List β) (as : List α) :
    each f (as.flatMap g) = each (fun a => each f (g a)) as := by
  induction as with
  | nil => rfl
  | cons a as ih => rw [List.flatMap_cons, each_append, each_cons, ih]

/-- The first does what the second does, where it comes to an end. -/
def Approximates (m m' : Run α) : Prop := ∀ s, m s = none ∨ m s = m' s

namespace Approximates

theorem refl (m : Run α) : Approximates m m := fun _ => .inr rfl

theorem bind {m m' : Run α} {f f' : α → Run β} (h : Approximates m m')
    (hf : ∀ a, Approximates (f a) (f' a)) : Approximates (m >>= f) (m' >>= f') := by
  intro s
  simp only [bind_apply]
  rcases h s with hm | hm
  · exact .inl (by rw [hm])
  · rw [← hm]
    rcases m s with _ | ⟨e | a, s₁⟩
    · exact .inl rfl
    · exact .inr rfl
    · exact hf a s₁

theorem each {f f' : α → Run Unit} {as : List α} (h : ∀ a ∈ as, Approximates (f a) (f' a)) :
    Approximates (Run.each f as) (Run.each f' as) := by
  induction as with
  | nil => exact refl _
  | cons a as ih =>
    exact (h a List.mem_cons_self).bind fun _ => ih fun b hb => h b (List.mem_cons_of_mem _ hb)

theorem eq_some {m m' : Run α} {s s' : Space} {out : Except RuntimeError α}
    (h : Approximates m m') (hm : m s = some (out, s')) : m' s = some (out, s') := by
  rcases h s with hn | heq
  · rw [hn] at hm
    cases hm
  · rw [← heq, hm]

end Approximates

def Ends (m : Run α) : Prop := ∀ s, m s ≠ none

theorem Ends.bind {m : Run α} {f : α → Run β} (h : Ends m) (hf : ∀ a, Ends (f a)) :
    Ends (m >>= f) := by
  intro s
  simp only [bind_apply]
  rcases hm : m s with _ | ⟨e | a, s₁⟩
  · exact absurd hm (h s)
  · exact Option.some_ne_none _
  · exact hf a s₁

theorem Ends.each {f : α → Run Unit} {as : List α} (h : ∀ a ∈ as, Ends (f a)) :
    Ends (Run.each f as) := by
  induction as with
  | nil => exact fun s => Option.some_ne_none _
  | cons a as ih =>
    exact (h a List.mem_cons_self).bind fun _ => ih fun b hb => h b (List.mem_cons_of_mem _ hb)

theorem ends_change (step : Space → Except RuntimeError Space) : Ends (Run.change step) := by
  intro s
  unfold Run.change
  split <;> exact Option.some_ne_none _

end Run

inductive Act where
  | start (m : Implementation)
  | write (field : String) (v : Value)

namespace Act

def start? : Act → Option Implementation
  | .start m => some m
  | .write _ _ => none

def write? : Act → Option (String × Value)
  | .start _ => none
  | .write field v => some (field, v)

def perform (id : InstanceId) : Act → Run Unit
  | .start m => Run.modify fun s => s.record (.entered id (s.state? id) m.owner m.name)
  | .write field v => Run.change fun s => s.assign id field v

end Act

namespace Implementation

def assignments (m : Implementation) : List (String × Value) :=
  match m.body with
  | .native _ => []
  | .scripted body => body.assign.toList

def returns (m : Implementation) : Value :=
  match m.body with
  | .native _ => .null
  | .scripted body => body.returns

mutual

/-- The implementations in the tree of bound calls, what is called before what calls it, each as many
times as it is called. -/
def postOrder : Implementation → List Implementation
  | .mk stamp owner name body calls =>
    postOrderOfCalls calls ++ [.mk stamp owner name body calls]
termination_by structural m => m

def postOrderOfCalls : List (QualifiedCall × Implementation) → List Implementation
  | [] => []
  | (_, m) :: rest => m.postOrder ++ postOrderOfCalls rest
termination_by structural calls => calls

end

mutual

def acts : Implementation → List Act
  | .mk stamp owner name body calls =>
    .start (.mk stamp owner name body calls) :: (actsOfCalls calls ++
      (assignments (.mk stamp owner name body calls)).map fun a => .write a.1 a.2)
termination_by structural m => m

def actsOfCalls : List (QualifiedCall × Implementation) → List Act
  | [] => []
  | (_, m) :: rest => m.acts ++ actsOfCalls rest
termination_by structural calls => calls

end

def writes (m : Implementation) : List (String × Value) := m.postOrder.flatMap assignments

def starts (m : Implementation) : List Implementation := m.acts.filterMap Act.start?

theorem postOrderOfCalls_eq (calls : List (QualifiedCall × Implementation)) :
    postOrderOfCalls calls = calls.flatMap fun b => b.2.postOrder := by
  induction calls with
  | nil => rfl
  | cons b calls ih => rw [postOrderOfCalls, ih, List.flatMap_cons]

theorem actsOfCalls_eq (calls : List (QualifiedCall × Implementation)) :
    actsOfCalls calls = calls.flatMap fun b => b.2.acts := by
  induction calls with
  | nil => rfl
  | cons b calls ih => rw [actsOfCalls, ih, List.flatMap_cons]

variable {m : Implementation}

theorem writes_mk (stamp : Nat) (owner : DefinitionId) (name : String) (body : Body)
    (calls : List (QualifiedCall × Implementation)) :
    writes (.mk stamp owner name body calls) =
      (calls.flatMap fun b => b.2.writes) ++ assignments (.mk stamp owner name body calls) := by
  rw [writes, postOrder, postOrderOfCalls_eq, List.flatMap_append, List.flatMap_assoc,
    List.flatMap_singleton]
  rfl

theorem starts_mk (stamp : Nat) (owner : DefinitionId) (name : String) (body : Body)
    (calls : List (QualifiedCall × Implementation)) :
    starts (.mk stamp owner name body calls) =
      .mk stamp owner name body calls :: calls.flatMap fun b => b.2.starts := by
  have hown : ∀ as : List (String × Value),
      (as.map fun a => Act.write a.1 a.2).filterMap Act.start? = [] := by
    intro as
    simp [Act.start?]
  rw [starts, acts, actsOfCalls_eq, List.filterMap_cons_some (f := Act.start?) rfl,
    List.filterMap_append, hown, List.append_nil, List.filterMap_flatMap]
  rfl

theorem filterMap_write?_acts (hm : m.Scripted) : m.acts.filterMap Act.write? = m.writes := by
  induction hm with
  | @mk stamp owner name body calls _ ih =>
    have hown : ∀ as : List (String × Value),
        (as.map fun a => Act.write a.1 a.2).filterMap Act.write? = as := by
      intro as
      simp [List.filterMap_map, Function.comp_def, Act.write?]
    rw [acts, actsOfCalls_eq, List.filterMap_cons_none rfl, List.filterMap_append, hown,
      List.filterMap_flatMap, List.flatMap_congr ih, writes_mk]

/-- Every body starts as many times as it is called. -/
theorem starts_perm_postOrder (hm : m.Scripted) : m.starts.Perm m.postOrder := by
  induction hm with
  | @mk stamp owner name body calls _ ih =>
    rw [starts_mk, postOrder, postOrderOfCalls_eq]
    exact ((List.Perm.flatMap_left calls ih).cons _).trans (List.perm_append_singleton _ _).symm

end Implementation

namespace Space

open Implementation

section Running

variable [Natives] {m : Implementation}

/-- A run of a scripted method takes its steps, one after the other. -/
theorem approximates_callWithin (bound : Nat) (hm : m.Scripted) (id : InstanceId)
    (args : List Value) (caller : Principal) :
    Run.Approximates (callWithin bound id m args caller)
      (do Run.each (Act.perform id) m.acts; return m.returns) := by
  induction bound generalizing m args caller with
  | zero => exact fun _ => .inl rfl
  | succ n ih =>
    cases hm with
    | @mk stamp owner name body calls hcalls =>
      rw [acts, actsOfCalls_eq, Run.each_cons, Run.each_append, Run.each_flatMap, Run.each_map,
        Run.bind_assoc, Run.bind_assoc]
      refine (Run.Approximates.refl _).bind fun _ => ?_
      refine (Run.Approximates.each fun b hb => ?_).bind fun _ => .refl _
      have hcall := (ih (hcalls b hb) args caller).bind fun _ => .refl (pure () : Run Unit)
      rw [Run.bind_assoc] at hcall
      have hdrop := Run.bind_pure_unit (Run.each (Act.perform id) b.2.acts)
      exact hdrop ▸ hcall

/-- It comes to an end once the bound allows as many calls as there are bodies. -/
theorem ends_callWithin {bound : Nat} (hm : m.Scripted) (hb : m.postOrder.length ≤ bound)
    (id : InstanceId) (args : List Value) (caller : Principal) :
    Run.Ends (callWithin bound id m args caller) := by
  induction bound generalizing m args caller with
  | zero =>
    cases hm with
    | mk hcalls => simp [postOrder] at hb
  | succ n ih =>
    cases hm with
    | @mk stamp owner name body calls hcalls =>
      refine Run.Ends.bind (fun s => Option.some_ne_none _) fun _ => ?_
      refine Run.Ends.bind (Run.Ends.each fun b hmem => ?_) fun _ => ?_
      · have hshorter : b.2.postOrder.length ≤ n := by
          obtain ⟨before, after, rfl⟩ := List.append_of_mem hmem
          simp only [postOrder, postOrderOfCalls_eq, List.flatMap_append, List.flatMap_cons,
            List.length_append, List.length_singleton] at hb
          omega
        exact (ih (hcalls b hmem) hshorter args caller).bind fun _ s => Option.some_ne_none _
      · exact Run.Ends.bind (Run.Ends.each fun a _ => Run.ends_change _) fun _ s =>
          Option.some_ne_none _

end Running

def Takes (t : Table) (a : String × Value) : Prop :=
  ∃ slot, t.field? a.1 = some slot ∧ slot.type.accepts a.2 = true

def writeAll (writes : List (String × Value)) (fields : Dict String Value) : Dict String Value :=
  writes.foldl (fun fields a => fields.insert a.1 a.2) fields

theorem writeAll_append (writes more : List (String × Value)) (fields : Dict String Value) :
    writeAll (writes ++ more) fields = writeAll more (writeAll writes fields) :=
  List.foldl_append

/-- Fields of one instance were set to what its table takes, bodies were started on it, and nothing
else is different. -/
structure Rewritten (id : InstanceId) (writes : List (String × Value))
    (started : List Implementation) (s s' : Space) : Prop where
  this : s'.instance? id =
    (s.instance? id).map fun i => { i with fields := writeAll writes i.fields }
  taken : ∀ i, s.instance? id = some i → ∀ a ∈ writes, Takes i.table a
  others : ∀ x, x ≠ id → s'.instance? x = s.instance? x
  rest : s' = { s with
    population := s'.population
    journal := (started.map fun m => .entered id (s.state? id) m.owner m.name).reverse ++ s.journal }

namespace Rewritten

variable {id : InstanceId} {s s₁ s' : Space} {writes more : List (String × Value)}
variable {started later : List Implementation}

theorem refl (id : InstanceId) (s : Space) : Rewritten id [] [] s s where
  this := by
    cases s.instance? id <;> rfl
  taken := fun _ _ => List.forall_mem_nil _
  others := fun _ _ => rfl
  rest := rfl

theorem instance?_this {i : Instance} (h : Rewritten id writes started s s')
    (hi : s.instance? id = some i) :
    s'.instance? id = some { i with fields := writeAll writes i.fields } := by
  rw [h.this, hi, Option.map_some]

theorem state? (h : Rewritten id writes started s s') (x : InstanceId) :
    s'.state? x = s.state? x := by
  unfold Space.state?
  by_cases hx : x = id
  · rw [hx, h.this, Option.map_map]
    rfl
  · rw [h.others x hx]

theorem trans (h : Rewritten id writes started s s₁) (h' : Rewritten id more later s₁ s') :
    Rewritten id (writes ++ more) (started ++ later) s s' where
  this := by
    rw [h'.this, h.this, Option.map_map]
    simp only [writeAll_append]
    rfl
  taken := by
    intro i hi
    have hmore := h'.taken _ (h.instance?_this hi)
    exact List.forall_mem_append.mpr ⟨h.taken i hi, hmore⟩
  others := fun x hx => (h'.others x hx).trans (h.others x hx)
  rest := by
    rw [h'.rest, h.state?, h.rest]
    simp

theorem fields? (h : Rewritten id writes started s s') :
    s'.fields? id = (s.fields? id).map (writeAll writes) := by
  rw [Space.fields?, h.this, Option.map_map, Space.fields?, Option.map_map]
  rfl

theorem start (id : InstanceId) (m : Implementation) (s : Space) :
    Rewritten id [] [m] s (s.record (.entered id (s.state? id) m.owner m.name)) where
  this := (refl id s).this
  taken := fun _ _ => List.forall_mem_nil _
  others := fun _ _ => rfl
  rest := rfl

theorem write {field : String} {v : Value} (hs : s.assign id field v = .ok s') :
    Rewritten id [(field, v)] [] s s' := by
  obtain ⟨i, slot, hi, -, hslot, hv, rfl⟩ := slot_of_assign hs
  refine ⟨instance?_update_self _ _ _, ?_, fun x hx => instance?_update_of_ne _ _ hx, rfl⟩
  intro j hj
  rw [hi] at hj
  cases hj
  exact List.forall_mem_singleton.mpr ⟨slot, hslot, hv⟩

end Rewritten

variable {id : InstanceId} {s s' : Space} {act : Act} {acts : List Act}
variable {out : Except RuntimeError Unit}

theorem rewritten_of_act (h : act.perform id s = some (out, s')) :
    out = .ok () ∧ Rewritten id act.write?.toList act.start?.toList s s' ∨
      ∃ field v e, act = .write field v ∧ s' = s ∧ s.assign id field v = .error e ∧
        out = .error e := by
  cases act with
  | start m =>
    cases h
    exact .inl ⟨rfl, .start id m s⟩
  | write field v =>
    unfold Act.perform Run.change at h
    cases hs : s.assign id field v with
    | ok s₁ =>
      simp only [hs] at h
      cases h
      exact .inl ⟨rfl, .write hs⟩
    | error e =>
      simp only [hs] at h
      cases h
      exact .inr ⟨field, v, e, rfl, rfl, hs, rfl⟩

theorem rewritten_of_acts (h : Run.each (Act.perform id) acts s = some (out, s')) :
    out = .ok () ∧ Rewritten id (acts.filterMap Act.write?) (acts.filterMap Act.start?) s s' ∨
      ∃ done field v later e, acts = done ++ .write field v :: later ∧
        Rewritten id (done.filterMap Act.write?) (done.filterMap Act.start?) s s' ∧
        s'.assign id field v = .error e ∧ out = .error e := by
  have hcons : ∀ {β : Type} (f : Act → Option β) (act : Act) (acts : List Act),
      (act :: acts).filterMap f = (f act).toList ++ acts.filterMap f := by
    intro β f act acts
    rw [List.filterMap_cons]
    cases f act <;> rfl
  induction acts generalizing s with
  | nil =>
    cases h
    exact .inl ⟨rfl, .refl id _⟩
  | cons act acts ih =>
    rcases Run.bind_eq_some h with ⟨e, hact, hout⟩ | ⟨_, s₁, hact, hrest⟩
    · rcases rewritten_of_act hact with ⟨hok, -⟩ | ⟨field, v, e', rfl, rfl, hs, he⟩
      · cases hok
      · cases he
        exact .inr ⟨[], field, v, acts, e, rfl, .refl id _, hs, hout⟩
    · rcases rewritten_of_act hact with ⟨-, hfirst⟩ | ⟨_, _, _, _, _, _, he⟩
      · rcases ih hrest with ⟨hok, hr⟩ | ⟨done, field, v, later, e, rfl, hr, hs, he⟩
        · refine .inl ⟨hok, ?_⟩
          rw [hcons, hcons]
          exact hfirst.trans hr
        · refine .inr ⟨act :: done, field, v, later, e, rfl, ?_, hs, he⟩
          rw [hcons, hcons]
          exact hfirst.trans hr
      · cases he

/-- A scripted method assigns all that it is to assign, or fails at the first assignment that is
refused, and keeps those before it. -/
theorem rewritten_of_callWithin [Natives] {bound : Nat} {m : Implementation} {args : List Value}
    {caller : Principal} {out : Except RuntimeError Value} (hm : m.Scripted)
    (h : callWithin bound id m args caller s = some (out, s')) :
    out = .ok m.returns ∧ Rewritten id m.writes m.starts s s' ∨
      ∃ done field v later started e, m.writes = done ++ (field, v) :: later ∧
        started <+: m.starts ∧ Rewritten id done started s s' ∧
        s'.assign id field v = .error e ∧ out = .error e := by
  have hrun := (approximates_callWithin bound hm id args caller).eq_some h
  rcases Run.bind_eq_some hrun with ⟨e, hacts, hout⟩ | ⟨_, s₁, hacts, hret⟩
  · rcases rewritten_of_acts hacts with ⟨hok, -⟩ | ⟨done, field, v, later, e', heq, hr, hs, he⟩
    · cases hok
    · cases he
      refine .inr ⟨_, field, v, later.filterMap Act.write?, _, e, ?_, ?_, hr, hs, hout⟩
      · rw [← filterMap_write?_acts hm, heq, List.filterMap_append]
        rfl
      · rw [starts, heq, List.filterMap_append]
        exact List.prefix_append _ _
  · rcases rewritten_of_acts hacts with ⟨-, hr⟩ | ⟨_, _, _, _, _, _, _, _, he⟩
    · cases hret
      exact .inl ⟨rfl, filterMap_write?_acts hm ▸ hr⟩
    · cases he

end Space

end Mudlib
