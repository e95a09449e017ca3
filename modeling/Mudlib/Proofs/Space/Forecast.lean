import Mudlib.Proofs.Link.Restamp
import Mudlib.Proofs.Space.Undoing
set_option autoImplicit false

namespace Mudlib

abbrev Forecast (ε α : Type) : Type := Option (Except ε α)

namespace Forecast

variable {ε α β σ : Type}

def andThen (p : Forecast ε α) (f : α → Forecast ε β) : Forecast ε β :=
  match p with
  | none => none
  | some (.error e) => some (.error e)
  | some (.ok a) => f a

def each (f : α → σ → Forecast ε σ) : List α → σ → Forecast ε σ
  | [], x => some (.ok x)
  | a :: as, x => (f a x).andThen (each f as)

def collect (f : α → Forecast ε β) : List α → Forecast ε (List β)
  | [] => some (.ok [])
  | a :: as => (f a).andThen fun b => (collect f as).andThen fun bs => some (.ok (b :: bs))

theorem each_map {γ : Type} (f : α → σ → Forecast ε σ) (g : γ → α) (cs : List γ) :
    each f (cs.map g) = each (fun c => f (g c)) cs := by
  induction cs with
  | nil => rfl
  | cons c cs ih =>
    funext x
    simp only [List.map_cons, each, ih]

theorem andThen_ok (p : Forecast ε α) : (p.andThen fun a => some (.ok a)) = p := by
  rcases p with _ | _ | a <;> rfl

theorem andThen_eq_ok {p : Forecast ε α} {f : α → Forecast ε β} {b : β} :
    p.andThen f = some (.ok b) ↔ ∃ a, p = some (.ok a) ∧ f a = some (.ok b) := by
  rcases p with _ | _ | a <;> simp [andThen]

theorem andThen_eq_error {p : Forecast ε α} {f : α → Forecast ε β} {e : ε} :
    p.andThen f = some (.error e) ↔
      p = some (.error e) ∨ ∃ a, p = some (.ok a) ∧ f a = some (.error e) := by
  rcases p with _ | _ | a <;> simp [andThen]

theorem andThen_ne_none {p : Forecast ε α} {f : α → Forecast ε β} (hp : p ≠ none)
    (hf : ∀ a, p = some (.ok a) → f a ≠ none) : p.andThen f ≠ none := by
  rcases p with _ | _ | a
  · exact absurd rfl hp
  · exact Option.some_ne_none _
  · exact hf a rfl

theorem collect_eq_ok {f : α → Forecast ε β} {as : List α} {bs : List β} :
    collect f as = some (.ok bs) ↔ List.Forall₂ (fun a b => f a = some (.ok b)) as bs := by
  induction as generalizing bs with
  | nil => simp [collect, eq_comm]
  | cons a as ih =>
    simp only [collect, andThen_eq_ok, List.forall₂_cons_left_iff]
    constructor
    · intro h
      obtain ⟨b, hb, bs', hbs, h⟩ := h
      cases h
      exact ⟨b, bs', hb, ih.mp hbs, rfl⟩
    · intro h
      obtain ⟨b, bs', hb, hbs, rfl⟩ := h
      exact ⟨b, hb, bs', ih.mpr hbs, rfl⟩

theorem exists_of_collect_error {f : α → Forecast ε β} {as : List α} {e : ε}
    (h : collect f as = some (.error e)) : ∃ a ∈ as, f a = some (.error e) := by
  induction as with
  | nil => cases h
  | cons a as ih =>
    rcases andThen_eq_error.mp h with ha | ⟨b, -, h⟩
    · exact ⟨a, List.mem_cons_self, ha⟩
    · rcases andThen_eq_error.mp h with has | ⟨bs, -, h⟩
      · obtain ⟨x, hx, hxe⟩ := ih has
        exact ⟨x, List.mem_cons_of_mem _ hx, hxe⟩
      · cases h

theorem collect_ne_none {f : α → Forecast ε β} {as : List α} (h : ∀ a ∈ as, f a ≠ none) :
    collect f as ≠ none := by
  induction as with
  | nil => exact Option.some_ne_none _
  | cons a as ih =>
    refine andThen_ne_none (h a List.mem_cons_self) fun b _ => ?_
    exact andThen_ne_none (ih fun x hx => h x (List.mem_cons_of_mem _ hx))
      fun bs _ => Option.some_ne_none _

def Refines (p q : Forecast ε α) : Prop := p = none ∨ p = q

namespace Refines

theorem refl (p : Forecast ε α) : Refines p p := .inr rfl

theorem andThen {p q : Forecast ε α} {f g : α → Forecast ε β} (h : Refines p q)
    (hf : ∀ a, Refines (f a) (g a)) : Refines (p.andThen f) (q.andThen g) := by
  rcases h with rfl | rfl
  · exact .inl rfl
  · rcases p with _ | _ | a
    · exact .inl rfl
    · exact .inr rfl
    · exact hf a

theorem each {f g : α → σ → Forecast ε σ} {as : List α} (h : ∀ a ∈ as, ∀ x, Refines (f a x) (g a x))
    (x : σ) : Refines (each f as x) (each g as x) := by
  induction as generalizing x with
  | nil => exact refl _
  | cons a as ih =>
    exact (h a List.mem_cons_self x).andThen (ih fun b hb => h b (List.mem_cons_of_mem _ hb))

theorem eq_some {p q : Forecast ε α} {r : Except ε α} (h : Refines p q) (hp : p = some r) :
    q = some r := by
  rcases h with hn | heq
  · rw [hn] at hp
    cases hp
  · rw [← heq, hp]

end Refines

end Forecast

/-- A run comes to what was forecast: it does not end, fails for the reason, or succeeds with the
result, and leaves the space as it should then be. -/
inductive Follows {ε α β : Type} (good : β → α → Space → Prop) (bad : ε → RuntimeError → Prop) :
    Forecast ε β → Option (Except RuntimeError α × Space) → Prop where
  | endless : Follows good bad none none
  | failed {f : ε} {e : RuntimeError} {s : Space} :
      bad f e → Follows good bad (some (.error f)) (some (.error e, s))
  | done {b : β} {a : α} {s : Space} :
      good b a s → Follows good bad (some (.ok b)) (some (.ok a, s))

namespace Follows

variable {ε α α' β β' σ : Type} {bad : ε → RuntimeError → Prop}

theorem bind {good : β → α → Space → Prop} {good' : β' → α' → Space → Prop} {p : Forecast ε β}
    {q : β → Forecast ε β'} {m : Run α} {f : α → Run α'} {s : Space} (hm : Follows good bad p (m s))
    (hf : ∀ b a s₁, m s = some (.ok a, s₁) → good b a s₁ → Follows good' bad (q b) (f a s₁)) :
    Follows good' bad (p.andThen q) ((m >>= f) s) := by
  rw [Run.bind_apply]
  generalize hr : m s = r at hm hf
  cases hm with
  | endless => exact .endless
  | failed h => exact .failed h
  | done h => exact hf _ _ _ rfl h

theorem imp {good good' : β → α → Space → Prop} {p : Forecast ε β}
    {r : Option (Except RuntimeError α × Space)} (h : Follows good bad p r)
    (himp : ∀ b a s', r = some (.ok a, s') → good b a s' → good' b a s') :
    Follows good' bad p r := by
  cases h with
  | endless => exact .endless
  | failed h => exact .failed h
  | done h => exact .done (himp _ _ _ rfl h)

theorem andReturn {γ : Type} {good : β → Space → Prop} {p : Forecast ε β} {m : Run α} {s : Space}
    (h : Follows (fun b _ s' => good b s') bad p (m s)) (v : γ) :
    Follows (fun b _ s' => good b s') bad p ((do let _ ← m; return v : Run γ) s) := by
  rw [Run.bind_apply]
  generalize m s = r at h
  cases h with
  | endless => exact .endless
  | failed h => exact .failed h
  | done h => exact .done h

theorem each {inv : σ → Space → Prop} {f : α → Run Unit} {g : α → σ → Forecast ε σ} {as : List α}
    (h : ∀ a ∈ as, ∀ x s, inv x s → Follows (fun y _ s' => inv y s') bad (g a x) (f a s))
    {x : σ} {s : Space} (hx : inv x s) :
    Follows (fun y _ s' => inv y s') bad (Forecast.each g as x) (Run.each f as s) := by
  induction as generalizing x s with
  | nil => exact .done hx
  | cons a as ih =>
    refine bind (h a List.mem_cons_self x s hx) fun y _ s₁ _ hy => ?_
    exact ih (fun b hb => h b (List.mem_cons_of_mem _ hb)) hy

end Follows

/-- Why a creation is bound to fail, apart from the instance that it happens to. -/
inductive Mishap where
  | unresolved (definition : DefinitionId)
  | prototype (definition : DefinitionId)
  | cyclic (definition : DefinitionId)
  | unknownField (field : String)
  | mistyped (field : String) (expected : FieldType)
  deriving DecidableEq, Repr

inductive Mishap.Tells (r : Registry) : Mishap → RuntimeError → Prop where
  | unresolved {definition : DefinitionId} {cause : ResolveError} :
      r.Blames definition cause → Tells r (.unresolved definition) (.compile cause)
  | prototype (definition : DefinitionId) :
      Tells r (.prototype definition) (.cannotInstantiatePrototype definition)
  | cyclic (definition : DefinitionId) : Tells r (.cyclic definition) (.auxiliaryCycle definition)
  | unknownField (id : InstanceId) (field : String) :
      Tells r (.unknownField field) (.noSuchField id field)
  | mistyped (id : InstanceId) (field : String) (expected : FieldType) :
      Tells r (.mistyped field expected) (.typeMismatch id field expected)

def put (slots : Dict String FieldSlot) (a : String × Value) (fields : Dict String Value) :
    Except Mishap (Dict String Value) :=
  match slots.get? a.1 with
  | none => .error (.unknownField a.1)
  | some slot =>
    if slot.type.accepts a.2 then .ok (fields.insert a.1 a.2)
    else .error (.mistyped a.1 slot.type)

namespace Implementation

def script (slots : Dict String FieldSlot) :
    Nat → Implementation → Dict String Value → Forecast Mishap (Dict String Value)
  | 0, _, _ => none
  | n + 1, m, fields =>
    match m.body with
    | .native _ => none
    | .scripted body =>
      (Forecast.each (fun b => script slots n b.2) m.calls fields).andThen
        (Forecast.each (fun a fields => some (put slots a fields)) body.assign.toList)

variable (slots : Dict String FieldSlot)

theorem script_restamp (stampOf : DefinitionId → Nat) (n : Nat) (m : Implementation) :
    (m.restamp stampOf).script slots n = m.script slots n := by
  induction n generalizing m with
  | zero => rfl
  | succ n ih =>
    obtain ⟨stamp, owner, name, body, calls⟩ := m
    funext fields
    simp only [restamp, script, Implementation.body, Implementation.calls, restampCalls_eq_map,
      Forecast.each_map, ih]

theorem refines_script (m : Implementation) {n n' : Nat} (hn : n ≤ n')
    (fields : Dict String Value) :
    Forecast.Refines (m.script slots n fields) (m.script slots n' fields) := by
  induction n generalizing n' m fields with
  | zero => exact .inl rfl
  | succ n ih =>
    obtain ⟨k, rfl⟩ := Nat.exists_eq_add_of_le' (Nat.lt_of_lt_of_le n.succ_pos hn)
    unfold script
    cases m.body with
    | native code => exact .refl _
    | scripted body =>
      refine .andThen (.each (fun b _ x => ih b.2 (Nat.le_of_succ_le_succ hn) x) fields) ?_
      exact fun _ => .refl _

end Implementation

namespace Table

def startUp (t : Table) (method : String) (bound : Nat) : Forecast Mishap (Dict String Value) :=
  match t.method? method with
  | none => some (.ok t.defaultFields)
  | some m => m.script t.fields bound t.defaultFields

theorem refines_startUp (t : Table) (method : String) {n n' : Nat} (hn : n ≤ n') :
    Forecast.Refines (t.startUp method n) (t.startUp method n') := by
  unfold startUp
  cases t.method? method with
  | none => exact .refl _
  | some m => exact m.refines_script t.fields hn t.defaultFields

namespace Alike

variable {t u : Table} (h : u.Alike t)

include h

theorem map_eq {β : Type} (g : Table → β) (hg : ∀ t : Table, g (t.restamp fun _ => 0) = g t) :
    g u = g t :=
  (hg u).symm.trans ((congrArg g h).trans (hg t))

theorem startUp_eq (method : String) (bound : Nat) :
    u.startUp method bound = t.startUp method bound := by
  have hfields : u.fields = t.fields := h.map_eq Table.fields fun _ => rfl
  have hdefaults : u.defaultFields = t.defaultFields := h.map_eq Table.defaultFields fun _ => rfl
  have hmethod : (u.method? method).map (Implementation.restamp fun _ => 0) =
      (t.method? method).map (Implementation.restamp fun _ => 0) := by
    rw [← method?_restamp, ← method?_restamp]
    exact congrArg (Table.method? · method) h
  unfold startUp
  rw [hfields, hdefaults]
  cases hu : u.method? method with
  | none =>
    rw [hu] at hmethod
    rw [Option.map_eq_none_iff.mp hmethod.symm]
  | some m =>
    rw [hu] at hmethod
    obtain ⟨m', hm', heq⟩ := Option.map_eq_some_iff.mp hmethod.symm
    rw [hm']
    simp only
    rw [← m.script_restamp, ← m'.script_restamp, heq]

end Alike

end Table

namespace Space

variable {s s' : Space} {id : InstanceId} {i : Instance} {fields : Dict String Value} {n : Nat}

def Holds (id : InstanceId) (i : Instance) (n : Nat) (fields : Dict String Value) (s : Space) :
    Prop :=
  s.instance? id = some { i with fields := fields } ∧ s.population.size = n

theorem follows_assign {r : Registry} (hd : i.state ≠ .destroyed) (a : String × Value)
    (h : Holds id i n fields s) :
    Follows (fun fields _ s' => Holds id i n fields s') (Mishap.Tells r)
      (some (put i.table.fields a fields)) (Run.change (fun s => s.assign id a.1 a.2) s) := by
  obtain ⟨hi, hsize⟩ := h
  have hassign := assign_of_invokable a.1 a.2 (invokable_eq_ok.mpr ⟨hi, hd⟩)
  simp only at hassign
  simp only [put, Run.change, hassign]
  cases i.table.fields.get? a.1 with
  | none => exact .failed (.unknownField id a.1)
  | some slot =>
    simp only
    split
    · refine .done ⟨?_, (Population.size_update _ _ _).trans hsize⟩
      rw [instance?_update_self, hi]
      rfl
    · exact .failed (.mistyped id a.1 slot.type)

/-- A scripted body comes to what its script says, whatever it is called with. -/
theorem follows_callWithin [Natives] (r : Registry) (bound : Nat) {m : Implementation}
    (hm : m.Scripted) (hd : i.state ≠ .destroyed) (args : List Value) (caller : Principal)
    (h : Holds id i n fields s) :
    Follows (fun fields _ s' => Holds id i n fields s') (Mishap.Tells r)
      (m.script i.table.fields bound fields) (callWithin bound id m args caller s) := by
  induction bound generalizing m args caller fields s with
  | zero => exact .endless
  | succ k ih =>
    cases hm with
    | @mk stamp owner name body calls hcalls =>
      have hrun : callWithin (k + 1) id (.mk stamp owner name (.scripted body) calls) args caller s =
          (engine k).runScripted ⟨id, caller, .mk stamp owner name (.scripted body) calls, args⟩ body
            (s.record (.entered id (s.state? id) owner name)) := rfl
      rw [hrun]
      have hstart : Holds id i n fields (s.record (.entered id (s.state? id) owner name)) := h
      have hcallees : ∀ b ∈ calls, ∀ fields s, Holds id i n fields s →
          Follows (fun fields _ s' => Holds id i n fields s') (Mishap.Tells r)
            (b.2.script i.table.fields k fields)
            ((do let _ ← (engine k).call id b.2 args caller; return () : Run Unit) s) :=
        fun b hb fields s h => (ih (hcalls b hb) args caller h).andReturn ()
      refine .bind (.each hcallees hstart) fun fields _ s₁ _ h₁ => ?_
      exact .andReturn (.each (fun a _ _ _ h₂ => follows_assign hd a h₂) h₁) body.returns

end Space

end Mudlib
