import Mathlib.Data.List.Forall2
import Mudlib.Dict
set_option autoImplicit false
set_option linter.unusedSectionVars false

namespace Mudlib

variable {ε α β γ : Type}

theorem bind_eq_ok {x : Except ε α} {f : α → Except ε β} {b : β} :
    (x >>= f) = .ok b ↔ ∃ a, x = .ok a ∧ f a = .ok b := by
  cases x <;> simp [bind, Except.bind]

theorem bind_eq_error {x : Except ε α} {f : α → Except ε β} {e : ε} :
    (x >>= f) = .error e ↔ x = .error e ∨ ∃ a, x = .ok a ∧ f a = .error e := by
  cases x <;> simp [bind, Except.bind]

theorem map_eq_ok {x : Except ε α} {f : α → β} {b : β} :
    x.map f = .ok b ↔ ∃ a, x = .ok a ∧ f a = b := by
  cases x <;> simp [Except.map]

theorem eq_error_of_map {x : Except ε α} {f : α → β} {e : ε} (h : x.map f = .error e) :
    x = .error e := by
  cases x with
  | error e' =>
    cases h
    rfl
  | ok a => cases h

theorem eq_ok_of_mapError {ε' : Type} {x : Except ε α} {f : ε → ε'} {a : α}
    (h : x.mapError f = .ok a) : x = .ok a := by
  cases x with
  | error e => cases h
  | ok b =>
    cases h
    rfl

theorem eq_ok_of_toOption {x : Except ε α} {a : α} (h : x.toOption = some a) : x = .ok a := by
  cases x with
  | error e => cases h
  | ok b =>
    cases h
    rfl

theorem mapM_eq_ok {f : α → Except ε β} {as : List α} {bs : List β} :
    as.mapM f = .ok bs ↔ List.Forall₂ (fun a b => f a = .ok b) as bs := by
  induction as generalizing bs with
  | nil => simp [pure, Except.pure, eq_comm]
  | cons a as ih =>
    simp only [List.mapM_cons, bind_eq_ok, List.forall₂_cons_left_iff]
    constructor
    · intro hok
      obtain ⟨b, hb, bs', hbs, h⟩ := hok
      cases h
      exact ⟨b, bs', hb, ih.mp hbs, rfl⟩
    · intro hall
      obtain ⟨b, bs', hb, hbs, rfl⟩ := hall
      exact ⟨b, hb, bs', ih.mpr hbs, rfl⟩

theorem exists_mem_of_forall₂ {R : α → β → Prop} {as : List α} {bs : List β} {b : β}
    (h : List.Forall₂ R as bs) (hb : b ∈ bs) : ∃ a ∈ as, R a b := by
  induction h with
  | nil => cases hb
  | @cons a c as bs hac _ ih =>
    rcases List.mem_cons.mp hb with rfl | hb
    · exact ⟨a, List.mem_cons_self, hac⟩
    · obtain ⟨a, ha, hab⟩ := ih hb
      exact ⟨a, List.mem_cons_of_mem _ ha, hab⟩

theorem forall₂_imp_of_mem {R S : α → β → Prop} {as : List α} {bs : List β}
    (h : List.Forall₂ R as bs) (himp : ∀ a, ∀ b ∈ bs, R a b → S a b) : List.Forall₂ S as bs := by
  induction h with
  | nil => exact .nil
  | @cons a b as bs hab _ ih =>
    refine .cons (himp a b List.mem_cons_self hab) (ih ?_)
    exact fun a b hb => himp a b (List.mem_cons_of_mem _ hb)

theorem forall₂_append_left {R : α → β → Prop} {as as' : List α} {bs : List β}
    (h : List.Forall₂ R (as ++ as') bs) :
    ∃ cs cs', bs = cs ++ cs' ∧ List.Forall₂ R as cs ∧ List.Forall₂ R as' cs' := by
  induction as generalizing bs with
  | nil => exact ⟨[], bs, rfl, .nil, h⟩
  | cons a as ih =>
    obtain ⟨b, bs', hab, hrest, rfl⟩ := List.forall₂_cons_left_iff.mp h
    obtain ⟨cs, cs', rfl, hcs, hcs'⟩ := ih hrest
    exact ⟨b :: cs, cs', rfl, .cons hab hcs, hcs'⟩

theorem map_eq_map_of_forall₂ {R : α → β → Prop} {f : α → γ} {g : β → γ} {as : List α}
    {bs : List β} (h : List.Forall₂ R as bs)
    (heq : ∀ a ∈ as, ∀ b ∈ bs, R a b → f a = g b) : as.map f = bs.map g := by
  induction h with
  | nil => rfl
  | @cons a b as bs hab _ ih =>
    have hhead := heq a List.mem_cons_self b List.mem_cons_self hab
    have htail := ih fun a ha b hb =>
      heq a (List.mem_cons_of_mem _ ha) b (List.mem_cons_of_mem _ hb)
    rw [List.map_cons, List.map_cons, hhead, htail]

/-- Steps that give the images of what other steps give, and fail where those fail. -/
theorem mapM_eq_map_mapM {f : α → Except ε β} {g : α → Except ε γ} {r : β → γ} (as : List α)
    (h : ∀ a ∈ as, g a = (f a).map r) : as.mapM g = (as.mapM f).map (List.map r) := by
  induction as with
  | nil => rfl
  | cons a as ih =>
    have ha := h a List.mem_cons_self
    have has := ih fun x hx => h x (List.mem_cons_of_mem _ hx)
    simp only [List.mapM_cons, ha, has]
    cases f a with
    | error e => rfl
    | ok b => cases as.mapM f <;> rfl

namespace Dict

variable {κ : Type} [LT κ] [DecidableLT κ] [DecidableEq κ] [OrderedKey κ]

theorem mapVal_insert (d : Dict κ α) (f : κ → α → β) (k : κ) (v : α) :
    (d.insert k v).mapVal f = (d.mapVal f).insert k (f k v) := by
  apply ext_get?
  intro k'
  rw [get?_mapVal, get?_insert, get?_insert, get?_mapVal]
  by_cases h : k' = k
  · subst h; simp
  · simp [h]

theorem mapVal_mapVal (d : Dict κ α) (f : κ → α → β) (g : κ → β → γ) :
    (d.mapVal f).mapVal g = d.mapVal fun k v => g k (f k v) := by
  apply ext_get?
  intro k
  simp only [get?_mapVal, Option.map_map]
  rfl

theorem nodup_keys (d : Dict κ α) : (d.toList.map Prod.fst).Nodup := by
  have h : (d.toList.map Prod.fst).Pairwise (· < ·) := List.pairwise_map.mpr d.ascending
  refine h.imp ?_
  intro a b hab heq
  subst heq
  exact OrderedKey.irrefl a hab

theorem get?_foldl_insert (put : Option α → γ → α) (entries : List (κ × γ))
    (hn : (entries.map Prod.fst).Nodup) (d : Dict κ α) (k : κ) :
    (entries.foldl (fun d e => d.insert e.1 (put (d.get? e.1) e.2)) d).get? k =
      ((Assoc.get? k entries).map (put (d.get? k))).or (d.get? k) := by
  induction entries generalizing d with
  | nil => rfl
  | cons e entries ih =>
    obtain ⟨k', v⟩ := e
    obtain ⟨hk', hn⟩ := List.nodup_cons.mp hn
    simp only [List.foldl_cons, ih hn, Assoc.get?]
    by_cases h : k = k'
    · subst h
      have hnone : Assoc.get? k entries = none := by
        cases hg : Assoc.get? k entries with
        | none => rfl
        | some w => exact absurd (List.mem_map_of_mem (f := Prod.fst) (Assoc.mem_of_get? hg)) hk'
      simp [hnone]
    · simp only [h, if_false, get?_insert_of_ne _ _ h]

end Dict

end Mudlib
