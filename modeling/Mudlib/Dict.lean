set_option autoImplicit false
set_option linter.unusedSectionVars false

namespace Mudlib

class OrderedKey (κ : Type) [LT κ] : Prop where
  irrefl : ∀ a : κ, ¬ a < a
  trans : ∀ {a b c : κ}, a < b → b < c → a < c
  connex : ∀ {a b : κ}, ¬ a < b → ¬ a = b → b < a

/-- Texts are ordered by code point, which is the order of their UTF-8 bytes. -/
instance : OrderedKey String where
  irrefl := String.lt_irrefl
  trans := String.lt_trans
  connex := by
    intro a b hab hne
    exact Std.lt_of_le_of_ne (Std.not_lt.mp hab) (Ne.symm hne)

namespace Assoc

variable {κ α : Type} [LT κ] [DecidableLT κ] [DecidableEq κ]

def get? (k : κ) : List (κ × α) → Option α
  | [] => none
  | (k', v) :: rest => if k = k' then some v else get? k rest

def insert (k : κ) (v : α) : List (κ × α) → List (κ × α)
  | [] => [(k, v)]
  | (k', v') :: rest =>
    if k < k' then (k, v) :: (k', v') :: rest
    else if k = k' then (k, v) :: rest
    else (k', v') :: insert k v rest

abbrev Ascending {κ α : Type} [LT κ] (entries : List (κ × α)) : Prop :=
  entries.Pairwise fun a b => a.1 < b.1

variable [OrderedKey κ]

theorem mem_insert {k : κ} {v : α} {entries : List (κ × α)} {e : κ × α}
    (h : e ∈ insert k v entries) : e = (k, v) ∨ e ∈ entries := by
  induction entries with
  | nil => simpa [insert] using h
  | cons head rest ih =>
    obtain ⟨k', v'⟩ := head
    simp only [insert] at h
    split at h
    · simpa using h
    · split at h
      · rcases List.mem_cons.mp h with h | h
        · exact .inl h
        · exact .inr (List.mem_cons_of_mem _ h)
      · rcases List.mem_cons.mp h with h | h
        · exact .inr (h ▸ List.mem_cons_self)
        · exact (ih h).imp_right (List.mem_cons_of_mem _)

theorem ascending_insert (k : κ) (v : α) {entries : List (κ × α)} (h : Ascending entries) :
    Ascending (insert k v entries) := by
  induction entries with
  | nil => simp [insert, Ascending]
  | cons head rest ih =>
    obtain ⟨k', v'⟩ := head
    have hp := List.pairwise_cons.mp h
    simp only [insert]
    split
    next hlt =>
      refine List.pairwise_cons.mpr ⟨fun e he => ?_, h⟩
      rcases List.mem_cons.mp he with he | he
      · exact he ▸ hlt
      · exact OrderedKey.trans hlt (hp.1 e he)
    next hlt =>
      split
      next heq => subst heq; exact List.pairwise_cons.mpr ⟨hp.1, hp.2⟩
      next heq =>
        refine List.pairwise_cons.mpr ⟨fun e he => ?_, ih hp.2⟩
        rcases mem_insert he with he | he
        · exact he ▸ OrderedKey.connex hlt heq
        · exact hp.1 e he

theorem get?_eq_none_of_forall_lt {k : κ} {entries : List (κ × α)}
    (h : ∀ e ∈ entries, k < e.1) : get? k entries = none := by
  induction entries with
  | nil => rfl
  | cons head rest ih =>
    obtain ⟨k', v'⟩ := head
    have hk : k < k' := h (k', v') List.mem_cons_self
    have hne : ¬ k = k' := fun heq => OrderedKey.irrefl k' (heq ▸ hk)
    simp [get?, hne, ih fun e he => h e (List.mem_cons_of_mem _ he)]

theorem get?_insert (k k' : κ) (v : α) {entries : List (κ × α)} (h : Ascending entries) :
    get? k' (insert k v entries) = if k' = k then some v else get? k' entries := by
  induction entries with
  | nil => by_cases hk : k' = k <;> simp [insert, get?, hk]
  | cons head rest ih =>
    obtain ⟨j, w⟩ := head
    have hp := List.pairwise_cons.mp h
    simp only [insert]
    split
    · by_cases hk : k' = k <;> simp [get?, hk]
    · split
      next heq => subst heq; by_cases hk : k' = k <;> simp [get?, hk]
      next heq =>
        simp only [get?, ih hp.2]
        by_cases hj : k' = j
        · have : ¬ k' = k := fun hk => heq (hk ▸ hj)
          simp [hj, hj ▸ this]
        · simp [hj]

theorem mem_of_get? {k : κ} {v : α} {entries : List (κ × α)} (h : get? k entries = some v) :
    (k, v) ∈ entries := by
  induction entries with
  | nil => simp [get?] at h
  | cons head rest ih =>
    obtain ⟨j, w⟩ := head
    simp only [get?] at h
    split at h
    next hk => subst hk; cases h; exact List.mem_cons_self
    next => exact List.mem_cons_of_mem _ (ih h)

theorem get?_of_mem {k : κ} {v : α} {entries : List (κ × α)} (hs : Ascending entries)
    (h : (k, v) ∈ entries) : get? k entries = some v := by
  induction entries with
  | nil => simp at h
  | cons head rest ih =>
    obtain ⟨j, w⟩ := head
    have hp := List.pairwise_cons.mp hs
    rcases List.mem_cons.mp h with h | h
    · cases h; simp [get?]
    · have hlt : j < k := hp.1 _ h
      have hne : ¬ k = j := fun heq => OrderedKey.irrefl j (heq ▸ hlt)
      simp [get?, hne, ih hp.2 h]

theorem ext_get? {xs ys : List (κ × α)} (hx : Ascending xs) (hy : Ascending ys)
    (h : ∀ k, get? k xs = get? k ys) : xs = ys := by
  induction xs generalizing ys with
  | nil =>
    cases ys with
    | nil => rfl
    | cons e r => simpa [get?] using h e.1
  | cons x xs ih =>
    obtain ⟨j, v⟩ := x
    have hpx := List.pairwise_cons.mp hx
    cases ys with
    | nil => simpa [get?] using h j
    | cons y ys =>
      obtain ⟨l, w⟩ := y
      have hpy := List.pairwise_cons.mp hy
      have hjl : j = l := by
        have hj := h j
        have hl := h l
        simp only [get?, if_true] at hj hl
        apply Decidable.byContradiction
        intro hne
        rw [if_neg hne] at hj
        rw [if_neg fun e => hne e.symm] at hl
        have h1 : l < j := hpy.1 _ (mem_of_get? hj.symm)
        have h2 : j < l := hpx.1 _ (mem_of_get? hl)
        exact OrderedKey.irrefl _ (OrderedKey.trans h1 h2)
      subst hjl
      have hv : v = w := by simpa [get?] using h j
      subst hv
      rw [ih hpx.2 hpy.2]
      intro k
      by_cases hk : k = j
      · subst hk
        rw [get?_eq_none_of_forall_lt hpx.1, get?_eq_none_of_forall_lt hpy.1]
      · simpa [get?, hk] using h k

end Assoc

structure Dict (κ : Type) [LT κ] (α : Type) where
  entries : List (κ × α)
  ascending : Assoc.Ascending entries

namespace Dict

variable {κ α β : Type} [LT κ] [DecidableLT κ] [DecidableEq κ] [OrderedKey κ]

instance [DecidableEq α] : DecidableEq (Dict κ α) := fun a b =>
  decidable_of_iff (a.entries = b.entries)
    ⟨fun h => by cases a; cases b; cases h; rfl, fun h => h ▸ rfl⟩

instance [Repr κ] [Repr α] : Repr (Dict κ α) where
  reprPrec d n := reprPrec d.entries n

def empty : Dict κ α := ⟨[], List.Pairwise.nil⟩

instance : EmptyCollection (Dict κ α) := ⟨empty⟩

instance : Inhabited (Dict κ α) := ⟨empty⟩

def get? (d : Dict κ α) (k : κ) : Option α := Assoc.get? k d.entries

def contains (d : Dict κ α) (k : κ) : Bool := (d.get? k).isSome

def insert (d : Dict κ α) (k : κ) (v : α) : Dict κ α :=
  ⟨Assoc.insert k v d.entries, Assoc.ascending_insert k v d.ascending⟩

def filter (d : Dict κ α) (p : κ → α → Bool) : Dict κ α :=
  ⟨d.entries.filter fun e => p e.1 e.2, List.Pairwise.filter _ d.ascending⟩

def erase (d : Dict κ α) (k : κ) : Dict κ α := d.filter fun k' _ => k' ≠ k

def mapVal (d : Dict κ α) (f : κ → α → β) : Dict κ β :=
  ⟨d.entries.map fun e => (e.1, f e.1 e.2), List.pairwise_map.mpr d.ascending⟩

def toList (d : Dict κ α) : List (κ × α) := d.entries

def keys (d : Dict κ α) : List κ := d.entries.map Prod.fst

def size (d : Dict κ α) : Nat := d.entries.length

/-- Later entries replace earlier ones with the same key. -/
def ofList (entries : List (κ × α)) : Dict κ α :=
  entries.foldl (fun d e => d.insert e.1 e.2) empty

theorem ext_get? {a b : Dict κ α} (h : ∀ k, a.get? k = b.get? k) : a = b := by
  have : a.entries = b.entries := Assoc.ext_get? a.ascending b.ascending h
  cases a; cases b; cases this; rfl

@[simp] theorem get?_empty (k : κ) : (empty : Dict κ α).get? k = none := rfl

theorem get?_insert (d : Dict κ α) (k k' : κ) (v : α) :
    (d.insert k v).get? k' = if k' = k then some v else d.get? k' :=
  Assoc.get?_insert k k' v d.ascending

@[simp] theorem get?_insert_self (d : Dict κ α) (k : κ) (v : α) :
    (d.insert k v).get? k = some v := by simp [get?_insert]

theorem get?_insert_of_ne (d : Dict κ α) {k k' : κ} (v : α) (h : k' ≠ k) :
    (d.insert k v).get? k' = d.get? k' := by simp [get?_insert, h]

theorem mem_toList_iff (d : Dict κ α) (k : κ) (v : α) :
    (k, v) ∈ d.toList ↔ d.get? k = some v :=
  ⟨Assoc.get?_of_mem d.ascending, Assoc.mem_of_get?⟩

theorem get?_filter (d : Dict κ α) (p : κ → α → Bool) (k : κ) :
    (d.filter p).get? k = (d.get? k).filter (p k) := by
  apply Option.ext
  intro v
  rw [← mem_toList_iff, Option.filter_eq_some_iff, ← mem_toList_iff]
  simp [toList, filter]

theorem get?_erase (d : Dict κ α) (k k' : κ) :
    (d.erase k).get? k' = if k' = k then none else d.get? k' := by
  rw [erase, get?_filter]
  by_cases h : k' = k <;> cases d.get? k' <;> simp [h, Option.filter]

theorem get?_mapVal (d : Dict κ α) (f : κ → α → β) (k : κ) :
    (d.mapVal f).get? k = (d.get? k).map (f k) := by
  obtain ⟨entries, hs⟩ := d
  simp only [get?, mapVal]
  clear hs
  induction entries with
  | nil => rfl
  | cons e rest ih =>
    simp only [List.map_cons, Assoc.get?]
    split
    next h => subst h; rfl
    next => exact ih

theorem mem_keys_iff (d : Dict κ α) (k : κ) : k ∈ d.keys ↔ (d.get? k).isSome := by
  simp only [keys, List.mem_map, Option.isSome_iff_exists]
  constructor
  · rintro ⟨⟨k', v⟩, hm, rfl⟩
    exact ⟨v, (mem_toList_iff d k' v).mp hm⟩
  · rintro ⟨v, hv⟩
    exact ⟨(k, v), (mem_toList_iff d k v).mpr hv, rfl⟩

theorem contains_iff (d : Dict κ α) (k : κ) : d.contains k = true ↔ ∃ v, d.get? k = some v := by
  simp [contains, Option.isSome_iff_exists]

end Dict

end Mudlib
