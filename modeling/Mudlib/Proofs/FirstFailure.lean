import Mudlib.Proofs.Success
set_option autoImplicit false
set_option linter.unusedSectionVars false

namespace Mudlib

variable {ε α β γ δ : Type}

theorem exists_ok_iff {x : Except ε α} : (∃ a, x = .ok a) ↔ ∀ e, ¬ x = .error e := by
  cases x <;> simp

theorem foldlM_eq_error {f : β → α → Except ε β} {as : List α} {b : β} {e : ε} :
    as.foldlM f b = .error e ↔ ∃ before a after b', as = before ++ a :: after ∧
      before.foldlM f b = .ok b' ∧ f b' a = .error e := by
  induction as generalizing b with
  | nil => simp [pure, Except.pure]
  | cons x as ih =>
    rw [List.foldlM_cons, bind_eq_error]
    constructor
    · intro h
      rcases h with h | ⟨b₁, h₁, h⟩
      · exact ⟨[], x, as, b, rfl, rfl, h⟩
      · obtain ⟨before, a, after, b', rfl, hbefore, ha⟩ := ih.mp h
        refine ⟨x :: before, a, after, b', rfl, ?_, ha⟩
        rw [List.foldlM_cons]
        exact bind_eq_ok.mpr ⟨b₁, h₁, hbefore⟩
    · intro h
      obtain ⟨before, a, after, b', heq, hbefore, ha⟩ := h
      cases before with
      | nil =>
        obtain ⟨rfl, rfl⟩ := List.cons.inj heq
        cases hbefore
        exact .inl ha
      | cons y before =>
        obtain ⟨rfl, rfl⟩ := List.cons.inj heq
        rw [List.foldlM_cons] at hbefore
        obtain ⟨b₁, h₁, hrest⟩ := bind_eq_ok.mp hbefore
        exact .inr ⟨b₁, h₁, ih.mpr ⟨before, a, after, b', rfl, hrest, ha⟩⟩

/-- What a sequence of checks answers, each of them given by the errors that it refuses with: the
error of the first that refuses, or a value when none does. -/
inductive Answers : List (ε → Prop) → Except ε α → Prop where
  | granted {refusals : List (ε → Prop)} (a : α) :
      (∀ refusal ∈ refusals, ∀ e, ¬ refusal e) → Answers refusals (.ok a)
  | refused {before : List (ε → Prop)} {refusal : ε → Prop} (after : List (ε → Prop)) {e : ε} :
      (∀ earlier ∈ before, ∀ e', ¬ earlier e') → refusal e →
      Answers (before ++ refusal :: after) (.error e)

namespace Answers

variable {first rest refusals : List (ε → Prop)} {refusal : ε → Prop} {x r : Except ε α}
variable {f : α → Except ε β} {e : ε}

theorem ok_iff (h : Answers refusals r) :
    (∃ a, r = .ok a) ↔ ∀ refusal ∈ refusals, ∀ e, ¬ refusal e := by
  cases h with
  | granted a hnone => exact iff_of_true ⟨a, rfl⟩ hnone
  | refused after hbefore he =>
    constructor
    · intro hok
      obtain ⟨a, ha⟩ := hok
      cases ha
    · intro hnone
      exact absurd he (hnone _ (by simp) _)

theorem map (f : α → β) (h : Answers refusals r) : Answers refusals (r.map f) := by
  cases h with
  | granted a hnone => exact .granted (f a) hnone
  | refused after hbefore he => exact .refused after hbefore he

theorem append (hnone : ∀ refusal ∈ first, ∀ e, ¬ refusal e) (h : Answers rest r) :
    Answers (first ++ rest) r := by
  cases h with
  | granted a hrest => exact .granted a (List.forall_mem_append.mpr ⟨hnone, hrest⟩)
  | refused after hbefore he =>
    rw [← List.append_assoc]
    exact .refused after (List.forall_mem_append.mpr ⟨hnone, hbefore⟩) he

theorem head {rest : List (ε → Prop)} (he : refusal e) :
    Answers (refusal :: rest) (.error e : Except ε α) :=
  @refused _ _ [] _ rest _ (List.forall_mem_nil _) he

theorem tail (hnone : ∀ e, ¬ refusal e) (h : Answers rest r) : Answers (refusal :: rest) r :=
  append (List.forall_mem_singleton.mpr hnone) h

theorem error_cons (h : Answers (refusal :: rest) (.error e : Except ε α)) :
    refusal e ∨ (∀ e', ¬ refusal e') ∧ Answers rest (.error e : Except ε α) := by
  generalize hall : refusal :: rest = all at h
  cases h with
  | refused after hbefore he =>
    rename_i before refusing
    cases before with
    | nil =>
      obtain ⟨rfl, -⟩ := List.cons.inj hall
      exact .inl he
    | cons first before =>
      obtain ⟨rfl, rfl⟩ := List.cons.inj hall
      obtain ⟨hfirst, hothers⟩ := List.forall_mem_cons.mp hbefore
      exact .inr ⟨hfirst, .refused after hothers he⟩

theorem bind (hx : Answers first x) (hf : ∀ a, x = .ok a → Answers rest (f a)) :
    Answers (first ++ rest) (x >>= f) := by
  cases hx with
  | granted a hnone => exact (hf a rfl).append hnone
  | refused after hbefore he =>
    rw [List.append_assoc, List.cons_append]
    exact .refused (after ++ rest) hbefore he

end Answers

theorem exists_first_cons {p q : α → Prop} {x : α} {as : List α} :
    (∃ before a after, x :: as = before ++ a :: after ∧ (∀ y ∈ before, p y) ∧ q a) ↔
      q x ∨ p x ∧ ∃ before a after, as = before ++ a :: after ∧ (∀ y ∈ before, p y) ∧ q a := by
  constructor
  · intro h
    obtain ⟨before, a, after, heq, hbefore, ha⟩ := h
    cases before with
    | nil =>
      obtain ⟨rfl, rfl⟩ := List.cons.inj heq
      exact .inl ha
    | cons y before =>
      obtain ⟨rfl, rfl⟩ := List.cons.inj heq
      obtain ⟨hx, hbefore⟩ := List.forall_mem_cons.mp hbefore
      exact .inr ⟨hx, before, a, after, rfl, hbefore, ha⟩
  · intro h
    rcases h with hx | ⟨hx, before, a, after, rfl, hbefore, ha⟩
    · exact ⟨[], x, as, rfl, List.forall_mem_nil _, hx⟩
    · exact ⟨x :: before, a, after, rfl, List.forall_mem_cons.mpr ⟨hx, hbefore⟩, ha⟩

/-- Steps that do not depend on each other fail with the first of them that fails. -/
theorem mapM_eq_error {f : α → Except ε β} {as : List α} {e : ε} :
    as.mapM f = .error e ↔ ∃ before a after, as = before ++ a :: after ∧
      (∀ x ∈ before, ∃ b, f x = .ok b) ∧ f a = .error e := by
  induction as with
  | nil => simp [pure, Except.pure]
  | cons x as ih =>
    rw [List.mapM_cons, exists_first_cons, ← ih, bind_eq_error]
    refine or_congr_right ⟨fun h => ?_, fun h => ?_⟩
    · obtain ⟨b, hb, h⟩ := h
      refine ⟨⟨b, hb⟩, ?_⟩
      rcases bind_eq_error.mp h with h | ⟨bs, -, h⟩
      · exact h
      · cases h
    · obtain ⟨⟨b, hb⟩, h⟩ := h
      exact ⟨b, hb, bind_eq_error.mpr (.inl h)⟩

theorem mapM_eq_error_iff_flatMap {f : β → Except ε γ} {g : α → List β} {h : α → Except ε δ}
    (hg : ∀ a e, h a = .error e ↔ (g a).mapM f = .error e) {as : List α} {e : ε} :
    as.mapM h = .error e ↔ (as.flatMap g).mapM f = .error e := by
  induction as with
  | nil => simp [pure, Except.pure]
  | cons a as ih =>
    rw [List.mapM_cons, List.flatMap_cons, List.mapM_append, bind_eq_error, bind_eq_error, hg]
    refine or_congr_right ⟨fun hrest => ?_, fun hrest => ?_⟩
    · obtain ⟨b, hb, hrest⟩ := hrest
      cases hc : (g a).mapM f with
      | error e' => exact absurd (((hg a e').mpr hc).symm.trans hb) (by simp)
      | ok cs =>
        refine ⟨cs, rfl, bind_eq_error.mpr (.inl (ih.mp ?_))⟩
        simpa [bind_eq_error, pure, Except.pure] using hrest
    · obtain ⟨cs, hcs, hrest⟩ := hrest
      cases hb : h a with
      | error e' => exact absurd (((hg a e').mp hb).symm.trans hcs) (by simp)
      | ok b =>
        refine ⟨b, rfl, bind_eq_error.mpr (.inl (ih.mpr ?_))⟩
        simpa [bind_eq_error, pure, Except.pure] using hrest

namespace Dict

variable {κ : Type} [LT κ] [DecidableLT κ] [DecidableEq κ] [OrderedKey κ]

/-- Steps that look at the key of their entry and change nothing else fail as they do at the start,
where no key comes twice. -/
theorem foldlM_eq_error_iff {f : Dict κ α → κ × γ → Except ε (Dict κ α)}
    {fault? : Option α → κ × γ → Option ε}
    (herror : ∀ d entry e, f d entry = .error e ↔ fault? (d.get? entry.1) entry = some e)
    (hframe : ∀ d entry d', f d entry = .ok d' → ∀ k, k ≠ entry.1 → d'.get? k = d.get? k)
    {entries : List (κ × γ)} (hn : (entries.map Prod.fst).Nodup) {d : Dict κ α} {e : ε} :
    entries.foldlM f d = .error e ↔ ∃ before entry after, entries = before ++ entry :: after ∧
      (∀ x ∈ before, fault? (d.get? x.1) x = none) ∧ fault? (d.get? entry.1) entry = some e := by
  induction entries generalizing d with
  | nil => simp [pure, Except.pure]
  | cons x entries ih =>
    obtain ⟨hx, hn⟩ := List.nodup_cons.mp hn
    rw [List.foldlM_cons, exists_first_cons]
    cases hd : f d x with
    | error e' =>
      rw [(herror d x e').mp hd]
      simp [bind, Except.bind]
    | ok d' =>
      have hnone : fault? (d.get? x.1) x = none := by
        cases hf : fault? (d.get? x.1) x with
        | none => rfl
        | some e' => exact absurd (((herror d x e').mpr hf).symm.trans hd) (by simp)
      -- no later entry has the key of this one, so it finds what it would have found before
      have hsame : ∀ y ∈ entries, d'.get? y.1 = d.get? y.1 := by
        intro y hy
        refine hframe d x d' hd y.1 ?_
        intro heq
        exact hx (heq ▸ List.mem_map_of_mem hy)
      rw [hnone, or_iff_right (by simp), and_iff_right rfl]
      refine (ih hn).trans (exists₃_congr fun before entry after => and_congr_right ?_)
      rintro rfl
      rw [hsame entry (by simp)]
      refine and_congr_left fun _ => forall₂_congr fun y hy => ?_
      rw [hsame y (List.mem_append_left _ hy)]

theorem mem_before_iff {d : Dict κ α} {before after : List (κ × α)} {entry x : κ × α}
    (h : d.toList = before ++ entry :: after) : x ∈ before ↔ x ∈ d.toList ∧ x.1 < entry.1 := by
  have hs : Assoc.Ascending (before ++ entry :: after) := h ▸ d.ascending
  obtain ⟨-, hrest, hless⟩ := List.pairwise_append.mp hs
  rw [h]
  constructor
  · intro hx
    exact ⟨List.mem_append_left _ hx, hless x hx entry List.mem_cons_self⟩
  · intro hx
    obtain ⟨hx, hlt⟩ := hx
    rcases List.mem_append.mp hx with hx | hx
    · exact hx
    · rcases List.mem_cons.mp hx with rfl | hx
      · exact absurd hlt (OrderedKey.irrefl _)
      · exact absurd (OrderedKey.trans hlt ((List.pairwise_cons.mp hrest).1 x hx))
          (OrderedKey.irrefl _)

/-- Going through the entries of a map, such steps fail at the least key at which one fails. -/
theorem foldlM_toList_eq_error_iff {f : Dict κ α → κ × γ → Except ε (Dict κ α)}
    {fault? : Option α → κ × γ → Option ε}
    (herror : ∀ d entry e, f d entry = .error e ↔ fault? (d.get? entry.1) entry = some e)
    (hframe : ∀ d entry d', f d entry = .ok d' → ∀ k, k ≠ entry.1 → d'.get? k = d.get? k)
    {entries : Dict κ γ} {d : Dict κ α} {e : ε} :
    entries.toList.foldlM f d = .error e ↔ ∃ k v, entries.get? k = some v ∧
      fault? (d.get? k) (k, v) = some e ∧
      ∀ k' v', entries.get? k' = some v' → fault? (d.get? k') (k', v') ≠ none → ¬ k' < k := by
  rw [foldlM_eq_error_iff herror hframe entries.nodup_keys]
  constructor
  · intro h
    obtain ⟨before, ⟨k, v⟩, after, heq, hbefore, he⟩ := h
    refine ⟨k, v, (mem_toList_iff _ _ _).mp (by simp [heq]), he, ?_⟩
    intro k' v' hv' hfault hlt
    exact hfault (hbefore (k', v') ((mem_before_iff heq).mpr ⟨(mem_toList_iff _ _ _).mpr hv', hlt⟩))
  · intro h
    obtain ⟨k, v, hv, he, hleast⟩ := h
    obtain ⟨before, after, heq⟩ := List.append_of_mem ((mem_toList_iff _ _ _).mpr hv)
    refine ⟨before, (k, v), after, heq, ?_, he⟩
    intro x hx
    obtain ⟨hmem, hlt⟩ := (mem_before_iff heq).mp hx
    by_contra hfault
    exact hleast x.1 x.2 ((mem_toList_iff _ _ _).mp hmem) hfault hlt

end Dict

end Mudlib
