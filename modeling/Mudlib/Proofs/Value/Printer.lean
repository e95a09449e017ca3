import Mudlib.Proofs.Number.Text
import Mudlib.Value.Printer
/-!
JSON texts determine the values that they were made from: what was printed first, and what follows
it, can be told from the characters alone.

Texts are read back by the reader itself. Numbers are not: the reader may miss a float by one place,
so they are told apart by what they write.
-/
set_option autoImplicit false

namespace Mudlib.Value

section Quoting

theorem hexDigits_spec : ∀ n < 32,
    ['0', '0', hexDigit (n / 16), hexDigit n].all (Digits.isDigit 16) = true ∧
      Digits.toNat 16 ['0', '0', hexDigit (n / 16), hexDigit n] = n := by
  decide +kernel

theorem readUnicodeEscape_control {n : Nat} (h : n < 32) (rest : List Char) :
    readUnicodeEscape ('0' :: '0' :: hexDigit (n / 16) :: hexDigit n :: rest) =
      some (Char.ofNat n, rest) := by
  obtain ⟨hdigits, hnat⟩ := hexDigits_spec n h
  have hlow : ¬ 0xD800 ≤ n := by omega
  have hhigh : ¬ 0xDC00 ≤ n := by omega
  simp [readUnicodeEscape, readHex4, hdigits, hnat, hlow, hhigh]

/-- The reader takes one step over each character as it was escaped. -/
theorem readQuoted_escape (n : Nat) (acc : List Char) (c : Char) (rest : List Char) :
    readQuoted (n + 1) acc (escape c ++ rest) = readQuoted n (c :: acc) rest := by
  by_cases hquote : c = '"'
  · subst hquote; rfl
  by_cases hbackslash : c = '\\'
  · subst hbackslash; rfl
  by_cases hb : c = '\x08'
  · subst hb; rfl
  by_cases hf : c = '\x0c'
  · subst hf; rfl
  by_cases hn : c = '\n'
  · subst hn; rfl
  by_cases hr : c = '\r'
  · subst hr; rfl
  by_cases ht : c = '\t'
  · subst ht; rfl
  by_cases hcontrol : c.toNat < 0x20
  · have hread := readUnicodeEscape_control hcontrol rest
    rw [Char.ofNat_toNat] at hread
    simp [escape, hquote, hbackslash, hb, hf, hn, hr, ht, hcontrol, readQuoted, hread]
  · simp [escape, hquote, hbackslash, hb, hf, hn, hr, ht, hcontrol, readQuoted]

theorem readQuoted_flatMap (l rest : List Char) (n : Nat) (acc : List Char) (h : l.length < n) :
    readQuoted n acc (l.flatMap escape ++ '"' :: rest) =
      some (String.ofList (acc.reverse ++ l), rest) := by
  induction l generalizing n acc with
  | nil =>
    obtain ⟨n, rfl⟩ := Nat.exists_eq_add_of_lt h
    simp [readQuoted]
  | cons c l ih =>
    cases n with
    | zero => cases h
    | succ n =>
      rw [List.flatMap_cons, List.append_assoc, readQuoted_escape,
        ih n (c :: acc) (Nat.lt_of_succ_lt_succ h)]
      simp

theorem length_le_flatMap_escape (l : List Char) : l.length ≤ (l.flatMap escape).length := by
  induction l with
  | nil => exact Nat.le_refl _
  | cons c l ih =>
    have hc : 1 ≤ (escape c).length := by
      unfold escape
      repeat' split
      all_goals exact Nat.succ_pos _
    rw [List.flatMap_cons, List.length_append, List.length_cons]
    omega

theorem parse?_compact_str (s : String) : parse? (str s).compact = some (.str s) := by
  have htext : (str s).compact.toList = '"' :: (s.toList.flatMap escape ++ '"' :: []) := by
    simp [compact, render, renderScalar, quote]
  have hlength : s.toList.length < (s.toList.flatMap escape ++ '"' :: []).length + 1 := by
    have hle := length_le_flatMap_escape s.toList
    rw [List.length_append]
    omega
  have hquoted := readQuoted_flatMap s.toList [] _ [] hlength
  have hread : readValue ((str s).compact.toList.length + 1) (str s).compact.toList =
      some (.str s, []) := by
    have hopen : skipBlanks ('"' :: (s.toList.flatMap escape ++ '"' :: [])) =
        '"' :: (s.toList.flatMap escape ++ '"' :: []) := rfl
    rw [htext, readValue, hopen]
    simp only [hquoted, List.reverse_nil, List.nil_append, String.ofList_toList, Option.map_some]
  simp only [parse?, hread]
  rfl

/-- A quoted text, and what stands behind it, can be told from the characters. -/
theorem quote_append_inj {k l : String} {s t : List Char} (h : quote k ++ s = quote l ++ t) :
    k = l ∧ s = t := by
  have hread : ∀ (text : String) (rest : List Char) (n : Nat), text.toList.length < n →
      readQuoted n [] ((quote text ++ rest).tail) = some (text, rest) := by
    intro text rest n hn
    have hflat := readQuoted_flatMap text.toList rest n [] hn
    simpa [quote] using hflat
  have hk := hread k s (k.toList.length + l.toList.length + 1) (by omega)
  have hl := hread l t (k.toList.length + l.toList.length + 1) (by omega)
  rw [h, hl] at hk
  exact ⟨(Prod.mk.inj (Option.some.inj hk)).1.symm, (Prod.mk.inj (Option.some.inj hk)).2.symm⟩

end Quoting

section Numbers

theorem numeral_renderInt (n : Int) :
    (∃ c cs, renderInt n = c :: cs ∧ (c.isDigit = true ∨ c = '-')) ∧
      ∀ c ∈ renderInt n, c.isDigit = true ∨ c = '-' := by
  have hdigit : ∀ c ∈ Nat.toDigits 10 n.natAbs, c.isDigit = true :=
    fun c => Digits.isDigit_of_mem_toDigits
  unfold renderInt
  split
  · refine ⟨⟨'-', _, rfl, .inr rfl⟩, ?_⟩
    intro c hc
    rcases List.mem_cons.mp hc with rfl | hc
    · exact .inr rfl
    · exact .inl (hdigit c hc)
  · obtain ⟨c, cs, hc⟩ := List.exists_cons_of_ne_nil
      (Nat.toDigits_ne_nil (n := n.natAbs) (b := 10))
    exact ⟨⟨c, cs, hc, .inl (hdigit c (hc ▸ List.mem_cons_self))⟩, fun c hc => .inl (hdigit c hc)⟩

theorem toDigits_inj {m n : Nat} (h : Nat.toDigits 10 m = Nat.toDigits 10 n) : m = n := by
  rw [← Digits.toNat_toDigits m, h, Digits.toNat_toDigits]

theorem sign_not_mem_toDigits (n : Nat) : '-' ∉ Nat.toDigits 10 n := fun h =>
  absurd (Digits.isDigit_of_mem_toDigits h) (by decide)

theorem renderInt_inj {m n : Int} (h : renderInt m = renderInt n) : m = n := by
  unfold renderInt at h
  split at h
  · split at h
    · have habs := toDigits_inj (List.cons.inj h).2
      omega
    · exact absurd (h ▸ List.mem_cons_self) (sign_not_mem_toDigits n.natAbs)
  · split at h
    · exact absurd (h ▸ List.mem_cons_self) (sign_not_mem_toDigits m.natAbs)
    · have habs := toDigits_inj h
      omega

/-- The text of a float starts as a number does, and has a character that no whole number has. -/
theorem numeral_text (x : Binary64) :
    (∃ c cs, x.text = c :: cs ∧ (c.isDigit = true ∨ c = '-')) ∧
      (∀ c ∈ x.text, Binary64.isNumeral c = true) ∧ ('.' ∈ x.text ∨ 'e' ∈ x.text) := by
  obtain ⟨⟨c, cs, hc, hd⟩, hall, hmark⟩ :=
    (Binary64.writes_magnitudeText Binary64.standardStyle x).numeral
  unfold Binary64.text
  split
  · refine ⟨⟨'-', _, rfl, .inr rfl⟩, ?_, ?_⟩
    · intro c hc
      rcases List.mem_append.mp hc with hc | hc
      · obtain rfl := List.mem_singleton.mp hc
        rfl
      · exact hall c hc
    · exact hmark.imp (List.mem_append_right _) (List.mem_append_right _)
  · exact ⟨⟨c, cs, hc, .inl hd⟩, hall, hmark⟩

theorem renderInt_ne_text (n : Int) (x : Binary64) : renderInt n ≠ x.text := by
  intro h
  have hplain := (numeral_renderInt n).2
  rw [h] at hplain
  rcases (numeral_text x).2.2 with hmem | hmem
  · have := hplain '.' hmem
    revert this
    decide
  · have := hplain 'e' hmem
    revert this
    decide

def Delimited (s : List Char) : Prop := ∀ c ∈ s.head?, Binary64.isNumeral c = false

theorem delimited_cons {c : Char} (h : Binary64.isNumeral c = false) (s : List Char) :
    Delimited (c :: s) := by
  intro b hb
  obtain rfl : c = b := by simpa using hb
  exact h

theorem numerals_append_inj {p q s t : List Char} (hp : ∀ c ∈ p, Binary64.isNumeral c = true)
    (hq : ∀ c ∈ q, Binary64.isNumeral c = true) (hs : Delimited s) (ht : Delimited t)
    (h : p ++ s = q ++ t) : p = q ∧ s = t := by
  have hnone : ∀ {s : List Char}, Delimited s → s.takeWhile Binary64.isNumeral = [] := by
    intro s hs
    cases s with
    | nil => rfl
    | cons c s => simp [hs c rfl]
  have htake := congrArg (List.takeWhile Binary64.isNumeral) h
  rw [List.takeWhile_append_of_pos hp, List.takeWhile_append_of_pos hq, hnone hs, hnone ht,
    List.append_nil, List.append_nil] at htake
  subst htake
  exact ⟨rfl, List.append_cancel_left h⟩

end Numbers

section Values

def kindOf (c : Char) : Nat :=
  if c = 'n' then 0
  else if c = 't' then 1
  else if c = 'f' then 2
  else if c = '"' then 3
  else if c = '[' then 4
  else if c = '{' then 5
  else if c.isDigit || c = '-' then 6
  else 7

def kind : Value → Nat
  | .null => 0
  | .bool true => 1
  | .bool false => 2
  | .str _ => 3
  | .list _ => 4
  | .obj _ => 5
  | .int _ => 6
  | .float _ => 6

theorem kindOf_numeral {c : Char} (h : c.isDigit = true ∨ c = '-') : kindOf c = 6 := by
  rcases h with h | rfl
  · have hne : ∀ b : Char, b.isDigit = false → c ≠ b := by
      intro b hb heq
      rw [heq, hb] at h
      cases h
    simp [kindOf, h, hne 'n' rfl, hne 't' rfl, hne 'f' rfl, hne '"' rfl, hne '[' rfl, hne '{' rfl]
  · rfl

theorem render_eq_cons (v : Value) : ∃ c cs, v.render = c :: cs ∧ kindOf c = v.kind := by
  cases v with
  | null => exact ⟨_, _, rfl, rfl⟩
  | bool b => cases b <;> exact ⟨_, _, rfl, rfl⟩
  | int n =>
    obtain ⟨⟨c, cs, hc, hd⟩, -⟩ := numeral_renderInt n
    exact ⟨c, cs, hc, kindOf_numeral hd⟩
  | float x =>
    obtain ⟨⟨c, cs, hc, hd⟩, -⟩ := numeral_text x
    exact ⟨c, cs, hc, kindOf_numeral hd⟩
  | str s => exact ⟨_, _, rfl, rfl⟩
  | list items => cases items <;> exact ⟨_, _, rfl, rfl⟩
  | obj members => cases members <;> exact ⟨_, _, rfl, rfl⟩

theorem kind_eq_of_append {v w : Value} {s t : List Char} (h : v.render ++ s = w.render ++ t) :
    v.kind = w.kind := by
  obtain ⟨b, bs, hb, hv⟩ := render_eq_cons v
  obtain ⟨c, cs, hc, hw⟩ := render_eq_cons w
  rw [hb, hc] at h
  rw [← hv, ← hw, (List.cons.inj h).1]

theorem render_ne_cons (v : Value) {c : Char} (hc : kindOf c = 7) (s t : List Char) :
    v.render ++ s ≠ c :: t := by
  intro h
  obtain ⟨b, bs, hb, hv⟩ := render_eq_cons v
  rw [hb] at h
  rw [(List.cons.inj h).1, hc] at hv
  revert hv
  cases v with
  | bool b => cases b <;> simp [kind]
  | _ => simp [kind]

theorem delimited_renderItems (xs : List Value) (s : List Char) :
    Delimited (renderItems xs ++ s) := by
  cases xs <;> exact delimited_cons rfl _

theorem delimited_renderMembers (ms : List (String × Value)) (s : List Char) :
    Delimited (renderMembers ms ++ s) := by
  cases ms <;> exact delimited_cons rfl _

theorem number_append_inj {v w : Value} {s t : List Char} (hv : v.kind = 6) (hw : w.kind = 6)
    (hs : Delimited s) (ht : Delimited t) (h : v.render ++ s = w.render ++ t) :
    v = w ∧ s = t := by
  have hnumeral : ∀ {v : Value}, v.kind = 6 → ∀ c ∈ v.render, Binary64.isNumeral c = true := by
    intro v hv c hc
    cases v with
    | int n =>
      rcases (numeral_renderInt n).2 c hc with hd | rfl
      · exact Binary64.isNumeral_of_isDigit hd
      · rfl
    | float x => exact (numeral_text x).2.1 c hc
    | bool b => cases b <;> cases hv
    | _ => cases hv
  obtain ⟨heq, hst⟩ := numerals_append_inj (hnumeral hv) (hnumeral hw) hs ht h
  refine ⟨?_, hst⟩
  cases v with
  | int m =>
    cases w with
    | int n => exact congrArg Value.int (renderInt_inj heq)
    | float x => exact absurd heq (renderInt_ne_text m x)
    | bool b => cases b <;> cases hw
    | _ => cases hw
  | float x =>
    cases w with
    | int n => exact absurd heq.symm (renderInt_ne_text n x)
    | float y => exact congrArg Value.float (Binary64.text_inj heq)
    | bool b => cases b <;> cases hw
    | _ => cases hw
  | bool b => cases b <;> cases hv
  | _ => cases hv

mutual

/-- A printed value, and what stands behind it, can be told from the characters. -/
theorem render_append_inj (v w : Value) {s t : List Char} (hs : Delimited s) (ht : Delimited t)
    (h : v.render ++ s = w.render ++ t) : v = w ∧ s = t := by
  have hkind := kind_eq_of_append h
  cases v with
  | null =>
    cases w with
    | null => exact ⟨rfl, List.append_cancel_left h⟩
    | bool b => cases b <;> cases hkind
    | _ => cases hkind
  | bool a =>
    cases w with
    | bool b =>
      obtain rfl : a = b := by cases a <;> cases b <;> first | rfl | cases hkind
      exact ⟨rfl, List.append_cancel_left h⟩
    | _ => cases a <;> cases hkind
  | int n => exact number_append_inj rfl hkind.symm hs ht h
  | float x => exact number_append_inj rfl hkind.symm hs ht h
  | str k =>
    cases w with
    | str l =>
      obtain ⟨rfl, hst⟩ := quote_append_inj h
      exact ⟨rfl, hst⟩
    | bool b => cases b <;> cases hkind
    | _ => cases hkind
  | list xs =>
    cases w with
    | list ys =>
      obtain ⟨rfl, hst⟩ := renderList_append_inj xs ys h
      exact ⟨rfl, hst⟩
    | bool b => cases b <;> cases hkind
    | _ => cases hkind
  | obj ms =>
    cases w with
    | obj ns =>
      obtain ⟨rfl, hst⟩ := renderObj_append_inj ms ns h
      exact ⟨rfl, hst⟩
    | bool b => cases b <;> cases hkind
    | _ => cases hkind
termination_by structural v

theorem renderList_append_inj (xs ys : List Value) {s t : List Char}
    (h : (Value.list xs).render ++ s = (Value.list ys).render ++ t) : xs = ys ∧ s = t := by
  match xs, ys with
  | [], [] => exact ⟨rfl, List.append_cancel_left h⟩
  | [], y :: ys =>
    simp only [render, List.cons_append, List.append_assoc] at h
    exact absurd (List.cons.inj h).2.symm (render_ne_cons y rfl _ _)
  | x :: xs, [] =>
    simp only [render, List.cons_append, List.append_assoc] at h
    exact absurd (List.cons.inj h).2 (render_ne_cons x rfl _ _)
  | x :: xs, y :: ys =>
    simp only [render, List.cons_append, List.append_assoc] at h
    obtain ⟨rfl, hrest⟩ := render_append_inj x y (delimited_renderItems xs s)
      (delimited_renderItems ys t) (List.cons.inj h).2
    obtain ⟨rfl, hst⟩ := renderItems_append_inj xs ys hrest
    exact ⟨rfl, hst⟩
termination_by structural xs

theorem renderItems_append_inj (xs ys : List Value) {s t : List Char}
    (h : renderItems xs ++ s = renderItems ys ++ t) : xs = ys ∧ s = t := by
  match xs, ys with
  | [], [] => exact ⟨rfl, List.append_cancel_left h⟩
  | [], y :: ys => cases h
  | x :: xs, [] => cases h
  | x :: xs, y :: ys =>
    simp only [renderItems, List.cons_append, List.append_assoc] at h
    obtain ⟨rfl, hrest⟩ := render_append_inj x y (delimited_renderItems xs s)
      (delimited_renderItems ys t) (List.cons.inj h).2
    obtain ⟨rfl, hst⟩ := renderItems_append_inj xs ys hrest
    exact ⟨rfl, hst⟩
termination_by structural xs

theorem renderObj_append_inj (ms ns : List (String × Value)) {s t : List Char}
    (h : (Value.obj ms).render ++ s = (Value.obj ns).render ++ t) : ms = ns ∧ s = t := by
  match ms, ns with
  | [], [] => exact ⟨rfl, List.append_cancel_left h⟩
  | [], (l, y) :: ns => cases h
  | (k, x) :: ms, [] => cases h
  | (k, x) :: ms, (l, y) :: ns =>
    simp only [render, List.cons_append, List.append_assoc] at h
    obtain ⟨rfl, hmember⟩ := quote_append_inj (List.cons.inj h).2
    obtain ⟨rfl, hrest⟩ := render_append_inj x y (delimited_renderMembers ms s)
      (delimited_renderMembers ns t) (List.cons.inj hmember).2
    obtain ⟨rfl, hst⟩ := renderMembers_append_inj ms ns hrest
    exact ⟨rfl, hst⟩
termination_by structural ms

theorem renderMembers_append_inj (ms ns : List (String × Value)) {s t : List Char}
    (h : renderMembers ms ++ s = renderMembers ns ++ t) : ms = ns ∧ s = t := by
  match ms, ns with
  | [], [] => exact ⟨rfl, List.append_cancel_left h⟩
  | [], (l, y) :: ns => cases h
  | (k, x) :: ms, [] => cases h
  | (k, x) :: ms, (l, y) :: ns =>
    simp only [renderMembers, List.cons_append, List.append_assoc] at h
    obtain ⟨rfl, hmember⟩ := quote_append_inj (List.cons.inj h).2
    obtain ⟨rfl, hrest⟩ := render_append_inj x y (delimited_renderMembers ms s)
      (delimited_renderMembers ns t) (List.cons.inj hmember).2
    obtain ⟨rfl, hst⟩ := renderMembers_append_inj ms ns hrest
    exact ⟨rfl, hst⟩
termination_by structural ms

end

theorem compact_inj {v w : Value} (h : v.compact = w.compact) : v = w := by
  have hrender : v.render = w.render := String.ofList_injective h
  have hnil : Delimited [] := fun c hc => by cases hc
  exact (render_append_inj v w hnil hnil (by rw [hrender])).1

end Values

end Mudlib.Value
