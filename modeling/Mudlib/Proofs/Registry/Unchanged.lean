import Mudlib.Proofs.Registry.FreshBuild
import Mudlib.Proofs.Registry.Scripted
/-!
What the fingerprint of a definition is taken of tells everything that the definition declares, and
so a compilation that stops at an equal fingerprint stops at an equal declaration.

Nothing is lost on the way to the bytes that are hashed, nor in the digits that the digest is written
with. SHA-256 itself is all that may send two declarations to one fingerprint.
-/
set_option autoImplicit false

namespace Mudlib

namespace Sha256

theorem toList_eq_data (bytes : ByteArray) : bytes.toList = bytes.data.toList := by
  have hloop : ∀ i r, ByteArray.toList.loop bytes i r = r.reverse ++ bytes.data.toList.drop i := by
    intro i r
    fun_induction ByteArray.toList.loop bytes i r with
    | case1 i r hi ih =>
      have hi' : i < bytes.data.toList.length := by simpa using hi
      rw [ih, List.drop_eq_getElem_cons hi', List.reverse_cons, List.append_assoc]
      simp [ByteArray.get!, hi]
    | case2 i r hi =>
      have hi' : bytes.data.toList.length ≤ i := by simpa using hi
      rw [List.drop_eq_nil_of_le hi', List.append_nil]
  rw [ByteArray.toList, hloop]
  rfl

theorem hexDigit_inj : ∀ m < 16, ∀ n < 16, hexDigit m = hexDigit n → m = n := by decide

theorem length_hexOfWord (w : UInt32) : (hexOfWord w).length = 8 := by
  simp [hexOfWord]

theorem hexOfWord_inj {w w' : UInt32} (h : hexOfWord w = hexOfWord w') : w = w' := by
  have hdigit : ∀ i < 8, w.toNat / Nat.pow 16 (7 - i) % 16 = w'.toNat / Nat.pow 16 (7 - i) % 16 := by
    intro i hi
    have hi' := List.map_inj_left.mp h i (List.mem_range.mpr hi)
    refine hexDigit_inj _ (Nat.mod_lt _ (by decide)) _ (Nat.mod_lt _ (by decide)) ?_
    simpa [hexDigit] using hi'
  have hw := w.toNat_lt
  have hw' := w'.toNat_lt
  refine UInt32.toNat_inj.mp ?_
  have h0 := hdigit 0 (by decide)
  have h1 := hdigit 1 (by decide)
  have h2 := hdigit 2 (by decide)
  have h3 := hdigit 3 (by decide)
  have h4 := hdigit 4 (by decide)
  have h5 := hdigit 5 (by decide)
  have h6 := hdigit 6 (by decide)
  have h7 := hdigit 7 (by decide)
  norm_num at h0 h1 h2 h3 h4 h5 h6 h7
  omega

theorem hexOfWords_inj {ws ws' : List UInt32} (h : ws.flatMap hexOfWord = ws'.flatMap hexOfWord) :
    ws = ws' := by
  induction ws generalizing ws' with
  | nil =>
    cases ws' with
    | nil => rfl
    | cons w' ws' =>
      have hlength := congrArg List.length h
      simp only [List.flatMap_cons, List.flatMap_nil, List.length_append, length_hexOfWord,
        List.length_nil] at hlength
      omega
  | cons w ws ih =>
    cases ws' with
    | nil =>
      have hlength := congrArg List.length h
      simp only [List.flatMap_cons, List.flatMap_nil, List.length_append, length_hexOfWord,
        List.length_nil] at hlength
      omega
    | cons w' ws' =>
      obtain ⟨hfirst, hrest⟩ := List.append_inj h (by simp [length_hexOfWord])
      rw [hexOfWord_inj hfirst, ih hrest]

end Sha256

namespace Definition

def preimage? (d : Definition) : Option (List UInt8) :=
  d.declarationText?.map fun text => text.toUTF8.toList

/-- The two declare the same: fields with their types and defaults, and methods with their calls,
assignments and what they return, look alike name by name. -/
structure SameDeclaration (d d' : Definition) : Prop where
  id : d.id = d'.id
  ancestors : d.ancestors = d'.ancestors
  auxiliaries : d.auxiliaries = d'.auxiliaries
  prototype : d.prototype = d'.prototype
  fields : ∀ name, d.fields.get? name = d'.fields.get? name
  methods : ∀ name, d.methods.get? name = d'.methods.get? name

/-- SHA-256 tells what the two declare apart. -/
def DigestsApart (d d' : Definition) : Prop :=
  ∀ bytes bytes', d.preimage? = some bytes → d'.preimage? = some bytes' →
    Sha256.digest bytes = Sha256.digest bytes' → bytes = bytes'

variable {d d' : Definition}

theorem sameDeclaration_iff : SameDeclaration d d' ↔ d = d' := by
  constructor
  · intro h
    obtain ⟨hid, hancestors, hauxiliaries, hprototype, hfields, hmethods⟩ := h
    cases d
    cases d'
    simp only [mk.injEq]
    exact ⟨hid, hancestors, Dict.ext_get? hfields, Dict.ext_get? hmethods, hprototype, hauxiliaries⟩
  · rintro rfl
    exact ⟨rfl, rfl, rfl, rfl, fun _ => rfl, fun _ => rfl⟩

theorem fingerprint?_eq (d : Definition) : d.fingerprint? = d.preimage?.map fun bytes =>
    String.ofList ((Sha256.digest bytes).flatMap Sha256.hexOfWord) := by
  rw [fingerprint?, preimage?, Option.map_map]
  rfl

theorem exists_preimage (hd : d.Scripted) : ∃ bytes, d.preimage? = some bytes := by
  have hmethods : ∃ ms, d.methodDeclarations? = some ms := by
    refine exists_mapM_eq_some fun m hm => ?_
    have hscripted := hd m.1 m.2 ((d.methods.mem_toList_iff m.1 m.2).mp hm)
    obtain ⟨name, body, calls⟩ := m
    cases body with
    | native code => cases hscripted
    | scripted body => exact ⟨_, rfl⟩
  obtain ⟨ms, hms⟩ := hmethods
  simp [preimage?, declarationText?, declaration?, hms]

theorem exists_fingerprint (hd : d.Scripted) : ∃ f, d.fingerprint? = some f := by
  obtain ⟨bytes, hbytes⟩ := exists_preimage hd
  exact ⟨_, by rw [fingerprint?_eq, hbytes, Option.map_some]⟩

theorem text_of_bytes {text text' : String} (h : text.toUTF8.toList = text'.toUTF8.toList) :
    text = text' := by
  rw [Sha256.toList_eq_data, Sha256.toList_eq_data, Array.toList_inj] at h
  exact String.toByteArray_inj.mp (ByteArray.ext h)

theorem eq_of_preimage {bytes : List UInt8} (h : d.preimage? = some bytes)
    (h' : d'.preimage? = some bytes) : d = d' := by
  obtain ⟨text, htext, rfl⟩ := Option.map_eq_some_iff.mp h
  obtain ⟨text', htext', heq⟩ := Option.map_eq_some_iff.mp h'
  obtain rfl := text_of_bytes heq
  exact eq_of_declarationText htext htext'

/-- Equal digests come from equal texts, for all that the hexadecimal digits do. -/
theorem DigestsApart.text {text text' : String} (h : DigestsApart d d')
    (htext : d.declarationText? = some text) (htext' : d'.declarationText? = some text')
    (hdigest : Sha256.hexDigest text = Sha256.hexDigest text') : text = text' := by
  have hbytes : d.preimage? = some text.toUTF8.toList := by rw [preimage?, htext, Option.map_some]
  have hbytes' : d'.preimage? = some text'.toUTF8.toList := by
    rw [preimage?, htext', Option.map_some]
  have hwords := Sha256.hexOfWords_inj (String.ofList_injective hdigest)
  exact text_of_bytes (h _ _ hbytes hbytes' hwords)

end Definition

namespace Registry

variable {r : Registry} {d d' : Definition} {t : Table}

/-- A compilation stops early where the very definition is stored and has a table. -/
theorem unchanged?_eq_some_iff (hc : Coherent r) (hd : d.Scripted)
    (happart : ∀ s, r.source? d.id = some s → d.DigestsApart s) : r.unchanged? d = some t ↔
      r.cached? d.id = some t ∧ r.source? d.id = some d := by
  constructor
  · intro hu
    refine ⟨unchanged?_eq_some hu, source_of_unchanged? hc hu ?_⟩
    intro s text text' hs htext htext' hdigest
    exact ((happart s hs).text htext' htext hdigest.symm).symm
  · rintro ⟨hcached, hs⟩
    obtain ⟨s, parents, hsource, -, hl⟩ := hc.made hcached
    obtain rfl : d = s := Option.some.inj (hs.symm.trans hsource)
    obtain ⟨f, hf⟩ := Definition.exists_fingerprint hd
    simp only [unchanged?, hf, hcached, fingerprint_of_link hl, if_true]

/-- **The fingerprint is taken of the declaration.** Two scripted definitions are hashed as the same
bytes exactly when they declare the same. So, as far as SHA-256 tells the definition from the one
that is stored, a compilation stops early exactly when its id has a table already and what is stored
declares the same. -/
theorem preimage_determines_declaration (hd : d.Scripted) (hd' : d'.Scripted) :
    (∃ bytes bytes', d.preimage? = some bytes ∧ d'.preimage? = some bytes' ∧
      (bytes = bytes' ↔ d.SameDeclaration d')) ∧
    (d.fingerprint? = d.preimage?.map fun bytes =>
      String.ofList ((Sha256.digest bytes).flatMap Sha256.hexOfWord)) ∧
    (d.DigestsApart d' → (d.fingerprint? = d'.fingerprint? ↔ d.SameDeclaration d')) ∧
    ∀ policy maxDepth loader operations r, r = (empty policy maxDepth loader).afterAll operations →
      (∀ s, r.source? d.id = some s → d.DigestsApart s) → ∀ t, r.unchanged? d = some t ↔
        r.cached? d.id = some t ∧ ∃ s, r.source? d.id = some s ∧ d.SameDeclaration s := by
  obtain ⟨bytes, hbytes⟩ := Definition.exists_preimage hd
  obtain ⟨bytes', hbytes'⟩ := Definition.exists_preimage hd'
  refine ⟨⟨bytes, bytes', hbytes, hbytes', ?_⟩, d.fingerprint?_eq, ?_, ?_⟩
  · rw [Definition.sameDeclaration_iff]
    constructor
    · rintro rfl
      exact Definition.eq_of_preimage hbytes hbytes'
    · rintro rfl
      exact Option.some.inj (hbytes.symm.trans hbytes')
  · intro happart
    rw [Definition.sameDeclaration_iff]
    constructor
    · intro heq
      obtain ⟨f, hf⟩ := Definition.exists_fingerprint hd
      refine Definition.eq_of_fingerprint (heq ▸ hf) hf ?_
      exact fun _ _ htext htext' => happart.text htext htext'
    · rintro rfl
      rfl
  · rintro policy maxDepth loader operations r rfl happart t
    have hc := coherent_afterAll policy maxDepth loader operations
    simp only [unchanged?_eq_some_iff hc hd happart, Definition.sameDeclaration_iff, eq_comm (a := d),
      exists_eq_right]

def dial (mark : Value) : Definition :=
  ((Definition.empty ⟨"/dial", by decide⟩).addField "mark" ⟨.mixed, mark⟩).addMethod "turn"
    ⟨.scripted ⟨.empty, mark⟩, []⟩

theorem scripted_dial (mark : Value) : (dial mark).Scripted := by
  intro name decl h
  rw [dial, Definition.addMethod, Dict.get?_insert] at h
  split at h
  · cases h
    rfl
  · cases h

def placed : List Operation := [.compile (dial (.int 1))]

/-- A number and its digits as a text are hashed apart, and the dial that was placed is found to be
unchanged. -/
theorem dial_hashed_as_declared :
    (∃ bytes bytes', (dial (.int 1)).preimage? = some bytes ∧
      (dial (.str "1")).preimage? = some bytes' ∧ bytes ≠ bytes') ∧
    ∃ t, ((empty .firstContributor 8 none).afterAll placed).unchanged? (dial (.int 1)) = some t := by
  obtain ⟨⟨bytes, bytes', hbytes, hbytes', hiff⟩, -, -, hunchanged⟩ :=
    preimage_determines_declaration (scripted_dial (.int 1)) (scripted_dial (.str "1"))
  refine ⟨⟨bytes, bytes', hbytes, hbytes', fun heq => ?_⟩, ?_⟩
  · have hfield := (hiff.mp heq).fields "mark"
    revert hfield
    decide
  · have hstored : ((empty .firstContributor 8 none).afterAll placed).source? (dial (.int 1)).id =
        some (dial (.int 1)) := rfl
    have hcached : (((empty .firstContributor 8 none).afterAll placed).cached?
        (dial (.int 1)).id).isSome = true := by decide +kernel
    obtain ⟨t, ht⟩ := Option.isSome_iff_exists.mp hcached
    refine ⟨t, (hunchanged _ _ _ _ _ rfl ?_ t).mpr ⟨ht, _, hstored, ?_⟩⟩
    · intro s hs
      obtain rfl : dial (.int 1) = s := Option.some.inj (hstored.symm.trans hs)
      intro bytes bytes' hb hb' _
      exact Option.some.inj (hb.symm.trans hb')
    · exact Definition.sameDeclaration_iff.mpr rfl

end Registry

end Mudlib
