import Mudlib.Proofs.Space.AttachmentForest
import Mudlib.Proofs.Space.Requests
import Mudlib.Proofs.Space.Sequence
set_option autoImplicit false

namespace Mudlib.Space

inductive Objection (id : InstanceId) (t : Table) : String × Value → RuntimeError → Prop where
  | unknown {field : String} {v : Value} : t.field? field = none →
      Objection id t (field, v) (.noSuchField id field)
  | mistyped {field : String} {v : Value} {slot : FieldSlot} : t.field? field = some slot →
      slot.type.accepts v = false → Objection id t (field, v) (.typeMismatch id field slot.type)

variable {s s' s₀ : Space} {id : InstanceId} {i : Instance} {e : RuntimeError}

theorem Objection.of_assign {field : String} {v : Value} (hi : s.invokable id = .ok i)
    (h : s.assign id field v = .error e) : Objection id i.table (field, v) e := by
  rw [assign_of_invokable field v hi] at h
  split at h
  next hnone =>
    cases h
    exact .unknown hnone
  next slot hslot =>
    split at h
    next => cases h
    next hv =>
      cases h
      exact .mistyped hslot (Bool.eq_false_iff.mpr hv)

theorem Objection.names {t : Table} {a : String × Value} (h : Objection id t a e) :
    e = .noSuchField id a.1 ∨ ∃ type, e = .typeMismatch id a.1 type := by
  cases h with
  | unknown => exact .inl rfl
  | mistyped => exact .inr ⟨_, rfl⟩

variable {writes : List (String × Value)} {started : List Implementation}

namespace Rewritten

theorem invokable (h : Rewritten id writes started s s') (hi : s.instance? id = some i)
    (hd : i.state ≠ .destroyed) :
    s'.invokable id = .ok { i with fields := writeAll writes i.fields } :=
  invokable_eq_ok.mpr ⟨h.instance?_this hi, hd⟩

theorem population_eq_iff (h : Rewritten id writes started s s') (hi : s.instance? id = some i) :
    s'.population = s.population ↔ writeAll writes i.fields = i.fields := by
  have hthis := h.instance?_this hi
  constructor
  · intro hp
    rw [instance?_of_population hp, hi] at hthis
    exact (congrArg Instance.fields (Option.some.inj hthis)).symm
  · intro hsame
    refine Population.ext_get? fun x => ?_
    by_cases hx : x = id
    · rw [hsame] at hthis
      rw [hx]
      exact hthis.trans hi.symm
    · exact h.others x hx

end Rewritten

/-- In a space without native code an invocation that fails has found nothing that answers, and then
nothing has changed; or the method that answered has come to an assignment that the table of the
instance objects to. Then all assignments before this one have been made, whichever bodies they stand
in, and nothing else has changed: the instances are what they were only if these assignments set
fields to what they were. -/
theorem failed_invocation_keeps_earlier_writes [Natives] {policy : AmbiguityPolicy}
    {maxDepth : Nat} {loader : Option Loader} {config : Config} {requests : List Request}
    (hloader : ∀ load id d, loader = some load → load id = .ok (some d) → d.Scripted)
    (hstart : ofConfig? (.empty policy maxDepth loader) config = .ok s₀)
    (hrequests : ∀ request ∈ requests, request.Scripted) (hserved : Served s₀ requests s)
    {bound : Nat} {method : String} {args : List Value} {caller : Principal}
    (h : invoke bound id method args caller s = some (.error e, s')) :
    s.dispatch id method = some (.error e) ∧ s' = s ∨
      ∃ x m i done wrong later started, s.dispatch id method = some (.ok (x, m)) ∧
        s.instance? x = some i ∧ m.writes = done ++ wrong :: later ∧ started <+: m.starts ∧
        (∀ a ∈ done, Takes i.table a) ∧ Objection x i.table wrong e ∧
        Rewritten x done started s s' ∧
        (s'.population = s.population ↔ writeAll done i.fields = i.fields) := by
  have hrest := (atRest_of_ofConfig? hloader hstart).served hserved hrequests
  unfold Space.invoke Engine.invoke at h
  rw [Run.search_bind] at h
  split at h
  · cases h
  next hrefused =>
    cases h
    exact .inl ⟨hrefused, rfl⟩
  next found hfound =>
    obtain ⟨t, ht, hm⟩ := method_of_dispatch hfound
    obtain ⟨i, hi, hd, -⟩ := answerer_of_dispatch hfound
    rcases rewritten_of_callWithin ((hrest.scripted.table ht).method hm) h with
      ⟨hok, -⟩ | ⟨done, field, v, later, started, _, hwrites, hstarts, hr, hassign, he⟩
    · cases hok
    · cases he
      have hobjection := Objection.of_assign (hr.invokable hi hd) hassign
      exact .inr ⟨found.1, found.2, i, done, (field, v), later, started, hfound, hi, hwrites,
        hstarts, hr.taken i hi, hobjection, hr, hr.population_eq_iff hi⟩

section Cask

def cask : Definition :=
  { Definition.empty ⟨"/cask", by decide⟩ with
    fields := (Dict.empty.insert "count" ⟨.int, .int 0⟩).insert "label" ⟨.string, .str ""⟩
    methods := Dict.empty.insert "fill"
      ⟨.scripted ⟨(Dict.empty.insert "count" (.int 1)).insert "label" (.int 2), .null⟩, []⟩ }

def coopering : List Request := [.registry (.register cask), .instantiate cask.id .system]

theorem coopering_scripted : ∀ request ∈ coopering, request.Scripted := by
  have hcask : cask.Scripted := by
    intro name decl hdecl
    rw [cask, Dict.get?_insert] at hdecl
    split at hdecl
    · cases hdecl
      rfl
    · cases hdecl
  intro request hmem
  simp only [coopering, List.mem_cons, List.not_mem_nil, or_false] at hmem
  rcases hmem with rfl | rfl
  · exact hcask
  · trivial

/-- The count is set before the label is refused, and stays. -/
theorem cask_half_filled : ∃ s₀ s s', ofConfig? (.empty .firstContributor 8 none) .standard = .ok s₀ ∧
    (∀ request ∈ coopering, request.Scripted) ∧ Served s₀ coopering s ∧
    invoke 6 ⟨1⟩ "fill" [] .system s = some (.error (.typeMismatch ⟨1⟩ "label" .string), s') ∧
    s.getField ⟨1⟩ "count" = .ok (.int 0) ∧ s'.getField ⟨1⟩ "count" = .ok (.int 1) := by
  have hrun : (ofConfig? (.empty .firstContributor 8 none) .standard).toOption.bind (fun s₀ =>
      (serve 6 coopering s₀).bind fun s => (invoke 6 ⟨1⟩ "fill" [] .system s).map fun r =>
        (r.1, s.getField ⟨1⟩ "count", r.2.getField ⟨1⟩ "count")) =
      some (.error (.typeMismatch ⟨1⟩ "label" .string), .ok (.int 0), .ok (.int 1)) := by
    decide +kernel
  obtain ⟨s₀, s, hok, hserved, hfound⟩ := served_of_found hrun
  obtain ⟨⟨out, s'⟩, hinvoke, heq⟩ := Option.map_eq_some_iff.mp hfound
  simp only [Prod.mk.injEq] at heq
  obtain ⟨rfl, hbefore, hafter⟩ := heq
  exact ⟨s₀, s, s', hok, coopering_scripted, hserved, hinvoke, hbefore, hafter⟩

/-- Of what filling the cask assigns the count is set, and that is all that it does. -/
theorem cask_filling_stops : ∃ s₀ s s' started,
    ofConfig? (.empty .firstContributor 8 none) .standard = .ok s₀ ∧ Served s₀ coopering s ∧
    invoke 6 ⟨1⟩ "fill" [] .system s = some (.error (.typeMismatch ⟨1⟩ "label" .string), s') ∧
    Rewritten ⟨1⟩ [("count", .int 1)] started s s' := by
  have hrun : (ofConfig? (.empty .firstContributor 8 none) .standard).toOption.bind (fun s₀ =>
      (serve 6 coopering s₀).bind fun s => (invoke 6 ⟨1⟩ "fill" [] .system s).bind fun r =>
        (s.dispatch ⟨1⟩ "fill").bind fun found => found.toOption.map fun answer =>
          (r.1, answer.1, answer.2.writes)) =
      some (.error (.typeMismatch ⟨1⟩ "label" .string), ⟨1⟩,
        [("count", .int 1), ("label", .int 2)]) := by
    decide +kernel
  obtain ⟨s₀, s, hok, hserved, hfound⟩ := served_of_found hrun
  obtain ⟨⟨out, s'⟩, hinvoke, hfound⟩ := Option.bind_eq_some_iff.mp hfound
  obtain ⟨found, hdispatch, hfound⟩ := Option.bind_eq_some_iff.mp hfound
  obtain ⟨answer, hanswer, heq⟩ := Option.map_eq_some_iff.mp hfound
  simp only [Prod.mk.injEq] at heq
  obtain ⟨rfl, hthis, hall⟩ := heq
  rw [eq_ok_of_toOption hanswer] at hdispatch
  have hloader : ∀ load id d, (none : Option Loader) = some load → load id = .ok (some d) →
      d.Scripted := nofun
  rcases failed_invocation_keeps_earlier_writes hloader hok coopering_scripted hserved hinvoke with
    ⟨hrefused, -⟩ |
      ⟨x, m, i, done, wrong, later, started, hfound, -, hwrites, -, -, hobjection, hr, -⟩
  · cases hrefused.symm.trans hdispatch
  · obtain rfl := Except.ok.inj (Option.some.inj (hdispatch.symm.trans hfound))
    obtain rfl := hthis
    rw [hwrites] at hall
    -- the refused assignment is the one to the label, and so the second one
    rcases hobjection.names with hwrong | ⟨type, hwrong⟩
    · cases hwrong
    · match done, hall with
      | [], hall =>
        cases hall
        exact absurd (RuntimeError.typeMismatch.inj hwrong).2.1 (by decide)
      | [_], hall =>
        cases hall
        exact ⟨s₀, s, s', started, hok, hserved, hinvoke, hr⟩
      | _ :: _ :: _, hall => simp at hall

end Cask

end Mudlib.Space
