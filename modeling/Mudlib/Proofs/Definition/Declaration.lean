import Mudlib.Definition.Fingerprint
import Mudlib.Proofs.Value.Printer
set_option autoImplicit false

namespace Mudlib

theorem DefinitionId.eq_of_text {a b : DefinitionId} (h : a.text = b.text) : a = b := by
  cases a
  cases b
  cases h
  rfl

theorem idValues_inj {xs ys : List DefinitionId} (h : idValues xs = idValues ys) : xs = ys := by
  have htexts := Value.list.inj h
  rw [List.map_map, List.map_map] at htexts
  refine (List.map_inj_right ?_).mp htexts
  intro a b hab
  exact DefinitionId.eq_of_text (Value.str.inj hab)

theorem FieldType.eq_of_name {a b : FieldType} (h : a.name = b.name) : a = b := by
  have ha := FieldType.ofName?_name a
  rw [h, FieldType.ofName?_name b] at ha
  exact (Option.some.inj ha).symm

theorem FieldDecl.toValue_inj {a b : FieldDecl} (h : a.toValue = b.toValue) : a = b := by
  obtain ⟨type, default⟩ := a
  obtain ⟨type', default'⟩ := b
  simp only [toValue, Value.obj.injEq, List.cons.injEq, Prod.mk.injEq, Value.str.injEq, true_and,
    and_true] at h
  obtain ⟨rfl, hname⟩ := h
  rw [FieldType.eq_of_name hname]

theorem QualifiedCall.toValue_inj {a b : QualifiedCall} (h : a.toValue = b.toValue) : a = b := by
  obtain ⟨ancestor, method⟩ := a
  obtain ⟨ancestor', method'⟩ := b
  cases ancestor with
  | none =>
    cases ancestor' with
    | none => simpa [toValue] using h
    | some id' => simp [toValue] at h
  | some id =>
    cases ancestor' with
    | none => simp [toValue] at h
    | some id' =>
      simp only [toValue, Value.obj.injEq, List.cons.injEq, Prod.mk.injEq, Value.str.injEq,
        true_and, and_true] at h
      obtain ⟨htext, rfl⟩ := h
      rw [DefinitionId.eq_of_text htext]

theorem ScriptedBody.toValue_inj {a b : ScriptedBody} (h : a.toValue = b.toValue) : a = b := by
  obtain ⟨⟨entries, _⟩, returns⟩ := a
  obtain ⟨⟨entries', _⟩, returns'⟩ := b
  simp only [toValue, Value.ofDict, Value.obj.injEq, List.cons.injEq, Prod.mk.injEq, true_and,
    and_true] at h
  obtain ⟨rfl, rfl⟩ := h
  rfl

theorem MethodDecl.declaration?_inj {a b : MethodDecl} {v : Value} (ha : a.declaration? = some v)
    (hb : b.declaration? = some v) : a = b := by
  obtain ⟨body, calls⟩ := a
  obtain ⟨body', calls'⟩ := b
  cases body with
  | native code => cases ha
  | scripted body =>
    cases body' with
    | native code => cases hb
    | scripted body' =>
      have hv := Option.some.inj (hb.trans ha.symm)
      simp only [Value.obj.injEq, List.cons.injEq, Prod.mk.injEq, Value.list.injEq,
        true_and, and_true] at hv
      obtain ⟨hbody, hcalls⟩ := hv
      rw [ScriptedBody.toValue_inj hbody,
        (List.map_inj_right fun _ _ => QualifiedCall.toValue_inj).mp hcalls]

theorem exists_mapM_eq_some {α β : Type} {f : α → Option β} {xs : List α}
    (h : ∀ x ∈ xs, ∃ y, f x = some y) : ∃ ys, xs.mapM f = some ys := by
  induction xs with
  | nil => exact ⟨[], rfl⟩
  | cons x xs ih =>
    obtain ⟨hx, hxs⟩ := List.forall_mem_cons.mp h
    obtain ⟨y, hy⟩ := hx
    obtain ⟨ys, hys⟩ := ih hxs
    exact ⟨y :: ys, by simp [List.mapM_cons, hy, hys]⟩

theorem eq_of_mapM_eq_some {α β : Type} {f : α → Option β}
    (hf : ∀ {a b v}, f a = some v → f b = some v → a = b) {xs ys : List α} {zs : List β}
    (hx : xs.mapM f = some zs) (hy : ys.mapM f = some zs) : xs = ys := by
  induction xs generalizing ys zs with
  | nil =>
    obtain rfl : zs = [] := by simpa using hx.symm
    cases ys with
    | nil => rfl
    | cons y ys => simp [List.mapM_cons, Option.bind_eq_some_iff] at hy
  | cons x xs ih =>
    simp only [List.mapM_cons, Option.bind_eq_bind, Option.bind_eq_some_iff, Option.pure_def,
      Option.some.injEq] at hx
    obtain ⟨z, hz, zs, hzs, rfl⟩ := hx
    cases ys with
    | nil => simp at hy
    | cons y ys =>
      simp only [List.mapM_cons, Option.bind_eq_bind, Option.bind_eq_some_iff, Option.pure_def,
        Option.some.injEq, List.cons.injEq] at hy
      obtain ⟨z', hz', zs', hzs', rfl, rfl⟩ := hy
      rw [hf hz hz', ih hzs hzs']

theorem Dict.eq_of_entries {κ α : Type} [LT κ] {a b : Dict κ α} (h : a.entries = b.entries) :
    a = b := by
  cases a
  cases b
  cases h
  rfl

namespace Definition

variable {d d' : Definition}

theorem methods_inj {ms : List (String × Value)} (h : d.methodDeclarations? = some ms)
    (h' : d'.methodDeclarations? = some ms) : d.methods = d'.methods := by
  refine Dict.eq_of_entries (eq_of_mapM_eq_some ?_ h h')
  rintro ⟨name, decl⟩ ⟨name', decl'⟩ v hv hv'
  obtain ⟨u, hu, rfl⟩ := Option.map_eq_some_iff.mp hv
  obtain ⟨u', hu', heq⟩ := Option.map_eq_some_iff.mp hv'
  obtain ⟨hname, rfl⟩ := Prod.mk.inj heq
  exact Prod.ext hname.symm (MethodDecl.declaration?_inj hu hu')

theorem fields_inj
    (h : Value.ofDict (d.fields.mapVal fun _ decl => decl.toValue) =
      Value.ofDict (d'.fields.mapVal fun _ decl => decl.toValue)) : d.fields = d'.fields := by
  refine Dict.eq_of_entries ((List.map_inj_right ?_).mp (Value.obj.inj h))
  rintro ⟨name, decl⟩ ⟨name', decl'⟩ heq
  obtain ⟨hname, hdecl⟩ := Prod.mk.inj heq
  exact Prod.ext hname (FieldDecl.toValue_inj hdecl)

theorem eq_of_declaration {v : Value} (h : d.declaration? = some v)
    (h' : d'.declaration? = some v) : d = d' := by
  obtain ⟨ms, hms, rfl⟩ := Option.map_eq_some_iff.mp h
  obtain ⟨ms', hms', heq⟩ := Option.map_eq_some_iff.mp h'
  simp only [Value.obj.injEq, List.cons.injEq, Prod.mk.injEq, Value.str.injEq, Value.bool.injEq,
    true_and, and_true] at heq
  obtain ⟨hancestors, hauxiliaries, hfields, hid, rfl, hprototype⟩ := heq
  have hmethods := methods_inj hms' hms
  have hfields := fields_inj hfields
  cases d
  cases d'
  simp only [mk.injEq]
  exact ⟨(DefinitionId.eq_of_text hid).symm, (idValues_inj hancestors).symm, hfields.symm,
    hmethods.symm, hprototype.symm, (idValues_inj hauxiliaries).symm⟩

theorem eq_of_declarationText {text : String} (h : d.declarationText? = some text)
    (h' : d'.declarationText? = some text) : d = d' := by
  obtain ⟨v, hv, rfl⟩ := Option.map_eq_some_iff.mp h
  obtain ⟨v', hv', heq⟩ := Option.map_eq_some_iff.mp h'
  obtain rfl := Value.compact_inj heq
  exact eq_of_declaration hv hv'

end Definition

end Mudlib
