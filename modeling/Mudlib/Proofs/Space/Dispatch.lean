import Mudlib.Proofs.Space.AttachmentForest
import Mudlib.Proofs.Space.Requests
import Mudlib.Proofs.Space.Walk
/-!
Where a method is looked for, and in which order: on an instance before its attachments, on these in
the order in which they were attached, and on each with all below it before the next.

What answers is the first instance along this walk that has the method in its own table. That an
inner search finds nothing is said of the inner instance and taken as a reason to go on; only the
outermost search reports it.
-/
set_option autoImplicit false

namespace Mudlib.Space

/-- A walk from some roots has listed what is below them, each instance before its attachments. -/
inductive PreOrder (s : Space) : List InstanceId → List InstanceId → Prop where
  | nil : PreOrder s [] []
  | cons {id ids below rest} : PreOrder s (s.attached id) below → PreOrder s ids rest →
      PreOrder s (id :: ids) (id :: (below ++ rest))

def answer? (s : Space) (method : String) (id : InstanceId) :
    Option (InstanceId × Implementation) :=
  ((s.table? id).bind fun t => t.method? method).map fun m => (id, m)

/-- What a search says that was started on an instance and asks these, in this order. -/
def verdict (s : Space) (method : String) (id : InstanceId) (order : List InstanceId) :
    Except RuntimeError (InstanceId × Implementation) :=
  match order.findSome? (s.answer? method) with
  | some found => .ok found
  | none => .error (.noSuchMethod id method)

/-- Nothing destroyed is attached to what is not. -/
def Whole (s : Space) : Prop :=
  ∀ a h, a ∈ s.attached h → s.state? h ≠ some .destroyed → s.state? a ≠ some .destroyed

variable {s : Space} {id x : InstanceId} {roots more order order' : List InstanceId}
variable {method : String} {found : InstanceId × Implementation}

namespace PreOrder

theorem append (h : PreOrder s roots order) (h' : PreOrder s more order') :
    PreOrder s (roots ++ more) (order ++ order') := by
  induction h with
  | nil => exact h'
  | cons hbelow _ _ ih =>
    rw [List.cons_append, List.cons_append, List.append_assoc]
    exact .cons hbelow ih

theorem of_attached (hid : s.attached id = roots) (h : PreOrder s roots order) :
    PreOrder s [id] (id :: order) := by
  subst hid
  simpa using h.cons .nil

theorem unique (h : PreOrder s roots order) (h' : PreOrder s roots order') : order = order' := by
  induction h generalizing order' with
  | nil =>
    cases h'
    rfl
  | cons _ _ ihb ihr =>
    cases h' with
    | cons hbelow hrest => rw [ihb hbelow, ihr hrest]

theorem mem_iff (h : PreOrder s roots order) :
    x ∈ order ↔ ∃ root ∈ roots, s.Reaches root x := by
  induction h with
  | nil => simp
  | @cons id ids below rest _ _ ihb ihr =>
    have hhead : s.Reaches id x ↔ x = id ∨ ∃ a ∈ s.attached id, s.Reaches a x := by
      rw [Reaches, Relation.ReflTransGen.cases_head_iff, eq_comm]
    rw [List.mem_cons, List.mem_append, ihb, ihr, List.exists_mem_cons_iff, hhead, or_assoc]

theorem mem_iff_reaches (h : PreOrder s [id] order) : x ∈ order ↔ s.Reaches id x := by
  simp [h.mem_iff]

end PreOrder

theorem verdict_eq_ok_iff :
    s.verdict method id order = .ok found ↔ order.findSome? (s.answer? method) = some found := by
  unfold verdict
  cases order.findSome? (s.answer? method) <;> simp

theorem verdict_of_none (h : order.findSome? (s.answer? method) = none) :
    s.verdict method id order = .error (.noSuchMethod id method) := by
  rw [verdict, h]

/-- Who answers is not overridden by those that are asked later. -/
theorem verdict_append_of_some (h : order.findSome? (s.answer? method) = some found)
    (more : List InstanceId) : s.verdict method id (order ++ more) = .ok found :=
  verdict_eq_ok_iff.mpr (by rw [List.findSome?_append, h, Option.some_or])

theorem verdict_append_of_none (h : order.findSome? (s.answer? method) = none)
    (more : List InstanceId) : s.verdict method id (order ++ more) = s.verdict method id more := by
  rw [verdict, List.findSome?_append, h, Option.none_or, verdict]

/-- Searches one after the other, as long as each has asked what is below its instance: whichever
finds nothing is passed over, and what is said is said of the instance that they were started for. -/
theorem firstAnswer_of_searches
    {ask : InstanceId → Option (Except RuntimeError (InstanceId × Implementation))}
    (hask : ∀ a ∈ roots, ∃ order, PreOrder s [a] order ∧ ask a = some (s.verdict method a order)) :
    ∃ order, PreOrder s roots order ∧
      firstAnswer ask (.noSuchMethod id method) roots = some (s.verdict method id order) := by
  induction roots with
  | nil => exact ⟨[], .nil, rfl⟩
  | cons a roots ih =>
    obtain ⟨first, hfirst, ha⟩ := hask a List.mem_cons_self
    obtain ⟨rest, hrest, hlater⟩ := ih fun b hb => hask b (List.mem_cons_of_mem _ hb)
    refine ⟨first ++ rest, hfirst.append hrest, ?_⟩
    cases hfound : first.findSome? (s.answer? method) with
    | some found => rw [firstAnswer, ha, verdict_eq_ok_iff.mpr hfound, verdict_append_of_some hfound]
    | none =>
      rw [firstAnswer, ha, verdict_of_none hfound, verdict_append_of_none hfound]
      exact hlater

namespace Arboreal

variable (hf : Arboreal s) (hw : Whole s)

include hf hw

theorem intact_of_attached {a : InstanceId} (hid : s.Intact id) (ha : a ∈ s.attached id) :
    s.Intact a := by
  refine ⟨fun hnone => ?_, hw a id ha hid.standing⟩
  have hhost := hf.paired.mpr ha
  rw [host?_of_state?_eq_none hnone] at hhost
  cases hhost

theorem intact_of_reaches (hid : s.Intact id) (hx : s.Reaches id x) : s.Intact x := by
  induction hx with
  | refl => exact hid
  | tail _ ha ih => exact hf.intact_of_attached hw ih ha

/-- The instance's own table comes first. If it has nothing, the attachments are asked with one step
less, and each of their searches is a walk on its own. -/
theorem exists_preOrder (hid : s.Intact id) (method : String) :
    ∃ order, PreOrder s [id] order ∧ s.dispatch id method = some (s.verdict method id order) := by
  refine hf.branching.walk_ends (P := fun n id => s.Intact id → ∃ order, PreOrder s [id] order ∧
    s.dispatchWithin method n id = some (s.verdict method id order)) ?_ (Nat.le_refl _) id hid
  intro n id ih hid
  obtain ⟨i, hi⟩ := Option.ne_none_iff_exists'.mp (mt state?_eq_none_iff.mpr hid.exist)
  have hstanding : i.state ≠ .destroyed := by simpa [state?, hi] using hid.standing
  have hattached : s.attached id = i.attachments := by simp [attached, hi]
  have hown : [id].findSome? (s.answer? method) =
      (i.table.method? method).map fun m => (id, m) := by
    rw [List.findSome?_singleton, answer?, table?, hi, Option.map_some, Option.bind_some]
  obtain ⟨below, hbelow, hfirst⟩ : ∃ below, PreOrder s (s.attached id) below ∧
      firstAnswer (s.dispatchWithin method n) (.noSuchMethod id method) (s.attached id) =
        some (s.verdict method id below) :=
    firstAnswer_of_searches fun a ha => ih a ha (hf.intact_of_attached hw hid ha)
  refine ⟨id :: below, hbelow.of_attached rfl, ?_⟩
  -- what the instance has itself decides whether its attachments are asked at all
  rw [← List.singleton_append]
  simp only [dispatchWithin, invokable_eq_ok.mpr ⟨hi, hstanding⟩]
  cases hm : i.table.method? method with
  | some m =>
    rw [hm, Option.map_some] at hown
    rw [verdict_append_of_some hown]
  | none =>
    rw [hm, Option.map_none] at hown
    rw [verdict_append_of_none hown, ← hattached]
    exact hfirst

theorem dispatch_eq_verdict (hid : s.Intact id) (h : PreOrder s [id] order) (method : String) :
    s.dispatch id method = some (s.verdict method id order) := by
  obtain ⟨order', horder', hdispatch⟩ := hf.exists_preOrder hw hid method
  rw [h.unique horder']
  exact hdispatch

theorem dispatch_eq_ok_iff (hid : s.Intact id) (h : PreOrder s [id] order) :
    s.dispatch id method = some (.ok found) ↔
      order.findSome? (s.answer? method) = some found := by
  rw [hf.dispatch_eq_verdict hw hid h, Option.some.injEq, verdict_eq_ok_iff]

end Arboreal

theorem Consistent.whole (hc : Consistent s) : Whole s := by
  intro a h ha _ hd
  have hl := (hc.live (hc.paired.mpr ha)).1
  rw [hd] at hl
  cases hl

/-- In a forest where nothing destroyed is attached to what is not, a search started on an instance
that is not destroyed comes to an end. It answers with the first instance in pre-order that has the
method in its own table, and with that table's default implementation; if there is none, it reports
the method as missing from the instance that it was started on. -/
theorem dispatch_searches_preOrder (hf : Arboreal s) (hw : Whole s) (hid : s.Intact id)
    (method : String) :
    (∃ order, PreOrder s [id] order) ∧
    ∀ order, PreOrder s [id] order → s.dispatch id method = some (s.verdict method id order) := by
  obtain ⟨order, horder, -⟩ := hf.exists_preOrder hw hid method
  exact ⟨⟨order, horder⟩, fun _ h => hf.dispatch_eq_verdict hw hid h method⟩

section Parlour

def saying (id : DefinitionId) (method line : String) : Definition :=
  { Definition.empty id with
    methods := Dict.empty.insert method ⟨.scripted ⟨.empty, .str line⟩, []⟩ }

theorem saying_scripted (id : DefinitionId) (method line : String) :
    (saying id method line).Scripted := by
  intro name decl hdecl
  rw [saying, Dict.get?_insert] at hdecl
  split at hdecl
  · cases hdecl
    rfl
  · cases hdecl

def parlour : Definition := saying ⟨"/parlour", by decide⟩ "look" "a parlour"

def censer : Definition := saying ⟨"/censer", by decide⟩ "look" "a censer"

def smoke : Definition := saying ⟨"/smoke", by decide⟩ "sniff" "smoke"

def kindling : List Request :=
  [.registry (.register parlour), .registry (.register censer), .registry (.register smoke),
    .instantiate parlour.id .system, .instantiate censer.id .system,
    .instantiate smoke.id .system, .attach ⟨1⟩ ⟨2⟩ .system]

theorem kindling_scripted : ∀ request ∈ kindling, request.Scripted := by
  intro request hmem
  simp only [kindling, List.mem_cons, List.not_mem_nil, or_false] at hmem
  rcases hmem with rfl | rfl | rfl | rfl | rfl | rfl | rfl
  · exact saying_scripted _ _ _
  · exact saying_scripted _ _ _
  · exact saying_scripted _ _ _
  all_goals trivial

def visiting : List InstanceId := [⟨1⟩, ⟨2⟩, ⟨3⟩]

/-- The parlour looks like itself and smells of the smoke on its censer, and nothing in it rings. -/
theorem parlour_searched : ∃ s₀ s, ofConfig? (.empty .firstContributor 8 none) .standard = .ok s₀ ∧
    Served s₀ (kindling ++ [.attach ⟨2⟩ ⟨3⟩ .system]) s ∧ Arboreal s ∧ Whole s ∧ s.Intact ⟨1⟩ ∧
    PreOrder s [⟨1⟩] visiting ∧
    (∃ m, s.dispatch ⟨1⟩ "look" = some (.ok (⟨1⟩, m))) ∧
    (∃ m, s.dispatch ⟨1⟩ "sniff" = some (.ok (⟨3⟩, m))) ∧
    s.dispatch ⟨1⟩ "ring" = some (.error (.noSuchMethod ⟨1⟩ "ring")) := by
  have hrun : (ofConfig? (.empty .firstContributor 8 none) .standard).toOption.bind (fun s₀ =>
      (serve 6 (kindling ++ [.attach ⟨2⟩ ⟨3⟩ .system]) s₀).bind fun s =>
        some (s.state? ⟨1⟩, visiting.map s.attached, ["look", "sniff", "ring"].map fun method =>
          (visiting.findSome? (s.answer? method)).map Prod.fst)) =
      some (some .live, [[⟨2⟩], [⟨3⟩], []], [some ⟨1⟩, some ⟨3⟩, none]) := by
    decide +kernel
  obtain ⟨s₀, s, hok, hserved, hfound⟩ := served_of_found hrun
  obtain ⟨hlive, hfound⟩ := Prod.mk.inj (Option.some.inj hfound)
  obtain ⟨hattached, hfound⟩ := Prod.mk.inj hfound
  simp only [List.map_cons, List.cons.injEq] at hfound
  obtain ⟨hlook, hsniff, hring, -⟩ := hfound
  simp only [visiting, List.map_cons, List.cons.injEq] at hattached
  obtain ⟨hparlour, hcenser, hsmoke, -⟩ := hattached
  have hscripted : ∀ request ∈ kindling ++ [.attach ⟨2⟩ ⟨3⟩ .system], request.Scripted :=
    List.forall_mem_append.mpr ⟨kindling_scripted, List.forall_mem_singleton.mpr trivial⟩
  have hforest := ((atRest_of_unloaded hok).served hserved hscripted).forest
  have hwhole := hforest.toConsistent.whole
  have hintact : s.Intact ⟨1⟩ := intact_of_state hlive (by decide)
  have horder : PreOrder s [⟨1⟩] visiting :=
    .of_attached hparlour (.of_attached hcenser (.of_attached hsmoke .nil))
  have hdispatch := fun method =>
    (dispatch_searches_preOrder hforest.arboreal hwhole hintact method).2 visiting horder
  have hanswered : ∀ {method x}, (visiting.findSome? (s.answer? method)).map Prod.fst = some x →
      ∃ m, s.dispatch ⟨1⟩ method = some (.ok (x, m)) := by
    intro method x h
    obtain ⟨⟨y, m⟩, hfound, rfl⟩ := Option.map_eq_some_iff.mp h
    exact ⟨m, by rw [hdispatch, verdict_eq_ok_iff.mpr hfound]⟩
  refine ⟨s₀, s, hok, hserved, hforest.arboreal, hwhole, hintact, horder, hanswered hlook,
    hanswered hsniff, ?_⟩
  rw [hdispatch, verdict_of_none (Option.map_eq_none_iff.mp hring)]

end Parlour

end Mudlib.Space
