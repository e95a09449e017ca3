import Mudlib.Space.Operations
import Mathlib.Data.List.Nodup
import Mudlib.Proofs.Space.Building
set_option autoImplicit false

namespace Mudlib.Space

def Request.Scripted : Request → Prop
  | .registry operation => operation.Scripted
  | _ => True

structure AtRest (s : Space) : Prop where
  forest : Forest s
  scripted : Scripted s

variable {s s' s₀ : Space} {which : InstanceId → Prop} {out : Except RuntimeError Unit}

namespace AtRest

theorem of_population (h : AtRest s) (hp : s'.population = s.population)
    (hr : s'.registry = s.registry) : AtRest s' := by
  refine ⟨h.forest.of_population hp, h.scripted.of_table? hr ?_⟩
  intro x
  rw [table?, instance?_of_population hp, table?]

theorem touched (h : AtRest s) (ht : Touched which s s') : AtRest s' :=
  ⟨h.forest.of_sameLinks ht.sameLinks fun hx => ht.fields?_of_destroyed hx, ht.scripted h.scripted⟩

theorem setField {id : InstanceId} {field : String} {v : Value} {caller : Principal}
    (h : AtRest s) (hs : s.setField id field v caller = .ok s') : AtRest s' :=
  h.touched (touched_assign (setField_eq_ok hs))

theorem attach {host auxiliary : InstanceId} {caller : Principal} (h : AtRest s)
    (hs : s.attach host auxiliary caller = some (.ok s')) : AtRest s' := by
  obtain ⟨hh, ha, hne, hn, hcyclic, rfl⟩ := attach_eq_some hs
  have hfree := not_above_of_hostedBy hcyclic hne
  exact ⟨h.forest.link hh ha hn hfree, h.scripted.of_table? rfl fun x => table?_linkAttachment⟩

theorem detach {host auxiliary : InstanceId} {caller : Principal} (h : AtRest s)
    (hs : s.detach host auxiliary caller = .ok s') : AtRest s' := by
  obtain ⟨-, ha, rfl⟩ := detach_eq_ok hs
  exact ⟨h.forest.unlink ha, h.scripted.of_table? rfl fun x => table?_unlinkAttachment⟩

variable [Natives] {bound : Nat}

theorem create {definition : DefinitionId} {owner : Principal} {privileged allowPrototype : Bool}
    {out : Except RuntimeError InstanceId} (h : AtRest s)
    (hs : (engine bound).create definition owner privileged allowPrototype s = some (out, s')) :
    AtRest s' := by
  have hc := creates_engine bound h.forest h.scripted hs
  exact ⟨hc.forest, hc.scripted⟩

theorem instantiatePrivileged {definition : DefinitionId} {owner caller : Principal}
    {out : Except RuntimeError InstanceId} (h : AtRest s)
    (hs : instantiatePrivileged bound definition owner caller s = some (out, s')) : AtRest s' := by
  rcases instantiatePrivileged_eq_some hs with rfl | ⟨-, hcreate⟩
  · exact h
  · exact h.create hcreate

theorem loadPrototype {definition : DefinitionId} {caller : Principal}
    {out : Except RuntimeError InstanceId} (h : AtRest s)
    (hs : loadPrototype bound definition caller s = some (out, s')) : AtRest s' := by
  rcases loadPrototype_eq_some hs with ⟨-, rfl, -⟩ |
    ⟨-, ⟨id, -, -, rfl⟩ | ⟨-, ⟨e, -, hcreate⟩ | ⟨id, s₁, -, hcreate, rfl⟩⟩⟩
  · exact h
  · exact h
  · exact h.create hcreate
  · exact (h.create hcreate).of_population rfl rfl

theorem touched_invoke {id : InstanceId} {method : String} {args : List Value}
    {caller : Principal} {out : Except RuntimeError Value} (h : AtRest s)
    (hs : invoke bound id method args caller s = some (out, s')) :
    ∃ which, Touched which s s' := by
  unfold Space.invoke Engine.invoke at hs
  rw [Run.search_bind] at hs
  split at hs
  · cases hs
  · cases hs
    exact ⟨fun _ => True, (touched_order _).refl _⟩
  next found hfound =>
    obtain ⟨t, ht, hm⟩ := method_of_dispatch hfound
    exact ⟨_, (touched_callWithin bound ((h.scripted.table ht).method hm) _ _ _).holds hs⟩

theorem requestDestroy {id : InstanceId} {caller : Principal} (h : AtRest s)
    (hs : requestDestroy bound id caller s = some (out, s')) : AtRest s' := by
  rcases Engine.requestDestroy_eq_some hs with ⟨-, rfl⟩ | ⟨-, -, order, s₁, horder, hhooks, rfl⟩
  · exact h
  · have ht := Engine.touched_runHooks h.scripted.mark hhooks
    exact ⟨h.forest.torn (tree_of_attachmentTree horder) ht, h.scripted.torn ht⟩

theorem perform {request : Request} (h : AtRest s) (hr : request.Scripted)
    (hs : perform bound request s = some (out, s')) : AtRest s' := by
  cases request with
  | instantiate definition owner =>
    obtain ⟨result, hs⟩ := Run.exists_of_dropped hs
    exact h.create hs
  | instantiatePrivileged definition owner caller =>
    obtain ⟨result, hs⟩ := Run.exists_of_dropped hs
    exact h.instantiatePrivileged hs
  | loadPrototype definition caller =>
    obtain ⟨result, hs⟩ := Run.exists_of_dropped hs
    exact h.loadPrototype hs
  | invoke id method args caller =>
    obtain ⟨result, hs⟩ := Run.exists_of_dropped hs
    obtain ⟨which, ht⟩ := h.touched_invoke hs
    exact h.touched ht
  | setField id field v caller =>
    have hchange : Run.change (fun s => s.setField id field v caller) s = some (out, s') := hs
    rcases Run.change_eq_some hchange with rfl | hok
    · exact h
    · exact h.setField hok
  | attach host auxiliary caller =>
    have hchange : Run.changeWithin (fun s => s.attach host auxiliary caller) s = some (out, s') :=
      hs
    rcases Run.changeWithin_eq_some hchange with rfl | hok
    · exact h
    · exact h.attach hok
  | detach host auxiliary caller =>
    have hchange : Run.change (fun s => s.detach host auxiliary caller) s = some (out, s') := hs
    rcases Run.change_eq_some hchange with rfl | hok
    · exact h
    · exact h.detach hok
  | destroy id caller => exact h.requestDestroy hs
  | registry operation =>
    cases hs
    exact ⟨h.forest.of_population rfl, h.scripted.registry.after hr, h.scripted.table⟩

theorem served {requests : List Request} (hs : Served s₀ requests s)
    (hr : ∀ request ∈ requests, request.Scripted) (h : AtRest s₀) : AtRest s := by
  induction hs with
  | nil s => exact h
  | cons hone _ ih =>
    have hfirst := h.perform (hr _ List.mem_cons_self) hone
    exact ih (fun request hmem => hr request (List.mem_cons_of_mem _ hmem)) hfirst

end AtRest

variable {policy : AmbiguityPolicy} {maxDepth : Nat} {loader : Option Loader} {config : Config}

theorem atRest_of_ofConfig?
    (hloader : ∀ load id d, loader = some load → load id = .ok (some d) → d.Scripted)
    (h : ofConfig? (.empty policy maxDepth loader) config = .ok s) : AtRest s := by
  obtain ⟨hpopulation, hregistry⟩ := population_of_ofConfig? h
  refine ⟨forest_of_population_empty hpopulation, ?_, ?_⟩
  · rw [hregistry]
    exact Registry.scripted_empty policy maxDepth hloader
  · intro x t ht
    rw [table?, instance?_of_population_empty hpopulation] at ht
    cases ht

theorem atRest_of_unloaded (h : ofConfig? (.empty policy maxDepth none) config = .ok s) :
    AtRest s := by
  refine atRest_of_ofConfig? ?_ h
  intro load id d hload
  cases hload

/-- Whatever is asked of a new space without native code: an instance is attached exactly to its
host, exactly once, and to nothing that is attached to itself; only live instances have links, and
destroyed ones have nothing at all. -/
theorem attachments_form_forest [Natives] {requests : List Request}
    (hloader : ∀ load id d, loader = some load → load id = .ok (some d) → d.Scripted)
    (hstart : ofConfig? (.empty policy maxDepth loader) config = .ok s₀)
    (hrequests : ∀ request ∈ requests, request.Scripted) (hserved : Served s₀ requests s) :
    (∀ a h, s.host? a = some h ↔ a ∈ s.attached h) ∧
    (∀ a h, s.host? a = some h → (s.attached h).count a = 1) ∧
    (∀ a, ¬ Relation.TransGen (fun x y => s.host? x = some y) a a) ∧
    (∀ a, s.host? a ≠ none ∨ s.attached a ≠ [] → s.state? a = some .live) ∧
    ∀ a, s.state? a = some .destroyed →
      s.host? a = none ∧ s.attached a = [] ∧ s.fields? a = some .empty := by
  have hf := ((atRest_of_ofConfig? hloader hstart).served hserved hrequests).forest
  refine ⟨fun a h => hf.paired, ?_, hf.acyclic, ?_, ?_⟩
  · intro a h hh
    exact List.count_eq_one_of_mem (hf.once h) (hf.paired.mp hh)
  · intro a hlinks
    by_contra hlive
    rcases hlinks with hhost | hattached
    · exact hhost (hf.no_host_of_not_live hlive)
    · exact hattached (hf.no_attachments_of_not_live hlive)
  · intro a hd
    have hlive : s.state? a ≠ some .live := by simp [hd]
    exact ⟨hf.no_host_of_not_live hlive, hf.no_attachments_of_not_live hlive, hf.bare hd⟩

section Lamp

def bulb : Definition := .empty ⟨"/bulb", by decide⟩

def lamp : Definition :=
  { Definition.empty ⟨"/lamp", by decide⟩ with
    fields := Dict.empty.insert "lit" ⟨.bool, .bool false⟩
    methods := Dict.empty.insert "create"
      ⟨.scripted ⟨Dict.empty.insert "lit" (.bool true), .null⟩, []⟩
    auxiliaries := [bulb.id] }

def relighting : List Request :=
  [.registry (.register bulb), .registry (.register lamp), .instantiate lamp.id .system,
    .instantiate lamp.id .system, .attach ⟨1⟩ ⟨3⟩ .system, .destroy ⟨3⟩ .system]

theorem relighting_scripted : ∀ request ∈ relighting, request.Scripted := by
  have hbulb : bulb.Scripted := by
    intro name decl hdecl
    cases hdecl
  have hlamp : lamp.Scripted := by
    intro name decl hdecl
    rw [lamp, Dict.get?_insert] at hdecl
    split at hdecl
    · cases hdecl
      rfl
    · cases hdecl
  intro request hmem
  simp only [relighting, List.mem_cons, List.not_mem_nil, or_false] at hmem
  rcases hmem with rfl | rfl | rfl | rfl | rfl | rfl
  · exact hbulb
  · exact hlamp
  all_goals trivial

theorem relighting_forms_forest : ∃ s₀ s, ofConfig? (.empty .firstContributor 8 none) .standard =
      .ok s₀ ∧ Served s₀ relighting s ∧ s.attached ⟨1⟩ = [⟨2⟩] ∧ s.host? ⟨2⟩ = some ⟨1⟩ ∧
      s.state? ⟨3⟩ = some .destroyed ∧ s.host? ⟨3⟩ = none ∧ s.attached ⟨3⟩ = [] := by
  have hrun : (ofConfig? (.empty .firstContributor 8 none) .standard).toOption.bind
      (fun s₀ => (serve 6 relighting s₀).map fun s => (s.attached ⟨1⟩, s.state? ⟨3⟩)) =
        some ([⟨2⟩], some .destroyed) := by
    decide +kernel
  obtain ⟨s₀, hstart, hserve⟩ := Option.bind_eq_some_iff.mp hrun
  obtain ⟨s, hserve, heq⟩ := Option.map_eq_some_iff.mp hserve
  obtain ⟨hattached, hstate⟩ := Prod.mk.inj heq
  have hserved := served_of_serve hserve
  have hok : ofConfig? (.empty .firstContributor 8 none) .standard = .ok s₀ := by
    cases hstart
    rfl
  have hloader : ∀ load id d, (none : Option Loader) = some load → load id = .ok (some d) →
      d.Scripted := by
    intro load id d hload
    cases hload
  obtain ⟨hpaired, -, -, -, hdestroyed⟩ :=
    attachments_form_forest hloader hok relighting_scripted hserved
  obtain ⟨hhost, hnone, -⟩ := hdestroyed ⟨3⟩ hstate
  refine ⟨s₀, s, hok, hserved, hattached, (hpaired _ _).mpr ?_, hstate, hhost, hnone⟩
  rw [hattached]
  exact List.mem_singleton_self _

end Lamp

end Mudlib.Space
