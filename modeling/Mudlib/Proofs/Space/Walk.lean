import Mathlib.Data.List.Perm.Subperm
import Mudlib.Proofs.Space.PostOrder
/-!
In a forest the walks along links end within their bound: the instances between the one that a walk
began with and the one that it is at are all different, so there are never more of them than
instances.
-/
set_option autoImplicit false

namespace Mudlib.Space

variable {s : Space} {id a target : InstanceId} {start : Option InstanceId} {path : List InstanceId}

theorem instance?_ne_none_iff :
    s.instance? id ≠ none ↔ 0 < id.number ∧ id.number ≤ s.population.size :=
  Option.isSome_iff_ne_none.symm.trans (Population.get?_isSome_iff s.population id)

theorem exists_of_le {n : Nat} (hpos : 0 < n) (hle : n ≤ s.population.size) :
    s.instance? ⟨n⟩ ≠ none :=
  instance?_ne_none_iff.mpr ⟨hpos, hle⟩

theorem mem_ids (hx : s.instance? id ≠ none) : id ∈ s.population.ids := by
  obtain ⟨hpos, hle⟩ := instance?_ne_none_iff.mp hx
  have hnumber : id.number - 1 + 1 = id.number := Nat.sub_add_cancel hpos
  refine List.mem_map.mpr ⟨id.number - 1, List.mem_range.mpr ?_, congrArg InstanceId.mk hnumber⟩
  exact Nat.lt_of_lt_of_le (Nat.sub_lt hpos Nat.one_pos) hle

theorem length_le_of_exist (hn : path.Nodup) (hpath : ∀ x ∈ path, s.instance? x ≠ none) :
    path.length ≤ s.population.size := by
  have hsub : path ⊆ s.population.ids := fun x hx => mem_ids (hpath x hx)
  have hle := (List.Nodup.subperm hn hsub).length_le
  rwa [Population.ids, List.length_map, List.length_range] at hle

theorem collectEach_ne_none {visit : InstanceId → List InstanceId → Option (List InstanceId)}
    {ids : List InstanceId} (hvisit : ∀ id ∈ ids, ∀ order, visit id order ≠ none)
    (order : List InstanceId) : collectEach visit ids order ≠ none := by
  induction ids generalizing order with
  | nil => exact Option.some_ne_none order
  | cons id ids ih =>
    obtain ⟨order', h⟩ := Option.ne_none_iff_exists'.mp (hvisit id List.mem_cons_self order)
    rw [collectEach, h]
    exact ih (fun a ha => hvisit a (List.mem_cons_of_mem _ ha)) order'

namespace Branching

variable (hb : Branching s)

include hb

/-- `path` is what lies above the instance. -/
theorem walk_ends_below {P : Nat → InstanceId → Prop}
    (hstep : ∀ {n id}, (∀ a ∈ s.attached id, P n a) → P (n + 1) id) {n : Nat} (hn : path.Nodup)
    (hexist : ∀ x ∈ path, s.instance? x ≠ none) (habove : ∀ x ∈ path, s.Bears x id)
    (hbound : s.population.size < n + path.length) : P n id := by
  induction n generalizing id path with
  | zero =>
    have hle := length_le_of_exist hn hexist
    omega
  | succ n ih =>
    refine hstep fun a ha => ?_
    have hid : s.instance? id ≠ none := by
      intro hnone
      rw [attached_of_state?_eq_none (state?_eq_none_iff.mpr hnone)] at ha
      cases ha
    refine @ih a (id :: path) ?_ ?_ ?_ ?_
    · exact List.nodup_cons.mpr ⟨fun hmem => hb.acyclic id (habove id hmem), hn⟩
    · exact List.forall_mem_cons.mpr ⟨hid, hexist⟩
    · exact List.forall_mem_cons.mpr ⟨.single ha, fun x hx => (habove x hx).tail ha⟩
    · rw [List.length_cons]
      omega

/-- What a step shows of an instance, when it holds of the attachments with one step less, holds of
every instance with as many steps as a walk is given, and with more. -/
theorem walk_ends {P : Nat → InstanceId → Prop}
    (hstep : ∀ {n id}, (∀ a ∈ s.attached id, P n a) → P (n + 1) id) {n : Nat}
    (hn : s.walkBound ≤ n) (id : InstanceId) : P n id := by
  refine hb.walk_ends_below (P := P) hstep List.nodup_nil (List.forall_mem_nil _)
    (List.forall_mem_nil _) ?_
  rw [walkBound] at hn
  rw [List.length_nil]
  omega

theorem collectWithin_ne_none {n : Nat} (hn : s.walkBound ≤ n) (id : InstanceId)
    (order : List InstanceId) : s.collectWithin n id order ≠ none := by
  refine hb.walk_ends (P := fun n id => ∀ order, s.collectWithin n id order ≠ none) ?_ hn id order
  intro n id ih order
  simp only [collectWithin]
  split
  · exact Option.some_ne_none order
  next i hi =>
    split
    · exact Option.some_ne_none order
    · refine mt Option.map_eq_none_iff.mp (collectEach_ne_none (fun a ha => ih a ?_) order)
      rwa [attached, hi]

theorem attachmentTree_ne_none (id : InstanceId) : s.attachmentTree id ≠ none :=
  hb.collectWithin_ne_none (Nat.le_refl _) id []

end Branching

namespace Arboreal

variable (hf : Arboreal s)

include hf

theorem host_exists {h : InstanceId} (hhost : s.HostedBy a h) : s.instance? h ≠ none := by
  intro hnone
  have ha := hf.paired.mp hhost
  rw [attached_of_state?_eq_none (state?_eq_none_iff.mpr hnone)] at ha
  cases ha

/-- `path` is what the walk up has come through. -/
theorem hostedByWithin_ne_none {n : Nat} (path : List InstanceId)
    (hstart : ∀ y, start = some y → s.instance? y ≠ none) (hn : path.Nodup)
    (hexist : ∀ x ∈ path, s.instance? x ≠ none)
    (habove : ∀ y, start = some y → ∀ x ∈ path, Relation.TransGen s.HostedBy x y)
    (hbound : s.population.size < n + path.length) : s.hostedByWithin target n start ≠ none := by
  induction n generalizing start path with
  | zero =>
    have hle := length_le_of_exist hn hexist
    omega
  | succ n ih =>
    cases start with
    | none => simp [hostedByWithin]
    | some y =>
      simp only [hostedByWithin]
      split
      · simp
      · refine ih (y :: path) (fun z hz => hf.host_exists hz) ?_ ?_ ?_ ?_
        · exact List.nodup_cons.mpr ⟨fun hmem => hf.acyclic y (habove y rfl y hmem), hn⟩
        · exact List.forall_mem_cons.mpr ⟨hstart y rfl, hexist⟩
        · intro z hz
          exact List.forall_mem_cons.mpr ⟨.single hz, fun x hx => (habove y rfl x hx).tail hz⟩
        · rw [List.length_cons]
          omega

theorem exists_hostedBy (id target : InstanceId) : ∃ answer, s.hostedBy id target = some answer ∧
    (answer = true ↔ Relation.TransGen s.HostedBy id target) := by
  have hends : s.hostedBy id target ≠ none := by
    refine hf.hostedByWithin_ne_none [] (fun y hy => hf.host_exists hy) List.nodup_nil ?_ ?_ ?_
    · exact List.forall_mem_nil _
    · exact fun _ _ => List.forall_mem_nil _
    · rw [walkBound, List.length_nil]
      omega
  obtain ⟨answer, hanswer⟩ := Option.ne_none_iff_exists'.mp hends
  refine ⟨answer, hanswer, ?_⟩
  rw [above_iff_of_hostedByWithin hanswer, Relation.TransGen.head'_iff]
  rfl

end Arboreal

end Mudlib.Space
