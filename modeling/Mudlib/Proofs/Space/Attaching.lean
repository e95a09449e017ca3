import Mudlib.Proofs.Space.Dispatch
/-!
What attaching an instance to a host changes for those who look for methods, and what detaching it
leaves.

The auxiliary comes last among the attachments of its host, with all that is below it. So the walk
from the host is the one it was, followed by the one from the auxiliary, and a walk that does not
come to the host is not changed.
-/
set_option autoImplicit false

namespace Mudlib.Space

variable {s s' : Space} {h x y : InstanceId} {roots order order' : List InstanceId}
variable {method : String} {caller : Principal}

theorem PreOrder.congr (hwalk : PreOrder s roots order)
    (hsame : ∀ y ∈ order, s'.attached y = s.attached y) : PreOrder s' roots order := by
  induction hwalk with
  | nil => exact .nil
  | @cons id ids below rest _ _ ihb ihr =>
    obtain ⟨hid, hlater⟩ := List.forall_mem_cons.mp hsame
    obtain ⟨hbelow, hrest⟩ := List.forall_mem_append.mp hlater
    exact .cons (hid ▸ ihb hbelow) (ihr hrest)

theorem verdict_congr (hsame : ∀ y ∈ order, s'.table? y = s.table? y) (method : String)
    (id : InstanceId) : s'.verdict method id order = s.verdict method id order := by
  have hanswer : order.findSome? (s'.answer? method) = order.findSome? (s.answer? method) := by
    induction order with
    | nil => rfl
    | cons y order ih =>
      obtain ⟨hy, hrest⟩ := List.forall_mem_cons.mp hsame
      rw [List.findSome?_cons, List.findSome?_cons, ih hrest, answer?, hy, answer?]
  rw [verdict, hanswer, verdict]

structure Attachable (s : Space) (h x : InstanceId) : Prop where
  consistent : Consistent s
  acyclic : ∀ a, ¬ Relation.TransGen s.HostedBy a a
  host : s.state? h = some .live
  auxiliary : s.state? x = some .live
  free : s.host? x = none
  apart : ¬ Relation.ReflTransGen s.HostedBy h x

theorem attachable_of_attach (hc : Consistent s)
    (hacyclic : ∀ a, ¬ Relation.TransGen s.HostedBy a a)
    (hs : s.attach h x caller = some (.ok s')) : Attachable s h x := by
  obtain ⟨hh, hx, hne, hfree, hhosted, -⟩ := attach_eq_some hs
  exact ⟨hc, hacyclic, hh, hx, hfree, not_above_of_hostedBy hhosted hne⟩

namespace Attachable

variable (hj : Attachable s h x)

include hj

theorem arboreal : Arboreal s := ⟨hj.consistent.paired, hj.consistent.once, hj.acyclic⟩

theorem consistent_link : Consistent (s.linkAttachment h x) :=
  hj.consistent.link hj.host hj.auxiliary hj.free

theorem arboreal_link : Arboreal (s.linkAttachment h x) :=
  hj.arboreal.link (by simp [hj.host]) (by simp [hj.auxiliary]) hj.free hj.apart

theorem attached_link (y : InstanceId) : (s.linkAttachment h x).attached y =
    if y = h then s.attached h ++ [x] else s.attached y :=
  attached_linkAttachment (by simp [hj.host])

theorem not_reaches_host : ¬ s.Reaches x h := by
  rw [hj.arboreal.reaches_iff]
  exact hj.apart

theorem dispatch_link_eq {id : InstanceId} (hid : s.Intact id)
    (hwalk : PreOrder (s.linkAttachment h x) [id] order) (method : String) :
    (s.linkAttachment h x).dispatch id method = some (s.verdict method id order) := by
  rw [← verdict_congr (fun y _ => table?_linkAttachment (h := h) (a := x)) method id]
  exact hj.arboreal_link.dispatch_eq_verdict hj.consistent_link.whole
    (hid.of_state? state?_linkAttachment) hwalk method

theorem preOrder_link (hwalk : PreOrder s roots order) (hnot : h ∉ order) :
    PreOrder (s.linkAttachment h x) roots order := by
  refine hwalk.congr fun y hy => ?_
  rw [hj.attached_link, if_neg (ne_of_mem_of_not_mem hy hnot)]

/-- All that is below the auxiliary comes after all that was below the host. -/
theorem preOrder_link_host (hhost : PreOrder s [h] order) (haux : PreOrder s [x] order') :
    PreOrder (s.linkAttachment h x) [h] (order ++ order') := by
  obtain _ | ⟨hbelow, hrest⟩ := hhost
  cases hrest
  have hnot : h ∉ order' := fun hmem => hj.not_reaches_host (haux.mem_iff_reaches.mp hmem)
  have hnotBelow : ∀ below, PreOrder s (s.attached h) below → h ∉ below := by
    intro below hbelow hmem
    obtain ⟨a, ha, hreach⟩ := hbelow.mem_iff.mp hmem
    exact hj.arboreal.branching.not_reaches_host ha hreach
  rw [List.append_nil, List.cons_append]
  refine .of_attached (by rw [hj.attached_link, if_pos rfl]) ?_
  exact (hj.preOrder_link hbelow (hnotBelow _ hbelow)).append (hj.preOrder_link haux hnot)

theorem exists_walks : ∃ order order', PreOrder s [h] order ∧ PreOrder s [x] order' ∧
    PreOrder (s.linkAttachment h x) [h] (order ++ order') := by
  have hwalks : ∀ {id}, s.state? id = some .live → ∃ order, PreOrder s [id] order := by
    intro id hlive
    obtain ⟨order, horder, -⟩ := hj.arboreal.exists_preOrder hj.consistent.whole
      (intact_of_state hlive (by decide)) ""
    exact ⟨order, horder⟩
  obtain ⟨order, hhost⟩ := hwalks hj.host
  obtain ⟨order', haux⟩ := hwalks hj.auxiliary
  exact ⟨order, order', hhost, haux, hj.preOrder_link_host hhost haux⟩

theorem dispatch_link_of_outside (hy : ¬ Relation.ReflTransGen s.HostedBy h y) (method : String) :
    (s.linkAttachment h x).dispatch y method = s.dispatch y method := by
  cases hi : s.invokable y with
  | error e =>
    -- there is no walk from what is missing or destroyed, and it is refused as before
    have htype : (s.linkAttachment h x).typeOf y = .error e := by
      rw [typeOf_linkAttachment, typeOf, hi]
      rfl
    have hrefused : (s.linkAttachment h x).invokable y = .error e := eq_error_of_map htype
    rw [dispatch_of_refused hi, dispatch_of_refused hrefused]
  | ok i =>
    obtain ⟨hi, hd⟩ := invokable_eq_ok.mp hi
    have hid : s.Intact y := intact_of_state (by rw [state?, hi, Option.map_some]) hd
    obtain ⟨order, hwalk, -⟩ := hj.arboreal.exists_preOrder hj.consistent.whole hid method
    have hnot : h ∉ order := by
      rwa [hwalk.mem_iff_reaches, hj.arboreal.reaches_iff]
    rw [hj.arboreal.dispatch_eq_verdict hj.consistent.whole hid hwalk,
      hj.dispatch_link_eq hid (hj.preOrder_link hwalk hnot)]

theorem unlink_link : (s.linkAttachment h x).unlinkAttachment h x = s := by
  refine unlinkAttachment_linkAttachment ?_ hj.free (hj.consistent.not_attached hj.free h)
  rintro rfl
  exact hj.apart .refl

theorem detach_link (hcheck : s.checkAttach h x caller = .ok ()) :
    (s.linkAttachment h x).detach h x caller = .ok s := by
  obtain ⟨i, j, hlive, hlive', hhost, haux, -⟩ := checkAttach_eq_ok_iff.mp hcheck
  obtain ⟨hi, hilive⟩ := live_eq_ok.mp hlive
  obtain ⟨hx, hjlive⟩ := live_eq_ok.mp hlive'
  obtain ⟨i', hi', histate, hiowner⟩ := exists_instance?_linkAttachment (h := h) (a := x) hi
  obtain ⟨j', hj', hjstate, hjowner⟩ := exists_instance?_linkAttachment (h := h) (a := x) hx
  have hlisted : x ∈ i'.attachments := by
    have hattached := hj.attached_link h
    rw [if_pos rfl, attached, hi', Option.map_some, Option.getD_some] at hattached
    rw [hattached]
    exact List.mem_append_right _ (List.mem_singleton_self x)
  refine detach_eq_ok_iff.mpr ⟨i', j', live_eq_ok.mpr ⟨hi', histate.trans hilive⟩, hlisted,
    invokable_eq_ok.mpr ⟨hj', by simp [hjstate, hjlive]⟩, ?_, ?_, hj.unlink_link.symm⟩
  · rw [hiowner, authorize_linkAttachment]
    exact hhost
  · rw [hjowner, authorize_linkAttachment]
    exact haux

end Attachable

/-- An attachment adds to its host's behaviour and overrides none of it: in a forest of live
instances, what the host answered it answers as before; what it did not answer it answers as the
auxiliary does, and if that does not either, the method is missing from the host. Nothing changes for
instances that the host is not attached to, nor in any table, type or field, and detaching the
auxiliary again gives the very same space. -/
theorem attaching_extends (hc : Consistent s)
    (hacyclic : ∀ a, ¬ Relation.TransGen s.HostedBy a a)
    (hs : s.attach h x caller = some (.ok s')) :
    (∀ method found, s.dispatch h method = some (.ok found) →
      s'.dispatch h method = some (.ok found)) ∧
    (∀ method, (∀ found, s.dispatch h method ≠ some (.ok found)) →
      (∀ found, s.dispatch x method = some (.ok found) →
        s'.dispatch h method = some (.ok found)) ∧
      ((∀ found, s.dispatch x method ≠ some (.ok found)) →
        s'.dispatch h method = some (.error (.noSuchMethod h method)))) ∧
    (∀ y, ¬ Relation.ReflTransGen s.HostedBy h y →
      ∀ method, s'.dispatch y method = s.dispatch y method) ∧
    (∀ y, s'.table? y = s.table? y ∧ s'.typeOf y = s.typeOf y ∧ s'.fields? y = s.fields? y) ∧
    s'.detach h x caller = .ok s := by
  have hj := attachable_of_attach hc hacyclic hs
  obtain ⟨-, -, -, -, -, rfl⟩ := attach_eq_some hs
  have hhost : s.Intact h := intact_of_state hj.host (by decide)
  have haux : s.Intact x := intact_of_state hj.auxiliary (by decide)
  obtain ⟨order, order', horder, horder', hwalk⟩ := hj.exists_walks
  have hanswer : ∀ {method found}, s.dispatch h method = some (.ok found) ↔
      order.findSome? (s.answer? method) = some found :=
    hj.arboreal.dispatch_eq_ok_iff hc.whole hhost horder
  have haside : ∀ {method found}, s.dispatch x method = some (.ok found) ↔
      order'.findSome? (s.answer? method) = some found :=
    hj.arboreal.dispatch_eq_ok_iff hc.whole haux horder'
  refine ⟨?_, ?_, fun y hy => hj.dispatch_link_of_outside hy, ?_,
    hj.detach_link (checkAttach_of_attach hs)⟩
  · intro method found hfound
    rw [hj.dispatch_link_eq hhost hwalk, verdict_append_of_some (hanswer.mp hfound)]
  · intro method hnone
    have hpassed : order.findSome? (s.answer? method) = none :=
      Option.eq_none_iff_forall_ne_some.mpr fun found h => hnone found (hanswer.mpr h)
    rw [hj.dispatch_link_eq hhost hwalk, verdict_append_of_none hpassed]
    constructor
    · intro found hfound
      rw [verdict_eq_ok_iff.mpr (haside.mp hfound)]
    · intro hneither
      rw [verdict_of_none (Option.eq_none_iff_forall_ne_some.mpr fun found h =>
        hneither found (haside.mpr h))]
  · exact fun y => ⟨table?_linkAttachment, typeOf_linkAttachment, fields?_linkAttachment⟩

section Parlour

def answerer? (s : Space) (id : InstanceId) (method : String) : Option InstanceId :=
  ((s.dispatch id method).bind Except.toOption).map Prod.fst

theorem dispatch_of_answerer? (hy : s.answerer? x method = some y) :
    ∃ m, s.dispatch x method = some (.ok (y, m)) := by
  obtain ⟨⟨z, m⟩, hfound, rfl⟩ := Option.map_eq_some_iff.mp hy
  obtain ⟨out, hout, hok⟩ := Option.bind_eq_some_iff.mp hfound
  exact ⟨m, by rw [hout, eq_ok_of_toOption hok]⟩

theorem no_dispatch_of_answerer? (hnone : s.answerer? x method = none)
    (found : InstanceId × Implementation) : s.dispatch x method ≠ some (.ok found) := by
  intro hfound
  simp [answerer?, hfound, Except.toOption] at hnone

/-- With the smoke on it the censer looks as before, and smells, and does not ring. Nothing has
changed for the smoke, and nothing at all once it is taken off again. -/
theorem censer_smokes : ∃ s₀ s s', ofConfig? (.empty .firstContributor 8 none) .standard = .ok s₀ ∧
    Served s₀ kindling s ∧ Consistent s ∧ (∀ a, ¬ Relation.TransGen s.HostedBy a a) ∧
    s.attach ⟨2⟩ ⟨3⟩ .system = some (.ok s') ∧
    (∃ m, s'.dispatch ⟨2⟩ "look" = some (.ok (⟨2⟩, m))) ∧
    (∃ m, s'.dispatch ⟨2⟩ "sniff" = some (.ok (⟨3⟩, m))) ∧
    s'.dispatch ⟨2⟩ "ring" = some (.error (.noSuchMethod ⟨2⟩ "ring")) ∧
    s'.dispatch ⟨3⟩ "sniff" = s.dispatch ⟨3⟩ "sniff" ∧ s'.detach ⟨2⟩ ⟨3⟩ .system = .ok s := by
  have hrun : (ofConfig? (.empty .firstContributor 8 none) .standard).toOption.bind (fun s₀ =>
      (serve 6 kindling s₀).bind fun s =>
        some (((s.attach ⟨2⟩ ⟨3⟩ .system).bind Except.toOption).isSome,
          ["look", "sniff", "ring"].map (s.answerer? ⟨2⟩),
          ["sniff", "ring"].map (s.answerer? ⟨3⟩))) =
      some (true, [some ⟨2⟩, none, none], [some ⟨3⟩, none]) := by
    decide +kernel
  obtain ⟨s₀, s, hok, hserved, hfound⟩ := served_of_found hrun
  simp only [List.map_cons, Option.some.injEq, Prod.mk.injEq, List.cons.injEq] at hfound
  obtain ⟨hattached, ⟨hlook, hnosniff, hnoring, -⟩, hsniff, hneither, -⟩ := hfound
  obtain ⟨s', hs'⟩ := Option.isSome_iff_exists.mp hattached
  obtain ⟨out, hs, hs'⟩ := Option.bind_eq_some_iff.mp hs'
  obtain rfl := eq_ok_of_toOption hs'
  have hforest := ((atRest_of_unloaded hok).served hserved kindling_scripted).forest
  have hapart := (attachable_of_attach hforest.toConsistent hforest.acyclic hs).apart
  obtain ⟨hkept, hadded, hframe, -, hundone⟩ :=
    attaching_extends hforest.toConsistent hforest.acyclic hs
  obtain ⟨look, hlook⟩ := dispatch_of_answerer? hlook
  obtain ⟨sniff, hsniff⟩ := dispatch_of_answerer? hsniff
  exact ⟨s₀, s, s', hok, hserved, hforest.toConsistent, hforest.acyclic, hs,
    ⟨look, hkept _ _ hlook⟩,
    ⟨sniff, (hadded _ (no_dispatch_of_answerer? hnosniff)).1 _ hsniff⟩,
    (hadded _ (no_dispatch_of_answerer? hnoring)).2 (no_dispatch_of_answerer? hneither),
    hframe _ hapart _, hundone⟩

end Parlour

end Mudlib.Space
