import Mudlib.Proofs.Space.Cascade
import Mudlib.Proofs.Space.Walk
/-!
What a destruction lists, and in which order, while others may be under way.

The walk goes on through live instances only: one that is pending belongs to another destruction, and
so does what is attached to it. Of two that are listed, the one that comes first is attached to the
other, directly or through others, or both are below attachments of one host and that of the first
has been there for longer.
-/
set_option autoImplicit false

namespace Mudlib.Space

/-- Going from hosts to attachments comes from the one instance to the other, by live ones only. -/
def LiveReaches (s : Space) (root x : InstanceId) : Prop :=
  s.state? root = some .live ∧
    Relation.ReflTransGen (fun h a => a ∈ s.attached h ∧ s.state? a = some .live) root x

/-- The one is at or below an instance that is listed, the other at or below one listed later. -/
def InTurn (s : Space) (ids : List InstanceId) (x y : InstanceId) : Prop :=
  ∃ a b, [a, b].Sublist ids ∧ s.Reaches a x ∧ s.Reaches b y

/-- The one comes before the other where attachments come before their host, and those of a host in
the order in which they were attached, each with all that is below it. -/
inductive Earlier (s : Space) : InstanceId → InstanceId → Prop where
  | below {x y} : s.Bears y x → Earlier s x y
  | inTurn {h x y} : s.InTurn (s.attached h) x y → Earlier s x y

variable {s s' : Space} {id x y root : InstanceId} {ids roots order order' : List InstanceId}

theorem liveReaches_iff (hl : s.state? id = some .live) :
    s.LiveReaches id x ↔ x = id ∨ ∃ a ∈ s.attached id, s.LiveReaches a x := by
  rw [LiveReaches, Relation.ReflTransGen.cases_head_iff, @eq_comm _ id x]
  simp only [LiveReaches, hl, true_and, and_assoc]

theorem InTurn.cons (h : s.InTurn ids x y) : s.InTurn (id :: ids) x y := by
  obtain ⟨a, b, hsub, hax, hby⟩ := h
  exact ⟨a, b, hsub.cons id, hax, hby⟩

theorem not_inTurn_singleton : ¬ s.InTurn [id] x y := by
  rintro ⟨a, b, hsub, -, -⟩
  exact absurd hsub.length_le (by simp)

namespace PostOrder

theorem unique (h : PostOrder s roots order) (h' : PostOrder s roots order') : order = order' := by
  induction h generalizing order' with
  | nil =>
    cases h'
    rfl
  | live hl _ _ ihb ihr =>
    cases h' with
    | live _ hbelow hrest => rw [ihb hbelow, ihr hrest]
    | skip hn _ => exact absurd hl hn
  | skip hn _ ih =>
    cases h' with
    | live hl _ _ => exact absurd hl hn
    | skip _ hrest => exact ih hrest

theorem congr (h : PostOrder s roots order)
    (hlive : ∀ x, s'.state? x = some .live ↔ s.state? x = some .live)
    (hattached : ∀ x, s'.attached x = s.attached x) : PostOrder s' roots order := by
  induction h with
  | nil => exact .nil
  | live hl _ _ ihb ihr => exact .live ((hlive _).mpr hl) (hattached _ ▸ ihb) ihr
  | skip hn _ ih => exact .skip (mt (hlive _).mp hn) ih

theorem mem_iff (h : PostOrder s roots order) :
    x ∈ order ↔ ∃ root ∈ roots, s.LiveReaches root x := by
  induction h with
  | nil => simp
  | live hl _ _ ihb ihr =>
    rw [List.mem_append, List.mem_cons, ihb, ihr, List.exists_mem_cons_iff, liveReaches_iff hl,
      or_left_comm, or_assoc]
  | skip hn _ ih =>
    rw [ih, List.exists_mem_cons_iff, or_iff_right fun hreach => hn hreach.1]

/-- Of two that are listed, the first is earlier by their common tree, or by their roots. -/
theorem pairwise (h : PostOrder s roots order) :
    order.Pairwise fun x y => s.Earlier x y ∨ s.InTurn roots x y := by
  induction h with
  | nil => exact .nil
  | @live id ids below rest _ hbelow hrest ihb ihr =>
    -- all of this root's tree comes before what the later roots add
    have hlater : ∀ {x y}, s.Reaches id x → y ∈ rest → s.InTurn (id :: ids) x y := by
      intro x y hx hy
      obtain ⟨root, hroot, hreach⟩ := hrest.reached y hy
      exact ⟨id, root, List.cons_sublist_cons.mpr (List.singleton_sublist.mpr hroot), hx, hreach⟩
    refine List.pairwise_append.mpr ⟨?_, List.pairwise_cons.mpr ⟨?_, ?_⟩, ?_⟩
    · exact ihb.imp fun hxy => .inl (hxy.elim (fun he => he) .inTurn)
    · exact fun y hy => .inr (hlater .refl hy)
    · exact ihr.imp fun hxy => hxy.imp_right InTurn.cons
    · intro x hx y hy
      obtain ⟨a, ha, hax⟩ := hbelow.reached x hx
      rcases List.mem_cons.mp hy with rfl | hy
      · exact .inl (.below (.head' ha hax))
      · exact .inr (hlater (.head ha hax) hy)
  | skip _ _ ih => exact ih.imp fun hxy => hxy.imp_right InTurn.cons

theorem pairwise_earlier (h : PostOrder s [id] order) : order.Pairwise s.Earlier :=
  h.pairwise.imp fun hxy => hxy.resolve_right not_inTurn_singleton

end PostOrder

namespace Branching

variable (hb : Branching s)

include hb

theorem not_reaches_of_earlier (h : s.Earlier x y) : ¬ s.Reaches x y := by
  intro hxy
  cases h with
  | below hyx => exact hb.acyclic y (hyx.trans_left hxy)
  | inTurn h =>
    obtain ⟨a, b, hsub, hax, hby⟩ := h
    have hne : a ≠ b := by simpa using (hb.once _).sublist hsub
    exact hb.apart (hsub.subset (by simp)) (hsub.subset (by simp)) hne y (hax.trans hxy) hby

theorem mem_before_of_bears {before after : List InstanceId}
    (h : (before ++ x :: after).Pairwise s.Earlier) (hy : y ∈ before ++ x :: after)
    (hxy : s.Bears x y) : y ∈ before := by
  rcases List.mem_append.mp hy with hy | hy
  · exact hy
  · rcases List.mem_cons.mp hy with rfl | hy
    · exact absurd hxy (hb.acyclic y)
    · have hlater := List.rel_of_pairwise_cons (List.pairwise_append.mp h).2.1 hy
      exact absurd hxy.to_reflTransGen (hb.not_reaches_of_earlier hlater)

/-- However many steps it is given, if only as many as a walk is given, the walk ends with the same
list. -/
theorem exists_postOrder (id : InstanceId) : ∃ order, PostOrder s [id] order ∧
    ∀ n, s.walkBound ≤ n → s.collectWithin n id [] = some order := by
  have hends : ∀ n, s.walkBound ≤ n → ∃ order, s.collectWithin n id [] = some order := fun n hn =>
    Option.ne_none_iff_exists'.mp (hb.collectWithin_ne_none hn id [])
  obtain ⟨order, horder⟩ := hends s.walkBound (Nat.le_refl _)
  have hp := hb.postOrder_of_collectWithin horder
  refine ⟨order, hp, fun n hn => ?_⟩
  obtain ⟨order', horder'⟩ := hends n hn
  rw [horder', hp.unique (hb.postOrder_of_collectWithin horder')]

end Branching

/-- Where the attachments form a forest, whatever states the instances are in, the walk for a
destruction comes to an end. It lists the live instances that it comes to through live instances,
each once, and none if it begins with one that is not live: in post-order, and those of one host in
the order in which they were attached, so that each comes after all of its own tree that is listed,
and the root last. -/
theorem destruction_lists_live_tree (hb : Branching s) (id : InstanceId) :
    ∃ order, s.attachmentTree id = some order ∧
      (∀ n, s.walkBound ≤ n → s.collectWithin n id [] = some order) ∧
      order.Nodup ∧ (∀ x, x ∈ order ↔ s.LiveReaches id x) ∧
      (s.state? id ≠ some .live → order = []) ∧
      PostOrder s [id] order ∧ (∀ order', PostOrder s [id] order' → order' = order) ∧
      order.Pairwise s.Earlier ∧
      (∀ before x after, order = before ++ x :: after →
        ∀ y ∈ order, s.Bears x y → y ∈ before) ∧
      (id ∈ order → order.getLast? = some id) := by
  obtain ⟨order, hp, hends⟩ := hb.exists_postOrder id
  have horder : s.attachmentTree id = some order := hends s.walkBound (Nat.le_refl _)
  have hmem : ∀ x, x ∈ order ↔ s.LiveReaches id x := fun x => by simp [hp.mem_iff]
  have hearlier := hp.pairwise_earlier
  refine ⟨order, horder, hends, (tree_of_attachmentTree horder).nodup, hmem, ?_, hp,
    fun order' hp' => hp'.unique hp, hearlier, ?_, ?_⟩
  · intro hn
    exact List.eq_nil_iff_forall_not_mem.mpr fun x hx => hn ((hmem x).mp hx).1
  · rintro before x after rfl y hy hxy
    exact hb.mem_before_of_bears hearlier hy hxy
  · intro hid
    exact hp.getLast?_eq ((hmem id).mp hid).1

section Vigil

def replenished : Space :=
  ((hearth.allocate torch .system false).allocate torch .system false).allocate torch .system false

def vigil : Space :=
  ((replenished.linkAttachment ⟨4⟩ ⟨5⟩).linkAttachment ⟨1⟩ ⟨4⟩).linkAttachment ⟨1⟩ ⟨6⟩

theorem forest_vigil : Forest vigil := by
  have hreplenished : Forest replenished :=
    ((forest_hearth.allocate _ _ _).allocate _ _ _).allocate _ _ _
  refine ((hreplenished.link (by decide) (by decide) (by decide) ?_).link (by decide) (by decide)
    (by decide) ?_).link (by decide) (by decide) (by decide) ?_
  all_goals exact not_above_of_hostedBy (by decide) (by decide)

def dimmed : Space := vigil.markPending [⟨2⟩]

/-- Destroying the room leaves that torch, and with it the one that it holds, to the other
destruction. -/
theorem vigil_dimmed : Branching dimmed ∧ dimmed.state? ⟨2⟩ = some .pendingDestroy ∧
    dimmed.state? ⟨3⟩ = some .live ∧ dimmed.attached ⟨1⟩ = [⟨2⟩, ⟨4⟩, ⟨6⟩] ∧
    dimmed.attachmentTree ⟨1⟩ = some [⟨5⟩, ⟨4⟩, ⟨6⟩, ⟨1⟩] ∧
    (∀ x, x ∈ [⟨5⟩, ⟨4⟩, ⟨6⟩, ⟨1⟩] ↔ dimmed.LiveReaches ⟨1⟩ x) ∧
    ([⟨5⟩, ⟨4⟩, ⟨6⟩, ⟨1⟩] : List InstanceId).Pairwise dimmed.Earlier ∧
    dimmed.attachmentTree ⟨2⟩ = some [] := by
  have hbranching : Branching dimmed := forest_vigil.arboreal.branching.of_sublist fun h => by
    rw [dimmed, attached_markPending]
  have hlisted : dimmed.attachmentTree ⟨1⟩ = some [⟨5⟩, ⟨4⟩, ⟨6⟩, ⟨1⟩] := by decide
  obtain ⟨order, horder, -, -, hmem, -, -, -, hearlier, -⟩ :=
    destruction_lists_live_tree hbranching ⟨1⟩
  obtain rfl := Option.some.inj (horder.symm.trans hlisted)
  obtain ⟨order, horder, -, -, -, hnone, -⟩ := destruction_lists_live_tree hbranching ⟨2⟩
  rw [hnone (by decide)] at horder
  exact ⟨hbranching, by decide, by decide, by decide, hlisted, hmem, hearlier, horder⟩

end Vigil

end Mudlib.Space
