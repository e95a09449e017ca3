import Mudlib.Proofs.Link.Contributions
import Mudlib.Proofs.Registry.BottomUp
set_option autoImplicit false

namespace Mudlib

structure Implementation.Implements (m : Implementation) (name : String) (decl : MethodDecl) :
    Prop where
  name : m.name = name
  body : m.body = decl.body
  calls : m.calls.map Prod.fst = decl.calls

theorem Link.implements_of_linkMethod {stamp : Nat} {definition : DefinitionId}
    {parents : List Table} {policy : AmbiguityPolicy} {name : String} {decl : MethodDecl}
    {m : Implementation} (h : linkMethod stamp definition parents policy (name, decl) = .ok m) :
    m.Implements name decl := by
  obtain ⟨calls, hcalls, rfl⟩ := linkMethod_eq_ok.mp h
  refine ⟨rfl, rfl, ?_⟩
  have hfst := map_eq_map_of_forall₂ (f := id) (g := Prod.fst) hcalls ?_
  · simpa [Implementation.calls] using hfst.symm
  · intro call _ b _ hb
    obtain ⟨target, -, rfl⟩ := map_eq_ok.mp hb
    rfl

namespace Registry

def DeclaresMethod (sources : DefinitionId → Option Definition) (id : DefinitionId)
    (name : String) : Prop :=
  ∃ d decl, sources id = some d ∧ d.methods.get? name = some decl

theorem above_iff {sources : DefinitionId → Option Definition} {id a : DefinitionId} :
    Above sources id a ↔ a = id ∨ Relation.TransGen (Inherits sources) id a :=
  Relation.reflTransGen_iff_eq_or_transGen

namespace Coherent

variable {r : Registry} {id a : DefinitionId} {t : Table} {d : Definition} {name : String}
variable {m : Implementation}

theorem not_inherits_self (h : Coherent r) (ht : r.cached? id = some t) :
    ¬ Relation.TransGen (Inherits r.effective?) id id :=
  (h.resolvable_of_cached ht).acyclic .refl

theorem mem_lineage_iff (h : Coherent r) (ht : r.cached? id = some t) :
    a ∈ t.lineage ↔ Relation.TransGen (Inherits r.effective?) id a := by
  refine ⟨h.inherits_of_mem_lineage ht, ?_⟩
  refine h.of_parents (P := fun id t => Relation.TransGen (Inherits r.effective?) id a →
    a ∈ t.lineage) ?_ ht
  intro id t d parents _ hd _ hp hl ih ha
  obtain ⟨b, ⟨e, he, hb⟩, hba⟩ := Relation.TransGen.head'_iff.mp ha
  obtain rfl := Option.some.inj (hd.symm.trans he)
  obtain ⟨p, hmem, hbp⟩ := exists_mem_of_forall₂ hp.flip hb
  rw [lineage_of_link hl, Link.mem_lineageOf]
  rcases Relation.reflTransGen_iff_eq_or_transGen.mp hba with rfl | hba
  · exact ⟨p, hmem, .inl (h.id_eq hbp).symm⟩
  · exact ⟨p, hmem, .inr (ih b p hmem hbp hba)⟩

theorem mem_family_iff (h : Coherent r) (ht : r.cached? id = some t) :
    a ∈ t.id :: t.lineage ↔ Above r.effective? id a := by
  rw [List.mem_cons, h.id_eq ht, h.mem_lineage_iff ht, above_iff]

theorem linked_of_shown (h : Coherent r) (hs : r.Shows id name m) :
    ∃ d parents decl, r.effective? m.owner = some d ∧ d.id = m.owner ∧
      List.Forall₂ (fun a p => r.cached? a = some p) d.ancestors parents ∧
      d.methods.get? name = some decl ∧
      Link.linkMethod m.stamp d.id parents r.policy (name, decl) = .ok m := by
  obtain ⟨t, slot, ht, hslot, hm⟩ := hs
  revert slot
  refine h.of_parents (P := fun _ t => ∀ slot, t.methods.get? name = some slot →
    m ∈ slot.implementations → _) ?_ ht
  intro id t d parents _ hd hid hp hl ih slot hslot hm
  rcases mem_methods_of_link hl hslot hm with ⟨p, hmem, s, hs, hm⟩ | ⟨decl, hdecl, hlink⟩
  · obtain ⟨b, -, hbp⟩ := exists_mem_of_forall₂ hp hmem
    exact ih b p hmem hbp s hs hm
  · obtain ⟨calls, -, hmk⟩ := Link.linkMethod_eq_ok.mp hlink
    have howner : m.owner = d.id := by rw [hmk]; rfl
    have hstamp : m.stamp = t.stamp := by rw [hmk]; rfl
    rw [← hstamp] at hlink
    exact ⟨d, parents, decl, by rw [howner, hid, hd], howner.symm, hp, hdecl, hlink⟩

end Coherent

/-- The definitions that contribute to a method of a definition: all above it that declare it, each
once, none in front of one that it inherits from. -/
structure Gathered (r : Registry) (id : DefinitionId) (name : String)
    (owners : List DefinitionId) : Prop where
  nodup : owners.Nodup
  mem : ∀ a, a ∈ owners ↔ Above r.effective? id a ∧ DeclaresMethod r.effective? a name
  ordered : owners.Pairwise fun a b => ¬ Relation.TransGen (Inherits r.effective?) a b

section Gathering

variable {r : Registry} {id a : DefinitionId} {t : Table} {d : Definition} {name : String}
variable {parents : List Table}

theorem gathered_inherited (name : String) (hd : r.effective? id = some d)
    (hp : List.Forall₂ (fun a p => r.cached? a = some p) d.ancestors parents)
    (hg : ∀ b p, p ∈ parents → r.cached? b = some p →
      Gathered r b name (Link.ownersOf p.methods name)) :
    let owners := Link.ownersOf (Link.inheritedMethods parents) name
    owners.Nodup ∧
    (∀ a, a ∈ owners ↔
      Relation.TransGen (Inherits r.effective?) id a ∧ DeclaresMethod r.effective? a name) ∧
    owners.Pairwise fun a b => ¬ Relation.TransGen (Inherits r.effective?) a b := by
  have heach : ∀ p ∈ parents, ∃ b, Inherits r.effective? id b ∧
      Gathered r b name (Link.ownersOf p.methods name) := by
    intro p hmem
    obtain ⟨b, hb, hbp⟩ := exists_mem_of_forall₂ hp hmem
    exact ⟨b, ⟨d, hd, hb⟩, hg b p hmem hbp⟩
  have hnodup : ∀ p ∈ parents, (Link.ownersOf p.methods name).Nodup := by
    intro p hmem
    obtain ⟨b, -, hgb⟩ := heach p hmem
    exact hgb.nodup
  simp only [Link.ownersOf_inheritedMethods hnodup]
  refine ⟨Link.nodup_foldl_union List.nodup_nil, ?_, ?_⟩
  · intro a
    rw [Link.mem_foldl_union]
    constructor
    · intro ha
      obtain ⟨p, hmem, ha⟩ := ha.resolve_left (List.not_mem_nil)
      obtain ⟨b, hb, hgb⟩ := heach p hmem
      obtain ⟨hba, hdecl⟩ := (hgb.mem a).mp ha
      exact ⟨.head' hb hba, hdecl⟩
    · intro ha
      obtain ⟨ha, hdecl⟩ := ha
      obtain ⟨b, ⟨e, he, hb⟩, hba⟩ := Relation.TransGen.head'_iff.mp ha
      obtain rfl := Option.some.inj (hd.symm.trans he)
      obtain ⟨p, hmem, hbp⟩ := exists_mem_of_forall₂ hp.flip hb
      exact .inr ⟨p, hmem, ((hg b p hmem hbp).mem a).mpr ⟨hba, hdecl⟩⟩
  · refine Link.pairwise_foldl_union List.Pairwise.nil ?_ (fun _ _ _ ha => nomatch ha) ?_
    · intro p hmem
      obtain ⟨b, -, hgb⟩ := heach p hmem
      exact hgb.ordered
    · -- what a contributor inherits from contributes to the same parent
      intro p hmem q hqmem a ha c hc hn hac
      obtain ⟨b, -, hgb⟩ := heach p hmem
      obtain ⟨b', -, hgb'⟩ := heach q hqmem
      have hba := ((hgb.mem a).mp ha).1
      exact hn ((hgb.mem c).mpr ⟨hba.trans hac.to_reflTransGen, ((hgb'.mem c).mp hc).2⟩)

theorem Coherent.gathered (h : Coherent r) (ht : r.cached? id = some t) (name : String) :
    Gathered r id name (Link.ownersOf t.methods name) := by
  refine h.of_parents (P := fun id t => Gathered r id name (Link.ownersOf t.methods name)) ?_ ht
  intro id t d parents ht hd hid hp hl ih
  obtain ⟨hnodup, hmem, hordered⟩ := gathered_inherited name hd hp ih
  have hself : id ∉ Link.ownersOf (Link.inheritedMethods parents) name :=
    fun hin => h.not_inherits_self ht ((hmem id).mp hin).1
  have hlocal : DeclaresMethod r.effective? id name ↔ d.methods.contains name = true := by
    rw [Dict.contains_iff]
    constructor
    · intro hdecl
      obtain ⟨e, decl, he, hdecl⟩ := hdecl
      obtain rfl := Option.some.inj (hd.symm.trans he)
      exact ⟨decl, hdecl⟩
    · intro hdecl
      obtain ⟨decl, hdecl⟩ := hdecl
      exact ⟨d, decl, hd, hdecl⟩
  have hown : ∀ a, a ∈ (if d.methods.contains name then [d.id] else []) ↔
      a = id ∧ DeclaresMethod r.effective? id name := by
    intro a
    rw [hlocal, hid]
    split
    next hc => simp [hc]
    next hc => simp [hc]
  rw [ownersOf_link hl]
  constructor
  · refine List.nodup_append.mpr ⟨hnodup, by split <;> simp, ?_⟩
    intro a ha b hb hab
    rw [hab, ((hown b).mp hb).1] at ha
    exact hself ha
  · intro a
    rw [List.mem_append, hmem, hown, above_iff]
    constructor
    · intro ha
      rcases ha with ⟨ha, hdecl⟩ | ⟨rfl, hdecl⟩
      · exact ⟨.inr ha, hdecl⟩
      · exact ⟨.inl rfl, hdecl⟩
    · intro ha
      obtain ⟨rfl | ha, hdecl⟩ := ha
      · exact .inr ⟨rfl, hdecl⟩
      · exact .inl ⟨ha, hdecl⟩
  · refine List.pairwise_append.mpr ⟨hordered, by split <;> simp, ?_⟩
    intro a ha b hb hab
    rw [((hown b).mp hb).1] at hab
    exact h.not_inherits_self ht (((hmem a).mp ha).1.trans hab)

end Gathering

namespace Coherent

variable {r : Registry} {id : DefinitionId} {t : Table} {d : Definition} {name : String}
variable {slot : MethodSlot}

theorem findSome?_parents {parents : List Table} {ids : List DefinitionId}
    (hp : List.Forall₂ (fun a p => r.cached? a = some p) ids parents) (name : String) :
    parents.findSome? (fun p => p.method? name) =
      ids.findSome? fun a => (r.cached? a).bind fun p => p.method? name := by
  induction hp with
  | nil => rfl
  | cons hap _ ih => simp only [List.findSome?_cons, ih, hap, Option.bind_some]

theorem default_eq (h : Coherent r) (ht : r.cached? id = some t) (hd : r.effective? id = some d)
    (hslot : t.methods.get? name = some slot) :
    some slot.defaultImpl =
      if d.methods.contains name then slot.fromOwner? id
      else d.ancestors.findSome? fun a => (r.cached? a).bind fun p => p.method? name := by
  obtain ⟨e, parents, he, hid, hp, hl⟩ := h.effective_of_cached ht
  obtain rfl := Option.some.inj (hd.symm.trans he)
  have hmethod : t.method? name = some slot.defaultImpl := by
    rw [Table.method?, hslot, Option.map_some]
  have hnodup : ∀ p ∈ parents, (Link.ownersOf p.methods name).Nodup := by
    intro p hmem
    obtain ⟨b, -, hbp⟩ := exists_mem_of_forall₂ hp hmem
    exact (h.gathered hbp name).nodup
  rcases method?_link hl name hnodup with ⟨hnone, heq⟩ | ⟨decl, m, hdecl, hlink, heq⟩
  · rw [if_neg (by simp [Dict.contains, hnone]), ← findSome?_parents hp, ← heq, hmethod]
  · obtain rfl := Option.some.inj (hmethod.symm.trans heq)
    rw [if_pos (by simp [Dict.contains, hdecl])]
    have howner : slot.defaultImpl.owner = id := by
      obtain ⟨calls, -, hmk⟩ := Link.linkMethod_eq_ok.mp hlink
      rw [hmk, ← hid]
      rfl
    have hshown : r.Shows id name slot.defaultImpl := ⟨t, slot, ht, hslot, List.get_mem _ _⟩
    obtain ⟨own, slot', hown, -, hslot', hfind⟩ := h.own_of_shown hshown
    rw [howner] at hown hfind
    obtain rfl := Option.some.inj (ht.symm.trans hown)
    obtain rfl := Option.some.inj (hslot.symm.trans hslot')
    exact hfind.symm

theorem lt_of_inherits (h : Coherent r) (ht : r.cached? id = some t)
    (hslot : t.methods.get? name = some slot) {i j : Nat} {m n : Implementation}
    (hi : slot.implementations[i]? = some m) (hj : slot.implementations[j]? = some n)
    (hnm : Relation.TransGen (Inherits r.effective?) n.owner m.owner) : i < j := by
  have hordered := (h.gathered ht name).ordered
  rw [Link.ownersOf_eq hslot, MethodSlot.owners, List.pairwise_map] at hordered
  obtain ⟨hli, rfl⟩ := List.getElem?_eq_some_iff.mp hi
  obtain ⟨hlj, rfl⟩ := List.getElem?_eq_some_iff.mp hj
  rcases Nat.lt_trichotomy i j with hlt | rfl | hlt
  · exact hlt
  · have hshown : r.Shows id name slot.implementations[i] :=
      ⟨t, slot, ht, hslot, List.getElem_mem hli⟩
    obtain ⟨own, -, hown, -⟩ := h.own_of_shown hshown
    exact absurd hnm (h.not_inherits_self hown)
  · exact absurd hnm (List.pairwise_iff_getElem.mp hordered j i hlj hli hlt)

end Coherent

/-- Every table that a registry resolves has a slot for a method exactly when the definition or one
of its lineage declares it. The slot holds one implementation for each of these declarations and
nothing else, ancestors before descendants; its default is the definition's own, or else the default
of the first direct ancestor that has the method. -/
theorem slots_gather_declarations (policy : AmbiguityPolicy) (maxDepth : Nat)
    (loader : Option Loader) (operations : List Operation) {id : DefinitionId} {t : Table}
    {r' : Registry}
    (ht : ((empty policy maxDepth loader).afterAll operations).get id = (.ok t, r'))
    (name : String) :
    ((∃ slot, t.methods.get? name = some slot) ↔
      ∃ a ∈ t.id :: t.lineage, DeclaresMethod r'.effective? a name) ∧
    ∀ slot, t.methods.get? name = some slot →
      slot.owners.Nodup ∧
      (∀ a, a ∈ slot.owners ↔ a ∈ t.id :: t.lineage ∧ DeclaresMethod r'.effective? a name) ∧
      (∀ m ∈ slot.implementations, ∃ d decl, r'.effective? m.owner = some d ∧
        d.methods.get? name = some decl ∧ m.Implements name decl) ∧
      (∀ (i j : Nat) (m n : Implementation), slot.implementations[i]? = some m →
        slot.implementations[j]? = some n →
        Relation.TransGen (Inherits r'.effective?) n.owner m.owner → i < j) ∧
      slot.default < slot.implementations.length ∧
      ∃ d, r'.effective? id = some d ∧ slot.implementations[slot.default]? =
        if d.methods.contains name then slot.fromOwner? id
        else d.ancestors.findSome? fun a => (r'.cached? a).bind fun p => p.method? name := by
  obtain ⟨hc, hcached⟩ := (coherent_afterAll policy maxDepth loader operations).of_get ht
  have hgathered := hc.gathered hcached name
  refine ⟨?_, ?_⟩
  · constructor
    · intro hslot
      obtain ⟨slot, hslot⟩ := hslot
      have hnonempty : Link.ownersOf t.methods name ≠ [] := by
        rw [ne_eq, ← Link.get?_eq_none_iff_ownersOf, hslot]
        simp
      obtain ⟨a, ha⟩ := List.exists_mem_of_ne_nil _ hnonempty
      obtain ⟨habove, hdecl⟩ := (hgathered.mem a).mp ha
      exact ⟨a, (hc.mem_family_iff hcached).mpr habove, hdecl⟩
    · intro hdecl
      obtain ⟨a, ha, hdecl⟩ := hdecl
      have ha := (hgathered.mem a).mpr ⟨(hc.mem_family_iff hcached).mp ha, hdecl⟩
      cases hslot : t.methods.get? name with
      | none =>
        rw [Link.get?_eq_none_iff_ownersOf.mp hslot] at ha
        cases ha
      | some slot => exact ⟨slot, rfl⟩
  · intro slot hslot
    rw [Link.ownersOf_eq hslot] at hgathered
    refine ⟨hgathered.nodup, ?_, ?_, fun i j m n => hc.lt_of_inherits hcached hslot,
      slot.inRange, ?_⟩
    · intro a
      rw [hgathered.mem, hc.mem_family_iff hcached]
    · intro m hm
      obtain ⟨d, parents, decl, hd, -, -, hdecl, hlink⟩ :=
        hc.linked_of_shown ⟨t, slot, hcached, hslot, hm⟩
      exact ⟨d, decl, hd, hdecl, Link.implements_of_linkMethod hlink⟩
    · obtain ⟨d, -, hd, -⟩ := hc.effective_of_cached hcached
      exact ⟨d, hd, (Link.implementations_get?_default slot).trans
        (hc.default_eq hcached hd hslot)⟩

section Diamond

def thing : Definition :=
  ((Definition.empty ⟨"/thing", by decide⟩).addField "name" ⟨.string, .str "thing"⟩).addMethod "look"
    ⟨.scripted ⟨.empty, .null⟩, []⟩

def glowing : Definition :=
  (((Definition.empty ⟨"/glowing", by decide⟩).addAncestor thing.id).addField "lit"
    ⟨.bool, .bool true⟩).addMethod "look" ⟨.scripted ⟨.empty, .null⟩, [⟨none, "look"⟩]⟩

def portable : Definition :=
  ((Definition.empty ⟨"/portable", by decide⟩).addAncestor thing.id).addField "weight"
    ⟨.int, .int 1⟩

def lantern : Definition :=
  ((Definition.empty ⟨"/lantern", by decide⟩).addAncestor portable.id).addAncestor glowing.id

def diamond : List Operation :=
  [.register thing, .register glowing, .register portable, .register lantern]

/-- Of the two declarations the older one is the default, since the first ancestor runs it. -/
theorem lantern_gathers_looks : ∃ t r' slot,
    ((empty .firstContributor 8 none).afterAll diamond).get lantern.id = (.ok t, r') ∧
    t.methods.get? "look" = some slot ∧ slot.owners = [thing.id, glowing.id] ∧
    slot.defaultImpl.owner = thing.id ∧ slot.owners.Nodup ∧
    ∀ a, a ∈ slot.owners ↔ a ∈ t.id :: t.lineage ∧ DeclaresMethod r'.effective? a "look" := by
  have hrun : (((empty .firstContributor 8 none).afterAll diamond).get lantern.id).1.toOption.bind
      (fun t => (t.methods.get? "look").map fun slot => (slot.owners, slot.defaultImpl.owner)) =
        some ([thing.id, glowing.id], thing.id) := by
    decide +kernel
  rcases ht : ((empty .firstContributor 8 none).afterAll diamond).get lantern.id with ⟨e | t, r'⟩
  · rw [ht] at hrun
    cases hrun
  · rw [ht] at hrun
    obtain ⟨slot, hslot, heq⟩ := Option.map_eq_some_iff.mp hrun
    obtain ⟨howners, hdefault⟩ := Prod.mk.inj heq
    obtain ⟨-, hall⟩ := slots_gather_declarations _ _ _ _ ht "look"
    obtain ⟨hnodup, hmem, -⟩ := hall slot hslot
    exact ⟨t, r', slot, rfl, hslot, howners, hdefault, hnodup, hmem⟩

end Diamond

end Registry

end Mudlib
