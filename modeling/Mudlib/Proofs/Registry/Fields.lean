import Mudlib.Proofs.Link.Faults
import Mudlib.Proofs.Registry.Contributions
import Mudlib.Proofs.Registry.Failure
set_option autoImplicit false

namespace Mudlib.Registry

def DeclaresField (sources : DefinitionId → Option Definition) (id : DefinitionId)
    (name : String) : Prop :=
  ∃ d decl, sources id = some d ∧ d.fields.get? name = some decl

def Declared (sources : DefinitionId → Option Definition) (name : String) (slot : FieldSlot) :
    Prop :=
  ∃ d decl, sources slot.owner = some d ∧ d.fields.get? name = some decl ∧
    slot = ⟨slot.owner, decl.type, decl.default⟩

theorem Declared.declares {sources : DefinitionId → Option Definition} {name : String}
    {slot : FieldSlot} (h : Declared sources name slot) : DeclaresField sources slot.owner name := by
  obtain ⟨d, decl, hd, hdecl, -⟩ := h
  exact ⟨d, decl, hd, hdecl⟩

theorem Declared.eq_of_owner {sources : DefinitionId → Option Definition} {name : String}
    {slot slot' : FieldSlot} (h : Declared sources name slot) (h' : Declared sources name slot')
    (howner : slot.owner = slot'.owner) : slot = slot' := by
  obtain ⟨d, decl, hd, hdecl, hslot⟩ := h
  obtain ⟨d', decl', hd', hdecl', hslot'⟩ := h'
  rw [howner] at hd hslot
  obtain rfl := Option.some.inj (hd.symm.trans hd')
  obtain rfl := Option.some.inj (hdecl.symm.trans hdecl')
  rw [hslot, hslot']

namespace Coherent

variable {r : Registry} {id a b : DefinitionId} {t : Table} {name : String} {slot : FieldSlot}

theorem declared_of_field (h : Coherent r) (ht : r.cached? id = some t)
    (hs : t.fields.get? name = some slot) :
    Above r.effective? id slot.owner ∧ Declared r.effective? name slot := by
  revert hs
  refine h.of_parents (P := fun id t => t.fields.get? name = some slot →
    Above r.effective? id slot.owner ∧ Declared r.effective? name slot) ?_ ht
  intro id t d parents _ hd hid hp hl ih hs
  rcases get?_fields_of_link hl name with ⟨decl, hdecl, heq⟩ | ⟨-, hfrom, -⟩
  · obtain rfl := Option.some.inj (hs.symm.trans heq)
    rw [hid]
    exact ⟨.refl, d, decl, hd, hdecl, rfl⟩
  · obtain ⟨p, hmem, hps⟩ := hfrom slot hs
    obtain ⟨b, hb, hbp⟩ := exists_mem_of_forall₂ hp hmem
    obtain ⟨habove, hdeclared⟩ := ih b p hmem hbp hps
    exact ⟨.head ⟨d, hd, hb⟩ habove, hdeclared⟩

theorem field_of_declares (h : Coherent r) (ht : r.cached? id = some t)
    (ha : Above r.effective? id a) (hdecl : DeclaresField r.effective? a name) :
    ∃ slot, t.fields.get? name = some slot ∧ slot.owner = a := by
  induction ha using Relation.ReflTransGen.head_induction_on generalizing t with
  | refl =>
    obtain ⟨d, parents, hd, hid, hp, hl⟩ := h.effective_of_cached ht
    obtain ⟨e, decl, he, hdecl⟩ := hdecl
    obtain rfl := Option.some.inj (hd.symm.trans he)
    rcases get?_fields_of_link hl name with ⟨decl', -, heq⟩ | ⟨hnone, -⟩
    · exact ⟨_, heq, hid⟩
    · exact absurd (hnone.symm.trans hdecl) (by simp)
  | head hb hba ih =>
    obtain ⟨d, parents, hd, hid, hp, hl⟩ := h.effective_of_cached ht
    obtain ⟨e, he, hb⟩ := hb
    obtain rfl := Option.some.inj (hd.symm.trans he)
    obtain ⟨p, hmem, hbp⟩ := exists_mem_of_forall₂ hp.flip hb
    obtain ⟨slot, hslot, howner⟩ := ih hbp
    rcases get?_fields_of_link hl name with ⟨decl, hlocal, -⟩ | ⟨-, -, hcovers⟩
    · exact absurd (hslot.symm.trans (not_inherited_of_link hl hlocal hmem)) (by simp)
    · obtain ⟨first, hfirst, hsame⟩ := hcovers p hmem slot hslot
      exact ⟨first, hfirst, hsame.trans howner⟩

/-- Two declarations of one name would both be the owner of the one field. -/
theorem eq_of_declares (h : Coherent r) (ht : r.cached? id = some t)
    (ha : Above r.effective? id a) (hb : Above r.effective? id b)
    (hda : DeclaresField r.effective? a name) (hdb : DeclaresField r.effective? b name) :
    a = b := by
  obtain ⟨slot, hslot, rfl⟩ := h.field_of_declares ht ha hda
  obtain ⟨slot', hslot', rfl⟩ := h.field_of_declares ht hb hdb
  rw [hslot] at hslot'
  rw [Option.some.inj hslot']

theorem field_iff (h : Coherent r) (ht : r.cached? id = some t) :
    t.fields.get? name = some slot ↔
      Above r.effective? id slot.owner ∧ Declared r.effective? name slot := by
  refine ⟨h.declared_of_field ht, ?_⟩
  intro hs
  obtain ⟨habove, hdeclared⟩ := hs
  obtain ⟨slot', hslot', howner⟩ := h.field_of_declares ht habove hdeclared.declares
  obtain ⟨-, hdeclared'⟩ := h.declared_of_field ht hslot'
  rw [hslot', hdeclared'.eq_of_owner hdeclared howner]

theorem get_eq_error_of_declares (h : Coherent r) (ha : Above r.effective? id a)
    (hb : Above r.effective? id b) (hne : a ≠ b) (hda : DeclaresField r.effective? a name)
    (hdb : DeclaresField r.effective? b name) : ∃ e, (r.get id).1 = .error e := by
  have hresolved := resolved_get h id
  rcases hg : r.get id with ⟨out, r'⟩
  cases out with
  | error e => exact ⟨e, rfl⟩
  | ok t =>
    rw [hg] at hresolved
    have hsources : r'.effective? = r.effective? := funext hresolved.walk.grows.effective
    obtain ⟨hc, ht⟩ := h.of_get hg
    rw [← hsources] at ha hb hda hdb
    exact absurd (hc.eq_of_declares ht ha hb hda hdb) hne

theorem declares_of_clash (h : Coherent r) {e : ResolveError} {r' : Registry}
    (hg : r.get id = (.error e, r')) (he : e.clash? = some (name, a, b)) :
    a ≠ b ∧ (Above r.effective? id a ∧ DeclaresField r.effective? a name) ∧
      Above r.effective? id b ∧ DeclaresField r.effective? b name := by
  cases raised_get h hg with
  | cycle chain heq => rw [heq] at he; cases he
  | depth c heq => rw [heq] at he; cases he
  | load c hc heq =>
    rcases heq with rfl | ⟨fault, rfl⟩ <;> cases he
  | link c d parents r₁ hc hd hid hcoh hgrows hp hl =>
    have hsources : r₁.effective? = r.effective? := funext hgrows.effective
    have hfield : ∀ p ∈ parents, ∀ slot, p.fields.get? name = some slot →
        ∃ x ∈ d.ancestors, r₁.cached? x = some p ∧ Above r.effective? x slot.owner ∧
          DeclaresField r.effective? slot.owner name := by
      intro p hmem slot hslot
      obtain ⟨x, hx, hxp⟩ := exists_mem_of_forall₂ hp hmem
      obtain ⟨habove, hdeclared⟩ := hcoh.declared_of_field hxp hslot
      rw [hsources] at habove hdeclared
      exact ⟨x, hx, hxp, habove, hdeclared.declares⟩
    obtain ⟨p, hmem, first, hfirst, rfl, hsecond⟩ := clash_of_link hl he
    obtain ⟨x, hx, hxp, hxa, hda⟩ := hfield p hmem first hfirst
    have ha : Above r.effective? id first.owner := hc.trans (.head ⟨d, hd, hx⟩ hxa)
    rcases hsecond with ⟨q, hqmem, second, hq, rfl, hne⟩ | ⟨rfl, decl, hdecl⟩
    · obtain ⟨y, hy, -, hyb, hdb⟩ := hfield q hqmem second hq
      exact ⟨hne, ⟨ha, hda⟩, hc.trans (.head ⟨d, hd, hy⟩ hyb), hdb⟩
    · rw [hid]
      refine ⟨?_, ⟨ha, hda⟩, hc, d, decl, hd, hdecl⟩
      -- else an ancestor that is resolved would inherit from itself
      intro heq
      rw [heq] at hxa
      rw [← hsources] at hxa hd
      exact hcoh.not_inherits_self hxp (.tail' hxa ⟨d, hd, hx⟩)

end Coherent

/-- A name is a field of a resolved table exactly when one of the definition and its lineage
declares it, and then it is the field of that declaration; no two of them declare one name. A clash
of two declarations above a definition keeps it from resolving, and a clash is reported only for two
such declarations: one that arrives on several paths is none. -/
theorem fields_unite_declarations (policy : AmbiguityPolicy) (maxDepth : Nat)
    (loader : Option Loader) (operations : List Operation) (id : DefinitionId) :
    let r := (empty policy maxDepth loader).afterAll operations
    (∀ t r', r.get id = (.ok t, r') → ∀ name,
      ((∃ slot, t.fields.get? name = some slot) ↔
        ∃! a, a ∈ t.id :: t.lineage ∧ DeclaresField r'.effective? a name) ∧
      (∀ slot, t.fields.get? name = some slot ↔
        slot.owner ∈ t.id :: t.lineage ∧ Declared r'.effective? name slot) ∧
      ∀ a ∈ t.id :: t.lineage, ∀ b ∈ t.id :: t.lineage, DeclaresField r'.effective? a name →
        DeclaresField r'.effective? b name → a = b) ∧
    (∀ name a b, Above r.effective? id a → Above r.effective? id b → a ≠ b →
      DeclaresField r.effective? a name → DeclaresField r.effective? b name →
      ∃ e, (r.get id).1 = .error e) ∧
    ∀ e name a b, (r.get id).1 = .error e → e.clash? = some (name, a, b) →
      a ≠ b ∧ (Above r.effective? id a ∧ DeclaresField r.effective? a name) ∧
        Above r.effective? id b ∧ DeclaresField r.effective? b name := by
  intro r
  have h : Coherent r := coherent_afterAll policy maxDepth loader operations
  refine ⟨?_, fun name a b => h.get_eq_error_of_declares, ?_⟩
  · intro t r' hg name
    obtain ⟨hc, ht⟩ := h.of_get hg
    simp only [hc.mem_family_iff ht]
    refine ⟨?_, fun slot => hc.field_iff ht, fun a ha b hb => hc.eq_of_declares ht ha hb⟩
    constructor
    · intro hslot
      obtain ⟨slot, hslot⟩ := hslot
      obtain ⟨habove, hdeclared⟩ := hc.declared_of_field ht hslot
      refine ⟨slot.owner, ⟨habove, hdeclared.declares⟩, ?_⟩
      intro b hb
      exact hc.eq_of_declares ht hb.1 habove hb.2 hdeclared.declares
    · intro hone
      obtain ⟨a, ⟨habove, hdecl⟩, -⟩ := hone
      obtain ⟨slot, hslot, -⟩ := hc.field_of_declares ht habove hdecl
      exact ⟨slot, hslot⟩
  · intro e name a b he hclash
    exact h.declares_of_clash (Prod.ext he rfl) hclash

section Shadowing

def beacon : Definition :=
  ((Definition.empty ⟨"/beacon", by decide⟩).addAncestor lantern.id).addField "name" ⟨.string, .null⟩

/-- The name reaches a lantern on two paths from one definition; a beacon declares it a second time. -/
theorem lantern_unites_names_beacon_does_not :
    let r := (empty .firstContributor 8 none).afterAll (diamond ++ [.register beacon])
    (∃ t r', r.get lantern.id = (.ok t, r') ∧
      ∃! a, a ∈ t.id :: t.lineage ∧ DeclaresField r'.effective? a "name") ∧
    (r.get beacon.id).1 = .error (.shadowConflict beacon.id "name" thing.id) ∧
    Above r.effective? beacon.id thing.id ∧ DeclaresField r.effective? thing.id "name" := by
  intro r
  have hlantern : ((r.get lantern.id).1.toOption.bind fun t => t.fields.get? "name") =
      some ⟨thing.id, .string, .str "thing"⟩ := by
    decide +kernel
  have hbeacon : (r.get beacon.id).1.map Table.id =
      .error (.shadowConflict beacon.id "name" thing.id) := by
    decide +kernel
  constructor
  · obtain ⟨hfields, -⟩ :=
      fields_unite_declarations .firstContributor 8 none (diamond ++ [.register beacon]) lantern.id
    rcases ht : r.get lantern.id with ⟨e | t, r'⟩
    · rw [ht] at hlantern
      cases hlantern
    · rw [ht] at hlantern
      exact ⟨t, r', rfl, (hfields t r' ht "name").1.mp ⟨_, hlantern⟩⟩
  · obtain ⟨-, -, hclash⟩ :=
      fields_unite_declarations .firstContributor 8 none (diamond ++ [.register beacon]) beacon.id
    rcases he : (r.get beacon.id).1 with e | t
    · rw [he] at hbeacon
      obtain rfl : e = _ := Except.error.inj hbeacon
      obtain ⟨-, ⟨habove, hdecl⟩, -⟩ := hclash _ "name" thing.id beacon.id he rfl
      exact ⟨rfl, habove, hdecl⟩
    · rw [he] at hbeacon
      cases hbeacon

end Shadowing

end Mudlib.Registry
