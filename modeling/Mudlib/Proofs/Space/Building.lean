import Mudlib.Space.Operations
import Mudlib.Proofs.Space.Forest
import Mudlib.Proofs.Space.Scripted
set_option autoImplicit false

namespace Mudlib.Space

variable {s s' s₁ : Space} {id h a x root : InstanceId} {order : List InstanceId}
variable {which : InstanceId → Prop}

section Tearing

theorem Tree.mem_of_host (htree : Tree s root order) (hf : Forest s) (ha : a ∈ s.attached h)
    (hh : h ∈ order) : a ∈ order :=
  htree.closed h hh a ha (hf.live (hf.paired.mpr ha)).1

theorem Tree.host_mem (htree : Tree s root order) (hf : Forest s) (ha : a ∈ s.attached h)
    (hmem : a ∈ order) (hne : a ≠ root) : h ∈ order := by
  obtain ⟨above, habove, hlisted⟩ := (htree.below a hmem).resolve_left hne
  have heq : some above = some h := (hf.paired.mpr hlisted).symm.trans (hf.paired.mpr ha)
  cases heq
  exact habove

variable (hsame : SameLinks (s.markPending order) s₁)

include hsame

theorem host?_torn : ((s₁.unlinkFromHost root).releaseAll order).host? x =
    if x ∈ order ∨ x = root then none else s.host? x := by
  rw [host?_releaseAll, host?_unlinkFromHost, hsame.host, host?_markPending]
  by_cases hx : x ∈ order
  · simp [hx]
  · simp [hx]

theorem attached_torn : ((s₁.unlinkFromHost root).releaseAll order).attached x =
    if x ∈ order then []
    else if s.host? root = some x then (s.attached x).filter (· ≠ root) else s.attached x := by
  rw [attached_releaseAll, attached_unlinkFromHost, hsame.host, host?_markPending,
    hsame.attached, attached_markPending]

theorem state?_torn (hx : x ∉ order) :
    ((s₁.unlinkFromHost root).releaseAll order).state? x = s.state? x := by
  rw [state?_releaseAll, if_neg hx, state?_unlinkFromHost, hsame.state, state?_markPending,
    if_neg hx]

theorem host?_torn_eq_some (hx : ((s₁.unlinkFromHost root).releaseAll order).host? x = some h) :
    x ∉ order ∧ x ≠ root ∧ s.host? x = some h := by
  rw [host?_torn hsame] at hx
  split at hx
  · cases hx
  next hout => exact ⟨fun hmem => hout (.inl hmem), fun heq => hout (.inr heq), hx⟩

theorem mem_attached_torn (hf : Forest s) :
    a ∈ ((s₁.unlinkFromHost root).releaseAll order).attached h ↔
      a ∈ s.attached h ∧ h ∉ order ∧ a ≠ root := by
  rw [attached_torn hsame]
  by_cases hh : h ∈ order
  · simp [hh]
  · rw [if_neg hh]
    split
    · simp [hh]
    next hroot =>
      refine ⟨fun ha => ⟨ha, hh, ?_⟩, fun ha => ha.1⟩
      intro heq
      exact hroot (heq ▸ hf.paired.mpr ha)

theorem Forest.consistent_torn (hf : Forest s) (htree : Tree s root order) :
    Consistent ((s₁.unlinkFromHost root).releaseAll order) := by
  constructor
  · intro a h
    rw [mem_attached_torn hsame hf]
    constructor
    · intro hh
      obtain ⟨hout, hne, hh⟩ := host?_torn_eq_some hsame hh
      have ha := hf.paired.mp hh
      exact ⟨ha, fun hmem => hout (htree.mem_of_host hf ha hmem), hne⟩
    · intro ha
      obtain ⟨ha, hout, hne⟩ := ha
      rw [host?_torn hsame, if_neg]
      · exact hf.paired.mpr ha
      · intro hmem
        rcases hmem with hmem | heq
        · exact hout (htree.host_mem hf ha hmem hne)
        · exact hne heq
  · intro x
    rw [attached_torn hsame]
    split
    · exact List.nodup_nil
    · split
      · exact (hf.once x).filter _
      · exact hf.once x
  · intro a h hh
    obtain ⟨hout, -, hh⟩ := host?_torn_eq_some hsame hh
    have houth : h ∉ order := fun hmem => hout (htree.mem_of_host hf (hf.paired.mp hh) hmem)
    rw [state?_torn hsame hout, state?_torn hsame houth]
    exact hf.live hh

omit hsame

/-- A tree that is marked, worn by its hooks and then released leaves a forest. -/
theorem Forest.torn (hf : Forest s) (htree : Tree s root order)
    (ht : Touched which (s.markPending order) s₁) :
    Forest ((s₁.unlinkFromHost root).releaseAll order) where
  toConsistent := hf.consistent_torn ht.sameLinks htree
  acyclic := hf.acyclic_of_host fun hx => (host?_torn_eq_some ht.sameLinks hx).2.2
  bare := by
    intro x hx
    rw [fields?_releaseAll, fields?_unlinkFromHost]
    by_cases hout : x ∈ order
    · rw [state?_releaseAll, if_pos hout, state?_unlinkFromHost] at hx
      obtain ⟨state, hstate, -⟩ := Option.map_eq_some_iff.mp hx
      obtain ⟨i, hi, -⟩ := Option.map_eq_some_iff.mp hstate
      rw [if_pos hout, fields?, hi]
      rfl
    · have hmarked : (s.markPending order).state? x = s.state? x := by
        rw [state?_markPending, if_neg hout]
      rw [state?_torn ht.sameLinks hout] at hx
      rw [if_neg hout, ht.fields?_of_destroyed (hmarked.trans hx), fields?_markPending]
      exact hf.bare hx

theorem Scripted.torn (hs : Scripted s) (ht : Touched which (s.markPending order) s₁) :
    Scripted ((s₁.unlinkFromHost root).releaseAll order) := by
  refine hs.of_table? ?_ ?_
  · rw [releaseAll, registry_foldl_update, registry_unlinkFromHost, ht.registry, markPending,
      registry_foldl_update]
  · intro x
    rw [table?_releaseAll, table?_unlinkFromHost, ht.table?, table?_markPending]

theorem Scripted.mark (hs : Scripted s) : Scripted (s.markPending order) :=
  hs.of_table? (registry_foldl_update _) fun _ => table?_markPending

theorem Forest.tear [Natives] {bound : Nat} {withHooks : Bool} {out : Except RuntimeError Unit}
    (hf : Forest s) (hs : Scripted s)
    (h : (engine bound).destroyTree id withHooks s = some (out, s')) : Forest s' ∧ Scripted s' := by
  obtain ⟨-, order, s₁, horder, hhooks, rfl⟩ := Engine.destroyTree_eq_some h
  have ht := Engine.touched_runHooks hs.mark hhooks
  exact ⟨hf.torn (tree_of_attachmentTree horder) ht, hs.torn ht⟩

end Tearing

def Kept (s s' : Space) : Prop := ∀ x, s.instance? x ≠ none → s'.instance? x = s.instance? x

/-- An instance is being set up: it hangs on nothing, and only it changed of what there was. -/
structure Building (id : InstanceId) (s s' : Space) : Prop where
  forest : Forest s'
  scripted : Scripted s'
  kept : ∀ x, x ≠ id → s.instance? x ≠ none → s'.instance? x = s.instance? x
  live : s'.state? id = some .live
  free : s'.host? id = none

structure Created (s : Space) (out : Except RuntimeError InstanceId) (s' : Space) : Prop where
  forest : Forest s'
  scripted : Scripted s'
  kept : Kept s s'
  new : ∀ {id}, out = .ok id →
    s.instance? id = none ∧ s'.state? id = some .live ∧ s'.host? id = none

def Creates (engine : Engine) : Prop :=
  ∀ {definition owner privileged allowPrototype s out s'}, Forest s → Scripted s →
    engine.create definition owner privileged allowPrototype s = some (out, s') → Created s out s'

theorem Building.of_population (hb : Building id s s₁) (hp : s'.population = s₁.population)
    (hr : s'.registry = s₁.registry) : Building id s s' := by
  have hi := instance?_of_population hp
  refine ⟨hb.forest.of_population hp, hb.scripted.of_table? hr ?_, ?_, ?_, ?_⟩
  · intro x
    rw [table?, hi, table?]
  · intro x hx hn
    rw [hi]
    exact hb.kept x hx hn
  · rw [state?, hi]
    exact hb.live
  · rw [host?, hi]
    exact hb.free

theorem Building.of_created {out : Except RuntimeError InstanceId} (hb : Building id s s₁)
    (hc : Created s₁ out s') : Building id s s' := by
  have hexists : s₁.instance? id ≠ none := by
    intro hn
    have hlive := hb.live
    rw [state?, hn] at hlive
    cases hlive
  have hid : s'.instance? id = s₁.instance? id := hc.kept id hexists
  refine ⟨hc.forest, hc.scripted, ?_, ?_, ?_⟩
  · intro x hx hn
    have hold := hb.kept x hx hn
    exact (hc.kept x (hold ▸ hn)).trans hold
  · rw [state?, hid]
    exact hb.live
  · rw [host?, hid]
    exact hb.free

/-- A finished auxiliary is attached to the instance that is being set up. -/
theorem Building.join {made : InstanceId} (hb : Building id s s₁)
    (hc : Created s₁ (.ok made) s') : Building id s (s'.linkAttachment id made) := by
  obtain ⟨hnew, hlive, hfree⟩ := hc.new rfl
  have hb' := hb.of_created hc
  have hne : made ≠ id := by
    intro heq
    have hid := hb.live
    rw [state?, ← heq, hnew] at hid
    cases hid
  constructor
  · refine hc.forest.link hb'.live hlive hfree ?_
    -- the way up from the instance ends there, for it has no host
    intro hpath
    rcases Relation.ReflTransGen.cases_head hpath with heq | ⟨y, hy, -⟩
    · exact hne heq.symm
    · rw [HostedBy, hb'.free] at hy
      cases hy
  · exact hc.scripted.of_table? rfl fun x => table?_linkAttachment
  · intro x hx hn
    have hmade : x ≠ made := by
      intro heq
      have hold := hb.kept x hx hn
      rw [heq, hnew] at hold
      exact hn (heq ▸ hold.symm)
    rw [linkAttachment, instance?_update_of_ne _ _ hx, instance?_update_of_ne _ _ hmade]
    exact hb'.kept x hx hn
  · rw [state?_linkAttachment]
    exact hb'.live
  · rw [host?_linkAttachment (by rw [hlive]; simp), if_neg hne.symm]
    exact hb'.free

section Creating

variable {engine : Engine}

theorem building_each (he : Creates engine) {auxiliaries : List DefinitionId}
    {out : Except RuntimeError Unit} (hb : Building id s s₁)
    (h : Run.each (engine.addAuxiliary id) auxiliaries s₁ = some (out, s')) : Building id s s' := by
  induction auxiliaries generalizing s₁ with
  | nil =>
    cases h
    exact hb
  | cons auxiliary auxiliaries ih =>
    have hone : ∀ {out s'}, engine.addAuxiliary id auxiliary s₁ = some (out, s') →
        Building id s s' := by
      intro out s' h
      rcases Run.bind_eq_some h with ⟨e, hcreate, -⟩ | ⟨made, s₂, hcreate, hlink⟩
      · exact hb.of_created (he hb.forest hb.scripted hcreate)
      · cases hlink
        exact (hb.join (he hb.forest hb.scripted hcreate)).of_population rfl rfl
    rcases Run.bind_eq_some h with ⟨e, hone', -⟩ | ⟨_, s₂, hone', hrest⟩
    · exact hone hone'
    · exact ih (hone hone') hrest

theorem Building.touched (hb : Building id s s₁) (ht : Touched (· = id) s₁ s') :
    Building id s s' where
  forest := hb.forest.of_sameLinks ht.sameLinks fun hx => ht.fields?_of_destroyed hx
  scripted := ht.scripted hb.scripted
  kept := by
    intro x hx hn
    rw [ht.others hx]
    exact hb.kept x hx hn
  live := by
    rw [ht.sameLinks.state]
    exact hb.live
  free := by
    rw [ht.sameLinks.host]
    exact hb.free

theorem building_setUp [Natives] {bound : Nat} (he : Creates (Space.engine bound)) {t : Table}
    {out : Except RuntimeError Unit} (ht : t.Scripted) (hb : Building id s s₁)
    (h : (Space.engine bound).setUp id t s₁ = some (out, s')) : Building id s s' := by
  have hattached : ∀ {out s₂},
      Run.each ((Space.engine bound).addAuxiliary id) (s₁.auxiliariesOf t) (s₁.enterChain t.id) =
        some (out, s₂) → Building id s s₂.leaveChain := by
    intro out s₂ heach
    have hentered : Building id s (s₁.enterChain t.id) := hb.of_population rfl rfl
    exact (building_each he hentered heach).of_population rfl rfl
  cases Engine.settingUp_of_setUp h with
  | cyclic => exact hb
  | attached heach => exact hattached heach
  | ran heach hm hcall =>
    have hinit := (touched_callWithin bound (ht.method hm) id [] _).holds hcall
    exact (hattached heach).touched hinit

theorem population_tableFor {definition : DefinitionId} {result : Except RuntimeError Table}
    (h : s.tableFor definition = (result, s₁)) : s₁.population = s.population := by
  cases h
  rfl

theorem Scripted.tableFor {definition : DefinitionId} {result : Except RuntimeError Table}
    (hs : Scripted s) (h : s.tableFor definition = (result, s₁)) :
    Scripted s₁ ∧ ∀ t, result = .ok t → t.Scripted := by
  cases h
  refine ⟨⟨hs.registry.get definition, hs.table⟩, ?_⟩
  intro t ht
  exact hs.registry.get_ok (eq_ok_of_mapError ht)

theorem building_allocate {t : Table} (hf : Forest s) (hs : Scripted s) (ht : t.Scripted)
    (owner : Principal) (privileged : Bool) :
    Building s.population.nextId s (s.allocate t owner privileged) where
  forest := hf.allocate t owner privileged
  scripted := hs.allocate ht owner privileged
  kept := by
    intro x hx _
    rw [instance?_allocate, if_neg hx]
  live := by rw [state?_allocate, if_pos rfl]
  free := by rw [host?_allocate, host?, instance?_nextId, Option.bind_none]

theorem Building.finish (hb : Building id s s') (hid : s.instance? id = none) :
    Created s (.ok id) s' where
  forest := hb.forest
  scripted := hb.scripted
  kept := fun x hx => hb.kept x (fun heq => hx (heq ▸ hid)) hx
  new := by
    intro made hmade
    cases hmade
    exact ⟨hid, hb.live, hb.free⟩

theorem Building.new_of_reaches (hf : Forest s) (hb : Building id s s')
    (hid : s.instance? id = none) (hx : s'.Reaches id x) : s.instance? x = none := by
  induction hx with
  | refl => exact hid
  | @tail y a _ ha ih =>
    -- an old attachment would have had this host before, and live
    by_contra hn
    have hne : a ≠ id := fun heq => hn (heq ▸ hid)
    have hhost : s'.host? a = some y := hb.forest.paired.mpr ha
    rw [host?, hb.kept a hne hn] at hhost
    have hlive := (hf.live hhost).2
    rw [state?, ih] at hlive
    cases hlive

theorem Building.undo [Natives] {bound : Nat} {out : Except RuntimeError Unit} {e : RuntimeError}
    (hf : Forest s) (hb : Building id s s₁) (hid : s.instance? id = none)
    (h : (Space.engine bound).destroyTree id false s₁ = some (out, s')) :
    Created s (.error e) s' := by
  obtain ⟨hf', hs'⟩ := hb.forest.tear hb.scripted h
  refine ⟨hf', hs', ?_, fun hok => nomatch hok⟩
  intro x hx
  obtain ⟨-, order, s₂, horder, hhooks, rfl⟩ := Engine.destroyTree_eq_some h
  obtain rfl := Engine.runHooks_false hhooks
  have hnot : x ∉ order := by
    intro hmem
    exact hx (hb.new_of_reaches hf hid ((tree_of_attachmentTree horder).reached x hmem))
  have hfree : (s₁.markPending order).host? id = none := by
    rw [host?_markPending]
    exact hb.free
  rw [instance?_releaseAll, if_neg hnot, unlinkFromHost, hfree, instance?_markPending, if_neg hnot]
  exact hb.kept x (fun heq => hx (heq ▸ hid)) hx

theorem Created.refused {e : RuntimeError} (hf : Forest s) (hs : Scripted s')
    (hp : s'.population = s.population) : Created s (.error e) s' := by
  refine ⟨hf.of_population hp, hs, ?_, fun hok => nomatch hok⟩
  exact fun x _ => instance?_of_population hp x

theorem Created.of_population {out : Except RuntimeError InstanceId} (hc : Created s₁ out s')
    (hp : s₁.population = s.population) : Created s out s' := by
  have hi := instance?_of_population hp
  refine ⟨hc.forest, hc.scripted, ?_, ?_⟩
  · intro x hx
    rw [← hi] at hx ⊢
    exact hc.kept x hx
  · intro id hok
    rw [← hi]
    exact hc.new hok

theorem creates_engine [Natives] (bound : Nat) : Creates (Space.engine bound) := by
  induction bound with
  | zero =>
    intro definition owner privileged allowPrototype s out s' _ _ h
    cases h
  | succ n ih =>
    intro definition owner privileged allowPrototype s out s' hf hs h
    have hcreation : Engine.Creation (Space.engine n) definition owner privileged s out s' :=
      Engine.creation_of_createInstance h
    cases hcreation with
    | refused htable =>
      subst htable
      exact .refused hf (hs.tableFor rfl).1 rfl
    | @done t s₁ s₂ htable hset =>
      obtain ⟨hs₁, ht⟩ := hs.tableFor htable
      have hp := population_tableFor htable
      have hb := building_allocate (hf.of_population hp) hs₁ (ht t rfl) owner privileged
      have hbuilt := building_setUp ih (ht t rfl) hb hset
      exact (hbuilt.finish instance?_nextId).of_population hp
    | @undone t s₁ e s₂ s₃ e' htable hset hdestroy =>
      obtain ⟨hs₁, ht⟩ := hs.tableFor htable
      have hp := population_tableFor htable
      have hf₁ := hf.of_population hp
      have hb := building_allocate hf₁ hs₁ (ht t rfl) owner privileged
      have hbuilt := building_setUp ih (ht t rfl) hb hset
      exact (hbuilt.undo hf₁ instance?_nextId hdestroy).of_population hp

end Creating

end Mudlib.Space
