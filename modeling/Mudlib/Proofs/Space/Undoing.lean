import Mudlib.Proofs.Registry.Causes
import Mudlib.Proofs.Space.Building
import Mudlib.Proofs.Space.Cascade
set_option autoImplicit false

namespace Mudlib

namespace Space

def Quiet (s s' : Space) : Prop :=
  ∃ events, s'.journal = events ++ s.journal ∧ ∀ x, .hooked x ∉ events

/-- No hook has run, and the registry has the same tables to give. -/
structure Onward (s s' : Space) : Prop where
  quiet : Quiet s s'
  registry : Registry.Continues s.registry s'.registry

def Accounts (id : InstanceId) (s s' : Space) : Prop :=
  ∀ x, s.instance? x = none → s'.instance? x ≠ none →
    s'.state? x = some .destroyed ∨ s'.Reaches id x

structure Traced (s : Space) (out : Except RuntimeError InstanceId) (s' : Space) : Prop where
  onward : Onward s s'
  done : ∀ id, out = .ok id → Accounts id s s'
  undone : ∀ e, out = .error e → ∀ x, s.instance? x = none → s'.instance? x ≠ none →
    s'.state? x = some .destroyed

def Traces (engine : Engine) : Prop :=
  ∀ {definition owner privileged allowPrototype s out s'}, Forest s → Scripted s →
    engine.create definition owner privileged allowPrototype s = some (out, s') → Traced s out s'

variable {s s' s₁ s₂ : Space} {id made x y : InstanceId} {order : List InstanceId}

theorem quiet_order : Run.Order Quiet where
  refl := fun s => ⟨[], rfl, fun _ => List.not_mem_nil⟩
  trans := by
    intro s s' s'' h h'
    obtain ⟨events, hj, hquiet⟩ := h
    obtain ⟨more, hj', hquiet'⟩ := h'
    refine ⟨more ++ events, by rw [hj', hj, List.append_assoc], fun x hmem => ?_⟩
    rcases List.mem_append.mp hmem with hmem | hmem
    · exact hquiet' x hmem
    · exact hquiet x hmem

theorem quiet_of_journal (hj : s'.journal = s.journal) : Quiet s s' :=
  ⟨[], hj, fun _ => List.not_mem_nil⟩

theorem quiet_record (s : Space) {e : Event} (he : ∀ x, e ≠ .hooked x) : Quiet s (s.record e) :=
  ⟨[e], rfl, fun x hmem => he x (List.mem_singleton.mp hmem).symm⟩

/-- Scripted bodies destroy nothing, so that they run no hooks. -/
theorem quiet_callWithin [Natives] (bound : Nat) {m : Implementation} (hm : m.Scripted)
    (id : InstanceId) (args : List Value) (caller : Principal) :
    Run.Keeps Quiet (callWithin bound id m args caller) := by
  have hR := quiet_order
  induction bound generalizing m args caller with
  | zero => exact .diverge
  | succ n ih =>
    cases hm with
    | @mk stamp owner name body calls hcalls =>
      refine .bind hR (.modify fun s => quiet_record s fun _ => nofun) fun _ => ?_
      refine .bind hR (.each hR fun b hb => ?_) fun _ => ?_
      · exact .bind hR (ih (hcalls b hb) _ _) fun _ => .pure hR _
      · refine .bind hR (.each hR fun a _ => .change hR fun hs => ?_) fun _ => .pure hR _
        obtain ⟨i, -, -, rfl⟩ := assign_eq_ok hs
        exact quiet_of_journal rfl

namespace Onward

theorem of_registry (hs : Scripted s) (hq : Quiet s s') (hr : s'.registry = s.registry) :
    Onward s s' :=
  ⟨hq, hr.symm ▸ .refl hs.registry.coherent⟩

theorem refl (hs : Scripted s) : Onward s s := of_registry hs (quiet_order.refl s) rfl

theorem trans (h : Onward s s₁) (h' : Onward s₁ s') : Onward s s' :=
  ⟨quiet_order.trans h.quiet h'.quiet, h.registry.trans h'.registry⟩

end Onward

theorem onward_tableFor {definition : DefinitionId} {result : Except RuntimeError Table}
    (hs : Scripted s) (h : s.tableFor definition = (result, s₁)) : Onward s s₁ := by
  obtain ⟨-, rfl⟩ := Prod.mk.inj h
  have hc := hs.registry.coherent
  exact ⟨quiet_of_journal rfl, (Registry.Continues.refl hc).walk (Registry.resolved_get hc _).walk⟩

theorem reaches_mono (h : ∀ {x a}, a ∈ s.attached x → a ∈ s'.attached x)
    (hx : s.Reaches x y) : s'.Reaches x y :=
  Relation.ReflTransGen.mono (fun _ _ ha => h ha) x y hx

theorem attached_of_kept (h : Kept s s') {a : InstanceId} (ha : a ∈ s.attached x) :
    a ∈ s'.attached x := by
  rw [attached, h x]
  · exact ha
  · intro hn
    rw [attached, hn] at ha
    cases ha

namespace Accounts

theorem of_kept (h : Accounts id s s₁) (hk : Kept s₁ s')
    (hnew : ∀ x, s₁.instance? x = none → s'.instance? x ≠ none →
      s'.state? x = some .destroyed ∨ s'.Reaches id x) : Accounts id s s' := by
  intro x hx hx'
  by_cases hx₁ : s₁.instance? x = none
  · exact hnew x hx₁ hx'
  · rw [state?, hk x hx₁]
    exact (h x hx hx₁).imp_right (reaches_mono (attached_of_kept hk))

theorem of_sameLinks (h : Accounts id s s₁) (hs : SameLinks s₁ s') : Accounts id s s' := by
  intro x hx hx'
  rw [hs.state]
  have hattached : ∀ {x a}, a ∈ s₁.attached x → a ∈ s'.attached x := by
    intro x a ha
    rwa [hs.attached]
  refine (h x hx fun hn => hx' ?_).imp_right (reaches_mono hattached)
  rw [← state?_eq_none_iff] at hn ⊢
  rwa [hs.state]

theorem of_created {e : RuntimeError} (h : Accounts id s s₁) (hc : Created s₁ (.error e) s')
    (ht : Traced s₁ (.error e) s') : Accounts id s s' :=
  h.of_kept hc.kept fun _ hx hx' => .inl (ht.undone e rfl _ hx hx')

/-- What hangs on an auxiliary hangs on its host once the auxiliary does. -/
theorem join (h : Accounts id s s₁) (hid : s₁.instance? id ≠ none)
    (hc : Created s₁ (.ok made) s') (ht : Traced s₁ (.ok made) s') :
    Accounts id s (s'.linkAttachment id made) := by
  have hid' : s'.state? id ≠ none := by
    rwa [ne_eq, state?_eq_none_iff, hc.kept id hid]
  have hlist : ∀ x, (s'.linkAttachment id made).attached x =
      if x = id then s'.attached id ++ [made] else s'.attached x :=
    fun x => attached_linkAttachment hid'
  have hattached : ∀ {x a}, a ∈ s'.attached x → a ∈ (s'.linkAttachment id made).attached x := by
    intro x a ha
    rw [hlist]
    split
    next hx => exact List.mem_append_left _ (hx ▸ ha)
    next => exact ha
  have hmade : made ∈ (s'.linkAttachment id made).attached id := by
    rw [hlist, if_pos rfl]
    exact List.mem_append_right _ (List.mem_singleton_self made)
  intro x hx hx'
  have hexists : s'.instance? x ≠ none := by
    rw [ne_eq, ← state?_eq_none_iff] at hx' ⊢
    rwa [state?_linkAttachment] at hx'
  rw [state?_linkAttachment]
  by_cases hx₁ : s₁.instance? x = none
  · have hreach := ht.done made rfl x hx₁ hexists
    exact hreach.imp_right fun hmx => .head hmade (reaches_mono hattached hmx)
  · have hold := h x hx hx₁
    rw [state?, ← hc.kept x hx₁] at hold
    refine hold.imp_right fun hreach => ?_
    exact reaches_mono hattached (reaches_mono (attached_of_kept hc.kept) hreach)

theorem destroyed_of_tree (h : Accounts id s s₁) (hf : Forest s₁)
    (hlive : s₁.state? id = some .live) (htree : Tree s₁ id order)
    (hx : s.instance? x = none)
    (hx' : (((s₁.markPending order).unlinkFromHost id).releaseAll order).instance? x ≠ none) :
    (((s₁.markPending order).unlinkFromHost id).releaseAll order).state? x =
      some .destroyed := by
  have hmem : x ∈ order ↔ s₁.Reaches id x :=
    mem_tree_iff htree (fun _ _ => hf.live) hf.arboreal hlive
  have hsame : SameLinks (s₁.markPending order) (s₁.markPending order) := sameLinks_of_population rfl
  by_cases hin : x ∈ order
  · have hstate := htree.live x hin
    rw [state?_releaseAll, if_pos hin, state?_unlinkFromHost, state?_markPending, if_pos hin, hstate]
    rfl
  · have hkept : (((s₁.markPending order).unlinkFromHost id).releaseAll order).state? x =
        s₁.state? x := state?_torn hsame hin
    rw [hkept]
    refine (h x hx fun hn => hx' ?_).resolve_right fun hreach => hin (hmem.mpr hreach)
    rwa [← state?_eq_none_iff, hkept, state?_eq_none_iff]

end Accounts

section Creating

variable {engine : Engine}

theorem traced_each (hc : Creates engine) (ht : Traces engine) {auxiliaries : List DefinitionId}
    {out : Except RuntimeError Unit} (hb : Building id s s₁) (ha : Accounts id s s₁)
    (h : Run.each (engine.addAuxiliary id) auxiliaries s₁ = some (out, s')) :
    Accounts id s s' ∧ Onward s₁ s' := by
  induction auxiliaries generalizing s₁ with
  | nil =>
    cases h
    exact ⟨ha, .refl hb.scripted⟩
  | cons auxiliary auxiliaries ih =>
    have hone : ∀ {out s'}, engine.addAuxiliary id auxiliary s₁ = some (out, s') →
        Building id s s' ∧ Accounts id s s' ∧ Onward s₁ s' := by
      intro out s' h
      rcases Run.bind_eq_some h with ⟨e, hcreate, -⟩ | ⟨made, s₂, hcreate, hlink⟩
      · have hcreated := hc hb.forest hb.scripted hcreate
        have htraced := ht hb.forest hb.scripted hcreate
        exact ⟨hb.of_created hcreated, ha.of_created hcreated htraced, htraced.onward⟩
      · cases hlink
        have hcreated := hc hb.forest hb.scripted hcreate
        have htraced := ht hb.forest hb.scripted hcreate
        have hid : s₁.instance? id ≠ none := by
          rw [ne_eq, ← state?_eq_none_iff, hb.live]
          simp
        refine ⟨(hb.join hcreated).of_population rfl rfl,
          (ha.join hid hcreated htraced).of_sameLinks (sameLinks_of_population rfl),
          htraced.onward.trans (.of_registry hcreated.scripted ?_ rfl)⟩
        exact quiet_record s₂ fun _ => nofun
    rcases Run.bind_eq_some h with ⟨e, hone', -⟩ | ⟨_, s₂, hone', hrest⟩
    · exact (hone hone').2
    · obtain ⟨hb₂, ha₂, ho₂⟩ := hone hone'
      obtain ⟨ha', ho'⟩ := ih hb₂ ha₂ hrest
      exact ⟨ha', ho₂.trans ho'⟩

theorem traced_setUp [Natives] {bound : Nat} (htraces : Traces (Space.engine bound)) {t : Table}
    {out : Except RuntimeError Unit} (ht : t.Scripted) (hb : Building id s s₁)
    (ha : Accounts id s s₁) (h : (Space.engine bound).setUp id t s₁ = some (out, s')) :
    Accounts id s s' ∧ Onward s₁ s' := by
  have hc : Creates (Space.engine bound) := creates_engine bound
  have hattached : ∀ {out s₂},
      Run.each ((Space.engine bound).addAuxiliary id) (s₁.auxiliariesOf t) (s₁.enterChain t.id) =
        some (out, s₂) → Building id s s₂.leaveChain ∧ Accounts id s s₂.leaveChain ∧
          Onward s₁ s₂.leaveChain := by
    intro out s₂ heach
    have hentered : Building id s (s₁.enterChain t.id) := hb.of_population rfl rfl
    have hbuilt := building_each hc hentered heach
    obtain ⟨ha₂, ho₂⟩ := traced_each hc htraces hentered ha heach
    exact ⟨hbuilt.of_population rfl rfl, ha₂, ho₂.quiet, ho₂.registry⟩
  cases Engine.settingUp_of_setUp h with
  | cyclic => exact ⟨ha, .refl hb.scripted⟩
  | attached heach => exact (hattached heach).2
  | ran heach hm hcall =>
    obtain ⟨hb₂, ha₂, ho₂⟩ := hattached heach
    have htouched := (touched_callWithin bound (ht.method hm) id [] _).holds hcall
    have hquiet := (quiet_callWithin bound (ht.method hm) id [] _).holds hcall
    exact ⟨ha₂.of_sameLinks htouched.sameLinks,
      ho₂.trans (.of_registry hb₂.scripted hquiet htouched.registry)⟩

theorem accounts_allocate (s : Space) (t : Table) (owner : Principal) (privileged : Bool) :
    Accounts s.population.nextId s (s.allocate t owner privileged) := by
  intro x hx hx'
  rw [instance?_allocate] at hx'
  split at hx'
  next heq => exact .inr (heq ▸ .refl)
  next => exact absurd hx hx'

theorem traces_engine [Natives] (bound : Nat) : Traces (Space.engine bound) := by
  induction bound with
  | zero =>
    intro definition owner privileged allowPrototype s out s' _ _ h
    cases h
  | succ n ih =>
    intro definition owner privileged allowPrototype s out s' hf hs h
    have hcreation : Engine.Creation (Space.engine n) definition owner privileged s out s' :=
      Engine.creation_of_createInstance h
    -- what there is before the table is resolved and after it
    have hstart : ∀ {t s₁}, s.tableFor definition = (.ok t, s₁) → t.Scripted ∧ Onward s s₁ ∧
        Building s₁.population.nextId s₁ (s₁.allocate t owner privileged) ∧
        ∀ x, s₁.instance? x = s.instance? x := by
      intro t s₁ htable
      obtain ⟨hs₁, ht⟩ := hs.tableFor htable
      have hp := population_tableFor htable
      exact ⟨ht t rfl, onward_tableFor hs htable,
        building_allocate (hf.of_population hp) hs₁ (ht t rfl) owner privileged,
        instance?_of_population hp⟩
    cases hcreation with
    | refused htable =>
      subst htable
      exact ⟨onward_tableFor hs rfl, nofun, fun _ _ _ hx hx' => absurd hx hx'⟩
    | @done t s₁ s₂ htable hset =>
      obtain ⟨ht, honward, hb, hold⟩ := hstart htable
      obtain ⟨ha, ho⟩ := traced_setUp ih ht hb (accounts_allocate s₁ t owner privileged) hset
      refine ⟨honward.trans ⟨ho.quiet, ho.registry⟩, ?_, nofun⟩
      intro id hid x hx hx'
      cases hid
      exact ha x ((hold x).trans hx) hx'
    | @undone t s₁ e s₂ s₃ e' htable hset hdestroy =>
      obtain ⟨ht, honward, hb, hold⟩ := hstart htable
      obtain ⟨ha, ho⟩ := traced_setUp ih ht hb (accounts_allocate s₁ t owner privileged) hset
      have hbuilt := building_setUp (creates_engine n) ht hb hset
      obtain ⟨-, order, s₄, horder, hhooks, rfl⟩ := Engine.destroyTree_eq_some hdestroy
      obtain rfl := Engine.runHooks_false hhooks
      have htree := tree_of_attachmentTree horder
      refine ⟨honward.trans (Onward.trans ⟨ho.quiet, ho.registry⟩
        (.of_registry hbuilt.scripted (quiet_of_journal ?_) ?_)), nofun, ?_⟩
      · rw [releaseAll, journal_foldl_update, journal_unlinkFromHost, markPending,
          journal_foldl_update]
      · rw [releaseAll, registry_foldl_update, registry_unlinkFromHost, markPending,
          registry_foldl_update]
      · intro e _ x hx hx'
        exact ha.destroyed_of_tree hbuilt.forest hbuilt.live htree ((hold x).trans hx) hx'

end Creating

end Space

end Mudlib
