import Mudlib.Space.Creation
set_option autoImplicit false

namespace Mudlib

/-- What is settled about an instance when it is made. -/
structure Identity where
  table : Table
  owner : Principal
  privileged : Bool

def Instance.identity (i : Instance) : Identity := ⟨i.table, i.owner, i.privileged⟩

namespace Space

variable {s s' : Space} {id x h a : InstanceId}

def attached (s : Space) (id : InstanceId) : List InstanceId :=
  ((s.instance? id).map Instance.attachments).getD []

def table? (s : Space) (id : InstanceId) : Option Table := (s.instance? id).map Instance.table

def fields? (s : Space) (id : InstanceId) : Option (Dict String Value) :=
  (s.instance? id).map Instance.fields

def identity? (s : Space) (id : InstanceId) : Option Identity :=
  (s.instance? id).map Instance.identity

def IsTemplate (s : Space) (id : InstanceId) : Prop :=
  ∃ i, s.instance? id = some i ∧ i.isPrototype = true

structure Intact (s : Space) (x : InstanceId) : Prop where
  exist : s.state? x ≠ none
  standing : s.state? x ≠ some .destroyed

@[simp] theorem state?_record (s : Space) (e : Event) (x : InstanceId) :
    (s.record e).state? x = s.state? x := rfl

theorem instance?_of_population (hp : s'.population = s.population) (x : InstanceId) :
    s'.instance? x = s.instance? x := by
  rw [instance?, hp, instance?]

theorem instance?_update_self (s : Space) (id : InstanceId) (f : Instance → Instance) :
    (s.update id f).instance? id = (s.instance? id).map f := by
  rw [instance?_update, if_pos rfl]

theorem instance?_update_of_ne (s : Space) (f : Instance → Instance) (hx : x ≠ id) :
    (s.update id f).instance? x = s.instance? x := by
  rw [instance?_update, if_neg hx]

theorem map_instance?_update {β : Type} (s : Space) (f : Instance → Instance) (g : Instance → β)
    (hg : ∀ i, g (f i) = g i) : ((s.update id f).instance? x).map g = (s.instance? x).map g := by
  by_cases hx : x = id
  · subst hx
    rw [instance?_update_self, Option.map_map]
    exact congrFun (congrArg Option.map (funext hg)) _
  · rw [instance?_update_of_ne s f hx]

theorem host?_eq_join (s : Space) (x : InstanceId) :
    s.host? x = ((s.instance? x).map Instance.host).join := by
  unfold host?
  cases s.instance? x <;> rfl

theorem host?_update (s : Space) (f : Instance → Instance) (hf : ∀ i, (f i).host = i.host) :
    (s.update id f).host? x = s.host? x := by
  rw [host?_eq_join, map_instance?_update s f Instance.host hf, host?_eq_join]

theorem attached_update (s : Space) (f : Instance → Instance)
    (hf : ∀ i, (f i).attachments = i.attachments) : (s.update id f).attached x = s.attached x := by
  rw [attached, map_instance?_update s f Instance.attachments hf, attached]

theorem state?_eq_none_iff : s.state? x = none ↔ s.instance? x = none := Option.map_eq_none_iff

theorem intact_of_state {state : LifecycleState} (hx : s.state? x = some state)
    (hstate : state ≠ .destroyed) : s.Intact x :=
  ⟨by simp [hx], by simpa [hx] using hstate⟩

theorem Intact.of_state? (hx : s.Intact x) (hs : s'.state? x = s.state? x) : s'.Intact x :=
  ⟨hs ▸ hx.exist, hs ▸ hx.standing⟩

theorem attached_of_state?_eq_none (hx : s.state? x = none) : s.attached x = [] := by
  simp [attached, state?_eq_none_iff.mp hx]

theorem host?_of_state?_eq_none (hx : s.state? x = none) : s.host? x = none := by
  simp [host?, state?_eq_none_iff.mp hx]

theorem identity?_eq_none_iff : s.identity? x = none ↔ s.instance? x = none :=
  Option.map_eq_none_iff

theorem identity?_of_instance? {i : Instance} (hx : s.instance? x = some i) :
    s.identity? x = some i.identity := by
  rw [identity?, hx, Option.map_some]

theorem exists_of_identity? (h : ∀ {k}, s.identity? x = some k → s'.identity? x = some k)
    (hx : s.instance? x ≠ none) : s'.instance? x ≠ none := by
  rw [ne_eq, ← identity?_eq_none_iff] at hx ⊢
  obtain ⟨k, hk⟩ := Option.ne_none_iff_exists'.mp hx
  simp [h hk]

theorem isTemplate_iff :
    s.IsTemplate x ↔ ∃ k, s.identity? x = some k ∧ k.table.prototype = true := by
  constructor
  · intro h
    obtain ⟨i, hi, hp⟩ := h
    exact ⟨i.identity, identity?_of_instance? hi, hp⟩
  · intro h
    obtain ⟨k, hk, hp⟩ := h
    obtain ⟨i, hi, rfl⟩ := Option.map_eq_some_iff.mp hk
    exact ⟨i, hi, hp⟩

section Linking

variable {β : Type} (g : Instance → β)

theorem map_linkAttachment (hhost : ∀ i host, g { i with host := host } = g i)
    (hlist : ∀ i list, g { i with attachments := list } = g i) :
    ((s.linkAttachment h a).instance? x).map g = (s.instance? x).map g := by
  unfold linkAttachment
  rw [map_instance?_update _ _ g fun i => hlist i _, map_instance?_update _ _ g fun i => hhost i _]

theorem map_unlinkAttachment (hhost : ∀ i host, g { i with host := host } = g i)
    (hlist : ∀ i list, g { i with attachments := list } = g i) :
    ((s.unlinkAttachment h a).instance? x).map g = (s.instance? x).map g := by
  unfold unlinkAttachment
  rw [map_instance?_update _ _ g, map_instance?_update _ _ g fun i => hlist i _]
  intro i
  split
  · exact hhost i none
  · rfl

theorem map_unlinkFromHost (hhost : ∀ i host, g { i with host := host } = g i)
    (hlist : ∀ i list, g { i with attachments := list } = g i) :
    ((s.unlinkFromHost id).instance? x).map g = (s.instance? x).map g := by
  unfold unlinkFromHost
  split
  · exact map_unlinkAttachment g hhost hlist
  · rfl

theorem state?_linkAttachment : (s.linkAttachment h a).state? x = s.state? x :=
  map_linkAttachment Instance.state (fun _ _ => rfl) fun _ _ => rfl

theorem state?_unlinkAttachment : (s.unlinkAttachment h a).state? x = s.state? x :=
  map_unlinkAttachment Instance.state (fun _ _ => rfl) fun _ _ => rfl

theorem state?_unlinkFromHost : (s.unlinkFromHost id).state? x = s.state? x :=
  map_unlinkFromHost Instance.state (fun _ _ => rfl) fun _ _ => rfl

theorem table?_linkAttachment : (s.linkAttachment h a).table? x = s.table? x :=
  map_linkAttachment Instance.table (fun _ _ => rfl) fun _ _ => rfl

theorem table?_unlinkAttachment : (s.unlinkAttachment h a).table? x = s.table? x :=
  map_unlinkAttachment Instance.table (fun _ _ => rfl) fun _ _ => rfl

theorem table?_unlinkFromHost : (s.unlinkFromHost id).table? x = s.table? x :=
  map_unlinkFromHost Instance.table (fun _ _ => rfl) fun _ _ => rfl

theorem fields?_linkAttachment : (s.linkAttachment h a).fields? x = s.fields? x :=
  map_linkAttachment Instance.fields (fun _ _ => rfl) fun _ _ => rfl

theorem fields?_unlinkAttachment : (s.unlinkAttachment h a).fields? x = s.fields? x :=
  map_unlinkAttachment Instance.fields (fun _ _ => rfl) fun _ _ => rfl

theorem fields?_unlinkFromHost : (s.unlinkFromHost id).fields? x = s.fields? x :=
  map_unlinkFromHost Instance.fields (fun _ _ => rfl) fun _ _ => rfl

theorem identity?_linkAttachment : (s.linkAttachment h a).identity? x = s.identity? x :=
  map_linkAttachment Instance.identity (fun _ _ => rfl) fun _ _ => rfl

theorem identity?_unlinkAttachment : (s.unlinkAttachment h a).identity? x = s.identity? x :=
  map_unlinkAttachment Instance.identity (fun _ _ => rfl) fun _ _ => rfl

theorem identity?_unlinkFromHost : (s.unlinkFromHost id).identity? x = s.identity? x :=
  map_unlinkFromHost Instance.identity (fun _ _ => rfl) fun _ _ => rfl

theorem exists_instance?_linkAttachment {i : Instance} (hx : s.instance? x = some i) :
    ∃ j, (s.linkAttachment h a).instance? x = some j ∧ j.state = i.state ∧ j.owner = i.owner := by
  have hsame : ((s.linkAttachment h a).instance? x).map (fun i => (i.state, i.owner)) =
      (s.instance? x).map fun i => (i.state, i.owner) :=
    map_linkAttachment _ (fun _ _ => rfl) fun _ _ => rfl
  rw [hx, Option.map_some] at hsame
  obtain ⟨j, hj, heq⟩ := Option.map_eq_some_iff.mp hsame
  exact ⟨j, hj, Prod.mk.inj heq⟩

theorem map_invokable_linkAttachment (hhost : ∀ i host, g { i with host := host } = g i)
    (hlist : ∀ i list, g { i with attachments := list } = g i) :
    ((s.linkAttachment h a).invokable x).map g = (s.invokable x).map g := by
  have hsame : ((s.linkAttachment h a).instance? x).map (fun i => (i.isDestroyed, g i)) =
      (s.instance? x).map fun i => (i.isDestroyed, g i) :=
    map_linkAttachment _ (fun i host => congrArg _ (hhost i host))
      fun i list => congrArg _ (hlist i list)
  unfold invokable
  cases hi : s.instance? x with
  | none =>
    rw [hi, Option.map_none, Option.map_eq_none_iff] at hsame
    rw [hsame]
  | some i =>
    rw [hi, Option.map_some] at hsame
    obtain ⟨j, hj, heq⟩ := Option.map_eq_some_iff.mp hsame
    obtain ⟨hdestroyed, hg⟩ := Prod.mk.inj heq
    simp only [hj, hdestroyed]
    split
    · rfl
    · exact congrArg Except.ok hg

theorem typeOf_linkAttachment : (s.linkAttachment h a).typeOf x = s.typeOf x :=
  map_invokable_linkAttachment Instance.definition (fun _ _ => rfl) fun _ _ => rfl

theorem isPrivileged_linkAttachment (caller : Principal) :
    (s.linkAttachment h a).isPrivileged caller = s.isPrivileged caller := by
  cases caller with
  | object id =>
    have hsame := map_linkAttachment (s := s) (h := h) (a := a) (x := id)
      (fun i => !i.isDestroyed && i.privileged) (fun _ _ => rfl) fun _ _ => rfl
    simpa only [isPrivileged, Option.any_map, Function.comp_def] using
      congrArg (Option.any fun b => b) hsame
  | system => rfl
  | account name level => rfl

theorem authorize_linkAttachment (caller : Principal) (deed : Deed) (owner : Principal) :
    (s.linkAttachment h a).authorize caller deed x owner = s.authorize caller deed x owner := by
  rw [authorize, isPrivileged_linkAttachment, authorize]

theorem instance?_linkAttachment (hne : h ≠ a) :
    (s.linkAttachment h a).instance? x =
      if x = h then (s.instance? x).map fun i => { i with attachments := i.attachments ++ [a] }
      else if x = a then (s.instance? x).map fun i => { i with host := some h }
      else s.instance? x := by
  rw [linkAttachment, instance?_update]
  split
  next hx => rw [instance?_update_of_ne _ _ (hx ▸ hne)]
  next => rw [instance?_update]

theorem host?_linkAttachment (ha : s.state? a ≠ none) :
    (s.linkAttachment h a).host? x = if x = a then some h else s.host? x := by
  unfold linkAttachment
  rw [host?_update]
  · by_cases hx : x = a
    · subst hx
      obtain ⟨i, hi⟩ := Option.ne_none_iff_exists'.mp (mt state?_eq_none_iff.mpr ha)
      simp [host?, instance?_update_self, hi]
    · rw [if_neg hx]
      simp only [host?, instance?_update_of_ne s _ hx]
  · intro i
    rfl

theorem attached_linkAttachment (hh : s.state? h ≠ none) :
    (s.linkAttachment h a).attached x = if x = h then s.attached h ++ [a] else s.attached x := by
  have hfirst : ∀ y, (s.update a fun i => { i with host := some h }).attached y = s.attached y :=
    fun y => attached_update s _ fun _ => rfl
  have hstate : (s.update a fun i => { i with host := some h }).state? h ≠ none := by
    rw [state?, map_instance?_update s _ Instance.state]
    · exact hh
    · intro i
      rfl
  unfold linkAttachment
  by_cases hx : x = h
  · subst hx
    obtain ⟨i, hi⟩ := Option.ne_none_iff_exists'.mp (mt state?_eq_none_iff.mpr hstate)
    rw [if_pos rfl, ← hfirst x]
    simp [attached, instance?_update_self, hi]
  · rw [if_neg hx, ← hfirst x]
    simp only [attached, instance?_update_of_ne _ _ hx]

theorem mem_attached_linkAttachment (hh : s.state? h ≠ none) {b : InstanceId} :
    b ∈ (s.linkAttachment h a).attached x ↔ b ∈ s.attached x ∨ x = h ∧ b = a := by
  rw [attached_linkAttachment hh]
  by_cases hx : x = h
  · subst hx
    simp
  · simp [hx]

theorem nodup_attached_linkAttachment (hh : s.state? h ≠ none)
    (honce : ∀ y, (s.attached y).Nodup) (hfree : a ∉ s.attached h) :
    ((s.linkAttachment h a).attached x).Nodup := by
  rw [attached_linkAttachment hh]
  split
  · refine List.nodup_append.mpr ⟨honce h, by simp, ?_⟩
    rintro b hb c hc rfl
    rw [List.mem_singleton.mp hc] at hb
    exact hfree hb
  · exact honce x

theorem host?_linkAttachment_of_ne (hx : x ≠ a) : (s.linkAttachment h a).host? x = s.host? x := by
  unfold linkAttachment
  rw [host?_update]
  · simp only [host?, instance?_update_of_ne s _ hx]
  · intro i
    rfl

theorem mem_attached_of_linkAttachment {k : InstanceId} (hx : x ≠ a)
    (hmem : x ∈ (s.linkAttachment h a).attached k) : x ∈ s.attached k := by
  have hfirst : (s.update a fun i => { i with host := some h }).attached k = s.attached k :=
    attached_update s _ fun _ => rfl
  rw [← hfirst]
  unfold linkAttachment at hmem
  by_cases hk : k = h
  · subst hk
    rw [attached, instance?_update_self] at hmem
    rw [attached]
    cases hi : (s.update a fun i => { i with host := some k }).instance? k with
    | none => simp [hi] at hmem
    | some i => simpa [hi, hx] using hmem
  · rwa [attached, instance?_update_of_ne _ _ hk] at hmem

theorem host?_unlinkAttachment :
    (s.unlinkAttachment h a).host? x = if x = a ∧ s.host? a = some h then none else s.host? x := by
  have hfirst : ∀ y, (s.update h fun i => { i with
      attachments := i.attachments.filter (· ≠ a) }).host? y = s.host? y :=
    fun y => host?_update s _ fun _ => rfl
  unfold unlinkAttachment
  by_cases hx : x = a
  · subst hx
    rw [← hfirst x]
    generalize (s.update h fun i => { i with attachments := i.attachments.filter (· ≠ x) }) = s'
    cases hi : s'.instance? x with
    | none => simp [host?, instance?_update_self, hi]
    | some i =>
      by_cases hh : i.host = some h
      · simp [host?, instance?_update_self, hi, hh]
      · simp [host?, instance?_update_self, hi, hh]
  · rw [if_neg (fun hc => hx hc.1), ← hfirst x]
    simp only [host?, instance?_update_of_ne _ _ hx]

theorem attached_unlinkAttachment :
    (s.unlinkAttachment h a).attached x =
      if x = h then (s.attached h).filter (· ≠ a) else s.attached x := by
  unfold unlinkAttachment
  rw [attached_update]
  · by_cases hx : x = h
    · subst hx
      cases hi : s.instance? x with
      | none => simp [attached, instance?_update_self, hi]
      | some i => simp [attached, instance?_update_self, hi]
    · rw [if_neg hx]
      simp only [attached, instance?_update_of_ne _ _ hx]
  · intro i
    split <;> rfl

theorem host?_unlinkAttachment_of_host (ha : s.host? a = some h) :
    (s.unlinkAttachment h a).host? x = if x = a then none else s.host? x := by
  rw [host?_unlinkAttachment]
  simp [ha]

theorem mem_attached_unlinkAttachment (honly : ∀ y, a ∈ s.attached y → y = h) {b : InstanceId} :
    b ∈ (s.unlinkAttachment h a).attached x ↔ b ∈ s.attached x ∧ b ≠ a := by
  rw [attached_unlinkAttachment]
  split
  next hx =>
    subst hx
    simp
  next hx =>
    refine ⟨fun hb => ⟨hb, ?_⟩, fun hb => hb.1⟩
    rintro rfl
    exact hx (honly x hb)

theorem nodup_attached_unlinkAttachment (honce : ∀ y, (s.attached y).Nodup) :
    ((s.unlinkAttachment h a).attached x).Nodup := by
  rw [attached_unlinkAttachment]
  split
  · exact (honce h).filter _
  · exact honce x

theorem eq_of_instance? (hp : s' = { s with population := s'.population })
    (hall : ∀ x, s'.instance? x = s.instance? x) : s' = s := by
  rw [hp, Population.ext_get? hall]

/-- What was linked last is the last of the attachments, so unlinking it leaves those that were there
before, in their order. -/
theorem unlinkAttachment_linkAttachment (hne : a ≠ h) (hn : s.host? a = none)
    (hfree : a ∉ s.attached h) : (s.linkAttachment h a).unlinkAttachment h a = s := by
  refine eq_of_instance? rfl fun x => ?_
  unfold unlinkAttachment linkAttachment
  by_cases hxa : x = a
  · subst hxa
    rw [instance?_update_self, instance?_update_of_ne _ _ hne, instance?_update_of_ne _ _ hne,
      instance?_update_self, Option.map_map]
    cases hi : s.instance? x with
    | none => rfl
    | some i =>
      have hhost : i.host = none := by simpa [host?, hi] using hn
      have hback : { i with host := none } = i := by rw [← hhost]
      simp [hback]
  · rw [instance?_update_of_ne _ _ hxa]
    by_cases hxh : x = h
    · subst hxh
      rw [instance?_update_self, instance?_update_self, instance?_update_of_ne _ _ hxa,
        Option.map_map]
      cases hi : s.instance? x with
      | none => rfl
      | some i =>
        have hlist : ∀ b ∈ i.attachments, b ≠ a := by
          intro b hb hba
          rw [attached, hi] at hfree
          exact hfree (hba ▸ hb)
        have hback : (i.attachments ++ [a]).filter (· ≠ a) = i.attachments := by
          rw [List.filter_append, List.filter_eq_self.mpr (by simpa using hlist)]
          simp
        simp only [Option.map_some, Function.comp_apply, hback]
    · rw [instance?_update_of_ne _ _ hxh, instance?_update_of_ne _ _ hxh,
        instance?_update_of_ne _ _ hxa]

theorem host?_unlinkFromHost :
    (s.unlinkFromHost id).host? x = if x = id then none else s.host? x := by
  unfold unlinkFromHost
  split
  next host hh => exact host?_unlinkAttachment_of_host hh
  next hh =>
    split
    next hx => rw [hx, hh]
    next => rfl

theorem attached_unlinkFromHost :
    (s.unlinkFromHost id).attached x =
      if s.host? id = some x then (s.attached x).filter (· ≠ id) else s.attached x := by
  unfold unlinkFromHost
  split
  next host hh =>
    rw [attached_unlinkAttachment, hh]
    by_cases hx : x = host
    · subst hx
      rw [if_pos rfl, if_pos rfl]
    · rw [if_neg hx, if_neg fun hc => hx (Option.some.inj hc).symm]
  next hh => rw [hh, if_neg (by simp)]

end Linking

section Teardown

variable {ids : List InstanceId}

theorem instance?_foldl_update (f : Instance → Instance) (hf : ∀ i, f (f i) = f i) :
    (ids.foldl (fun s id => s.update id f) s).instance? x =
      if x ∈ ids then (s.instance? x).map f else s.instance? x := by
  induction ids generalizing s with
  | nil => simp
  | cons id ids ih =>
    rw [List.foldl_cons, ih]
    by_cases hid : x = id
    · subst hid
      rw [instance?_update_self, if_pos List.mem_cons_self]
      split
      · rw [Option.map_map]
        exact congrFun (congrArg Option.map (funext hf)) _
      · rfl
    · rw [instance?_update_of_ne s f hid]
      simp [hid]

theorem map_instance?_foldl_update {β : Type} {f : Instance → Instance} (g : Instance → β)
    (hg : ∀ i, g (f i) = g i) :
    ((ids.foldl (fun s id => s.update id f) s).instance? x).map g = (s.instance? x).map g := by
  induction ids generalizing s with
  | nil => rfl
  | cons id ids ih => exact ih.trans (map_instance?_update s f g hg)

theorem identity?_markPending : (s.markPending ids).identity? x = s.identity? x :=
  map_instance?_foldl_update Instance.identity fun _ => rfl

theorem identity?_releaseAll : (s.releaseAll ids).identity? x = s.identity? x :=
  map_instance?_foldl_update Instance.identity fun _ => rfl

theorem instance?_markPending : (s.markPending ids).instance? x =
    if x ∈ ids then (s.instance? x).map fun i => { i with state := .pendingDestroy }
    else s.instance? x :=
  instance?_foldl_update _ fun _ => rfl

theorem instance?_releaseAll : (s.releaseAll ids).instance? x =
    if x ∈ ids then (s.instance? x).map Instance.release else s.instance? x :=
  instance?_foldl_update _ fun _ => rfl

theorem state?_markPending : (s.markPending ids).state? x =
    if x ∈ ids then (s.state? x).map fun _ => .pendingDestroy else s.state? x := by
  simp only [state?, instance?_markPending]
  split
  · cases s.instance? x <;> rfl
  · rfl

theorem table?_markPending : (s.markPending ids).table? x = s.table? x := by
  simp only [table?, instance?_markPending]
  split
  · cases s.instance? x <;> rfl
  · rfl

theorem fields?_markPending : (s.markPending ids).fields? x = s.fields? x := by
  simp only [fields?, instance?_markPending]
  split
  · cases s.instance? x <;> rfl
  · rfl

theorem table?_releaseAll : (s.releaseAll ids).table? x = s.table? x := by
  simp only [table?, instance?_releaseAll]
  split
  · cases s.instance? x <;> rfl
  · rfl

theorem fields?_releaseAll : (s.releaseAll ids).fields? x =
    if x ∈ ids then (s.fields? x).map fun _ => .empty else s.fields? x := by
  simp only [fields?, instance?_releaseAll]
  split
  · cases s.instance? x <;> rfl
  · rfl

theorem host?_markPending : (s.markPending ids).host? x = s.host? x := by
  simp only [host?, instance?_markPending]
  split
  · cases s.instance? x <;> rfl
  · rfl

theorem attached_markPending : (s.markPending ids).attached x = s.attached x := by
  simp only [attached, instance?_markPending]
  split
  · cases s.instance? x <;> rfl
  · rfl

theorem state?_releaseAll : (s.releaseAll ids).state? x =
    if x ∈ ids then (s.state? x).map fun _ => .destroyed else s.state? x := by
  simp only [state?, instance?_releaseAll]
  split
  · cases s.instance? x <;> rfl
  · rfl

theorem host?_releaseAll : (s.releaseAll ids).host? x = if x ∈ ids then none else s.host? x := by
  simp only [host?, instance?_releaseAll]
  split
  · cases s.instance? x <;> rfl
  · rfl

theorem attached_releaseAll :
    (s.releaseAll ids).attached x = if x ∈ ids then [] else s.attached x := by
  simp only [attached, instance?_releaseAll]
  split
  · cases s.instance? x <;> rfl
  · rfl

@[simp] theorem journal_update (s : Space) (id : InstanceId) (f : Instance → Instance) :
    (s.update id f).journal = s.journal := rfl

theorem journal_foldl_update (f : Instance → Instance) :
    (ids.foldl (fun s id => s.update id f) s).journal = s.journal := by
  induction ids generalizing s with
  | nil => rfl
  | cons id ids ih => rw [List.foldl_cons, ih, journal_update]

theorem journal_unlinkFromHost : (s.unlinkFromHost id).journal = s.journal := by
  unfold unlinkFromHost
  split <;> rfl

theorem registry_foldl_update (f : Instance → Instance) :
    (ids.foldl (fun s id => s.update id f) s).registry = s.registry := by
  induction ids generalizing s with
  | nil => rfl
  | cons id ids ih =>
    rw [List.foldl_cons, ih]
    rfl

theorem registry_unlinkFromHost : (s.unlinkFromHost id).registry = s.registry := by
  unfold unlinkFromHost
  split <;> rfl

end Teardown

section Allocation

variable {t : Table} {owner : Principal} {privileged : Bool}

theorem instance?_nextId : s.instance? s.population.nextId = none := by
  simp [instance?, Population.get?, Population.nextId]

theorem instance?_allocate : (s.allocate t owner privileged).instance? x =
    if x = s.population.nextId then some (.create t owner privileged) else s.instance? x :=
  Population.get?_add s.population _ x

theorem instance?_allocate_self : (s.allocate t owner privileged).instance? s.population.nextId =
    some (.create t owner privileged) := by
  rw [instance?_allocate, if_pos rfl]

theorem state?_allocate : (s.allocate t owner privileged).state? x =
    if x = s.population.nextId then some .live else s.state? x := by
  simp only [state?, instance?_allocate]
  split <;> rfl

theorem identity?_allocate : (s.allocate t owner privileged).identity? x =
    if x = s.population.nextId then some ⟨t, owner, privileged⟩ else s.identity? x := by
  simp only [identity?, instance?_allocate]
  split <;> rfl

theorem host?_allocate : (s.allocate t owner privileged).host? x = s.host? x := by
  simp only [host?, instance?_allocate]
  split
  next hx => simp [hx, instance?_nextId, Instance.create]
  next => rfl

theorem attached_allocate : (s.allocate t owner privileged).attached x = s.attached x := by
  simp only [attached, instance?_allocate]
  split
  next hx => simp [hx, instance?_nextId, Instance.create]
  next => rfl

end Allocation

section Start

variable {r : Registry} {config : Config}

theorem instance?_of_population_empty (h : s.population = .empty) (x : InstanceId) :
    s.instance? x = none := by
  rw [instance?, h]
  unfold Population.get?
  split
  · rfl
  · exact Array.getElem?_empty

theorem eq_of_ofConfig? (h : ofConfig? r config = .ok s) : ∃ base : Option DefinitionId,
    s = ⟨r, .empty, .empty, config.initMethod, config.destroyHook, base, [], []⟩ := by
  unfold ofConfig? at h
  split at h
  · cases h
    exact ⟨none, rfl⟩
  · split at h
    · cases h
      exact ⟨_, rfl⟩
    · cases h

theorem population_of_ofConfig? (h : ofConfig? r config = .ok s) :
    s.population = .empty ∧ s.registry = r := by
  obtain ⟨base, rfl⟩ := eq_of_ofConfig? h
  exact ⟨rfl, rfl⟩

theorem instance?_of_ofConfig? (h : ofConfig? r config = .ok s) (x : InstanceId) :
    s.instance? x = none :=
  instance?_of_population_empty (population_of_ofConfig? h).1 x

theorem chain_of_ofConfig? (h : ofConfig? r config = .ok s) : s.chain = [] := by
  obtain ⟨base, rfl⟩ := eq_of_ofConfig? h
  rfl

theorem journal_of_ofConfig? (h : ofConfig? r config = .ok s) : s.journal = [] := by
  obtain ⟨base, rfl⟩ := eq_of_ofConfig? h
  rfl

end Start

end Space

end Mudlib
