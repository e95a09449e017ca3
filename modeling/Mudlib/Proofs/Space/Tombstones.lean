import Mudlib.Proofs.Space.Frame
import Mudlib.Proofs.Space.LiveTree
import Mudlib.Proofs.Space.Refusals
set_option autoImplicit false

namespace Mudlib

namespace Run

/-- Two computations end alike, in related spaces: neither within its bound, both with a failure, or
both with the same result. -/
inductive EndsAlike {α : Type} (R : Space → Space → Prop) :
    Option (Except RuntimeError α × Space) → Option (Except RuntimeError α × Space) → Prop where
  | endless : EndsAlike R none none
  | failed {e e' : RuntimeError} {s s' : Space} :
      R s s' → EndsAlike R (some (.error e, s)) (some (.error e', s'))
  | done {a : α} {s s' : Space} : R s s' → EndsAlike R (some (.ok a, s)) (some (.ok a, s'))

variable {α β : Type} {R R' : Space → Space → Prop} {s s' t : Space} {m : Run α}

namespace EndsAlike

theorem imp {out out' : Option (Except RuntimeError α × Space)} (h : EndsAlike R out out')
    (himp : ∀ {t t'}, R t t' → R' t t') : EndsAlike R' out out' := by
  cases h with
  | endless => exact .endless
  | failed h => exact .failed (himp h)
  | done h => exact .done (himp h)

theorem bind {f : α → Run β} (hm : EndsAlike R (m s) (m s')) (himp : ∀ {t t'}, R t t' → R' t t')
    (hf : ∀ a t t', R t t' → EndsAlike R' (f a t) (f a t')) :
    EndsAlike R' ((m >>= f) s) ((m >>= f) s') := by
  rw [bind_apply, bind_apply]
  generalize m s = out, m s' = out' at hm
  cases hm with
  | endless => exact .endless
  | failed h => exact .failed (himp h)
  | done h => exact hf _ _ _ h

theorem dropped (h : EndsAlike R (m s) (m s')) :
    EndsAlike R ((do let _ ← m : Run Unit) s) ((do let _ ← m : Run Unit) s') :=
  h.bind id fun _ _ _ => .done

theorem forget {out out' : Option (Except RuntimeError α × Space)} (h : EndsAlike R out out') :
    EndsAlike R (out.map fun r => (Except.ok (), r.2)) (out'.map fun r => (Except.ok (), r.2)) := by
  cases h with
  | endless => exact .endless
  | failed h => exact .done h
  | done h => exact .done h

theorem change (step : Space → Except RuntimeError Space) (hR : R s s')
    (h : ∀ {t}, step s = .ok t → ∃ t', step s' = .ok t' ∧ R t t')
    (h' : ∀ {t'}, step s' = .ok t' → ∃ t, step s = .ok t) :
    EndsAlike R (Run.change step s) (Run.change step s') := by
  unfold Run.change
  cases hs : step s with
  | ok t =>
    obtain ⟨t', ht', hR'⟩ := h hs
    rw [ht']
    exact .done hR'
  | error e =>
    cases hs' : step s' with
    | ok t' =>
      obtain ⟨t, ht⟩ := h' hs'
      rw [hs] at ht
      cases ht
    | error e' => exact .failed hR

theorem changeWithin (step : Space → Option (Except RuntimeError Space)) (hR : R s s')
    (hends : step s ≠ none) (hends' : step s' ≠ none)
    (h : ∀ {t}, step s = some (.ok t) → ∃ t', step s' = some (.ok t') ∧ R t t')
    (h' : ∀ {t'}, step s' = some (.ok t') → ∃ t, step s = some (.ok t)) :
    EndsAlike R (Run.changeWithin step s) (Run.changeWithin step s') := by
  obtain ⟨out, hs⟩ := Option.ne_none_iff_exists'.mp hends
  obtain ⟨out', hs'⟩ := Option.ne_none_iff_exists'.mp hends'
  unfold Run.changeWithin
  cases out with
  | ok t =>
    obtain ⟨t', ht', hR'⟩ := h hs
    rw [hs, ht']
    exact .done hR'
  | error e =>
    cases out' with
    | ok t' =>
      obtain ⟨t, ht⟩ := h' hs'
      rw [hs] at ht
      cases ht
    | error e' =>
      rw [hs, hs']
      exact .failed hR

theorem exists_of_eq_some {out : Except RuntimeError α} {r' : Option (Except RuntimeError α × Space)}
    (h : EndsAlike R (some (out, t)) r') : ∃ out' t', r' = some (out', t') ∧ R t t' := by
  cases h with
  | failed h => exact ⟨_, _, rfl, h⟩
  | done h => exact ⟨_, _, rfl, h⟩

end EndsAlike

structure Mirrors (R : Space → Space → Prop) (m : Run α) : Prop where
  holds : ∀ {s s'}, R s s' → EndsAlike R (m s) (m s')

namespace Mirrors

theorem diverge : Mirrors R (Run.diverge : Run α) := ⟨fun _ => .endless⟩

theorem pure (a : α) : Mirrors R (Pure.pure a : Run α) := ⟨.done⟩

theorem modify {change : Space → Space} (h : ∀ {s s'}, R s s' → R (change s) (change s')) :
    Mirrors R (Run.modify change) := ⟨fun hR => .done (h hR)⟩

theorem bind {f : α → Run β} (hm : Mirrors R m) (hf : ∀ a, Mirrors R (f a)) :
    Mirrors R (m >>= f) := ⟨fun hR => .bind (hm.holds hR) id fun a _ _ => (hf a).holds⟩

theorem each {f : α → Run Unit} {as : List α} (h : ∀ a ∈ as, Mirrors R (f a)) :
    Mirrors R (Run.each f as) := by
  induction as with
  | nil => exact pure ()
  | cons a as ih =>
    refine bind (h a List.mem_cons_self) fun _ => ?_
    exact ih fun b hb => h b (List.mem_cons_of_mem _ hb)

end Mirrors

end Run

namespace Space

variable {s s' s₁ s₁' s₀ : Space} {x id h a : InstanceId} {i j : Instance} {caller : Principal}
variable {order roots : List InstanceId}

/-- The spaces differ in what is destroyed, in their journals and in what is cached. -/
structure Alike (s s' : Space) : Prop where
  invokable : ∀ {x i}, s'.invokable x = .ok i ↔ s.invokable x = .ok i
  effective : s'.registry.effective? = s.registry.effective?
  settings : Registry.SameSettings s.registry s'.registry
  framed : Framed s s'

theorem intact_iff_invokable : s.Intact x ↔ ∃ i, s.invokable x = .ok i := by
  constructor
  · intro hx
    obtain ⟨i, hi⟩ := Option.ne_none_iff_exists'.mp (mt state?_eq_none_iff.mpr hx.exist)
    refine ⟨i, invokable_eq_ok.mpr ⟨hi, fun hd => hx.standing ?_⟩⟩
    rw [state?, hi, Option.map_some, hd]
  · rintro ⟨i, hi⟩
    obtain ⟨hi, hd⟩ := invokable_eq_ok.mp hi
    exact intact_of_state (by rw [state?, hi, Option.map_some]) hd

theorem live_eq_ok_iff_invokable : s.live x = .ok i ↔ s.invokable x = .ok i ∧ i.state = .live := by
  rw [live_eq_ok, invokable_eq_ok]
  constructor
  · rintro ⟨hi, hl⟩
    exact ⟨⟨hi, by simp [hl]⟩, hl⟩
  · rintro ⟨⟨hi, -⟩, hl⟩
    exact ⟨hi, hl⟩

theorem state?_eq_live_iff : s.state? x = some .live ↔ ∃ i, s.live x = .ok i := by
  simp only [live_eq_ok, state?, Option.map_eq_some_iff]

theorem isPrivileged_object : s.isPrivileged (.object x) = true ↔
    ∃ i, s.invokable x = .ok i ∧ i.privileged = true := by
  simp only [isPrivileged, invokable_eq_ok, Option.any_eq_true, Bool.and_eq_true,
    Instance.isDestroyed, Bool.not_eq_true', decide_eq_false_iff_not, and_assoc]

namespace Alike

theorem refl (s : Space) : Alike s s := ⟨.rfl, rfl, .refl _, framed_order.refl s⟩

theorem symm (h : Alike s s') : Alike s' s where
  invokable := h.invokable.symm
  effective := h.effective.symm
  settings := ⟨h.settings.policy.symm, h.settings.maxDepth.symm, h.settings.loader.symm⟩
  framed := h.framed.symm

theorem trans (h : Alike s s') (h' : Alike s' s₁) : Alike s s₁ :=
  ⟨h'.invokable.trans h.invokable, h'.effective.trans h.effective, h.settings.trans h'.settings,
    framed_order.trans h.framed h'.framed⟩

variable (hs : Alike s s')

include hs

theorem instance?_eq (hx : s.Intact x) : s'.instance? x = s.instance? x := by
  obtain ⟨i, hi⟩ := intact_iff_invokable.mp hx
  rw [(invokable_eq_ok.mp hi).1, (invokable_eq_ok.mp (hs.invokable.mpr hi)).1]

theorem intact_iff : s'.Intact x ↔ s.Intact x := by
  simp only [intact_iff_invokable, hs.invokable]

theorem live_iff : s'.live x = .ok i ↔ s.live x = .ok i := by
  rw [live_eq_ok_iff_invokable, live_eq_ok_iff_invokable, hs.invokable]

theorem isPrivileged_eq (caller : Principal) : s'.isPrivileged caller = s.isPrivileged caller := by
  cases caller with
  | system => rfl
  | account id level => rfl
  | object id =>
    rw [Bool.eq_iff_iff, isPrivileged_object, isPrivileged_object]
    simp only [hs.invokable]

theorem authorize_eq (caller : Principal) (deed : Deed) (target : InstanceId) (owner : Principal) :
    s'.authorize caller deed target owner = s.authorize caller deed target owner := by
  rw [authorize, authorize, hs.isPrivileged_eq]

theorem requirePrivileged_eq (caller : Principal) (definition : DefinitionId) :
    s'.requirePrivileged caller definition = s.requirePrivileged caller definition := by
  rw [requirePrivileged, requirePrivileged, hs.isPrivileged_eq]

theorem template?_eq (definition : DefinitionId) :
    s'.template? definition = s.template? definition := by
  have hlive : ∀ {s : Space} {x}, (s.instance? x).any Instance.isLive = true ↔
      ∃ i, s.live x = .ok i := by
    intro s x
    simp only [live_eq_ok, Option.any_eq_true, Instance.isLive, decide_eq_true_eq]
  unfold template?
  rw [hs.framed.prototypes]
  congr 1
  funext x
  rw [Bool.eq_iff_iff, hlive, hlive]
  simp only [hs.live_iff]

/-- The instances are changed alike, and what is destroyed stays so. -/
theorem changed {p : InstanceId → Prop} [DecidablePred p] {f : Instance → Instance}
    (hf : ∀ x i, p x → i.state = .destroyed → (f i).state = .destroyed ∨ s.Intact x)
    (h₁ : ∀ x, s₁.instance? x = if p x then (s.instance? x).map f else s.instance? x)
    (h₁' : ∀ x, s₁'.instance? x = if p x then (s'.instance? x).map f else s'.instance? x)
    (hr : s₁.registry = s.registry) (hr' : s₁'.registry = s'.registry) (hframed : Framed s s₁)
    (hframed' : Framed s' s₁') : Alike s₁ s₁' := by
  -- in either space the change leaves of the invokable instances those that it does not destroy
  have hinvokable : ∀ {s s₁ : Space},
      (∀ x i, p x → i.state = .destroyed → (f i).state = .destroyed ∨ s.Intact x) →
      (∀ x, s₁.instance? x = if p x then (s.instance? x).map f else s.instance? x) →
      ∀ {x j}, s₁.invokable x = .ok j ↔
        ∃ i, s.invokable x = .ok i ∧ j.state ≠ .destroyed ∧ j = if p x then f i else i := by
    intro s s₁ hf h₁ x j
    simp only [invokable_eq_ok, h₁]
    split
    next hx =>
      simp only [Option.map_eq_some_iff]
      constructor
      · rintro ⟨⟨i, hi, rfl⟩, hd⟩
        refine ⟨i, ⟨hi, fun hdestroyed => ?_⟩, hd, rfl⟩
        rcases hf x i hx hdestroyed with hfd | hintact
        · exact hd hfd
        · exact hintact.standing (by rw [state?, hi, Option.map_some, hdestroyed])
      · rintro ⟨i, ⟨hi, -⟩, hd, rfl⟩
        exact ⟨⟨i, hi, rfl⟩, hd⟩
    next =>
      constructor
      · rintro ⟨hj, hd⟩
        exact ⟨j, ⟨hj, hd⟩, hd, rfl⟩
      · rintro ⟨i, ⟨hi, -⟩, hd, rfl⟩
        exact ⟨hi, hd⟩
  refine ⟨?_, ?_, ?_, ?_⟩
  · intro x j
    rw [hinvokable hf h₁, hinvokable (fun x i hx hd => ?_) h₁']
    · simp only [hs.invokable]
    · rw [hs.intact_iff]
      exact hf x i hx hd
  · rw [hr, hr', hs.effective]
  · rw [hr, hr']
    exact hs.settings
  · exact framed_order.trans hframed.symm (framed_order.trans hs.framed hframed')

theorem update (id : InstanceId) {f : Instance → Instance}
    (hf : ∀ i, i.state = .destroyed → (f i).state = .destroyed) :
    Alike (s.update id f) (s'.update id f) :=
  hs.changed (fun _ i _ hd => .inl (hf i hd)) (fun x => instance?_update s id x f)
    (fun x => instance?_update s' id x f) rfl rfl ⟨rfl, rfl, rfl, rfl, rfl⟩
    ⟨rfl, rfl, rfl, rfl, rfl⟩

theorem record (e e' : Event) : Alike (s.record e) (s'.record e') :=
  ⟨hs.invokable, hs.effective, hs.settings, ⟨hs.framed.chain, hs.framed.prototypes,
    hs.framed.initMethod, hs.framed.destroyHook, hs.framed.baseAuxiliary⟩⟩

theorem markPending (hintact : ∀ x ∈ order, s.Intact x) :
    Alike (s.markPending order) (s'.markPending order) :=
  hs.changed (fun x _ hx _ => .inr (hintact x hx)) (fun _ => instance?_markPending)
    (fun _ => instance?_markPending) (registry_foldl_update _) (registry_foldl_update _)
    (framed_foldl_update _) (framed_foldl_update _)

theorem releaseAll (order : List InstanceId) : Alike (s.releaseAll order) (s'.releaseAll order) :=
  hs.changed (fun _ _ _ _ => .inl rfl) (fun _ => instance?_releaseAll)
    (fun _ => instance?_releaseAll) (registry_foldl_update _) (registry_foldl_update _)
    (framed_foldl_update _) (framed_foldl_update _)

theorem linkAttachment (h a : InstanceId) : Alike (s.linkAttachment h a) (s'.linkAttachment h a) := by
  unfold Space.linkAttachment
  refine .update (.update hs a ?_) h ?_
  · exact fun _ hd => hd
  · exact fun _ hd => hd

theorem unlinkAttachment (h a : InstanceId) :
    Alike (s.unlinkAttachment h a) (s'.unlinkAttachment h a) := by
  unfold Space.unlinkAttachment
  refine .update (.update hs h ?_) a ?_
  · exact fun _ hd => hd
  · intro i hd
    split <;> exact hd

theorem unlinkFromHost (hid : s.Intact id) : Alike (s.unlinkFromHost id) (s'.unlinkFromHost id) := by
  unfold Space.unlinkFromHost
  rw [host?, host?, hs.instance?_eq hid]
  split
  · exact hs.unlinkAttachment _ _
  · exact hs

theorem assign {field : String} {v : Value} (hok : s.assign id field v = .ok s₁) :
    ∃ s₁', s'.assign id field v = .ok s₁' ∧ Alike s₁ s₁' := by
  obtain ⟨i, slot, hi, hd, hslot, hv, rfl⟩ := slot_of_assign hok
  refine ⟨_, ?_, hs.update id (f := fun i => { i with fields := i.fields.insert field v })
    fun _ hd => hd⟩
  have hslot' : i.table.fields.get? field = some slot := hslot
  rw [assign_of_invokable field v (hs.invokable.mpr (invokable_eq_ok.mpr ⟨hi, hd⟩)), hslot']
  simp only [hv, if_true]

theorem setField {field : String} {v : Value} (hok : s.setField id field v caller = .ok s₁) :
    ∃ s₁', s'.setField id field v caller = .ok s₁' ∧ Alike s₁ s₁' := by
  unfold Space.setField at hok ⊢
  obtain ⟨i, hi, hok⟩ := bind_eq_ok.mp hok
  obtain ⟨_, hauthorized, hok⟩ := bind_eq_ok.mp hok
  obtain ⟨s₁', hok', halike⟩ := hs.assign hok
  refine ⟨s₁', bind_eq_ok.mpr ⟨i, hs.invokable.mpr hi, bind_eq_ok.mpr ⟨(), ?_, hok'⟩⟩, halike⟩
  rw [hs.authorize_eq]
  exact hauthorized

theorem detach (hok : s.detach h a caller = .ok s₁) :
    ∃ s₁', s'.detach h a caller = .ok s₁' ∧ Alike s₁ s₁' := by
  obtain ⟨i, j, hi, hmem, hj, hhost, haux, rfl⟩ := detach_eq_ok_iff.mp hok
  refine ⟨_, detach_eq_ok_iff.mpr ⟨i, j, hs.live_iff.mpr hi, hmem, hs.invokable.mpr hj, ?_, ?_,
    rfl⟩, hs.unlinkAttachment h a⟩
  · rw [hs.authorize_eq]
    exact hhost
  · rw [hs.authorize_eq]
    exact haux

theorem checkAttach (hok : s.checkAttach h a caller = .ok ()) :
    s'.checkAttach h a caller = .ok () := by
  obtain ⟨i, j, hi, hj, hhost, haux, hrest⟩ := checkAttach_eq_ok_iff.mp hok
  refine checkAttach_eq_ok_iff.mpr ⟨i, j, hs.live_iff.mpr hi, hs.live_iff.mpr hj, ?_, ?_, hrest⟩
  · rw [hs.authorize_eq]
    exact hhost
  · rw [hs.authorize_eq]
    exact haux

theorem checkDestroy (hok : s.checkDestroy id caller = .ok ()) :
    s'.checkDestroy id caller = .ok () := by
  obtain ⟨i, hi, hl, hauthorized, hp⟩ := checkDestroy_eq_ok_iff.mp hok
  have hlive : s.state? id = some .live := by rw [state?, hi, Option.map_some, hl]
  have hid : s'.instance? id = some i := by
    rw [hs.instance?_eq (intact_of_state hlive (by decide)), hi]
  refine checkDestroy_eq_ok_iff.mpr ⟨i, hid, hl, ?_, hp⟩
  rw [hs.authorize_eq]
  exact hauthorized

theorem registry {operation : Registry.Operation} (hc : s.registry.Coherent)
    (hc' : s'.registry.Coherent) (hcompile : ∀ d, operation ≠ .compile d) :
    Alike { s with registry := s.registry.after operation }
      { s' with registry := s'.registry.after operation } := by
  have hsettings := hs.settings
  have hafter := Registry.sameSettings_after hc operation
  have hafter' := Registry.sameSettings_after hc' operation
  refine ⟨hs.invokable, ?_, ⟨?_, ?_, ?_⟩, hs.framed.chain, hs.framed.prototypes,
    hs.framed.initMethod, hs.framed.destroyHook, hs.framed.baseAuxiliary⟩
  · have heffective := congrFun hs.effective
    funext x
    cases operation with
    | register d =>
      show (s'.registry.register d).effective? x = (s.registry.register d).effective? x
      rw [Registry.effective?_register, Registry.effective?_register, heffective]
    | compile d => exact absurd rfl (hcompile d)
    | get definition =>
      exact ((Registry.resolved_get hc' definition).walk.grows.effective x).trans
        ((heffective x).trans ((Registry.resolved_get hc definition).walk.grows.effective x).symm)
    | invalidate definition => exact heffective x
    | unload definition =>
      show (s'.registry.unload definition).effective? x = (s.registry.unload definition).effective? x
      rw [Registry.effective?_unload, Registry.effective?_unload, heffective, Registry.loadable?,
        Registry.loadable?, hsettings.loader]
  · rw [hafter'.policy, hafter.policy, hsettings.policy]
  · rw [hafter'.maxDepth, hafter.maxDepth, hsettings.maxDepth]
  · rw [hafter'.loader, hafter.loader, hsettings.loader]

section Forests

variable (hf : Forest s) (hf' : Forest s')

include hf hf'

/-- Only what is intact has links. -/
theorem links_eq (x : InstanceId) : s'.host? x = s.host? x ∧ s'.attached x = s.attached x := by
  by_cases hx : s.Intact x
  · rw [host?, attached, hs.instance?_eq hx]
    exact ⟨rfl, rfl⟩
  · have hlive : ∀ {s : Space}, ¬ s.Intact x → s.state? x ≠ some .live := fun hx hl =>
      hx (intact_of_state hl (by decide))
    have hx' := mt hs.intact_iff.mp hx
    rw [hf.no_host_of_not_live (hlive hx), hf.no_attachments_of_not_live (hlive hx),
      hf'.no_host_of_not_live (hlive hx'), hf'.no_attachments_of_not_live (hlive hx')]
    exact ⟨rfl, rfl⟩

theorem hostedBy_eq (id target : InstanceId) : s'.hostedBy id target = s.hostedBy id target := by
  obtain ⟨answer, hanswer, hiff⟩ := hf.arboreal.exists_hostedBy id target
  obtain ⟨answer', hanswer', hiff'⟩ := hf'.arboreal.exists_hostedBy id target
  have hhosted : s'.HostedBy = s.HostedBy := by
    funext x y
    rw [HostedBy, HostedBy, (hs.links_eq hf hf' x).1]
  rw [hhosted, ← hiff] at hiff'
  rw [hanswer, hanswer', Bool.eq_iff_iff.mpr hiff']

theorem attach (hok : s.attach h a caller = some (.ok s₁)) :
    ∃ s₁', s'.attach h a caller = some (.ok s₁') ∧ Alike s₁ s₁' := by
  obtain ⟨-, -, -, -, hapart, rfl⟩ := attach_eq_some hok
  refine ⟨_, ?_, hs.linkAttachment h a⟩
  rw [Space.attach, hs.checkAttach (checkAttach_of_attach hok)]
  simp only [hs.hostedBy_eq hf hf', hapart, Option.map_some]
  rfl

theorem attachmentTree_eq (id : InstanceId) : s'.attachmentTree id = s.attachmentTree id := by
  obtain ⟨order, horder, hends⟩ := hf.arboreal.branching.exists_postOrder id
  obtain ⟨order', horder', hends'⟩ := hf'.arboreal.branching.exists_postOrder id
  have hlive : ∀ x, s'.state? x = some .live ↔ s.state? x = some .live := by
    intro x
    simp only [state?_eq_live_iff, hs.live_iff]
  have hsame := horder.congr hlive fun x => (hs.links_eq hf hf' x).2
  rw [attachmentTree, attachmentTree, hends _ (Nat.le_refl _), hends' _ (Nat.le_refl _),
    horder'.unique hsame]

theorem dispatch_eq (hid : s.Intact id) (method : String) :
    s'.dispatch id method = s.dispatch id method := by
  obtain ⟨order, horder, hdispatch⟩ :=
    hf.arboreal.exists_preOrder hf.toConsistent.whole hid method
  have horder' : PreOrder s' [id] order := horder.congr fun x _ => (hs.links_eq hf hf' x).2
  rw [hdispatch, hf'.arboreal.dispatch_eq_verdict hf'.toConsistent.whole (hs.intact_iff.mpr hid)
    horder']
  refine congrArg some (verdict_congr (fun x hx => ?_) method id)
  -- only intact instances are asked, and these have the tables that they had
  have hintact := hf.arboreal.intact_of_reaches hf.toConsistent.whole hid
    (horder.mem_iff_reaches.mp hx)
  rw [table?, table?, hs.instance?_eq hintact]

end Forests

end Alike

/-- The spaces are alike, there is nothing native in them, and these are intact. -/
structure Poised (order : List InstanceId) (s s' : Space) : Prop where
  alike : Alike s s'
  scripted : Scripted s
  intact : ∀ x ∈ order, s.Intact x

theorem Poised.touched {which : InstanceId → Prop} (h : Poised order s s')
    (ht : Touched which s s₁) (ha : Alike s₁ s₁') : Poised order s₁ s₁' :=
  ⟨ha, ht.scripted h.scripted, fun x hx => (h.intact x hx).of_state? (ht.sameLinks.state x)⟩

theorem Poised.record (h : Poised order s s') (e e' : Event) :
    Poised order (s.record e) (s'.record e') := by
  have ht : Touched (fun _ => True) s (s.record e) := touched_record s e
  exact h.touched ht (h.alike.record e e')

section Serving

variable [Natives] {bound : Nat}

/-- Scripted bodies look at fields of intact instances alone. -/
theorem mirrors_callWithin (bound : Nat) {m : Implementation} (hm : m.Scripted) (id : InstanceId)
    (args : List Value) (caller : Principal) :
    Run.Mirrors (Poised order) (callWithin bound id m args caller) := by
  induction bound generalizing m args caller with
  | zero => exact .diverge
  | succ n ih =>
    cases hm with
    | @mk stamp owner name body calls hcalls =>
      refine .bind (.modify fun h => h.record _ _) fun _ => ?_
      refine .bind (.each fun b hb => ?_) fun _ => ?_
      · exact .bind (ih (hcalls b hb) _ _) fun _ => .pure _
      · refine .bind (.each fun a _ => ⟨fun h => ?_⟩) fun _ => .pure _
        refine .change _ h (fun hok => ?_) fun hok' => ?_
        · obtain ⟨s₁', hok', halike⟩ := h.alike.assign hok
          exact ⟨s₁', hok', h.touched (touched_assign hok) halike⟩
        · obtain ⟨s₁, hok, -⟩ := h.alike.symm.assign hok'
          exact ⟨s₁, hok⟩

theorem mirrors_runHook {hook : String} (hx : x ∈ order) :
    Run.Mirrors (Poised order) ((engine bound).runHook hook x) := by
  constructor
  intro s s' h
  have hhook : s'.hookOf? x hook = s.hookOf? x hook := by
    rw [hookOf?, hookOf?, h.alike.instance?_eq (h.intact x hx)]
  rw [Engine.runHook_eq, Engine.runHook_eq, hhook]
  cases hm : s.hookOf? x hook with
  | none => exact .done h
  | some m =>
    have hcall : Run.Mirrors (Poised order) (callWithin bound x m [] .system) :=
      mirrors_callWithin bound (h.scripted.hook hm) x [] .system
    exact (hcall.holds (h.record _ _)).forget

theorem mirrors_runHooks (withHooks : Bool) :
    Run.Mirrors (Poised order) ((engine bound).runHooks withHooks order) := by
  constructor
  intro s s' h
  rw [Engine.runHooks_eq, Engine.runHooks_eq, h.alike.framed.destroyHook]
  split
  · exact .done h
  · exact (Run.Mirrors.each fun x hx => mirrors_runHook hx).holds h

/-- The request makes no instance and compiles nothing. -/
def Request.Barren : Request → Prop
  | .instantiate .. => False
  | .instantiatePrivileged .. => False
  | .loadPrototype .. => False
  | .registry (.compile _) => False
  | _ => True

namespace Alike

variable (hs : Alike s s') (hr : AtRest s) (hr' : AtRest s')

include hs hr hr'

theorem invoke (id : InstanceId) (method : String) (args : List Value) (caller : Principal) :
    Run.EndsAlike Alike (Space.invoke bound id method args caller s)
      (Space.invoke bound id method args caller s') := by
  unfold Space.invoke Engine.invoke
  rw [Run.search_bind, Run.search_bind]
  by_cases hid : s.Intact id
  · rw [hs.dispatch_eq hr.forest hr'.forest hid]
    split
    · exact .endless
    · exact .failed hs
    next found hfound =>
      obtain ⟨t, ht, hm⟩ := method_of_dispatch hfound
      have hcall : Run.Mirrors (Poised []) (callWithin bound found.1 found.2 args caller) :=
        mirrors_callWithin bound ((hr.scripted.table ht).method hm) found.1 args caller
      exact (hcall.holds ⟨hs, hr.scripted, List.forall_mem_nil _⟩).imp Poised.alike
  · have hrefused : ∀ {s : Space}, ¬ s.Intact id →
        ∃ e, s.dispatch id method = some (.error e) := by
      intro s hid
      cases hi : s.invokable id with
      | error e => exact ⟨e, dispatch_of_refused hi method⟩
      | ok i => exact absurd (intact_iff_invokable.mpr ⟨i, hi⟩) hid
    obtain ⟨e, he⟩ := hrefused hid
    obtain ⟨e', he'⟩ := hrefused (mt hs.intact_iff.mp hid)
    rw [he, he']
    exact .failed hs

theorem destroyTree (hlive : s.state? id = some .live) :
    Run.EndsAlike Alike ((engine bound).destroyTree id true s)
      ((engine bound).destroyTree id true s') := by
  obtain ⟨order, horder⟩ :=
    Option.ne_none_iff_exists'.mp (hr.forest.arboreal.branching.attachmentTree_ne_none id)
  have htree := tree_of_attachmentTree horder
  unfold Engine.destroyTree
  rw [Run.search_bind, Run.search_bind, hs.attachmentTree_eq hr.forest hr'.forest, horder]
  simp only [Option.map_some]
  rw [Run.modify_bind, Run.modify_bind]
  have hmarked : Poised order (s.markPending order) (s'.markPending order) := by
    have hintact : ∀ x ∈ order, s.Intact x := fun x hx =>
      intact_of_state (htree.live x hx) (by decide)
    refine ⟨hs.markPending hintact, hr.scripted.mark, fun x hx => ?_⟩
    have hstate : (s.markPending order).state? x = some .pendingDestroy := by
      rw [htree.state?_mark, if_pos hx]
    exact intact_of_state hstate (by decide)
  refine ((mirrors_runHooks true).holds hmarked).bind Poised.alike fun _ _ _ h => .done ?_
  exact (h.alike.unlinkFromHost (h.intact id (htree.rooted hlive))).releaseAll order

theorem requestDestroy (id : InstanceId) (caller : Principal) :
    Run.EndsAlike Alike (Space.requestDestroy bound id caller s)
      (Space.requestDestroy bound id caller s') := by
  unfold Space.requestDestroy
  cases hcheck : s.checkDestroy id caller with
  | ok _ =>
    rw [Engine.requestDestroy_of_granted hcheck,
      Engine.requestDestroy_of_granted (hs.checkDestroy hcheck)]
    exact hs.destroyTree hr hr' (checkDestroy_eq_ok hcheck)
  | error e =>
    cases hcheck' : s'.checkDestroy id caller with
    | ok _ =>
      rw [hs.symm.checkDestroy hcheck'] at hcheck
      cases hcheck
    | error e' =>
      rw [Engine.requestDestroy_of_refused hcheck, Engine.requestDestroy_of_refused hcheck']
      exact .failed hs

theorem perform {request : Request} (hbarren : request.Barren) :
    Run.EndsAlike Alike (perform bound request s) (perform bound request s') := by
  cases request with
  | instantiate definition owner => exact hbarren.elim
  | instantiatePrivileged definition owner caller => exact hbarren.elim
  | loadPrototype definition caller => exact hbarren.elim
  | invoke id method args caller => exact (hs.invoke hr hr' id method args caller).dropped
  | setField id field v caller =>
    refine .change (fun s => s.setField id field v caller) hs hs.setField fun hok' => ?_
    obtain ⟨s₁, hok, -⟩ := hs.symm.setField hok'
    exact ⟨s₁, hok⟩
  | attach h a caller =>
    have hends : ∀ {s : Space}, AtRest s → s.attach h a caller ≠ none := by
      intro s hr
      obtain ⟨r, hattach, -⟩ := hr.forest.arboreal.exists_attach h a caller
      simp [hattach]
    refine .changeWithin (fun s => s.attach h a caller) hs (hends hr) (hends hr')
      (hs.attach hr.forest hr'.forest) fun hok' => ?_
    obtain ⟨s₁, hok, -⟩ := hs.symm.attach hr'.forest hr.forest hok'
    exact ⟨s₁, hok⟩
  | detach h a caller =>
    refine .change (fun s => s.detach h a caller) hs hs.detach fun hok' => ?_
    obtain ⟨s₁, hok, -⟩ := hs.symm.detach hok'
    exact ⟨s₁, hok⟩
  | destroy id caller => exact hs.requestDestroy hr hr' id caller
  | registry operation =>
    refine .done (hs.registry hr.scripted.registry.coherent hr'.scripted.registry.coherent ?_)
    rintro d rfl
    exact hbarren

end Alike

end Serving

end Space

end Mudlib
