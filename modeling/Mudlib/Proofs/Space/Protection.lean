import Mudlib.Proofs.Space.AttachmentForest
import Mudlib.Proofs.Space.Lifecycle
import Mudlib.Proofs.Space.PostOrder
set_option autoImplicit false

namespace Mudlib.Space

def OwnedBy (s : Space) (account : String) (x : InstanceId) : Prop :=
  ∃ k level, s.identity? x = some k ∧ k.owner = .account account level

/-- Neither the instance nor what it hangs on, directly or through others, is owned by the account. -/
structure Protected (s : Space) (account : String) (x : InstanceId) : Prop where
  exist : s.instance? x ≠ none
  foreign : ∀ h, Relation.ReflTransGen s.HostedBy x h → ¬ s.OwnedBy account h

/-- State and host are as before, and of the attachments at most some of the account's are gone. -/
structure Spared (account : String) (s s' : Space) (x : InstanceId) : Prop where
  state : s'.state? x = s.state? x
  host : s'.host? x = s.host? x
  attached : (s'.attached x).Sublist (s.attached x)
  gone : ∀ a ∈ s.attached x, a ∉ s'.attached x → s.OwnedBy account a

structure Harmless (account : String) (s s' : Space) : Prop where
  elapsed : Elapsed s s'
  spared : ∀ x, s.Protected account x → Spared account s s' x

def Request.MadeBy (principal : Principal) : Request → Prop
  | .instantiate _ owner => owner = principal
  | .instantiatePrivileged _ _ caller => caller = principal
  | .loadPrototype _ caller => caller = principal
  | .invoke _ _ _ caller => caller = principal
  | .setField _ _ _ caller => caller = principal
  | .attach _ _ caller => caller = principal
  | .detach _ _ caller => caller = principal
  | .destroy _ caller => caller = principal
  | .registry _ => False

variable {s s' s'' s₀ s₁ : Space} {account : String} {level : AccessLevel}
variable {x a h root : InstanceId} {order : List InstanceId} {which : InstanceId → Prop}

theorem spared_of_same (hs : s'.state? x = s.state? x) (hh : s'.host? x = s.host? x)
    (ha : s'.attached x = s.attached x) : Spared account s s' x :=
  ⟨hs, hh, ha ▸ List.Sublist.refl _, fun _ hmem hgone => absurd (ha ▸ hmem) hgone⟩

theorem Spared.trans (h : Spared account s s' x) (h' : Spared account s' s'' x)
    (howned : ∀ a ∈ s.attached x, s'.OwnedBy account a → s.OwnedBy account a) :
    Spared account s s'' x where
  state := h'.state.trans h.state
  host := h'.host.trans h.host
  attached := h'.attached.trans h.attached
  gone := by
    intro a hmem hgone
    by_cases hmiddle : a ∈ s'.attached x
    · exact howned a hmem (h'.gone a hmiddle hgone)
    · exact h.gone a hmem hmiddle

theorem Elapsed.ownedBy_iff (h : Elapsed s s') (hx : s.instance? x ≠ none) :
    s'.OwnedBy account x ↔ s.OwnedBy account x := by
  rw [ne_eq, ← identity?_eq_none_iff] at hx
  obtain ⟨k, hk⟩ := Option.ne_none_iff_exists'.mp hx
  rw [OwnedBy, OwnedBy, hk, h.identity hk]

namespace Protected

theorem not_owned (h : s.Protected account x) : ¬ s.OwnedBy account x := h.foreign x .refl

theorem ne_of_owned (h : s.Protected account x) (ha : s.OwnedBy account a) : x ≠ a :=
  fun heq => h.not_owned (heq ▸ ha)

theorem host (hx : s.Protected account x) (hf : Forest s) (hh : s.host? x = some h) :
    s.Protected account h where
  exist := by
    rw [ne_eq, ← state?_eq_none_iff, (hf.live hh).2]
    simp
  foreign := fun above habove => hx.foreign above (habove.head hh)

theorem harmless (hx : s.Protected account x) (hf : Forest s) (h : Harmless account s s') :
    s'.Protected account x := by
  refine ⟨h.elapsed.exists hx.exist, fun above habove => ?_⟩
  -- all on the way up are protected, and so have the hosts that they had
  have hup : s.Protected account above := by
    induction habove with
    | refl => exact hx
    | tail _ hh ih => exact ih.host hf ((h.spared _ ih).host.symm.trans hh)
  exact fun ho => hup.not_owned ((h.elapsed.ownedBy_iff hup.exist).mp ho)

end Protected

theorem Harmless.refl (account : String) (s : Space) : Harmless account s s :=
  ⟨elapsed_order.refl s, fun _ _ => spared_of_same rfl rfl rfl⟩

theorem Harmless.trans (hf : Forest s) (h : Harmless account s s')
    (h' : Harmless account s' s'') : Harmless account s s'' where
  elapsed := elapsed_order.trans h.elapsed h'.elapsed
  spared := by
    intro x hx
    refine (h.spared x hx).trans (h'.spared x (hx.harmless hf h)) fun a hmem => ?_
    refine (h.elapsed.ownedBy_iff ?_).mp
    rw [ne_eq, ← state?_eq_none_iff, (hf.live (hf.paired.mpr hmem)).1]
    simp

section Requests

theorem ownedBy_of_authorize {deed : Deed} {i : Instance} (hlevel : level.isPrivileged = false)
    (hi : s.instance? x = some i)
    (h : s.authorize (.account account level) deed x i.owner = .ok ()) : s.OwnedBy account x := by
  obtain ⟨level', howner⟩ := owner_of_authorize hlevel h
  exact ⟨i.identity, level', identity?_of_instance? hi, howner⟩

theorem spared_of_kept (hk : Kept s s') (hx : s.Protected account x) : Spared account s s' x := by
  have hsame := hk x hx.exist
  refine spared_of_same ?_ ?_ ?_
  · rw [state?, hsame, state?]
  · rw [host?, hsame, host?]
  · rw [Space.attached, hsame, Space.attached]

theorem spared_of_touched (ht : Touched which s s') (x : InstanceId) : Spared account s s' x :=
  spared_of_same (ht.sameLinks.state x) (ht.sameLinks.host x) (ht.sameLinks.attached x)

theorem spared_of_attach (hlevel : level.isPrivileged = false)
    (hs : s.attach h a (.account account level) = some (.ok s')) (hx : s.Protected account x) :
    Spared account s s' x := by
  obtain ⟨i, j, hi, hj, hhost, hauxiliary, -⟩ := checkAttach_eq_ok_iff.mp (checkAttach_of_attach hs)
  obtain ⟨hlive, -, -, -, -, rfl⟩ := attach_eq_some hs
  have hxh := hx.ne_of_owned (ownedBy_of_authorize hlevel (live_eq_ok.mp hi).1 hhost)
  have hxa := hx.ne_of_owned (ownedBy_of_authorize hlevel (live_eq_ok.mp hj).1 hauxiliary)
  refine spared_of_same state?_linkAttachment (host?_linkAttachment_of_ne hxa) ?_
  rw [attached_linkAttachment (by simp [hlive]), if_neg hxh]

theorem spared_of_detach (hlevel : level.isPrivileged = false)
    (hs : s.detach h a (.account account level) = .ok s') (hx : s.Protected account x) :
    Spared account s s' x := by
  obtain ⟨i, j, hi, -, hj, hhost, hauxiliary, rfl⟩ := detach_eq_ok_iff.mp hs
  have hxh := hx.ne_of_owned (ownedBy_of_authorize hlevel (live_eq_ok.mp hi).1 hhost)
  have hxa := hx.ne_of_owned (ownedBy_of_authorize hlevel (invokable_eq_ok.mp hj).1 hauxiliary)
  refine spared_of_same state?_unlinkAttachment ?_ ?_
  · rw [host?_unlinkAttachment, if_neg fun hc => hxa hc.1]
  · rw [attached_unlinkAttachment, if_neg hxh]

/-- A destruction takes nothing along but what hangs on its root, and unlinks nothing but that. -/
theorem spared_of_tear (hf : Forest s) (htree : Tree s root order)
    (ht : Touched which (s.markPending order) s₁) (hroot : s.OwnedBy account root)
    (hx : s.Protected account x) :
    Spared account s ((s₁.unlinkFromHost root).releaseAll order) x := by
  have hout : x ∉ order := by
    intro hmem
    exact hx.foreign root (hf.arboreal.reaches_iff.mp (htree.reached x hmem)) hroot
  have hattached : ((s₁.unlinkFromHost root).releaseAll order).attached x =
      if s.host? root = some x then (s.attached x).filter (· ≠ root) else s.attached x := by
    rw [attached_torn ht.sameLinks, if_neg hout]
  refine ⟨state?_torn ht.sameLinks hout, ?_, ?_, ?_⟩
  · rw [host?_torn ht.sameLinks, if_neg]
    exact fun hc => hc.elim hout (hx.ne_of_owned hroot)
  · rw [hattached]
    split
    · exact List.filter_sublist
    · exact List.Sublist.refl _
  · intro a hmem hgone
    rw [hattached] at hgone
    split at hgone
    · have heq : a = root := by simpa [hmem] using hgone
      exact heq ▸ hroot
    · exact absurd hmem hgone

variable {bound : Nat} {request : Request} {out : Except RuntimeError Unit}

theorem Request.MadeBy.scripted {principal : Principal} (h : request.MadeBy principal) :
    request.Scripted := by
  cases request with
  | registry operation => exact h.elim
  | _ => trivial

variable [Natives]

theorem spared_of_perform (hlevel : level.isPrivileged = false) (hrest : AtRest s)
    (hmade : request.MadeBy (.account account level))
    (hs : perform bound request s = some (out, s')) (hx : s.Protected account x) :
    Spared account s s' x := by
  have hrefused : s.isPrivileged (.account account level) ≠ true := Bool.eq_false_iff.mp hlevel
  have hsame : Spared account s s x := spared_of_same rfl rfl rfl
  cases request with
  | instantiate definition owner =>
    obtain ⟨result, hs⟩ := Run.exists_of_dropped hs
    exact spared_of_kept (creates_engine bound hrest.forest hrest.scripted hs).kept hx
  | instantiatePrivileged definition owner caller =>
    cases hmade
    obtain ⟨result, hs⟩ := Run.exists_of_dropped hs
    rcases instantiatePrivileged_eq_some hs with rfl | ⟨hcaller, -⟩
    · exact hsame
    · exact absurd hcaller hrefused
  | loadPrototype definition caller =>
    cases hmade
    obtain ⟨result, hs⟩ := Run.exists_of_dropped hs
    rcases loadPrototype_eq_some hs with ⟨-, rfl, -⟩ | ⟨hcaller, -⟩
    · exact hsame
    · exact absurd hcaller hrefused
  | invoke id method args caller =>
    obtain ⟨result, hs⟩ := Run.exists_of_dropped hs
    obtain ⟨which, ht⟩ := hrest.touched_invoke hs
    exact spared_of_touched ht x
  | setField id field v caller =>
    have hchange : Run.change (fun s => s.setField id field v caller) s = some (out, s') := hs
    rcases Run.change_eq_some hchange with rfl | hok
    · exact hsame
    · exact spared_of_touched (touched_assign (setField_eq_ok hok)) x
  | attach host auxiliary caller =>
    cases hmade
    have hchange : Run.changeWithin (fun s => s.attach host auxiliary (.account account level)) s =
        some (out, s') := hs
    rcases Run.changeWithin_eq_some hchange with rfl | hok
    · exact hsame
    · exact spared_of_attach hlevel hok hx
  | detach host auxiliary caller =>
    cases hmade
    have hchange : Run.change (fun s => s.detach host auxiliary (.account account level)) s =
        some (out, s') := hs
    rcases Run.change_eq_some hchange with rfl | hok
    · exact hsame
    · exact spared_of_detach hlevel hok hx
  | destroy id caller =>
    cases hmade
    rcases Engine.requestDestroy_eq_some hs with
      ⟨-, rfl⟩ | ⟨-, hcheck, order, s₁, horder, hhooks, rfl⟩
    · exact hsame
    · obtain ⟨i, hi, -, hauthorized, -⟩ := checkDestroy_eq_ok_iff.mp hcheck
      exact spared_of_tear hrest.forest (tree_of_attachmentTree horder)
        (Engine.touched_runHooks hrest.scripted.mark hhooks)
        (ownedBy_of_authorize hlevel hi hauthorized) hx
  | registry operation => exact hmade.elim

theorem harmless_of_served {requests : List Request} (hlevel : level.isPrivileged = false)
    (hrest : AtRest s) (hmade : ∀ request ∈ requests, request.MadeBy (.account account level))
    (hs : Served s requests s') : Harmless account s s' := by
  induction hs with
  | nil s => exact .refl account s
  | @cons s s₁ s' bound request requests out hone hrequests ih =>
    have hfirst := hmade _ List.mem_cons_self
    have hharmless : Harmless account s s₁ := by
      refine ⟨?_, fun x hx => spared_of_perform hlevel hrest hfirst hone hx⟩
      exact elapsed_of_steps (steps_of_served (.cons hone (.nil _)))
    refine hharmless.trans hrest.forest ?_
    exact ih (hrest.perform hfirst.scripted hone) fun request hmem =>
      hmade request (List.mem_cons_of_mem _ hmem)

end Requests

variable {policy : AmbiguityPolicy} {maxDepth : Nat} {loader : Option Loader} {config : Config}

/-- Whatever an account below wizard asks for, in a space without native code that was brought about
in whatever way: an instance that was there, and of which neither it nor anything it hangs on belongs
to the account, keeps its state and its host, and the order of its attachments; those that it loses
belong to the account. -/
theorem accounts_touch_only_their_own [Natives] {history requests : List Request}
    (hloader : ∀ load id d, loader = some load → load id = .ok (some d) → d.Scripted)
    (hstart : ofConfig? (.empty policy maxDepth loader) config = .ok s₀)
    (hhistory : ∀ request ∈ history, request.Scripted) (hreached : Served s₀ history s)
    (hlevel : level.rank < AccessLevel.wizard.rank)
    (hmade : ∀ request ∈ requests, request.MadeBy (.account account level))
    (hserved : Served s requests s') (hexists : s.instance? x ≠ none)
    (hforeign : ∀ h, Relation.ReflTransGen s.HostedBy x h → ¬ s.OwnedBy account h) :
    s'.state? x = s.state? x ∧ s'.host? x = s.host? x ∧
      (s'.attached x).Sublist (s.attached x) ∧
      ∀ a ∈ s.attached x, a ∉ s'.attached x → s.OwnedBy account a := by
  have hrest := (atRest_of_ofConfig? hloader hstart).served hreached hhistory
  have hunprivileged : level.isPrivileged = false := by
    rw [AccessLevel.isPrivileged, decide_eq_false_iff_not]
    exact Nat.not_le.mpr hlevel
  have hspared :=
    (harmless_of_served hunprivileged hrest hmade hserved).spared x ⟨hexists, hforeign⟩
  exact ⟨hspared.state, hspared.host, hspared.attached, hspared.gone⟩

section Shelf

def bob : Principal := .account "bob" .builder

def stocking : List Request :=
  [.registry (.register bulb), .instantiate bulb.id .system,
    .instantiate bulb.id bob, .instantiate bulb.id .system,
    .attach ⟨1⟩ ⟨2⟩ .system, .attach ⟨1⟩ ⟨3⟩ .system]

def pilfering : List Request :=
  [.destroy ⟨1⟩ bob, .detach ⟨1⟩ ⟨3⟩ bob, .destroy ⟨2⟩ bob, .instantiate bulb.id bob,
    .attach ⟨1⟩ ⟨4⟩ bob, .instantiatePrivileged bulb.id bob bob]

theorem stocking_scripted : ∀ request ∈ stocking, request.Scripted := by
  intro request hmem
  simp only [stocking, List.mem_cons, List.not_mem_nil, or_false] at hmem
  rcases hmem with rfl | rfl | rfl | rfl | rfl | rfl
  · intro name decl hdecl
    cases hdecl
  all_goals trivial

theorem pilfering_made : ∀ request ∈ pilfering, request.MadeBy (.account "bob" .builder) := by
  intro request hmem
  simp only [pilfering, List.mem_cons, List.not_mem_nil, or_false] at hmem
  rcases hmem with rfl | rfl | rfl | rfl | rfl | rfl
  all_goals rfl

theorem shelf_spared : ∃ s₀ s s', ofConfig? (.empty .firstContributor 8 none) .standard = .ok s₀ ∧
    Served s₀ stocking s ∧ Served s pilfering s' ∧ s.attached ⟨1⟩ = [⟨2⟩, ⟨3⟩] ∧
    s'.attached ⟨1⟩ = [⟨3⟩] ∧ s'.state? ⟨1⟩ = s.state? ⟨1⟩ ∧ s'.host? ⟨1⟩ = s.host? ⟨1⟩ ∧
    (s'.attached ⟨1⟩).Sublist (s.attached ⟨1⟩) ∧ s.OwnedBy "bob" ⟨2⟩ := by
  have hrun : (ofConfig? (.empty .firstContributor 8 none) .standard).toOption.bind
      (fun s₀ => (serve 6 stocking s₀).bind fun s => (serve 6 pilfering s).map fun s' =>
        ((s.instance? ⟨1⟩).map Instance.owner, s.host? ⟨1⟩, s.attached ⟨1⟩, s'.attached ⟨1⟩)) =
          some (some .system, none, [⟨2⟩, ⟨3⟩], [⟨3⟩]) := by
    decide +kernel
  obtain ⟨s₀, hstart, hrest⟩ := Option.bind_eq_some_iff.mp hrun
  obtain ⟨s, hserve, hrest⟩ := Option.bind_eq_some_iff.mp hrest
  obtain ⟨s', hserve', heq⟩ := Option.map_eq_some_iff.mp hrest
  simp only [Prod.mk.injEq] at heq
  obtain ⟨howner, hhost, hbefore, hafter⟩ := heq
  obtain ⟨i, hi, howner⟩ := Option.map_eq_some_iff.mp howner
  have hok := eq_ok_of_toOption hstart
  have hreached := served_of_serve hserve
  have hserved := served_of_serve hserve'
  have hloader : ∀ load id d, (none : Option Loader) = some load → load id = .ok (some d) →
      d.Scripted := by
    intro load id d hload
    cases hload
  have hforeign : ∀ h, Relation.ReflTransGen s.HostedBy ⟨1⟩ h → ¬ s.OwnedBy "bob" h := by
    intro h hpath
    rcases Relation.ReflTransGen.cases_head hpath with rfl | ⟨y, hy, -⟩
    · rintro ⟨k, level, hk, hbob⟩
      rw [identity?_of_instance? hi] at hk
      cases hk
      exact nomatch howner.symm.trans hbob
    · exact nomatch hhost.symm.trans hy
  obtain ⟨hstate, hhosts, hsublist, hgone⟩ := accounts_touch_only_their_own hloader hok
    stocking_scripted hreached (by decide) pilfering_made hserved (by simp [hi]) hforeign
  refine ⟨s₀, s, s', hok, hreached, hserved, hbefore, hafter, hstate, hhosts, hsublist, ?_⟩
  exact hgone ⟨2⟩ (by simp [hbefore]) (by simp [hafter])

end Shelf

end Mudlib.Space
