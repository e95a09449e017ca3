import Mudlib.Proofs.Space.Stepwise
import Mudlib.Proofs.Space.Tidiness
/-!
Creation while bodies interfere with it.

A creation attaches each auxiliary without looking at it or at the host again, after the bodies of
the auxiliary have run. Whatever code those bodies are made of, the links stay tidy as long as what
each attachment finds fits; one that does not fit leaves them unsound at once.
-/
set_option autoImplicit false

namespace Mudlib

namespace Space

def Steady (s s' : Space) : Prop :=
  ∃ events, s'.journal = events ++ s.journal ∧
    ((∀ e ∈ events, e.Fits) → Tidy s → Tidy s' ∧ Later s s')

variable {s s' s'' : Space}

theorem Steady.refl (s : Space) : Steady s s := ⟨[], rfl, fun _ ht => ⟨ht, .refl s⟩⟩

theorem Steady.trans (h : Steady s s') (h' : Steady s' s'') : Steady s s'' := by
  obtain ⟨events, hj, hfit⟩ := h
  obtain ⟨more, hj', hfit'⟩ := h'
  refine ⟨more ++ events, by rw [hj', hj, List.append_assoc], ?_⟩
  intro hall ht
  obtain ⟨ht, hl⟩ := hfit (fun e he => hall e (List.mem_append_right _ he)) ht
  obtain ⟨ht, hl'⟩ := hfit' (fun e he => hall e (List.mem_append_left _ he)) ht
  exact ⟨ht, hl.trans hl'⟩

theorem steady_of_journal (hj : s'.journal = s.journal)
    (h : Tidy s → Tidy s' ∧ Later s s') : Steady s s' :=
  ⟨[], hj, fun _ => h⟩

theorem steady_of_sameLinks (hj : s'.journal = s.journal) (hs : SameLinks s s') : Steady s s' :=
  steady_of_journal hj fun ht => ⟨hs.tidy ht, hs.later⟩

theorem steady_record (s : Space) {e : Event} : Steady s (s.record e) := by
  have hs : SameLinks s (s.record e) := sameLinks_of_population rfl
  exact ⟨[e], rfl, fun _ ht => ⟨hs.tidy ht, hs.later⟩⟩

theorem steady_of_population (hj : s'.journal = s.journal) (hp : s'.population = s.population) :
    Steady s s' :=
  steady_of_sameLinks hj (sameLinks_of_population hp)

theorem steady_assign {id : InstanceId} {field : String} {v : Value}
    (h : s.assign id field v = .ok s') : Steady s s' := by
  obtain ⟨i, -, -, rfl⟩ := assign_eq_ok h
  refine steady_of_sameLinks rfl ⟨fun x => ?_, fun x => ?_, fun x => ?_⟩
  · exact map_instance?_update s _ Instance.state fun _ => rfl
  · exact host?_update s _ fun _ => rfl
  · exact attached_update s _ fun _ => rfl

theorem steady_attach {h a : InstanceId} {caller : Principal}
    (hs : s.attach h a caller = some (.ok s')) : Steady s s' := by
  obtain ⟨hh, ha, -, hn, -, rfl⟩ := attach_eq_some hs
  exact steady_of_journal rfl fun ht => ht.link ⟨hn, .inl ⟨hh, ha⟩⟩

theorem steady_detach {h a : InstanceId} {caller : Principal}
    (hs : s.detach h a caller = .ok s') : Steady s s' := by
  obtain ⟨hh, ha, rfl⟩ := detach_eq_ok hs
  refine steady_of_journal rfl fun ht => ⟨ht.unlink (ht.listed ha), later_unlink ?_⟩
  rw [hh]
  simp

theorem steady_allocate (s : Space) (t : Table) (owner : Principal) (privileged : Bool) :
    Steady s (s.allocate t owner privileged) := by
  have hnew : s.state? s.population.nextId = none := state?_eq_none_iff.mpr instance?_nextId
  have hstate : ∀ {x}, s.state? x ≠ none →
      (s.allocate t owner privileged).state? x = s.state? x := by
    intro x hx
    rw [state?_allocate, if_neg]
    intro heq
    exact hx (heq ▸ hnew)
  refine steady_of_journal rfl fun ht => ⟨?_, ?_⟩
  · constructor
    · intro a h ha
      rw [host?_allocate]
      rw [attached_allocate] at ha
      exact ht.listed ha
    · intro h
      rw [attached_allocate]
      exact ht.once h
    · intro a h hh
      rw [host?_allocate] at hh
      rw [attached_allocate]
      rcases ht.hosted hh with ha | ⟨hap, hhd⟩
      · exact .inl ha
      · rw [hstate (by rw [hap]; simp), hstate (by rw [hhd]; simp)]
        exact .inr ⟨hap, hhd⟩
    · intro a h hh
      rw [host?_allocate] at hh
      have hstates := ht.states hh
      rw [hstate hstates.exist.1, hstate hstates.exist.2]
      exact hstates
  · constructor
    · intro x
      by_cases hx : x = s.population.nextId
      · subst hx
        rw [state?_allocate, if_pos rfl, hnew]
        simp
      · rw [state?_allocate, if_neg hx]
    · intro x hx
      rw [hstate (by rw [hx]; simp), hx]
    · intro a h _ hh
      rwa [host?_allocate] at hh
    · intro a h _ _ hh
      rwa [host?_allocate]

/-- An auxiliary is attached: the links stay tidy if what the journal says of it fits. -/
theorem steady_join (s : Space) (h a : InstanceId) : Steady s (s.join h a) := by
  refine ⟨[_], rfl, ?_⟩
  intro hall ht
  have hfits := hall _ (List.mem_singleton.mpr rfl)
  have hs : SameLinks s (s.record (.joined h a (s.state? h) (s.state? a) (s.host? a))) :=
    sameLinks_of_population rfl
  obtain ⟨ht', hl⟩ := (hs.tidy ht).link (h := h) (a := a) hfits
  exact ⟨ht', hs.later.trans hl⟩

end Space

namespace Engine

open Space

structure Steady (engine : Engine) : Prop where
  call : ∀ id m args caller, Run.Keeps Space.Steady (engine.call id m args caller)
  create : ∀ definition owner privileged allowPrototype,
    Run.Keeps Space.Steady (engine.create definition owner privileged allowPrototype)

end Engine

namespace Space

theorem steady_torn {s s₁ : Space} {root : InstanceId} {order : List InstanceId}
    (horder : s.attachmentTree root = some order) (hroot : s.state? root ≠ some .pendingDestroy)
    (h : Steady (s.markPending order) s₁) : Steady s (s₁.tear root order) := by
  have htree := tree_of_attachmentTree horder
  obtain ⟨events, hj, hfit⟩ := h
  refine ⟨events, ?_, ?_⟩
  · rw [journal_tear, hj, markPending, journal_foldl_update]
  · intro hall ht
    obtain ⟨ht₁, hl⟩ := hfit hall (ht.mark htree)
    exact ⟨ht.torn htree hl ht₁, hl.torn htree hroot⟩

theorem stepwise_steady : Stepwise fun _ => Steady where
  refl := fun _ => Steady.refl
  trans := fun h _ h' => h.trans h'
  wider := id
  resolved := fun _ _ => steady_of_population rfl rfl
  chained := fun _ _ => steady_of_population rfl rfl
  logged := fun s _ => steady_record s
  entered := fun s _ _ _ => steady_record s
  hooked := fun _ s => steady_record s
  assigned := steady_assign
  attached := steady_attach
  detached := steady_detach
  allocated := steady_allocate
  joined := fun _ h _ => h.trans (steady_join _ _ _)
  torn := fun horder hroot h _ => steady_torn horder hroot h

theorem steady_engine [Natives] (bound : Nat) : (engine bound).Steady where
  call := fun id m args caller =>
    ⟨fun h => (((stepwise_steady.engine bound).call id m args caller).holds h).1⟩
  create := fun definition owner privileged allowPrototype =>
    ⟨fun h => (((stepwise_steady.engine bound).create definition owner privileged
      allowPrototype).holds h).1⟩

variable {s : Space} {h a : InstanceId}

def Settled (state : Option LifecycleState) : Prop := state = some .live ∨ state = some .destroyed

theorem fits_of_sound_link (ht : Tidy s) (hh : Settled (s.state? h)) (ha : Settled (s.state? a))
    (hs : Sound (s.linkAttachment h a)) :
    (Event.joined h a (s.state? h) (s.state? a) (s.host? a)).Fits := by
  have hhe : s.state? h ≠ none := by rcases hh with hh | hh <;> simp [hh]
  have hae : s.state? a ≠ none := by rcases ha with ha | ha <;> simp [ha]
  have hlisted : a ∈ (s.linkAttachment h a).attached h := by simp [attached_linkAttachment hhe]
  constructor
  · cases hformer : s.host? a with
    | none => rfl
    | some former =>
      have hmem : a ∈ s.attached former := by
        rcases ht.hosted hformer with hmem | ⟨hp, -⟩
        · exact hmem
        · rcases ha with ha | ha <;> simp [ha] at hp
      have hkept : a ∈ (s.linkAttachment h a).attached former := by
        rw [attached_linkAttachment hhe]
        split
        · simp
        · exact hmem
      have hsame : former = h := hs.exclusive hkept hlisted
      have honce := hs.once h
      rw [attached_linkAttachment hhe, if_pos rfl, List.nodup_append] at honce
      exact absurd rfl (honce.2.2 a (hsame ▸ hmem) a (by simp))
  · have hhost : (s.linkAttachment h a).host? a = some h := by
      rw [host?_linkAttachment hae, if_pos rfl]
    rcases hh with hh | hh <;> rcases ha with ha | ha
    · exact .inl ⟨hh, ha⟩
    · have hbad := hs.attachment hlisted
      rw [state?_linkAttachment, state?_linkAttachment, hh, ha] at hbad
      exact absurd rfl (hbad (by simp))
    · have hbad := hs.host hhost
      rw [state?_linkAttachment, state?_linkAttachment, hh, ha] at hbad
      exact absurd rfl (hbad (by simp))
    · exact .inr ⟨hh, ha⟩

theorem sound_link_of_fits (ht : Tidy s) (hs : Sound s)
    (hf : (Event.joined h a (s.state? h) (s.state? a) (s.host? a)).Fits) :
    Sound (s.linkAttachment h a) := by
  obtain ⟨-, hae, -⟩ := states_of_fits hf
  obtain ⟨ht', -⟩ := ht.link hf
  have hlinkable := linkable_of_fits hf
  constructor
  · intro b x hx hb hd
    rw [state?_linkAttachment] at hb hd
    rw [host?_linkAttachment hae] at hx
    split at hx
    next hba =>
      subst hba
      cases hx
      obtain ⟨-, ⟨hh, -⟩ | ⟨-, ha⟩⟩ := hf
      · rw [hh] at hd
        cases hd
      · exact hb ha
    next => exact hs.host hx hb hd
  · intro b x hb hx hd
    have hstates := ht'.states (ht'.listed hb)
    rw [hd] at hstates
    exact hx hstates.of_destroyed
  · exact ht'.once
  · intro b x x' hb hb'
    exact Option.some.inj ((ht'.listed hb).symm.trans (ht'.listed hb'))

/-- Whatever code the bodies are made of, an instantiation whose attachments all fit leaves the links
sound, however it ends; and an attachment that does not fit makes sound links unsound. -/
theorem links_sound_when_joins_fit [Natives] :
    (∀ bound definition owner (s : Space) out s', Consistent s →
      instantiate bound definition owner s = some (out, s') →
      ∃ events, s'.journal = events ++ s.journal ∧ ((∀ e ∈ events, e.Fits) → Sound s')) ∧
    ∀ (s : Space) h a, Tidy s → Sound s → Settled (s.state? h) → Settled (s.state? a) →
      (Sound (s.linkAttachment h a) ↔
        (Event.joined h a (s.state? h) (s.state? a) (s.host? a)).Fits) := by
  constructor
  · intro bound definition owner s out s' hc hrun
    have hsteady := ((steady_engine bound).create definition owner false false).holds hrun
    obtain ⟨events, hj, hfit⟩ := hsteady
    refine ⟨events, hj, fun hall => ?_⟩
    obtain ⟨ht, hl⟩ := hfit hall hc.tidy
    exact ht.sound hc hl
  · intro s h a ht hs hh ha
    exact ⟨fits_of_sound_link ht hh ha, sound_link_of_fits ht hs⟩

section Adoption

def adopter : Definition :=
  { Definition.empty ⟨"/h", by decide⟩ with
    methods := Dict.empty.insert "adopt"
      ⟨.native [.mk (.literal .null) (.literal .null) none (.command (.attach (.arg 0)))], []⟩
    auxiliaries := [⟨"/a", by decide⟩] }

def eager : Definition :=
  { Definition.empty ⟨"/a", by decide⟩ with
    methods := Dict.empty.insert "create" ⟨.native [.mk (.literal .null) (.list [.this]) none
      (.command (.invoke (.literal (.int 1)) "adopt"))], []⟩ }

def nursery : Space :=
  ⟨((Registry.empty .firstContributor 32 none).register adopter).register eager, .empty, .empty,
    "create", none, none, [], []⟩

/-- An auxiliary that has itself attached while it is created is attached a second time. -/
theorem adopted_early_attached_twice :
    Consistent nursery ∧ ∃ s', instantiate 6 adopter.id .system nursery = some (.ok ⟨1⟩, s') ∧
      s'.attached ⟨1⟩ = [⟨2⟩, ⟨2⟩] ∧ ¬ Sound s' := by
  have hempty : ∀ id, nursery.instance? id = none := by
    intro id
    cases h : nursery.instance? id with
    | none => rfl
    | some i =>
      have hsome := (Population.get?_isSome_iff nursery.population id).mp (by
        rw [show nursery.population.get? id = some i from h]
        rfl)
      have hsize : nursery.population.size = 0 := rfl
      omega
  constructor
  · constructor
    · intro a h
      simp [host?, attached, hempty]
    · intro h
      simp [attached, hempty]
    · intro a h hh
      simp [host?, hempty] at hh
  · have hrun : (instantiate 6 adopter.id .system nursery).map
        (fun r => (r.1.toOption, r.2.attached ⟨1⟩)) = some (some ⟨1⟩, [⟨2⟩, ⟨2⟩]) := by
      decide +kernel
    obtain ⟨⟨out, s'⟩, hs, heq⟩ := Option.map_eq_some_iff.mp hrun
    obtain ⟨hout, hattached⟩ := Prod.mk.inj heq
    cases out with
    | error e => cases hout
    | ok id =>
      cases hout
      refine ⟨s', hs, hattached, ?_⟩
      intro hsound
      have honce := hsound.once ⟨1⟩
      rw [show s'.attached ⟨1⟩ = [⟨2⟩, ⟨2⟩] from hattached] at honce
      simp at honce

end Adoption

end Space

end Mudlib
