import Mudlib.Proofs.Space.Lifecycle
set_option autoImplicit false

namespace Mudlib

/-- Instances, and accounts below wizard. -/
def Principal.Lowly : Principal → Prop
  | .system => False
  | .account _ level => level.isPrivileged = false
  | .object _ => True

namespace Space

inductive Privileged (s : Space) : Principal → Prop where
  | system : Privileged s .system
  | account (id : String) {level : AccessLevel} : AccessLevel.wizard.rank ≤ level.rank →
      Privileged s (.account id level)
  | object {id : InstanceId} {i : Instance} : s.instance? id = some i → i.state ≠ .destroyed →
      i.privileged = true → Privileged s (.object id)

/-- Whoever asks for a privileged instance or for a template is lowly. -/
def Request.Lowly : Request → Prop
  | .instantiatePrivileged _ _ caller => caller.Lowly
  | .loadPrototype _ caller => caller.Lowly
  | _ => True

/-- The instance was made, being who it is, for one of the requests: one for a privileged instance,
by a caller that was privileged at that moment. -/
inductive Granted [Natives] (s₀ : Space) (requests : List Request) (s : Space) (x : InstanceId)
    (k : Identity) : Prop where
  | intro {before after : List Request} {definition : DefinitionId} {caller : Principal}
      {bound : Nat} {u u' : Space} {out : Except RuntimeError Unit} :
      requests = before ++ .instantiatePrivileged definition k.owner caller :: after →
      Served s₀ before u → Privileged u caller →
      perform bound (.instantiatePrivileged definition k.owner caller) u = some (out, u') →
      x = u.population.nextId → (u.registry.get definition).1 = .ok k.table →
      u'.identity? x = some k → Served u' after s → Granted s₀ requests s x k

def Plain (s : Space) : Prop := ∀ x k, s.identity? x = some k → k.Ordinary

variable {s s' s₀ u : Space} {x : InstanceId} {k : Identity} {caller owner : Principal}
variable {definition : DefinitionId}

theorem privileged_iff : s.isPrivileged caller = true ↔ Privileged s caller := by
  constructor
  · intro h
    cases caller with
    | system => exact .system
    | account id level => exact .account id (of_decide_eq_true h)
    | object id =>
      cases hi : s.instance? id with
      | none => simp [isPrivileged, hi] at h
      | some i =>
        simp only [isPrivileged, hi, Option.any_some, Bool.and_eq_true, Bool.not_eq_true',
          Instance.isDestroyed, decide_eq_false_iff_not] at h
        exact .object hi h.1 h.2
  · intro h
    cases h with
    | system => rfl
    | account id h => exact decide_eq_true h
    | object hi hd hp => simp [isPrivileged, hi, Instance.isDestroyed, hd, hp]

theorem Plain.not_privileged (h : Plain s) (hl : caller.Lowly) : s.isPrivileged caller = false := by
  rw [Bool.eq_false_iff, ne_eq, privileged_iff]
  intro hp
  cases hp with
  | system => exact hl
  | account id hrank =>
    have hlevel : _ = false := hl
    rw [AccessLevel.isPrivileged, decide_eq_false_iff_not] at hlevel
    exact hlevel hrank
  | object hi _ hp =>
    have hk := (h _ _ (identity?_of_instance? hi)).privileged
    exact Bool.false_ne_true (hk.symm.trans hp)

theorem Plain.recruits (h : Plain s) (hr : Recruits s s') : Plain s' := by
  intro x k hk
  rcases hr.origin hk with hold | ⟨-, ho⟩
  · exact h x k hold
  · exact ho

section Runs

variable [Natives] {requests : List Request}

theorem Plain.perform {bound : Nat} {request : Request} {out : Except RuntimeError Unit}
    (h : Plain s) (hl : request.Lowly) (hs : perform bound request s = some (out, s')) :
    Plain s' := by
  cases answered_of_perform hs with
  | course hcourse => exact h.recruits hcourse.recruits
  | privileged hcaller _ =>
    rw [h.not_privileged hl] at hcaller
    cases hcaller
  | template hloading =>
    obtain rfl := hloading.eq_of_unprivileged (h.not_privileged hl)
    exact h

theorem Plain.served (h : Plain s₀) (hl : ∀ request ∈ requests, request.Lowly)
    (hs : Served s₀ requests s) : Plain s := by
  induction hs with
  | nil s => exact h
  | cons hone _ ih =>
    have hfirst := h.perform (hl _ List.mem_cons_self) hone
    exact ih hfirst fun request hmem => hl request (List.mem_cons_of_mem _ hmem)

theorem granted_of_perform {bound : Nat} {request : Request} {out : Except RuntimeError Unit}
    (hs : perform bound request s = some (out, s')) (hx : s'.identity? x = some k)
    (hp : k.privileged = true) :
    s.identity? x = some k ∨ ∃ definition caller,
      request = .instantiatePrivileged definition k.owner caller ∧ Privileged s caller ∧
        x = s.population.nextId ∧ (s.registry.get definition).1 = .ok k.table := by
  have hordinary : ¬ k.Ordinary := fun ho => Bool.false_ne_true (ho.privileged.symm.trans hp)
  have hplain : ∀ {definition owner out s'}, Founding definition owner false true s out s' →
      s'.identity? x = some k → s.identity? x = some k := by
    intro definition owner out s' hf hx
    rcases hf.origin hx with hold | ⟨-, ho | ⟨-, -, hflag, -⟩⟩
    · exact hold
    · exact absurd ho hordinary
    · exact absurd (hflag.symm.trans hp) Bool.false_ne_true
  cases answered_of_perform hs with
  | course hcourse =>
    rcases hcourse.recruits.origin hx with hold | ⟨-, ho⟩
    · exact .inl hold
    · exact absurd ho hordinary
  | @privileged definition owner caller out s' hcaller hf =>
    rcases hf.origin hx with hold | ⟨-, ho | ⟨hnext, rfl, -, hget, -⟩⟩
    · exact .inl hold
    · exact absurd ho hordinary
    · exact .inr ⟨definition, caller, rfl, privileged_iff.mp hcaller, hnext, hget⟩
  | template hloading =>
    cases hloading with
    | refused e _ => exact .inl hx
    | found _ _ => exact .inl hx
    | failed _ _ hf => exact .inl (hplain hf hx)
    | filed _ _ hf => exact .inl (hplain hf hx)

theorem granted_of_served (hs : Served s₀ requests s) (hx : s.identity? x = some k)
    (hp : k.privileged = true) : s₀.identity? x = some k ∨ Granted s₀ requests s x k := by
  induction hs with
  | nil s => exact .inl hx
  | @cons s₀ s₁ s bound request requests out hone hrest ih =>
    rcases ih hx with hx₁ | hgranted
    · rcases granted_of_perform hone hx₁ hp with
        hold | ⟨definition, caller, rfl, hcaller, hnext, hget⟩
      · exact .inl hold
      · have hfirst : .instantiatePrivileged definition k.owner caller :: requests =
            [] ++ .instantiatePrivileged definition k.owner caller :: requests := rfl
        exact .inr (.intro hfirst (.nil s₀) hcaller hone hnext hget hx₁ hrest)
    · obtain ⟨rfl, hbefore, hcaller, hmade, hnext, hget, hk, hafter⟩ := hgranted
      exact .inr (.intro rfl (.cons hone hbefore) hcaller hmade hnext hget hk hafter)

/-- Whatever is asked of a new space, whatever bodies run: every instance that has the privilege flag
was made for a request by a caller that was privileged at that moment, and if none such asks then no
instance is ever privileged or a template. Neither methods, whoever calls them, nor auxiliaries nor
spawned instances bring privilege in: all that they make is ordinary, and what a creation makes
besides its own instance is so too. -/
theorem privilege_is_granted {r : Registry} {config : Config}
    (hstart : ofConfig? r config = .ok s₀) (hserved : Served s₀ requests s) :
    (∀ u, Steps u s → ∀ x k, u.identity? x = some k → k.privileged = true →
      Granted s₀ requests s x k) ∧
    ((∀ request ∈ requests, request.Lowly) →
      ∀ u, Steps u s → ∀ x k, u.identity? x = some k → k.Ordinary) ∧
    (∀ {bound id m args caller u out u'}, (engine bound).call id m args caller u = some (out, u') →
      Recruits u u') ∧
    (∀ {bound id auxiliary u out u'}, (engine bound).addAuxiliary id auxiliary u = some (out, u') →
      Recruits u u') ∧
    (∀ {bound path owner u out u'}, (engine bound).createPath path owner u = some (out, u') →
      Recruits u u') ∧
    ∀ {bound definition owner privileged allowPrototype u out u'},
      (engine bound).create definition owner privileged allowPrototype u = some (out, u') →
      ∀ x k, u'.identity? x = some k → x ≠ u.population.nextId →
        u.identity? x = some k ∨ k.Ordinary := by
  have hempty : ∀ x, s₀.identity? x = none :=
    fun x => identity?_eq_none_iff.mpr (instance?_of_ofConfig? hstart x)
  refine ⟨?_, ?_, ?_, ?_, ?_, ?_⟩
  · intro u hu x k hk hp
    have hlast := (elapsed_of_steps hu).identity hk
    refine (granted_of_served hserved hlast hp).resolve_left ?_
    simp [hempty]
  · intro hlowly u hu x k hk
    have hplain : Plain s₀ := fun x k hk => nomatch (hempty x).symm.trans hk
    exact hplain.served hlowly hserved x k ((elapsed_of_steps hu).identity hk)
  · intro bound id m args caller u out u' h
    exact (((courses_engine bound).call id m args caller).holds h).recruits
  · intro bound id auxiliary u out u' h
    exact (((courses_engine bound).addAuxiliary id auxiliary).holds h).recruits
  · intro bound path owner u out u' h
    exact (((courses_engine bound).createPath path owner).holds h).recruits
  · intro bound definition owner privileged allowPrototype u out u' h x k hk hne
    rcases (founding_of_create h).origin hk with hold | ⟨-, ho | ⟨hnext, -⟩⟩
    · exact .inl hold
    · exact .inr ho
    · exact absurd hnext hne

end Runs

section Guild

def badge : Definition := .empty ⟨"/badge", by decide⟩

def master : Definition :=
  { Definition.empty ⟨"/master", by decide⟩ with
    methods := Dict.empty.insert "create"
      ⟨.native [.mk (.literal .null) (.literal .null) none (.command (.spawn "/badge"))], []⟩
    auxiliaries := [badge.id] }

def succession : List Request :=
  [.registry (.register badge), .registry (.register master),
    .instantiatePrivileged master.id .system (.account "ada" .wizard),
    .instantiatePrivileged badge.id .system (.object ⟨1⟩)]

def petition : List Request :=
  [.registry (.register badge),
    .instantiatePrivileged badge.id (.account "bob" .builder) (.account "bob" .builder),
    .instantiate badge.id (.account "bob" .builder)]

def flags (s : Space) : List Bool :=
  s.population.ids.filterMap fun x => (s.identity? x).map Identity.privileged

theorem succession_granted : ∃ s₀ s s',
    ofConfig? (.empty .firstContributor 8 none) .standard = .ok s₀ ∧
    Served s₀ succession s ∧ s.flags = [true, false, false, true] ∧
    (∀ x k, s.identity? x = some k → k.privileged = true → Granted s₀ succession s x k) ∧
    Served s₀ petition s' ∧ s'.flags = [false] ∧
    ∀ x k, s'.identity? x = some k → k.Ordinary := by
  have hrun : (ofConfig? (.empty .firstContributor 8 none) .standard).toOption.bind
      (fun s₀ => (serve 6 succession s₀).bind fun s => (serve 6 petition s₀).map fun s' =>
        (s.flags, s'.flags)) = some ([true, false, false, true], [false]) := by
    decide +kernel
  obtain ⟨s₀, hstart, hserve⟩ := Option.bind_eq_some_iff.mp hrun
  obtain ⟨s, hserve, hserve'⟩ := Option.bind_eq_some_iff.mp hserve
  obtain ⟨s', hserve', heq⟩ := Option.map_eq_some_iff.mp hserve'
  obtain ⟨hflags, hflags'⟩ := Prod.mk.inj heq
  have hok := eq_ok_of_toOption hstart
  have hserved := served_of_serve hserve
  have hserved' := served_of_serve hserve'
  have hlowly : ∀ request ∈ petition, request.Lowly := by
    intro request hmem
    simp only [petition, List.mem_cons, List.not_mem_nil, or_false] at hmem
    rcases hmem with rfl | rfl | rfl
    · trivial
    · exact show AccessLevel.builder.isPrivileged = false from rfl
    · trivial
  refine ⟨s₀, s, s', hok, hserved, hflags, ?_, hserved', hflags', ?_⟩
  · exact (privilege_is_granted hok hserved).1 s .refl
  · exact (privilege_is_granted hok hserved').2.1 hlowly s' .refl

end Guild

end Space

end Mudlib
