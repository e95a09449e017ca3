import Mudlib.Space.Operations
import Mudlib.Proofs.Space.Course
set_option autoImplicit false

namespace Mudlib.Space

variable {s s' s₀ : Space} {definition : DefinitionId} {owner caller : Principal}

def file (s : Space) (definition : DefinitionId) (id : InstanceId) : Space :=
  { s with prototypes := s.prototypes.insert definition id }

inductive Loading (definition : DefinitionId) (caller : Principal) (s : Space) :
    Except RuntimeError InstanceId → Space → Prop where
  | refused (e : RuntimeError) : s.isPrivileged caller = false →
      Loading definition caller s (.error e) s
  | found {id : InstanceId} : s.isPrivileged caller = true → s.template? definition = some id →
      Loading definition caller s (.ok id) s
  | failed {e : RuntimeError} {s' : Space} : s.isPrivileged caller = true →
      s.template? definition = none → Founding definition caller false true s (.error e) s' →
      Loading definition caller s (.error e) s'
  | filed {id : InstanceId} {s₁ : Space} : s.isPrivileged caller = true →
      s.template? definition = none → Founding definition caller false true s (.ok id) s₁ →
      Loading definition caller s (.ok id) (s₁.file definition id)

inductive Answered (s : Space) : Request → Space → Prop where
  | course {request : Request} {s' : Space} : Course [] s s' → Answered s request s'
  | privileged {definition : DefinitionId} {owner caller : Principal}
      {out : Except RuntimeError InstanceId} {s' : Space} : s.isPrivileged caller = true →
      Founding definition owner true false s out s' →
      Answered s (.instantiatePrivileged definition owner caller) s'
  | template {definition : DefinitionId} {caller : Principal}
      {out : Except RuntimeError InstanceId} {s' : Space} : Loading definition caller s out s' →
      Answered s (.loadPrototype definition caller) s'

theorem Loading.eq_of_unprivileged {out : Except RuntimeError InstanceId}
    (h : Loading definition caller s out s') (hcaller : s.isPrivileged caller = false) :
    s' = s := by
  have hfalse : s.isPrivileged caller ≠ true := Bool.eq_false_iff.mp hcaller
  cases h with
  | refused e _ => rfl
  | found hp _ => exact absurd hp hfalse
  | failed hp _ _ => exact absurd hp hfalse
  | filed hp _ _ => exact absurd hp hfalse

section Answers

variable [Natives] {bound : Nat} {out : Except RuntimeError InstanceId}

theorem loading_of_loadPrototype (h : loadPrototype bound definition caller s = some (out, s')) :
    Loading definition caller s out s' := by
  rcases loadPrototype_eq_some h with ⟨hcaller, rfl, e, rfl⟩ |
    ⟨hcaller, ⟨id, hfound, rfl, rfl⟩ | ⟨hnone, ⟨e, rfl, hcreate⟩ | ⟨id, s₁, rfl, hcreate, rfl⟩⟩⟩
  · exact .refused e hcaller
  · exact .found hcaller hfound
  · exact .failed hcaller hnone (founding_of_create hcreate)
  · exact .filed hcaller hnone (founding_of_create hcreate)

theorem answered_of_perform {request : Request} {out : Except RuntimeError Unit}
    (h : perform bound request s = some (out, s')) : Answered s request s' := by
  have he := courses_engine bound
  cases request with
  | instantiate definition owner =>
    obtain ⟨result, h⟩ := Run.exists_of_dropped h
    exact .course ((he.create definition owner).holds h)
  | instantiatePrivileged definition owner caller =>
    obtain ⟨result, h⟩ := Run.exists_of_dropped h
    rcases instantiatePrivileged_eq_some h with rfl | ⟨hcaller, hcreate⟩
    · exact .course (.rest _)
    · exact .privileged hcaller (founding_of_create hcreate)
  | loadPrototype definition caller =>
    obtain ⟨result, h⟩ := Run.exists_of_dropped h
    exact .template (loading_of_loadPrototype h)
  | invoke id method args caller =>
    obtain ⟨result, h⟩ := Run.exists_of_dropped h
    exact .course ((he.invoke id method args caller).holds h)
  | setField id field v caller =>
    have hkeeps : Run.Keeps (Course []) (Run.change fun s => s.setField id field v caller) :=
      .change course_order fun hs => .assigned (setField_eq_ok hs)
    exact .course (hkeeps.holds h)
  | attach host auxiliary caller =>
    have hkeeps : Run.Keeps (Course [])
        (Run.changeWithin fun s => s.attach host auxiliary caller) :=
      .changeWithin course_order .attached
    exact .course (hkeeps.holds h)
  | detach host auxiliary caller =>
    have hkeeps : Run.Keeps (Course []) (Run.change fun s => s.detach host auxiliary caller) :=
      .change course_order .detached
    exact .course (hkeeps.holds h)
  | destroy id caller => exact .course ((he.requestDestroy id caller).holds h)
  | registry operation =>
    cases h
    exact .course (.resolved s operation)

end Answers

section Lasting

variable {R : Space → Space → Prop}

theorem Lasting.loading (hR : Lasting R)
    (hfile : ∀ s definition id, R s (file s definition id)) {out : Except RuntimeError InstanceId}
    (h : Loading definition caller s out s') : R s s' := by
  cases h with
  | refused e _ => exact hR.refl s
  | found _ _ => exact hR.refl s
  | failed _ _ hfounding => exact hR.founding hfounding
  | filed _ _ hfounding => exact hR.trans (hR.founding hfounding) (hfile _ _ _)

theorem Lasting.served [Natives] {requests : List Request} (hR : Lasting R)
    (hfile : ∀ s definition id, R s (file s definition id)) (h : Served s₀ requests s) :
    R s₀ s := by
  induction h with
  | nil s => exact hR.refl s
  | cons hone _ ih =>
    refine hR.trans ?_ ih
    cases answered_of_perform hone with
    | course hcourse => exact hR.course hcourse
    | privileged _ hfounding => exact hR.founding hfounding
    | template hloading => exact hR.loading hfile hloading

end Lasting

/-- A run that begins with a new space, told from what is found where it ends. -/
theorem served_of_found [Natives] {β : Type} {r : Registry} {config : Config} {bound : Nat}
    {requests : List Request} {look : Space → Option β} {found : β}
    (h : (ofConfig? r config).toOption.bind
      (fun s₀ => (serve bound requests s₀).bind look) = some found) :
    ∃ s₀ s, ofConfig? r config = .ok s₀ ∧ Served s₀ requests s ∧ look s = some found := by
  obtain ⟨s₀, hstart, hrun⟩ := Option.bind_eq_some_iff.mp h
  obtain ⟨s, hserve, hlook⟩ := Option.bind_eq_some_iff.mp hrun
  exact ⟨s₀, s, eq_ok_of_toOption hstart, served_of_serve hserve, hlook⟩

end Mudlib.Space
