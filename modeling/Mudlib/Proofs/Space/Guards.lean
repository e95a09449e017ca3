import Mudlib.Proofs.Success
import Mudlib.Proofs.Space.Links
set_option autoImplicit false

namespace Mudlib.Space

variable {s s' : Space} {id h a : InstanceId} {i : Instance} {caller : Principal}

theorem invokable_eq_ok :
    s.invokable id = .ok i ↔ s.instance? id = some i ∧ i.state ≠ .destroyed := by
  unfold invokable
  cases hi : s.instance? id with
  | none => simp
  | some j =>
    by_cases hd : j.state = .destroyed
    · simp only [Instance.isDestroyed, hd, decide_true, if_true, Option.some.injEq]
      constructor
      · intro hc
        cases hc
      · intro hc
        obtain ⟨rfl, hne⟩ := hc
        exact absurd hd hne
    · simp only [Instance.isDestroyed, hd, decide_false, Option.some.injEq]
      constructor
      · intro hc
        cases hc
        exact ⟨rfl, hd⟩
      · intro hc
        obtain ⟨rfl, -⟩ := hc
        rfl

theorem live_eq_ok : s.live id = .ok i ↔ s.instance? id = some i ∧ i.state = .live := by
  unfold live
  rw [bind_eq_ok]
  constructor
  · intro hc
    obtain ⟨j, hj, hc⟩ := hc
    obtain ⟨hj, -⟩ := invokable_eq_ok.mp hj
    by_cases hl : j.state = .live
    · simp only [Instance.isLive, hl, decide_true, if_true] at hc
      cases hc
      exact ⟨hj, hl⟩
    · simp only [Instance.isLive, hl, decide_false] at hc
      cases hc
  · intro hc
    obtain ⟨hi, hl⟩ := hc
    refine ⟨i, invokable_eq_ok.mpr ⟨hi, by simp [hl]⟩, ?_⟩
    simp only [Instance.isLive, hl, decide_true, if_true]
    rfl

theorem state?_of_live (hi : s.live id = .ok i) : s.state? id = some .live := by
  obtain ⟨hi, hl⟩ := live_eq_ok.mp hi
  rw [state?, hi, Option.map_some, hl]

theorem assign_of_invokable (field : String) (v : Value) (hi : s.invokable id = .ok i) :
    s.assign id field v =
      match i.table.fields.get? field with
      | none => .error (.noSuchField id field)
      | some slot =>
        if slot.type.accepts v then
          .ok (s.update id fun i => { i with fields := i.fields.insert field v })
        else .error (.typeMismatch id field slot.type) := by
  unfold assign
  rw [hi]
  rfl

theorem slot_of_assign {field : String} {v : Value} (hs : s.assign id field v = .ok s') :
    ∃ i slot, s.instance? id = some i ∧ i.state ≠ .destroyed ∧
      i.table.field? field = some slot ∧ slot.type.accepts v = true ∧
      s' = s.update id fun i => { i with fields := i.fields.insert field v } := by
  unfold assign at hs
  obtain ⟨i, hi, hs⟩ := bind_eq_ok.mp hs
  obtain ⟨hi, hd⟩ := invokable_eq_ok.mp hi
  split at hs
  · cases hs
  next slot hslot =>
    split at hs
    next hv =>
      cases hs
      exact ⟨i, slot, hi, hd, hslot, hv, rfl⟩
    next => cases hs

theorem assign_eq_ok {field : String} {v : Value} (hs : s.assign id field v = .ok s') :
    ∃ i, s.instance? id = some i ∧ i.state ≠ .destroyed ∧
      s' = s.update id fun i => { i with fields := i.fields.insert field v } := by
  obtain ⟨i, -, hi, hd, -, -, rfl⟩ := slot_of_assign hs
  exact ⟨i, hi, hd, rfl⟩

theorem setField_eq_ok {field : String} {v : Value} (hs : s.setField id field v caller = .ok s') :
    s.assign id field v = .ok s' := by
  unfold setField at hs
  obtain ⟨i, -, hs⟩ := bind_eq_ok.mp hs
  obtain ⟨_, -, hs⟩ := bind_eq_ok.mp hs
  exact hs

theorem checkAttach_eq_ok_iff : s.checkAttach h a caller = .ok () ↔
    ∃ i j, s.live h = .ok i ∧ s.live a = .ok j ∧ s.authorize caller .attach h i.owner = .ok () ∧
      s.authorize caller .attach a j.owner = .ok () ∧ h ≠ a ∧ j.isPrototype = false ∧
      j.host = none := by
  unfold checkAttach
  constructor
  · intro hs
    obtain ⟨i, hi, hs⟩ := bind_eq_ok.mp hs
    obtain ⟨j, hj, hs⟩ := bind_eq_ok.mp hs
    obtain ⟨_, hhost, hs⟩ := bind_eq_ok.mp hs
    obtain ⟨_, hauxiliary, hs⟩ := bind_eq_ok.mp hs
    refine ⟨i, j, hi, hj, hhost, hauxiliary, ?_⟩
    by_cases hne : h = a
    · rw [if_pos hne] at hs
      cases hs
    · rw [if_neg hne] at hs
      refine ⟨hne, ?_⟩
      cases hp : j.isPrototype with
      | true =>
        rw [hp, if_pos rfl] at hs
        cases hs
      | false =>
        rw [hp] at hs
        cases hn : j.host with
        | none => exact ⟨rfl, rfl⟩
        | some current =>
          rw [hn] at hs
          cases hs
  · rintro ⟨i, j, hi, hj, hhost, hauxiliary, hne, hp, hn⟩
    refine bind_eq_ok.mpr ⟨i, hi, bind_eq_ok.mpr ⟨j, hj, bind_eq_ok.mpr ⟨(), hhost, ?_⟩⟩⟩
    refine bind_eq_ok.mpr ⟨(), hauxiliary, ?_⟩
    rw [if_neg hne, hp, hn]
    rfl

theorem checkAttach_eq_ok (hs : s.checkAttach h a caller = .ok ()) :
    s.state? h = some .live ∧ s.state? a = some .live ∧ h ≠ a ∧ s.host? a = none := by
  obtain ⟨i, j, hi, hj, -, -, hne, -, hn⟩ := checkAttach_eq_ok_iff.mp hs
  refine ⟨state?_of_live hi, state?_of_live hj, hne, ?_⟩
  rw [host?, (live_eq_ok.mp hj).1, Option.bind_some, hn]

theorem checkAttach_of_attach (hs : s.attach h a caller = some (.ok s')) :
    s.checkAttach h a caller = .ok () := by
  unfold attach at hs
  split at hs
  · cases hs
  next hc => exact hc

theorem attach_eq_some (hs : s.attach h a caller = some (.ok s')) :
    s.state? h = some .live ∧ s.state? a = some .live ∧ h ≠ a ∧ s.host? a = none ∧
      s.hostedBy h a = some false ∧ s' = s.linkAttachment h a := by
  unfold attach at hs
  split at hs
  · cases hs
  next hc =>
    obtain ⟨hh, ha, hne, hn⟩ := checkAttach_eq_ok hc
    obtain ⟨cyclic, hcyclic, hs⟩ := Option.map_eq_some_iff.mp hs
    cases cyclic with
    | true => cases hs
    | false =>
      cases hs
      exact ⟨hh, ha, hne, hn, hcyclic, rfl⟩

theorem detach_eq_ok_iff : s.detach h a caller = .ok s' ↔
    ∃ i j, s.live h = .ok i ∧ a ∈ i.attachments ∧ s.invokable a = .ok j ∧
      s.authorize caller .attach h i.owner = .ok () ∧
      s.authorize caller .attach a j.owner = .ok () ∧ s' = s.unlinkAttachment h a := by
  unfold detach
  constructor
  · intro hs
    obtain ⟨i, hi, hs⟩ := bind_eq_ok.mp hs
    split at hs
    · cases hs
    next hmem =>
      obtain ⟨j, hj, hs⟩ := bind_eq_ok.mp hs
      obtain ⟨_, hhost, hs⟩ := bind_eq_ok.mp hs
      obtain ⟨_, hauxiliary, hs⟩ := bind_eq_ok.mp hs
      cases hs
      exact ⟨i, j, hi, Decidable.not_not.mp hmem, hj, hhost, hauxiliary, rfl⟩
  · rintro ⟨i, j, hi, hmem, hj, hhost, hauxiliary, rfl⟩
    refine bind_eq_ok.mpr ⟨i, hi, ?_⟩
    rw [if_neg (not_not_intro hmem)]
    exact bind_eq_ok.mpr ⟨j, hj, bind_eq_ok.mpr ⟨(), hhost, bind_eq_ok.mpr ⟨(), hauxiliary, rfl⟩⟩⟩

theorem detach_eq_ok (hs : s.detach h a caller = .ok s') :
    s.state? h = some .live ∧ a ∈ s.attached h ∧ s' = s.unlinkAttachment h a := by
  obtain ⟨i, -, hi, hmem, -, -, -, heq⟩ := detach_eq_ok_iff.mp hs
  refine ⟨state?_of_live hi, ?_, heq⟩
  simpa [attached, (live_eq_ok.mp hi).1] using hmem

theorem checkDestroy_eq_ok_iff : s.checkDestroy id caller = .ok () ↔
    ∃ i, s.instance? id = some i ∧ i.state = .live ∧
      s.authorize caller .destroy id i.owner = .ok () ∧ i.isPrototype = false := by
  unfold checkDestroy
  cases hi : s.instance? id with
  | none => simp
  | some i =>
    simp only [Option.some.injEq]
    cases hstate : i.state with
    | destroyed => simp [hstate]
    | pendingDestroy => simp [hstate]
    | live =>
      simp only
      cases hauthorized : s.authorize caller .destroy id i.owner with
      | error e => simp [hauthorized]
      | ok _ => cases hp : i.isPrototype <;> simp [hstate, hauthorized, hp]

theorem checkDestroy_eq_ok (hs : s.checkDestroy id caller = .ok ()) :
    s.state? id = some .live := by
  obtain ⟨i, hi, hl, -⟩ := checkDestroy_eq_ok_iff.mp hs
  rw [state?, hi, Option.map_some, hl]

/-- An unprivileged account controls what it owns and nothing else. -/
theorem owner_of_authorize {account : String} {level : AccessLevel} {deed : Deed}
    {owner : Principal} (hlevel : level.isPrivileged = false)
    (hs : s.authorize (.account account level) deed id owner = .ok ()) :
    ∃ level', owner = .account account level' := by
  unfold authorize Permission.refusal? at hs
  rw [show s.isPrivileged (.account account level) = false from hlevel, if_neg Bool.false_ne_true]
    at hs
  cases owner with
  | account other level' =>
    by_cases heq : account = other
    · exact ⟨level', by rw [heq]⟩
    · simp [Principal.sameIdentity, heq] at hs
  | system => simp [Principal.sameIdentity] at hs
  | object other => simp [Principal.sameIdentity] at hs

theorem requirePrivileged_eq_ok {definition : DefinitionId} :
    s.requirePrivileged caller definition = .ok () ↔ s.isPrivileged caller = true := by
  unfold requirePrivileged
  split
  next h => simp [h]
  next h => simp [h]

theorem requirePrivileged_eq_error {definition : DefinitionId} {e : RuntimeError}
    (h : s.requirePrivileged caller definition = .error e) : s.isPrivileged caller = false := by
  unfold requirePrivileged at h
  split at h
  · cases h
  next hp => exact Bool.eq_false_iff.mpr hp

theorem identity?_assign {field : String} {v : Value} (hs : s.assign id field v = .ok s')
    (x : InstanceId) : s'.identity? x = s.identity? x := by
  obtain ⟨i, -, -, rfl⟩ := assign_eq_ok hs
  exact map_instance?_update _ _ Instance.identity fun _ => rfl

theorem not_isTemplate_of_checkDestroy (hs : s.checkDestroy id caller = .ok ()) :
    ¬ s.IsTemplate id := by
  rintro ⟨i, hi, hp⟩
  obtain ⟨j, hj, -, -, hn⟩ := checkDestroy_eq_ok_iff.mp hs
  rw [hi] at hj
  cases hj
  exact Bool.false_ne_true (hn.symm.trans hp)

theorem not_isTemplate_of_attach (hs : s.attach h a caller = some (.ok s')) : ¬ s.IsTemplate a := by
  rintro ⟨i, hi, hp⟩
  obtain ⟨_, j, -, hj, -, -, -, hn, -⟩ := checkAttach_eq_ok_iff.mp (checkAttach_of_attach hs)
  obtain ⟨hj, -⟩ := live_eq_ok.mp hj
  rw [hi] at hj
  cases hj
  exact Bool.false_ne_true (hn.symm.trans hp)

theorem exists_of_firstAnswer
    {ask : InstanceId → Option (Except RuntimeError (InstanceId × Implementation))}
    {otherwise : RuntimeError} {ids : List InstanceId} {found : InstanceId × Implementation}
    (h : firstAnswer ask otherwise ids = some (.ok found)) : ∃ id ∈ ids, ask id = some (.ok found) := by
  induction ids with
  | nil => cases h
  | cons id ids ih =>
    unfold firstAnswer at h
    split at h
    · obtain ⟨x, hx, hfound⟩ := ih h
      exact ⟨x, List.mem_cons_of_mem _ hx, hfound⟩
    · exact ⟨id, List.mem_cons_self, h⟩

theorem answerer_of_dispatchWithin {method : String} {n : Nat} {found : InstanceId × Implementation}
    (h : s.dispatchWithin method n id = some (.ok found)) :
    ∃ i, s.instance? found.1 = some i ∧ i.state ≠ .destroyed ∧
      i.table.method? method = some found.2 := by
  induction n generalizing id with
  | zero => cases h
  | succ n ih =>
    unfold dispatchWithin at h
    split at h
    · cases h
    next i hi =>
      obtain ⟨hi, hd⟩ := invokable_eq_ok.mp hi
      split at h
      next m hm =>
        cases h
        exact ⟨i, hi, hd, hm⟩
      next =>
        obtain ⟨a, -, ha⟩ := exists_of_firstAnswer h
        exact ih ha

theorem answerer_of_dispatch {method : String} {found : InstanceId × Implementation}
    (h : s.dispatch id method = some (.ok found)) :
    ∃ i, s.instance? found.1 = some i ∧ i.state ≠ .destroyed ∧
      i.table.method? method = some found.2 :=
  answerer_of_dispatchWithin h

theorem method_of_dispatch {method : String} {found : InstanceId × Implementation}
    (h : s.dispatch id method = some (.ok found)) :
    ∃ t, s.table? found.1 = some t ∧ t.method? method = some found.2 := by
  obtain ⟨i, hi, -, hm⟩ := answerer_of_dispatch h
  exact ⟨i.table, by rw [table?, hi, Option.map_some], hm⟩

theorem intact_of_dispatch {method : String} {found : InstanceId × Implementation}
    (h : s.dispatch id method = some (.ok found)) : s.Intact found.1 := by
  obtain ⟨i, hi, hd, -⟩ := answerer_of_dispatch h
  exact intact_of_state (by rw [state?, hi, Option.map_some]) hd

theorem dispatch_of_refused {e : RuntimeError} (h : s.invokable id = .error e) (method : String) :
    s.dispatch id method = some (.error e) := by
  unfold dispatch walkBound dispatchWithin
  rw [h]

theorem dispatch_of_destroyed (hx : s.state? id = some .destroyed) (method : String) :
    s.dispatch id method = some (.error (.useAfterDestroy id)) := by
  obtain ⟨i, hi, hd⟩ := Option.map_eq_some_iff.mp hx
  refine dispatch_of_refused ?_ method
  unfold invokable
  rw [hi]
  simp [Instance.isDestroyed, hd]

end Mudlib.Space
