import ContainerProfiles.Proofs.Survivors

namespace ContainerProfiles

-- What an operation says of a container that is not there. One that is to change a destroyed container is refused
-- because of what became of it; one that only looks at it finds it missing, like one that was never there.

namespace Operation

-- The container an operation is addressed to; a creation is addressed to the parent it names.
def addressee? : Operation → Option ContainerId
  | .startContainer id | .stopContainer id | .destroy id | .assignVersion id _ | .addProfiles id _
  | .removeProfiles id _ | .getContainer id | .containerEffective id | .addEndpoint id _
  | .setAttribute id _ _ => some id
  | .create r => r.parent
  | _ => none

-- The addressee is looked at and nothing more.
def looks : Operation → Bool
  | .getContainer _ | .containerEffective _ => true
  | _ => false

-- What is tried with the addressee, as it is said when it was destroyed.
def aim : Operation → String
  | .create _ => "link-child"
  | .startContainer _ => "started"
  | .stopContainer _ => "stopped"
  | .destroy _ => "destroyed"
  | .assignVersion .. => "set-version"
  | .addProfiles .. => "add-profiles"
  | .removeProfiles .. => "remove-profiles"
  | .addEndpoint .. => "add-endpoint"
  | .setAttribute .. => "set-attribute"
  | _ => ""

end Operation

-- A container is said to be missing or destroyed.
def OperationError.OfAbsence (e : OperationError) : Prop :=
  ∃ id, e = .containerNotFound id ∨ ∃ aim, e = .invalidTransition id .destroyed aim

instance : OperationError.Foreign OperationError.OfAbsence := by
  constructor <;> simp [OperationError.OfAbsence]

abbrev Present (x : Except OperationError α) : Prop := Never OperationError.OfAbsence x

namespace Deployment

variable {s t : Deployment} {me : Thread} {caller : Option String} {id : ContainerId}

theorem provision_present (s : Deployment) (me : Thread) (caller : Option String) (id : ContainerId) :
    Present (s.provision me caller id).1 := by
  refine s.provision_elim me caller (P := fun out => Present out.1) id ?_ ?_ ?_
  · exact fun _ => never_ok ()
  · intro c v e _ _ _ failed
    exact (s.effectiveFor_never me v c.profiles).failed failed
  · intro c v merged _ _ _ _
    rw [reconcile_outcome]
    exact never_mapError _ (by simp [OperationError.OfAbsence])

section There

variable {c : Container} (live : s.containers.live.get? id = some c)
include live

theorem getFor_present (aim : String) : Present (s.containers.getFor id aim) := by
  rw [getFor_eq_ok.mpr live]
  exact never_ok c

theorem forChange_present (me : Thread) (aim : String) : Present (s.forChange me id aim) := by
  simp [forChange, getFor_present live]

theorem forChange_same {d : Container} (found : s.forChange me id aim = .ok d) : d = c :=
  Option.some.inj ((forChange_live found).symm.trans live)

-- The container that is answered with is there after the pass.
theorem changeAndProvision_present {changed : Container} (own : changed.identity = id) (me : Thread)
    (caller : Option String) : Present (s.changeAndProvision me caller changed).1 := by
  subst own
  obtain ⟨d, after, _⟩ := changeAndProvision_there (Dict.contains_iff.mpr ⟨c, live⟩) me caller
  have passed := (s.modify changed.identity fun _ => changed).provision_present me caller changed.identity
  unfold changeAndProvision at after ⊢
  rcases pass : (s.modify changed.identity fun _ => changed).provision me caller changed.identity with ⟨outcome, t⟩
  rw [pass] at passed after
  cases outcome with
  | error e => exact passed.failed rfl
  | ok _ =>
      change Present (t.containers.get changed.identity)
      rw [get_eq_ok.mpr after]
      exact never_ok d

theorem create_present (me : Thread) {r : ContainerRequest} (parent : r.parent = some id) :
    Present (s.create me r).1 := by
  have checked : Present (s.checkRequest me r) := by
    simp only [checkRequest, never_bind, never_ite, never_throw, parent, checkParent]
    cases s.requestedVersion r <;> simp [forChange_present live, OperationError.OfAbsence]
  have registered : ∀ c, Present (s.containers.register c) := by
    simp [ContainerRegistry.register, OperationError.OfAbsence]
  refine s.settle_never ?_
  simp [checked, registered]

theorem assign_present (own : c.identity = id) {x : Except OperationError Container} (prepared : Present x)
    (reassigns : ∀ changed, x = .ok changed → ∃ d, s.containers.live.get? id = some d ∧ Reassigned s me d changed)
    (caller : Option String) : Present (s.assign me caller x).1 := by
  cases x with
  | error e => exact prepared.failed rfl
  | ok changed =>
      obtain ⟨d, found, reassigned⟩ := reassigns changed rfl
      cases live.symm.trans found
      exact changeAndProvision_present live (reassigned.unmoved.1.trans own) me caller

theorem startContainer_present (own : c.identity = id) (alive : c.state ≠ .destroyed) (me : Thread)
    (caller : Option String) : Present (s.startContainer me id caller).1 := by
  have becomes : Present (c.state.checkBecomes id .started) := by
    simp [LifecycleState.checkBecomes, OperationError.OfAbsence, alive]
  have prepared : Present (s.prepareStart me id) := by
    refine (never_bind _).mpr ⟨by simp, fun _ _ => (never_bind _).mpr ⟨forChange_present live me _, fun d found => ?_⟩⟩
    cases forChange_same live found
    simp [becomes]
  exact assign_present live own prepared (fun _ => prepareStart_ok) caller

theorem assignVersion_present (own : c.identity = id) (me : Thread) (v : Version) (caller : Option String) :
    Present (s.assignVersion me id v caller).1 := by
  have prepared : Present (s.prepareVersionChange me id v) := by simp [prepareVersionChange, forChange_present live]
  exact assign_present live own prepared (fun _ => prepareVersionChange_ok) caller

theorem addProfiles_present (own : c.identity = id) (me : Thread) (ids : List ProfileId) (caller : Option String) :
    Present (s.addProfiles me id ids caller).1 := by
  have prepared : Present (s.prepareAddition me id ids) := by simp [prepareAddition, forChange_present live]
  exact assign_present live own prepared (fun _ => prepareAddition_ok) caller

theorem removeProfiles_present (own : c.identity = id) (me : Thread) (ids : List ProfileId) (caller : Option String) :
    Present (s.removeProfiles me id ids caller).1 := by
  have found : Present (do s.containerService.check; s.forChange me id "remove-profiles") := by
    simp [forChange_present live]
  unfold removeProfiles
  split
  · rename_i e refused
    exact found.failed refused
  · rename_i d passed
    obtain ⟨_, _, passed⟩ := bind_eq_ok.mp passed
    dsimp only
    split
    · exact never_ok d
    · exact assign_present live own (s.prepareRemoval_never me d _)
        (fun _ prepared => ⟨d, forChange_live passed, prepareRemoval_ok prepared⟩) caller

theorem stopContainer_present (alive : c.state ≠ .destroyed) (me : Thread) : Present (s.stopContainer me id).1 := by
  have becomes : Present (c.state.checkBecomes id .stopped) := by
    simp [LifecycleState.checkBecomes, OperationError.OfAbsence, alive]
  refine s.settle_never ?_
  refine (never_bind _).mpr ⟨by simp, fun _ _ => (never_bind _).mpr ⟨by simp, fun _ _ => ?_⟩⟩
  refine (never_bind _).mpr ⟨forChange_present live me _, fun d found => ?_⟩
  cases forChange_same live found
  simp [becomes]

theorem destroy_present (alive : c.state ≠ .destroyed) (me : Thread) (caller : Option String) :
    Present (s.destroy me id caller).1 := by
  have becomes : Present (c.state.checkBecomes id .destroyed) := by
    simp [LifecycleState.checkBecomes, OperationError.OfAbsence, alive]
  have prepared : Present (s.prepareDestruction me id) := by
    unfold prepareDestruction
    rw [getFor_eq_ok.mpr live]
    simp only [never_bind]
    refine ⟨by simp, fun _ _ => ⟨by simp, fun _ _ => ⟨by simp, fun d same => ?_⟩⟩⟩
    cases same
    split <;> simp [becomes, OperationError.OfAbsence]
  unfold destroy
  cases result : s.prepareDestruction me id with
  | error e => exact prepared.failed result
  | ok changed =>
      dsimp only
      cases (s.provisioner.releaseAll changed.installed).outcome with
      | error e => simp [OperationError.OfAbsence]
      | ok _ => exact never_ok _

theorem getContainer_present (me : Thread) : Present (s.getContainer me id) := by
  unfold getContainer
  rw [get_eq_ok.mpr live]
  simp

theorem perform_present (own : c.identity = id) (alive : c.state ≠ .destroyed) {op : Operation}
    (addressed : op.addressee? = some id) (me : Thread) (caller : Option String) :
    Present (s.perform me caller op).1 := by
  cases op with
  | create r => exact acting_never _ (create_present live me addressed)
  | startContainer =>
      cases addressed
      exact acting_never _ (startContainer_present live own alive me caller)
  | stopContainer =>
      cases addressed
      exact acting_never _ (stopContainer_present live alive me)
  | destroy =>
      cases addressed
      exact acting_never _ (destroy_present live alive me caller)
  | assignVersion _ v =>
      cases addressed
      exact acting_never _ (assignVersion_present live own me v caller)
  | addProfiles _ ids =>
      cases addressed
      exact acting_never _ (addProfiles_present live own me ids caller)
  | removeProfiles _ ids =>
      cases addressed
      exact acting_never _ (removeProfiles_present live own me ids caller)
  | getContainer =>
      cases addressed
      exact (never_map _).mpr (getContainer_present live me)
  | containerEffective =>
      cases addressed
      refine (never_map _).mpr ((never_bind _).mpr ⟨getContainer_present live me, ?_⟩)
      exact fun _ _ => s.effectiveFor_never me _ _
  | addEndpoint | setAttribute =>
      cases addressed
      exact acting_never _ (s.settle_never (by simp [forChange_present live]))
  | _ => cases addressed

end There

-- What is checked, with the service running, before a container that is not there is found missing.
def beforehand (s : Deployment) (me : Thread) : Operation → Except OperationError Unit
  | .create r => do
      if Text.blank r.identity then throw (.obstacle .unnamedContainer)
      if r.parent = some r.identity then throw (.obstacle (.ownParent r.identity))
      match r.parent with
      | some parent => s.permitContainer me parent .write
      | none => return ()
  | .getContainer id | .containerEffective id => s.permitContainer me id .read
  | .startContainer id | .stopContainer id | .assignVersion id _ | .addProfiles id _ | .removeProfiles id _
  | .addEndpoint id _ | .setAttribute id _ _ => s.permitContainer me id .write
  | _ => .ok ()

def absence (s : Deployment) (op : Operation) (id : ContainerId) : OperationError :=
  if s.containers.isDestroyed id && !op.looks then .invalidTransition id .destroyed op.aim else .containerNotFound id

theorem beforehand_present (s : Deployment) (me : Thread) (op : Operation) : Present (s.beforehand me op) := by
  cases op with
  | create r =>
      simp only [beforehand, never_bind, never_ite, never_throw]
      cases r.parent <;> simp [OperationError.OfAbsence]
  | _ => simp [beforehand]

theorem absence_looks {op : Operation} (looks : op.looks = true) : s.absence op id = .containerNotFound id := by
  simp [absence, looks]

theorem getFor_absent (absent : s.containers.live.get? id = none) (op : Operation) (changes : op.looks = false) :
    s.containers.getFor id op.aim = .error (s.absence op id) := by
  unfold ContainerRegistry.getFor ContainerRegistry.get ContainerRegistry.contains absence
  rw [absent, Dict.contains_false.mpr absent, changes]
  cases s.containers.isDestroyed id <;> rfl

theorem forChange_absent (absent : s.containers.live.get? id = none) (me : Thread) (op : Operation) (aim : String)
    (changes : op.looks = false) (aims : op.aim = aim) :
    s.forChange me id aim = (s.permitContainer me id .write >>= fun _ => throw (s.absence op id)) := by
  subst aims
  unfold forChange
  rw [getFor_absent absent op changes]
  rfl

section Absent

variable (active : s.containerService.active) (absent : s.containers.live.get? id = none)
include active absent

theorem getContainer_absent (me : Thread) :
    s.getContainer me id = s.permitContainer me id .read >>= fun _ => throw (.containerNotFound id) := by
  have ready : s.containerService.check = .ok () := if_pos active
  unfold getContainer ContainerRegistry.get
  rw [ready, absent]
  rfl

theorem checkRequest_absent (me : Thread) {r : ContainerRequest} (parent : r.parent = some id) :
    s.checkRequest me r = s.beforehand me (.create r) >>= fun _ => throw (s.absence (.create r) id) := by
  have ready : s.containerService.check = .ok () := if_pos active
  have attached : s.checkParent me r.parent =
      s.permitContainer me id .write >>= fun _ => throw (s.absence (.create r) id) := by
    rw [parent, checkParent, forChange_absent absent me (.create r) "link-child" rfl rfl]
    cases s.permitContainer me id .write <;> rfl
  rw [checkRequest, beforehand, ready, attached]
  by_cases blank : Text.blank r.identity
  · rw [if_pos blank, if_pos blank]
    rfl
  by_cases own : r.parent = some r.identity
  · rw [if_neg blank, if_neg blank, if_pos own, if_pos own]
    rfl
  · rw [if_neg blank, if_neg blank, if_neg own, if_neg own, parent]
    dsimp only
    cases s.permitContainer me id .write <;> rfl

theorem perform_absent (elsewhere : s.current ≠ some id) {op : Operation} (addressed : op.addressee? = some id)
    (me : Thread) (caller : Option String) :
    s.perform me caller op = (s.beforehand me op >>= fun _ => throw (s.absence op id), s) := by
  have ready : s.containerService.check = .ok () := if_pos active
  cases op with
  | create r =>
      rw [perform, create, checkRequest_absent active absent me addressed]
      cases s.beforehand me (.create r) <;> rfl
  | startContainer =>
      cases addressed
      rw [perform, startContainer, prepareStart, ready,
        forChange_absent absent me (.startContainer id) "started" rfl rfl, beforehand]
      cases s.permitContainer me id .write <;> rfl
  | stopContainer =>
      cases addressed
      have other : s.checkNotCurrent id "stop" = .ok () := if_neg elsewhere
      rw [perform, stopContainer, ready, other,
        forChange_absent absent me (.stopContainer id) "stopped" rfl rfl, beforehand]
      cases s.permitContainer me id .write <;> rfl
  | destroy =>
      cases addressed
      have other : s.checkNotCurrent id "destroy" = .ok () := if_neg elsewhere
      have missing : s.containers.getFor id "destroyed" = .error _ := getFor_absent absent (.destroy id) rfl
      rw [perform, destroy, prepareDestruction, ready, other, missing]
      rfl
  | assignVersion _ v =>
      cases addressed
      rw [perform, assignVersion, prepareVersionChange, ready,
        forChange_absent absent me (.assignVersion id v) "set-version" rfl rfl, beforehand]
      cases s.permitContainer me id .write <;> rfl
  | addProfiles _ ids =>
      cases addressed
      rw [perform, addProfiles, prepareAddition, ready,
        forChange_absent absent me (.addProfiles id ids) "add-profiles" rfl rfl, beforehand]
      cases s.permitContainer me id .write <;> rfl
  | removeProfiles _ ids =>
      cases addressed
      rw [perform, removeProfiles, ready,
        forChange_absent absent me (.removeProfiles id ids) "remove-profiles" rfl rfl, beforehand]
      cases s.permitContainer me id .write <;> rfl
  | getContainer =>
      cases addressed
      rw [perform, getContainer_absent active absent, beforehand, absence_looks rfl]
      cases s.permitContainer me id .read <;> rfl
  | containerEffective =>
      cases addressed
      rw [perform, containerEffective, getContainer_absent active absent, beforehand, absence_looks rfl]
      cases s.permitContainer me id .read <;> rfl
  | addEndpoint _ endpoint =>
      cases addressed
      rw [perform, addEndpoint, ready,
        forChange_absent absent me (.addEndpoint id endpoint) "add-endpoint" rfl rfl, beforehand]
      cases s.permitContainer me id .write <;> rfl
  | setAttribute _ key value =>
      cases addressed
      rw [perform, setAttribute, ready,
        forChange_absent absent me (.setAttribute id key value) "set-attribute" rfl rfl, beforehand]
      cases s.permitContainer me id .write <;> rfl
  | _ => cases addressed

end Absent

end Deployment
end ContainerProfiles
