import ContainerProfiles.Deployment.Operation
import ContainerProfiles.Proofs.Checks

namespace ContainerProfiles

-- Which errors looking and checking ends with. Whoever asks the profile service has errors of a few kinds only, so
-- every other kind is ruled out for all of its checks at once (`Foreign`).

namespace OperationError

-- Errors of a kind that the profile service does not have.
class Foreign (bad : OperationError → Prop) : Prop where
  inactive : ∀ component, ¬ bad (.inactive component)
  lock : ∀ cause, ¬ bad (.lock cause)
  store : ∀ cause, ¬ bad (.store cause)
  profile : ∀ cause, ¬ bad (.profile cause)
  obstacle : ∀ cause, ¬ bad (.obstacle cause)
  versionNotFound : ∀ v, ¬ bad (.versionNotFound v)
  versionExists : ∀ v, ¬ bad (.versionExists v)
  profileNotFound : ∀ v id, ¬ bad (.profileNotFound v id)
  profileExists : ∀ v id, ¬ bad (.profileExists v id)

theorem Foreign.ofLineage {bad : OperationError → Prop} [Foreign bad] (v : Version) (e : LineageError) :
    ¬ bad (.ofLineage v e) := by
  cases e with
  | cycle child parent => exact obstacle _
  | missing id => exact profileNotFound v id

def OfProvisioning (e : OperationError) : Prop := ∃ cause, e = .provision cause

instance : Foreign OfProvisioning := by
  constructor <;> simp [OfProvisioning]

end OperationError

open OperationError (Foreign)

abbrev Harmless (x : Except OperationError α) : Prop := Never OperationError.OfProvisioning x

section Foreign

variable {bad : OperationError → Prop} [Foreign bad]

namespace VersionState

@[simp] theorem require_never (v : VersionState) (id : ProfileId) : Never bad (v.require id) := by
  unfold require
  split <;> simp [Foreign.profileNotFound]

@[simp] theorem linearize_never (v : VersionState) (version : Version) (roots : List ProfileId) :
    Never bad (v.linearize version roots) := never_mapError _ (Foreign.ofLineage version)

@[simp] theorem check_never (v : VersionState) (p : Profile) : Never bad (v.check p) := by
  refine (never_bind _).mpr ⟨never_mapError _ Foreign.profile, fun _ _ => ?_⟩
  refine (never_ite _ _).mpr ⟨fun _ => by simp [Foreign.obstacle], fun _ => ?_⟩
  refine (never_ite _ _).mpr ⟨fun _ => by simp [Foreign.obstacle], fun _ => ?_⟩
  split <;> simp [Foreign.obstacle]

end VersionState

namespace Deployment

variable (s : Deployment) (me : Thread)

@[simp] theorem component_never (c : Component) : Never bad c.check := by
  simp [Component.check, Foreign.inactive]

@[simp] theorem permitContainer_never (id : ContainerId) (mode : LockMode) :
    Never bad (s.permitContainer me id mode) := never_mapError _ Foreign.lock

@[simp] theorem permitVersion_never (v : Version) (mode : LockMode) : Never bad (s.permitVersion me v mode) := by
  simp [permitVersion, never_mapError, Foreign.lock]

@[simp] theorem storedVersion_never (v : Version) : Never bad (s.storedVersion v) := by
  unfold storedVersion
  refine (never_bind _).mpr ⟨never_mapError _ Foreign.store, fun found _ => ?_⟩
  split <;> simp [Foreign.versionNotFound]

@[simp] theorem load_never (v : Version) : Never bad (s.load v) := by
  simp [load, never_mapError, Foreign.store]

@[simp] theorem checkListed_never (v : Version) (ids : List ProfileId) : Never bad (s.checkListed v ids) := by
  unfold checkListed
  refine (never_bind _).mpr ⟨by simp, fun listed _ => ?_⟩
  split <;> simp [Foreign.profileNotFound]

@[simp] theorem prepareVersion_never (listed : ProfileVersion) (profiles : List Profile) :
    Never bad (s.prepareVersion me listed profiles) := by
  have each : ∀ state : VersionState, Never bad (forM profiles state.check) :=
    fun state => never_forM fun p _ => state.check_never p
  simp [prepareVersion, never_mapError, each, Foreign.store, Foreign.versionExists, Foreign.obstacle]

@[simp] theorem prepareVersionRemoval_never (v : Version) : Never bad (s.prepareVersionRemoval me v) := by
  simp [prepareVersionRemoval, Foreign.obstacle]

@[simp] theorem prepareProfile_never (p : Profile) : Never bad (s.prepareProfile me p) := by
  simp [prepareProfile, Foreign.profileExists]

@[simp] theorem prepareReplacement_never (p : Profile) : Never bad (s.prepareReplacement me p) := by
  simp [prepareReplacement]

@[simp] theorem prepareProfileRemoval_never (v : Version) (id : ProfileId) :
    Never bad (s.prepareProfileRemoval me v id) := by
  simp [prepareProfileRemoval, Foreign.obstacle]

@[simp] theorem versions_never : Never bad s.versions := by
  simp [versions, never_mapError, Foreign.store]

@[simp] theorem getVersion_never (v : Version) : Never bad (s.getVersion me v) := by
  simp [getVersion]

@[simp] theorem getProfile_never (v : Version) (id : ProfileId) : Never bad (s.getProfile me v id) := by
  unfold getProfile
  refine (never_bind _).mpr ⟨by simp, fun _ _ => ?_⟩
  split <;> simp [Foreign.store, Foreign.versionNotFound, Foreign.profileNotFound]

@[simp] theorem getProfiles_never (v : Version) : Never bad (s.getProfiles me v) := by
  simp [getProfiles]

@[simp] theorem order_never (v : Version) (roots : List ProfileId) : Never bad (s.order me v roots) := by
  simp [order]

@[simp] theorem lineage_never (v : Version) (roots : List ProfileId) : Never bad (s.lineage me v roots) := by
  simp [lineage]

@[simp] theorem linked_never (v : Version) (id : ProfileId) : Never bad (s.linked me v id) := by
  unfold linked
  refine (never_bind _).mpr ⟨by simp, fun _ _ => ?_⟩
  split <;> simp [Foreign.profileNotFound]

@[simp] theorem effective_never (v : Version) (id : ProfileId) : Never bad (s.effective me v id) := by
  simp [effective]

@[simp] theorem effectiveFor_never (v : Version) (ids : List ProfileId) :
    Never bad (s.effectiveFor me v ids) := by simp [effectiveFor]

@[simp] theorem checkAssignment_never (handle : LockHandle) (v : Version) (ids : List ProfileId) :
    Never bad (s.checkAssignment handle v ids) := by
  simp [checkAssignment, never_mapError, Foreign.lock]

@[simp] theorem checkAssignable_never (v : Version) (ids : List ProfileId) :
    Never bad (s.checkAssignable me v ids) := by simp [checkAssignable]

@[simp] theorem checkNotCurrent_never (id : ContainerId) (action : String) :
    Never bad (s.checkNotCurrent id action) := by
  simp [checkNotCurrent, Foreign.obstacle]

@[simp] theorem prepareRemoval_never (c : Container) (remaining : List ProfileId) :
    Never bad (s.prepareRemoval me c remaining) := by
  unfold prepareRemoval
  split <;> simp

end Deployment
end Foreign

namespace Deployment

section Answers

variable {bad : OperationError → Prop}

theorem settle_never (s : Deployment) {x : Except OperationError (α × Deployment)} (never : Never bad x) :
    Never bad (s.settle x).1 := by
  cases x with
  | error e => exact never.failed rfl
  | ok made => exact never_ok made.1

theorem acting_never (answer : α → Reply) {out : Outcome α} (never : Never bad out.1) :
    Never bad (acting answer out).1 := (never_map answer).mpr never

end Answers

variable (s : Deployment) (me : Thread)

@[simp] theorem get_harmless (r : ContainerRegistry) (id : ContainerId) : Harmless (r.get id) := by
  unfold ContainerRegistry.get
  split <;> simp [OperationError.OfProvisioning]

@[simp] theorem getFor_harmless (r : ContainerRegistry) (id : ContainerId) (aim : String) :
    Harmless (r.getFor id aim) := by
  simp [ContainerRegistry.getFor, OperationError.OfProvisioning]

@[simp] theorem register_harmless (r : ContainerRegistry) (c : Container) : Harmless (r.register c) := by
  simp [ContainerRegistry.register, OperationError.OfProvisioning]

@[simp] theorem checkBecomes_harmless (id : ContainerId) (current next : LifecycleState) :
    Harmless (current.checkBecomes id next) := by
  simp [LifecycleState.checkBecomes, OperationError.OfProvisioning]

@[simp] theorem forChange_harmless (id : ContainerId) (aim : String) : Harmless (s.forChange me id aim) := by
  simp [forChange]

@[simp] theorem checkParent_harmless (parent : Option ContainerId) : Harmless (s.checkParent me parent) := by
  cases parent <;> simp [checkParent]

@[simp] theorem checkRequest_harmless (r : ContainerRequest) : Harmless (s.checkRequest me r) := by
  simp only [checkRequest, never_bind, never_ite, never_throw]
  cases s.requestedVersion r <;> simp [OperationError.OfProvisioning]

@[simp] theorem prepareStart_harmless (id : ContainerId) : Harmless (s.prepareStart me id) := by
  simp [prepareStart]

@[simp] theorem prepareDestruction_harmless (id : ContainerId) :
    Harmless (s.prepareDestruction me id) := by
  simp only [prepareDestruction, never_bind]
  refine ⟨by simp, fun _ _ => ⟨by simp, fun _ _ => ⟨by simp, fun c _ => ?_⟩⟩⟩
  split <;> simp [OperationError.OfProvisioning]

@[simp] theorem prepareVersionChange_harmless (id : ContainerId) (v : Version) :
    Harmless (s.prepareVersionChange me id v) := by simp [prepareVersionChange]

@[simp] theorem prepareAddition_harmless (id : ContainerId) (ids : List ProfileId) :
    Harmless (s.prepareAddition me id ids) := by simp [prepareAddition]

@[simp] theorem getContainer_harmless (id : ContainerId) : Harmless (s.getContainer me id) := by
  simp [getContainer]

@[simp] theorem listContainers_harmless : Harmless s.listContainers := by simp [listContainers]

@[simp] theorem currentContainer_harmless : Harmless (s.currentContainer me) := by
  unfold currentContainer
  split <;> simp

@[simp] theorem containerEffective_harmless (id : ContainerId) : Harmless (s.containerEffective me id) := by
  simp [containerEffective]

end Deployment
end ContainerProfiles
