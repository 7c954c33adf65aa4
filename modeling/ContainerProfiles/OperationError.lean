import ContainerProfiles.Inheritance.Linearization
import ContainerProfiles.Lifecycle
import ContainerProfiles.Lock.Basic
import ContainerProfiles.Provision.Error
import ContainerProfiles.Settings.Basic
import ContainerProfiles.Store.Error

namespace ContainerProfiles

-- What stands in the way of an operation that is otherwise in order.
inductive Obstacle where
  | cycle (version : Version) (child parent : ProfileId)
  | repeatedProfile (version : Version)
  | effectiveProfile (profile : ProfileId)
  | otherVersion (profile : ProfileId) (version expected : Version)
  | missingParent (profile parent : ProfileId) (version : Version)
  | versionInUse (version : Version) (users : List ContainerId)
  | profileInUse (profile : ProfileId) (users : List ContainerId)
  | parentOf (profile : ProfileId) (children : List ProfileId)
  | unnamedContainer
  | ownParent (container : ContainerId)
  | hasChildren (container : ContainerId) (children : List ContainerId)
  | currentContainer (action : String) (container : ContainerId)
deriving DecidableEq

-- Why an operation of a deployment is refused.
inductive OperationError where
  | profile (cause : ProfileError)
  | store (cause : StoreError)
  | provision (cause : ProvisionError)
  | lock (cause : LockError)
  | settings (cause : SettingsError)
  | file (cause : FileFault)
  | obstacle (cause : Obstacle)
  | inactive (component : String)
  | invalidTransition (container : ContainerId) (current : LifecycleState) (aim : String)
  | containerNotFound (container : ContainerId)
  | versionNotFound (version : Version)
  | profileNotFound (version : Version) (profile : ProfileId)
  | containerExists (container : ContainerId)
  | versionExists (version : Version)
  | profileExists (version : Version) (profile : ProfileId)
deriving DecidableEq

def listing (names : List String) : String := String.intercalate ", " names

namespace Obstacle

def message : Obstacle → String
  | cycle version child parent =>
      s!"inheritance cycle in version {version.text}: '{child}' -> '{parent}'"
  | repeatedProfile version => "duplicate profile identity in version " ++ version.text
  | effectiveProfile profile => s!"effective profile '{profile}' cannot be stored"
  | otherVersion profile version expected =>
      s!"profile '{profile}' has version {version.text}, expected {expected.text}"
  | missingParent profile parent version =>
      s!"parent '{parent}' of profile '{profile}' does not exist in version {version.text}"
  | versionInUse version users =>
      s!"profile version {version.text} is in use by containers: {listing users}"
  | profileInUse profile users => s!"profile '{profile}' is in use by containers: {listing users}"
  | parentOf profile children => s!"profile '{profile}' is a parent of: {listing children}"
  | unnamedContainer => "container identity must not be empty"
  | ownParent container => s!"container '{container}' cannot be its own parent"
  | hasChildren container children =>
      s!"container '{container}' still has children: {listing children}"
  | currentContainer action container => s!"cannot {action} the current container '{container}'"

end Obstacle

namespace OperationError

def message : OperationError → String
  | profile cause => "profile error: " ++ cause.message
  | store cause => "store error: " ++ cause.message
  | provision cause => "provisioning error: " ++ cause.message
  | lock (.timeout key mode milliseconds) => (LockError.timeout key mode milliseconds).message
  | lock cause => "illegal state: " ++ cause.message
  | settings cause => "configuration error: " ++ cause.message
  | file cause => "I/O error: " ++ cause.message
  | obstacle cause => "illegal state: " ++ cause.message
  | inactive component => s!"component '{component}' is not active"
  | invalidTransition container current aim =>
      s!"invalid state transition for '{container}': {current.text} -> {aim}"
  | containerNotFound container => "container not found: " ++ container
  | versionNotFound version => "profile version not found: " ++ version.text
  | profileNotFound version id => s!"profile '{id}' not found in version {version.text}"
  | containerExists container => s!"already exists: container '{container}'"
  | versionExists version => "already exists: profile version " ++ version.text
  | profileExists version id => s!"already exists: profile '{id}' in version {version.text}"

-- Something asked for is not there, as opposed to a check that failed.
def isNotFound : OperationError → Bool
  | containerNotFound _ | versionNotFound _ | profileNotFound _ _ => true
  | store cause => cause.isNotFound
  | _ => false

def ofLineage (version : Version) : LineageError → OperationError
  | .cycle child parent => .obstacle (.cycle version child parent)
  | .missing id => .profileNotFound version id

end OperationError

namespace LifecycleState

def checkBecomes (container : ContainerId) (current next : LifecycleState) :
    Except OperationError Unit :=
  if current.canBecome next then .ok ()
  else .error (.invalidTransition container current next.text)

end LifecycleState
end ContainerProfiles
