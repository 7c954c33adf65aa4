import ContainerProfiles.Identity
import ContainerProfiles.Lifecycle
import ContainerProfiles.Version.Basic

namespace ContainerProfiles

-- What is told about the provisioning of containers and about changed profiles.

inductive ProvisionStage where
  | provisioning | provisioned | removed | error
deriving DecidableEq

namespace ProvisionStage

def all : List ProvisionStage := [.provisioning, .provisioned, .removed, .error]

def text : ProvisionStage → String
  | provisioning => "provisioning"
  | provisioned => "provisioned"
  | removed => "removed"
  | error => "error"

def ofText? (s : String) : Option ProvisionStage := all.find? (fun t => t.text = s)

end ProvisionStage

structure ProvisionEvent where
  container : ContainerId
  stage : ProvisionStage
  -- The effective profile that is provisioned, once it is known.
  profile : Option ProfileId := none
  error : Option String := none
deriving DecidableEq

-- A stored profile was replaced, or replacing it failed.
structure ProfileEvent where
  version : Version
  profile : ProfileId
  error : Option String := none
deriving DecidableEq

inductive Event where
  | provision (event : ProvisionEvent)
  | profile (event : ProfileEvent)
deriving DecidableEq

-- What came of telling a listener.
inductive Notice where
  | heard (listener : String) (event : Event)
  | observed (state : LifecycleState) (installed : List ResourceId)
deriving DecidableEq

end ContainerProfiles
