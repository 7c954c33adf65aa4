import ContainerProfiles.Document.Node
import ContainerProfiles.Lifecycle
import ContainerProfiles.Profile.Basic
import ContainerProfiles.Provision.Provisioner

namespace ContainerProfiles

-- Containers: their place in the tree, the profiles assigned to them and what is installed on them.

-- Endpoints are ordered by identity, then by address.
structure Endpoint where
  identity : String
  url : String
deriving DecidableEq

namespace Endpoint

instance : Ord Endpoint :=
  ⟨compareLex (compareOn Endpoint.identity) (compareOn Endpoint.url)⟩

instance : Std.TransOrd Endpoint :=
  inferInstanceAs (Std.TransCmp (compareLex (compareOn Endpoint.identity) (compareOn Endpoint.url)))

def toNode (e : Endpoint) : Node :=
  .table [("identity", .text e.identity), ("url", .text e.url)]

end Endpoint

structure Container where
  identity : ContainerId
  parent : Option ContainerId := none
  children : KeySet ContainerId := ∅
  state : LifecycleState := .created
  version : Option Version := none
  profiles : List ProfileId := []
  endpoints : KeySet Endpoint := ∅
  attributes : Attributes := ∅
  -- In the order of installation.
  installed : List Installed := []
deriving DecidableEq

namespace Container

def isStarted (c : Container) : Bool := c.state = .started

def hasProfile (c : Container) (id : ProfileId) : Bool := id ∈ c.profiles

def installedIds (c : Container) : List ResourceId := c.installed.map (·.identity)

-- Profiles not assigned yet join in their order.
def addProfiles (c : Container) (ids : List ProfileId) : Container :=
  { c with
    profiles := ids.foldl (fun assigned id => if id ∈ assigned then assigned else assigned ++ [id])
      c.profiles }

-- Of what is installed the identities are shown.
def toNode (c : Container) : Node :=
  .table [("identity", .text c.identity), ("parent", Node.ofText? c.parent),
    ("children", .list (c.children.keys.map .text)), ("state", .text c.state.text),
    ("profile_version", Node.ofText? (c.version.map Version.text)),
    ("profiles", .list (c.profiles.map .text)),
    ("endpoints", .list (c.endpoints.keys.map Endpoint.toNode)),
    ("attributes", Node.ofAttributes c.attributes),
    ("installed", .list (c.installedIds.map .text))]

end Container

-- What a container is created from.
structure ContainerRequest where
  identity : ContainerId
  parent : Option ContainerId := none
  version : Option Version := none
  profiles : List ProfileId := []
  attributes : Attributes := ∅

end ContainerProfiles
