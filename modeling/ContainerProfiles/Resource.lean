import ContainerProfiles.Dict
import ContainerProfiles.Identity

namespace ContainerProfiles

-- Resources that can be installed, what they provide and what they need.

structure Capability where
  ns : String
  name : String
deriving DecidableEq

structure Requirement where
  ns : String
  name : String
  optional : Bool := false
deriving DecidableEq

structure Resource where
  identity : ResourceId
  capabilities : List Capability := []
  requirements : List Requirement := []
  attributes : Attributes := ∅
deriving DecidableEq

def Capability.text (c : Capability) : String := c.ns ++ ":" ++ c.name

namespace Requirement

def text (r : Requirement) : String :=
  r.ns ++ ":" ++ r.name ++ (if r.optional then " (optional)" else "")

def admits (r : Requirement) (c : Capability) : Bool := r.ns = c.ns && r.name = c.name

end Requirement

namespace Resource

-- Every resource provides its own symbolic name in this namespace.
def identityNamespace : String := "identity"

def symbolicName (r : Resource) : String := ResourceId.symbolicName r.identity

def provides (r : Resource) (q : Requirement) : Bool :=
  (q.ns = identityNamespace && q.name = r.symbolicName) || r.capabilities.any q.admits

def named (name version : String) : Resource := { identity := ResourceId.ofParts name version }

end Resource
end ContainerProfiles
