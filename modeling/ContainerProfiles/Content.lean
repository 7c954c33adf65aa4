import ContainerProfiles.Digest.Blake3
import ContainerProfiles.Resource

namespace ContainerProfiles

-- Making a resource step by step. One with a payload keeps the payload's digest and size, not the bytes.

inductive ResourceEdit where
  | content (bytes : List UInt8)
  | capability (c : Capability)
  | requirement (q : Requirement)
  | attribute (key value : String)

namespace Resource

def digestKey : String := "content.digest"
def sizeKey : String := "content.size"

def withContent (r : Resource) (bytes : List UInt8) : Resource :=
  { r with
    attributes := (r.attributes.insert digestKey (Digest.ofBytes bytes)).insert sizeKey
      (toString bytes.length) }

def edit (r : Resource) : ResourceEdit → Resource
  | .content bytes => r.withContent bytes
  | .capability c => { r with capabilities := r.capabilities ++ [c] }
  | .requirement q => { r with requirements := r.requirements ++ [q] }
  | .attribute key value => { r with attributes := r.attributes.insert key value }

end Resource
end ContainerProfiles
