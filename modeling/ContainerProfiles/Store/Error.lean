import ContainerProfiles.Identity
import ContainerProfiles.Store.FileTree
import ContainerProfiles.Version.Basic

namespace ContainerProfiles

-- Why the store refuses, and which names profiles may have there: they become names of files.

inductive NameFault where
  | length | shape
deriving DecidableEq

def NameFault.text : NameFault → String
  | .length => "profile name must be 1-128 characters"
  | .shape => "profile name must not start with '.' or contain path separators"

-- Lengths are counted in bytes.
def checkProfileName (name : ProfileId) : Except NameFault Unit :=
  if name = "" ∨ 128 < name.utf8ByteSize then .error .length
  else if name.toList.head? = some '.' ∨ name.toList.any (fun c => c = '/' || c = '\\') then
    .error .shape
  else .ok ()

inductive StoreError where
  | file (fault : FileFault)
  | integrity (path expected actual : String)
  | versionNotFound (version : Version)
  | versionExists (version : Version)
  | profileNotFound (version : Version) (profile : ProfileId)
  | profileExists (version : Version) (profile : ProfileId)
  | updateRefused
  | formatMismatch (found : Nat)
  | malformed (detail : String)
  | invalidName (name : ProfileId) (fault : NameFault)
deriving DecidableEq

namespace StoreError

-- The format of the documents that this library reads and writes.
def format : Nat := 1

def message : StoreError → String
  | file fault => "store I/O error: " ++ fault.message
  | integrity path expected actual =>
      s!"integrity check failed for '{path}': expected {expected}, got {actual}"
  | versionNotFound version => "profile version not found: " ++ version.text
  | versionExists version => "profile version already exists: " ++ version.text
  | profileNotFound version profile => s!"profile '{profile}' not found in version {version.text}"
  | profileExists version profile =>
      s!"profile '{profile}' already exists in version {version.text}"
  | updateRefused => "lock acquisition failed: update refused"
  | formatMismatch found =>
      s!"store format version mismatch: expected {toString format}, found {toString found}"
  | malformed detail => "serialization error: " ++ detail
  | invalidName name fault => s!"invalid profile name: '{name}': {fault.text}"

def isNotFound : StoreError → Bool
  | versionNotFound _ | profileNotFound _ _ => true
  | _ => false

end StoreError
end ContainerProfiles
