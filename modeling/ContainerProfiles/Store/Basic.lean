import ContainerProfiles.Store.Files
import ContainerProfiles.Store.Memory

namespace ContainerProfiles

-- The store of versions and profiles, in memory or on files.

inductive Store where
  | memory (store : MemoryStore)
  | files (store : FileStore)

namespace Store

def versions : Store → Except StoreError (List Version)
  | memory s => .ok s.versions.keys
  | files s => s.versions

def version? (v : Version) : Store → Except StoreError (Option ProfileVersion)
  | memory s => .ok (s.version? v)
  | files s => s.version? v

def profile? (v : Version) (id : ProfileId) : Store → Except StoreError (Option Profile)
  | memory s => s.profile? v id
  | files s => s.profile? v id

-- The profiles of a version in the order of their identities.
def profiles (s : Store) (v : Version) : Except StoreError (List Profile) := do
  match ← s.version? v with
  | none => throw (.versionNotFound v)
  | some listed => return (← listed.profiles.mapM (fun id => s.profile? v id)).filterMap id

def onMemory (s : MemoryStore) : Except StoreError MemoryStore → Except StoreError Unit × Store
  | .ok s => (.ok (), .memory s)
  | .error e => (.error e, .memory s)

def onFiles : Except StoreError Unit × FileStore → Except StoreError Unit × Store
  | (outcome, s) => (outcome, .files s)

-- `now` goes into the documents of a store on files.
def addVersion (now : String) (v : Version) (attributes : Attributes) :
    Store → Except StoreError Unit × Store
  | memory s => onMemory s (s.addVersion v attributes)
  | files s => onFiles (s.addVersion now v attributes)

def removeVersion (v : Version) : Store → Except StoreError Unit × Store
  | memory s => onMemory s (s.removeVersion v)
  | files s => onFiles (s.removeVersion v)

def addProfile (now : String) (p : Profile) : Store → Except StoreError Unit × Store
  | memory s => onMemory s (s.addProfile p)
  | files s => onFiles (s.addProfile now p)

def updateProfile (now : String) (p : Profile) : Store → Except StoreError Unit × Store
  | memory s => onMemory s (s.updateProfile p)
  | files s => onFiles (s.updateProfile now p)

def removeProfile (v : Version) (id : ProfileId) : Store → Except StoreError Unit × Store
  | memory s => onMemory s (s.removeProfile v id)
  | files s => onFiles (s.removeProfile v id)

-- The store as it is opened another time: one in memory is empty then.
def reopened : Store → Except StoreError Store
  | memory _ => .ok (.memory {})
  | files s => s.prepare.1.map (fun _ => .files s.prepare.2)

end Store
end ContainerProfiles
