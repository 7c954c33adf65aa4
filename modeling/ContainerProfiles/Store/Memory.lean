import ContainerProfiles.Inheritance.Linearization
import ContainerProfiles.Store.Error
import ContainerProfiles.Version.Order

namespace ContainerProfiles

-- A store held in memory: versions, and under each the profiles it holds. What does not succeed leaves no trace.

structure StoredVersion where
  attributes : Attributes
  profiles : Catalog := ∅

structure MemoryStore where
  versions : Dict Version StoredVersion := ∅

namespace MemoryStore

def stored (s : MemoryStore) (v : Version) : Except StoreError StoredVersion :=
  match s.versions.get? v with
  | some entry => .ok entry
  | none => .error (.versionNotFound v)

def put (s : MemoryStore) (v : Version) (entry : StoredVersion) : MemoryStore :=
  { versions := s.versions.insert v entry }

def version? (s : MemoryStore) (v : Version) : Option ProfileVersion :=
  (s.versions.get? v).map (fun entry =>
    { version := v, profiles := entry.profiles.keys, attributes := entry.attributes })

def profile? (s : MemoryStore) (v : Version) (id : ProfileId) : Except StoreError (Option Profile) :=
  (s.stored v).map (fun entry => entry.profiles.get? id)

def addVersion (s : MemoryStore) (v : Version) (attributes : Attributes) :
    Except StoreError MemoryStore :=
  if s.versions.contains v then .error (.versionExists v) else .ok (s.put v { attributes })

def removeVersion (s : MemoryStore) (v : Version) : Except StoreError MemoryStore := do
  let _ ← s.stored v
  return { versions := s.versions.erase v }

def addProfile (s : MemoryStore) (p : Profile) : Except StoreError MemoryStore := do
  let entry ← s.stored p.version
  if entry.profiles.contains p.identity then throw (.profileExists p.version p.identity)
  return s.put p.version { entry with profiles := entry.profiles.insert p.identity p }

def updateProfile (s : MemoryStore) (p : Profile) : Except StoreError MemoryStore := do
  let entry ← s.stored p.version
  if !entry.profiles.contains p.identity then throw (.profileNotFound p.version p.identity)
  return s.put p.version { entry with profiles := entry.profiles.insert p.identity p }

def removeProfile (s : MemoryStore) (v : Version) (id : ProfileId) :
    Except StoreError MemoryStore := do
  let entry ← s.stored v
  if !entry.profiles.contains id then throw (.profileNotFound v id)
  return s.put v { entry with profiles := entry.profiles.erase id }

end MemoryStore
end ContainerProfiles
