import ContainerProfiles.Inheritance.Linked
import ContainerProfiles.Deployment.Basic

namespace ContainerProfiles

-- Versions and their profiles. A version is read as a whole before it is changed, and what is written fits it:
-- parents are there, nothing inherits from itself, nothing in use goes away.

-- A version with its profiles, as they are checked before anything is written.
structure VersionState where
  listed : ProfileVersion
  profiles : Catalog

namespace VersionState

def ofProfiles (listed : ProfileVersion) (profiles : List Profile) : VersionState :=
  { listed, profiles := .ofProfiles profiles }

def version (v : VersionState) : Version := v.listed.version

def put (v : VersionState) (p : Profile) : VersionState :=
  { v with profiles := v.profiles.insert p.identity p }

def require (v : VersionState) (id : ProfileId) : Except OperationError Profile :=
  match v.profiles.get? id with
  | some p => .ok p
  | none => .error (.profileNotFound v.version id)

def linearize (v : VersionState) (version : Version) (roots : List ProfileId) :
    Except OperationError (List Profile) :=
  (v.profiles.linearize roots).mapError (OperationError.ofLineage version)

-- Whether a profile that is part of the state fits the rest of it.
def check (v : VersionState) (p : Profile) : Except OperationError Unit := do
  p.validate.mapError OperationError.profile
  if p.isEffective then throw (.obstacle (.effectiveProfile p.identity))
  if p.version ≠ v.version then throw (.obstacle (.otherVersion p.identity p.version v.version))
  match p.parents.find? (fun parent => !v.profiles.contains parent) with
  | some parent => throw (.obstacle (.missingParent p.identity parent v.version))
  | none =>
      let _ ← v.linearize v.version [p.identity]

-- Profiles with `id` among their parents.
def childrenOf (v : VersionState) (id : ProfileId) : List ProfileId :=
  (v.profiles.values.filter (fun p => id ∈ p.parents)).map (·.identity)

def snapshot (v : VersionState) : ProfileVersion :=
  { version := v.version, profiles := v.profiles.keys, attributes := v.listed.attributes }

end VersionState

namespace Deployment

def storedVersion (s : Deployment) (v : Version) : Except OperationError ProfileVersion := do
  match ← (s.store.version? v).mapError OperationError.store with
  | some listed => return listed
  | none => throw (.versionNotFound v)

def load (s : Deployment) (v : Version) : Except OperationError VersionState := do
  let listed ← s.storedVersion v
  return .ofProfiles listed (← (s.store.profiles v).mapError OperationError.store)

-- The containers with this version that also pass the test.
def usersOf (s : Deployment) (v : Version) (test : Container → Bool) : List ContainerId :=
  (s.containers.list.filter (fun c => c.version = some v && test c)).map (·.identity)

def ofStore (s : Deployment) (result : α) : Except StoreError Unit × Store → Outcome α
  | (.ok (), store) => (.ok result, { s with store })
  | (.error e, store) => (.error (.store e), { s with store })

def storeProfiles (clock : String) :
    List Profile → Except StoreError Unit × Store → Except StoreError Unit × Store
  | p :: rest, (.ok (), store) => storeProfiles clock rest (store.addProfile clock p)
  | _, result => result

def prepareVersion (s : Deployment) (me : Thread) (listed : ProfileVersion) (profiles : List Profile) :
    Except OperationError VersionState := do
  s.permitVersion me listed.version .write
  if (← (s.store.version? listed.version).mapError OperationError.store).isSome then
    throw (.versionExists listed.version)
  let state := VersionState.ofProfiles listed profiles
  if state.profiles.size ≠ profiles.length then
    throw (.obstacle (.repeatedProfile listed.version))
  profiles.forM state.check
  return state

def addVersion (s : Deployment) (me : Thread) (listed : ProfileVersion) (profiles : List Profile) :
    Outcome ProfileVersion :=
  match s.prepareVersion me listed profiles with
  | .error e => (.error e, s)
  | .ok state =>
      s.ofStore state.snapshot (storeProfiles s.clock profiles
        (s.store.addVersion s.clock listed.version listed.attributes))

def prepareVersionRemoval (s : Deployment) (me : Thread) (v : Version) :
    Except OperationError ProfileVersion := do
  s.permitVersion me v .write
  let state ← s.load v
  let users := s.usersOf v (fun c => c.state ≠ .destroyed)
  if !users.isEmpty then throw (.obstacle (.versionInUse v users))
  return state.snapshot

def removeVersion (s : Deployment) (me : Thread) (v : Version) : Outcome ProfileVersion :=
  match s.prepareVersionRemoval me v with
  | .error e => (.error e, s)
  | .ok removed => s.ofStore removed (s.store.removeVersion v)

def versions (s : Deployment) : Except OperationError (List Version) := do
  s.profileService.check
  s.store.versions.mapError OperationError.store

def getVersion (s : Deployment) (me : Thread) (v : Version) : Except OperationError ProfileVersion := do
  s.permitVersion me v .read
  s.storedVersion v

def prepareProfile (s : Deployment) (me : Thread) (p : Profile) : Except OperationError Unit := do
  s.permitVersion me p.version .write
  let state ← s.load p.version
  if state.profiles.contains p.identity then throw (.profileExists p.version p.identity)
  (state.put p).check p

def addProfile (s : Deployment) (me : Thread) (p : Profile) : Outcome Profile :=
  match s.prepareProfile me p with
  | .error e => (.error e, s)
  | .ok () => s.ofStore p (s.store.addProfile s.clock p)

def prepareReplacement (s : Deployment) (me : Thread) (p : Profile) : Except OperationError Unit := do
  s.permitVersion me p.version .write
  let state ← s.load p.version
  let _ ← state.require p.identity
  (state.put p).check p

def storeReplacement (s : Deployment) (p : Profile) : Except StoreError Unit × Store :=
  if s.provisioner.refusals.updates.contains p.identity then (.error .updateRefused, s.store)
  else s.store.updateProfile s.clock p

-- Puts the profile in the place of the one of its identity. Listeners hear of both ends.
def replaceProfile (s : Deployment) (me : Thread) (p : Profile) (caller : Option String) :
    Outcome Profile :=
  match s.prepareReplacement me p with
  | .error e => (.error e, s)
  | .ok () =>
      let (outcome, next) := s.ofStore p (s.storeReplacement p)
      match outcome with
      | .ok p =>
          (.ok p, next.announceProfile caller { version := p.version, profile := p.identity })
      | .error (.store e) =>
          (.error (.store e), next.announceProfile caller
            { version := p.version, profile := p.identity, error := some e.message })
      | .error e => (.error e, next)

def prepareProfileRemoval (s : Deployment) (me : Thread) (v : Version) (id : ProfileId) :
    Except OperationError Profile := do
  s.permitVersion me v .write
  let state ← s.load v
  let p ← state.require id
  let children := state.childrenOf id
  if !children.isEmpty then throw (.obstacle (.parentOf id children))
  let users := s.usersOf v (fun c => c.hasProfile id)
  if !users.isEmpty then throw (.obstacle (.profileInUse id users))
  return p

def removeProfile (s : Deployment) (me : Thread) (v : Version) (id : ProfileId) : Outcome Profile :=
  match s.prepareProfileRemoval me v id with
  | .error e => (.error e, s)
  | .ok p => s.ofStore p (s.store.removeProfile v id)

def getProfile (s : Deployment) (me : Thread) (v : Version) (id : ProfileId) :
    Except OperationError Profile := do
  s.permitVersion me v .read
  match s.store.profile? v id with
  | .ok (some p) => return p
  | .ok none => throw (.profileNotFound v id)
  | .error (.versionNotFound v) => throw (.versionNotFound v)
  | .error e => throw (.store e)

def getProfiles (s : Deployment) (me : Thread) (v : Version) : Except OperationError (List Profile) := do
  s.permitVersion me v .read
  return (← s.load v).profiles.values

-- The profiles that some roots inherit from, parents first.
def order (s : Deployment) (me : Thread) (v : Version) (roots : List ProfileId) :
    Except OperationError (List Profile) := do
  s.permitVersion me v .read
  (← s.load v).linearize v roots

def lineage (s : Deployment) (me : Thread) (v : Version) (roots : List ProfileId) :
    Except OperationError (List ProfileId) := do
  return (← s.order me v roots).map (·.identity)

def linked (s : Deployment) (me : Thread) (v : Version) (id : ProfileId) :
    Except OperationError LinkedProfile := do
  match LinkedProfile.link? (← s.order me v [id]) id with
  | some l => return l
  | none => throw (.profileNotFound v id)

def effective (s : Deployment) (me : Thread) (v : Version) (id : ProfileId) :
    Except OperationError Profile := do
  return Profile.merge (Profile.effectiveIdentity id) v (← s.order me v [id])

def effectiveFor (s : Deployment) (me : Thread) (v : Version) (ids : List ProfileId) :
    Except OperationError Profile := do
  return Profile.merge (Profile.effectiveIdentityFor v ids) v (← s.order me v ids)

-- The version is there and lists every one of the profiles.
def checkListed (s : Deployment) (v : Version) (ids : List ProfileId) : Except OperationError Unit := do
  let listed ← s.storedVersion v
  match ids.find? (fun id => !listed.profiles.contains id) with
  | some id => throw (.profileNotFound v id)
  | none => return ()

-- As `checkListed`, for a caller who brings the lock of the version.
def checkAssignment (s : Deployment) (handle : LockHandle) (v : Version) (ids : List ProfileId) :
    Except OperationError Unit := do
  (handle.check (versionKey v) .read).mapError .lock
  s.checkListed v ids

end Deployment
end ContainerProfiles
