import ContainerProfiles.Container.Registry
import ContainerProfiles.Event.Audience
import ContainerProfiles.Lock.Table
import ContainerProfiles.Provision.Pass
import ContainerProfiles.Store.Basic

namespace ContainerProfiles

-- A part that can be switched on and off; every entry into it checks first.
structure Component where
  name : String
  active : Bool := false

namespace Component

def activate (c : Component) : Component := { c with active := true }

def deactivate (c : Component) : Component := { c with active := false }

def check (c : Component) : Except OperationError Unit :=
  if c.active then .ok () else .error (.inactive c.name)

end Component

-- The whole state: the store of profiles, the containers, the locks on both, what provisioning acts upon, and who
-- listens. An operation holds its own locks for as long as it runs and nothing runs beside it, so it asks whether
-- they would be granted and leaves the table as it was.
structure Deployment where
  settings : Settings
  defaultVersion : Version
  store : Store
  -- The time that goes into stored documents.
  clock : String
  containers : ContainerRegistry := {}
  -- The container the deployment itself runs in, once it has been started.
  current : Option ContainerId := none
  locks : LockTable
  provisioner : Provisioner
  audience : Audience := {}
  log : List Notice := []
  profileService : Component := { name := "profile-service" }
  containerService : Component := { name := "container-service" }

-- What an operation gives back, and the deployment after it.
abbrev Outcome (α : Type) := Except OperationError α × Deployment

namespace Deployment

-- Nothing of an operation stays unless all of it succeeds.
def settle (s : Deployment) : Except OperationError (α × Deployment) → Outcome α
  | .ok (x, next) => (.ok x, next)
  | .error e => (.error e, s)

def containerKey (id : ContainerId) : String := lockKey "container" id

def versionKey (v : Version) : String := lockKey "version" v.text

def permitContainer (s : Deployment) (me : Thread) (id : ContainerId) (mode : LockMode) :
    Except OperationError Unit :=
  (s.locks.permit me (containerKey id) mode).mapError .lock

-- The locks of versions are the profile service's.
def permitVersion (s : Deployment) (me : Thread) (v : Version) (mode : LockMode) :
    Except OperationError Unit := do
  s.profileService.check
  (s.locks.permit me (versionKey v) mode).mapError .lock

-- A lock that stays with the caller.
def lock (s : Deployment) (me : Thread) (key : String) (mode : LockMode) :
    Except OperationError (LockHandle × Deployment) := do
  let (handle, locks) ← (s.locks.acquire me key mode).mapError .lock
  return (handle, { s with locks })

def lockContainer (s : Deployment) (me : Thread) (id : ContainerId) (mode : LockMode) :
    Except OperationError (LockHandle × Deployment) := do
  s.containerService.check
  s.lock me (containerKey id) mode

def lockVersion (s : Deployment) (me : Thread) (v : Version) (mode : LockMode) :
    Except OperationError (LockHandle × Deployment) := do
  s.profileService.check
  s.lock me (versionKey v) mode

def unlock (s : Deployment) (handle : LockHandle) : Deployment :=
  { s with locks := s.locks.release handle }

def sight (s : Deployment) (id : ContainerId) : Audience.Sight :=
  (s.containers.live.get? id).map (fun c => (c.state, c.installedIds))

def announce (s : Deployment) (caller : Option String) (e : ProvisionEvent) : Deployment :=
  { s with
    log := s.log ++ s.audience.provisionNotices (s.sight e.container) caller e
    audience := s.audience.count e }

def announceProfile (s : Deployment) (caller : Option String) (e : ProfileEvent) : Deployment :=
  { s with log := s.log ++ s.audience.profileNotices caller e }

def modify (s : Deployment) (id : ContainerId) (change : Container → Container) : Deployment :=
  { s with containers := s.containers.modify id change }

end Deployment
end ContainerProfiles
