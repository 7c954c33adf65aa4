import ContainerProfiles.Profile.Edit
import ContainerProfiles.Deployment.Containers

namespace ContainerProfiles.Deployment

-- Opening, starting and stopping a deployment. A start makes sure that the default version holds the default
-- profile and that the current container is there and started.

-- A deployment at rest, once its settings are in order.
def build (settings : Settings) (store : Store) (provisioner : Provisioner) (audience : Audience)
    (clock : String) : Except SettingsError Deployment := do
  settings.check
  return {
    settings
    defaultVersion := ← settings.version
    store
    clock
    locks := { timeout := settings.lockTimeout }
    provisioner
    audience }

-- Another deployment in the place of this one; the log and what the threads hold go on.
def replaceBy (s next : Deployment) : Deployment :=
  { next with
    locks := s.locks.renew next.settings.lockTimeout
    log := s.log
    audience := { next.audience with latches := s.audience.latches } }

-- The second step is taken when the first succeeds.
def andThen (first : Outcome α) (second : α → Deployment → Outcome β) : Outcome β :=
  match first with
  | (.ok x, s) => second x s
  | (.error e, s) => (.error e, s)

def ensureVersion (s : Deployment) (me : Thread) : Outcome Unit :=
  match s.versions with
  | .error e => (.error e, s)
  | .ok versions =>
      if s.defaultVersion ∈ versions then (.ok (), s)
      else
        andThen (s.addVersion me { version := s.defaultVersion, profiles := [], attributes := ∅ } [])
          fun _ s => (.ok (), s)

def ensureProfile (s : Deployment) (me : Thread) : Outcome Unit :=
  match s.getVersion me s.defaultVersion with
  | .error e => (.error e, s)
  | .ok listed =>
      if s.settings.defaultProfile ∈ listed.profiles then (.ok (), s)
      else
        match ((Profile.start s.settings.defaultProfile).withVersion s.defaultVersion).build with
        | .error e => (.error (.profile e), s)
        | .ok p => andThen (s.addProfile me p) fun _ s => (.ok (), s)

def ensureContainer (s : Deployment) (me : Thread) : Outcome Container :=
  let id := s.settings.currentContainer
  let created : Outcome Unit :=
    if s.containers.contains id then (.ok (), s)
    else
      andThen
        (s.create me
          { identity := id, version := some s.defaultVersion, profiles := [s.settings.defaultProfile] })
        fun _ s => (.ok (), s)
  andThen created fun _ s =>
    match s.getContainer me id with
    | .error e => (.error e, s)
    | .ok c => if c.isStarted then (.ok c, s) else s.startContainer me id none

def start (s : Deployment) (me : Thread) : Outcome Container :=
  let s := { s with
    profileService := s.profileService.activate
    containerService := s.containerService.activate }
  andThen (s.ensureVersion me) fun _ s =>
    andThen (s.ensureProfile me) fun _ s =>
      andThen (s.ensureContainer me) fun c s =>
        (.ok c, { s with current := some s.settings.currentContainer })

def stop (s : Deployment) : Deployment :=
  { s with
    profileService := s.profileService.deactivate
    containerService := s.containerService.deactivate }

end ContainerProfiles.Deployment
