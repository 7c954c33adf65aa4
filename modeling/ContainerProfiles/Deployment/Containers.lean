import ContainerProfiles.Deployment.Profiles

namespace ContainerProfiles.Deployment

-- Containers: created, started, stopped, destroyed, and given other profiles. A started container is provisioned
-- after every change of its assignment; what a failed pass did stays.

-- A container's own changes are refused while it is the current one.
def checkNotCurrent (s : Deployment) (id : ContainerId) (action : String) :
    Except OperationError Unit :=
  if s.current = some id then .error (.obstacle (.currentContainer action id)) else .ok ()

-- The version is there with these profiles, and its lock can be had.
def checkAssignable (s : Deployment) (me : Thread) (v : Version) (ids : List ProfileId) :
    Except OperationError Unit := do
  s.permitVersion me v .read
  s.checkListed v ids

-- A live container whose lock can be had for a change.
def forChange (s : Deployment) (me : Thread) (id : ContainerId) (aim : String) :
    Except OperationError Container := do
  s.permitContainer me id .write
  s.containers.getFor id aim

def finishPass (s : Deployment) (id : ContainerId) (pass : Pass) : Deployment :=
  { s with provisioner := pass.provisioner }.modify id (fun c => { c with installed := pass.installed })

-- The listeners see what was installed before until the pass is over.
def reconcile (s : Deployment) (caller : Option String) (c : Container) (effective : Profile) :
    Outcome Unit :=
  let event (stage : ProvisionStage) (error : Option String) : ProvisionEvent :=
    { container := c.identity, stage, profile := some effective.identity, error }
  let s := s.announce caller (event .provisioning none)
  let pass := s.provisioner.reconcile s.settings.runtime effective c.installed
  match pass.outcome with
  | .ok () => (.ok (), (s.announce caller (event .provisioned none)).finishPass c.identity pass)
  | .error e =>
      let error := OperationError.provision e
      (.error error, (s.announce caller (event .error (some error.message))).finishPass c.identity pass)

-- Brings a started container in line with its assignment; any other is left alone.
def provision (s : Deployment) (me : Thread) (caller : Option String) (id : ContainerId) : Outcome Unit :=
  match s.containers.live.get? id with
  | none => (.ok (), s)
  | some c =>
      match c.isStarted, c.version with
      | true, some v =>
          match s.effectiveFor me v c.profiles with
          | .error e =>
              (.error e, s.announce caller
                { container := id, stage := .error, error := some e.message })
          | .ok effective => s.reconcile caller c effective
      | _, _ => (.ok (), s)

-- A change of a container that is committed before the container is provisioned.
def changeAndProvision (s : Deployment) (me : Thread) (caller : Option String) (changed : Container) :
    Outcome Container :=
  match (s.modify changed.identity (fun _ => changed)).provision me caller changed.identity with
  | (.error e, s) => (.error e, s)
  | (.ok (), s) => (s.containers.get changed.identity, s)

def checkParent (s : Deployment) (me : Thread) : Option ContainerId → Except OperationError Unit
  | none => .ok ()
  | some parent => do
      let _ ← s.forChange me parent "link-child"

-- Profiles without a version belong to the default one.
def requestedVersion (s : Deployment) (r : ContainerRequest) : Option Version :=
  match r.version with
  | some v => some v
  | none => if r.profiles.isEmpty then none else some s.defaultVersion

def checkRequest (s : Deployment) (me : Thread) (r : ContainerRequest) : Except OperationError Unit := do
  s.containerService.check
  if Text.blank r.identity then throw (.obstacle .unnamedContainer)
  if r.parent = some r.identity then throw (.obstacle (.ownParent r.identity))
  s.checkParent me r.parent
  s.permitContainer me r.identity .write
  if s.containers.contains r.identity then throw (.containerExists r.identity)
  match s.requestedVersion r with
  | some v => s.checkAssignable me v r.profiles
  | none => return ()

def linkChild (registry : ContainerRegistry) (child : ContainerId) :
    Option ContainerId → ContainerRegistry
  | none => registry
  | some parent => registry.modify parent (fun c => { c with children := KeySet.add c.children child })

def unlinkChild (registry : ContainerRegistry) (child : ContainerId) :
    Option ContainerId → ContainerRegistry
  | none => registry
  | some parent => registry.modify parent (fun c => { c with children := c.children.erase child })

def create (s : Deployment) (me : Thread) (r : ContainerRequest) : Outcome Container :=
  s.settle do
    s.checkRequest me r
    let fresh : Container :=
      { identity := r.identity, parent := r.parent, version := s.requestedVersion r,
        attributes := r.attributes }
    let c := fresh.addProfiles r.profiles
    let registry ← s.containers.register c
    return (c, { s with containers := linkChild registry c.identity c.parent })

-- A container without an assignment is started with the default one.
def prepareStart (s : Deployment) (me : Thread) (id : ContainerId) : Except OperationError Container := do
  s.containerService.check
  let c ← s.forChange me id "started"
  c.state.checkBecomes id .started
  let v := c.version.getD s.defaultVersion
  let profiles := if c.profiles.isEmpty then [s.settings.defaultProfile] else c.profiles
  s.checkAssignable me v profiles
  return { c with version := some v, profiles, state := .started }

def startContainer (s : Deployment) (me : Thread) (id : ContainerId) (caller : Option String) :
    Outcome Container :=
  match s.prepareStart me id with
  | .error e => (.error e, s)
  | .ok c => s.changeAndProvision me caller c

def stopContainer (s : Deployment) (me : Thread) (id : ContainerId) : Outcome Container :=
  s.settle do
    s.containerService.check
    s.checkNotCurrent id "stop"
    let c ← s.forChange me id "stopped"
    c.state.checkBecomes id .stopped
    let stopped := { c with state := .stopped }
    return (stopped, s.modify id (fun _ => stopped))

def prepareDestruction (s : Deployment) (me : Thread) (id : ContainerId) :
    Except OperationError Container := do
  s.containerService.check
  s.checkNotCurrent id "destroy"
  let c ← s.containers.getFor id "destroyed"
  match c.parent with
  | some parent => s.permitContainer me parent .write
  | none => pure ()
  s.permitContainer me id .write
  c.state.checkBecomes id .destroyed
  if !c.children.isEmpty then throw (.obstacle (.hasChildren id c.children.keys))
  return if c.isStarted then { c with state := .stopped } else c

-- A started container counts as stopped from here on, also if not everything can be removed.
def destroy (s : Deployment) (me : Thread) (id : ContainerId) (caller : Option String) :
    Outcome Container :=
  match s.prepareDestruction me id with
  | .error e => (.error e, s)
  | .ok c =>
      let pass := s.provisioner.releaseAll c.installed
      match pass.outcome with
      | .error e =>
          let error := OperationError.provision e
          let s := s.modify id (fun _ => c)
          (.error error, (s.announce caller
            { container := id, stage := .error, error := some error.message }).finishPass id pass)
      | .ok () =>
          let s := (s.announce caller { container := id, stage := .removed }).finishPass id pass
          (.ok { c with state := .destroyed, installed := pass.installed },
            { s with containers := unlinkChild (s.containers.remove id) id c.parent })

def prepareVersionChange (s : Deployment) (me : Thread) (id : ContainerId) (v : Version) :
    Except OperationError Container := do
  s.containerService.check
  let c ← s.forChange me id "set-version"
  s.checkAssignable me v c.profiles
  return { c with version := some v }

def assignVersion (s : Deployment) (me : Thread) (id : ContainerId) (v : Version)
    (caller : Option String) : Outcome Container :=
  match s.prepareVersionChange me id v with
  | .error e => (.error e, s)
  | .ok c => s.changeAndProvision me caller c

def prepareAddition (s : Deployment) (me : Thread) (id : ContainerId) (profiles : List ProfileId) :
    Except OperationError Container := do
  s.containerService.check
  let c ← s.forChange me id "add-profiles"
  let v := c.version.getD s.defaultVersion
  s.checkAssignable me v profiles
  return { c with version := some v }.addProfiles profiles

def addProfiles (s : Deployment) (me : Thread) (id : ContainerId) (profiles : List ProfileId)
    (caller : Option String) : Outcome Container :=
  match s.prepareAddition me id profiles with
  | .error e => (.error e, s)
  | .ok c => s.changeAndProvision me caller c

-- The default profile stands in for the last one removed.
def prepareRemoval (s : Deployment) (me : Thread) (c : Container) (remaining : List ProfileId) :
    Except OperationError Container := do
  match c.version with
  | none => return { c with profiles := remaining }
  | some v =>
      s.permitVersion me v .read
      if remaining.isEmpty then
        s.checkListed v [s.settings.defaultProfile]
        return { c with profiles := [s.settings.defaultProfile] }
      else return { c with profiles := remaining }

-- Profiles that are not assigned are passed over.
def removeProfiles (s : Deployment) (me : Thread) (id : ContainerId) (profiles : List ProfileId)
    (caller : Option String) : Outcome Container :=
  match (do
    s.containerService.check
    s.forChange me id "remove-profiles") with
  | .error e => (.error e, s)
  | .ok c =>
      let remaining := c.profiles.filter (· ∉ profiles)
      if remaining.length = c.profiles.length then (.ok c, s)
      else
        match s.prepareRemoval me c remaining with
        | .error e => (.error e, s)
        | .ok c => s.changeAndProvision me caller c

-- Whether a container of this version inherits from the profile.
def inherits (s : Deployment) (me : Thread) (c : Container) (updated : Profile) :
    Except OperationError Bool := do
  if c.version = some updated.version then
    return updated.identity ∈ (← s.lineage me updated.version c.profiles)
  else return false

-- A container that cannot be provisioned again is passed over.
def reprovision (s : Deployment) (me : Thread) (caller : Option String) (updated : Profile)
    (id : ContainerId) : Deployment :=
  match (do
    s.permitContainer me id .write
    s.inherits me (← s.containers.get id) updated) with
  | .ok true => (s.provision me caller id).2
  | _ => s

-- Every container that inherits from the profile is provisioned again.
def updateProfile (s : Deployment) (me : Thread) (p : Profile) (caller : Option String) :
    Outcome Profile :=
  match s.containerService.check with
  | .error e => (.error e, s)
  | .ok () =>
      match s.replaceProfile me p none with
      | (.error e, s) => (.error e, s)
      | (.ok p, s) =>
          (.ok p, (s.usersOf p.version (fun _ => true)).foldl
            (fun s id => s.reprovision me caller p id) s)

def getContainer (s : Deployment) (me : Thread) (id : ContainerId) : Except OperationError Container := do
  s.containerService.check
  s.permitContainer me id .read
  s.containers.get id

def listContainers (s : Deployment) : Except OperationError (List Container) := do
  s.containerService.check
  return s.containers.list

def currentContainer (s : Deployment) (me : Thread) : Except OperationError (Option Container) :=
  match s.current with
  | none => .ok none
  | some id => (s.getContainer me id).map some

-- What the container is provisioned with, or would be if it were started.
def containerEffective (s : Deployment) (me : Thread) (id : ContainerId) :
    Except OperationError Profile := do
  let c ← s.getContainer me id
  s.effectiveFor me (c.version.getD s.defaultVersion)
    (if c.profiles.isEmpty then [s.settings.defaultProfile] else c.profiles)

def addEndpoint (s : Deployment) (me : Thread) (id : ContainerId) (endpoint : Endpoint) :
    Outcome Container :=
  s.settle do
    s.containerService.check
    let c ← s.forChange me id "add-endpoint"
    let changed := { c with endpoints := KeySet.add c.endpoints endpoint }
    return (changed, s.modify id (fun _ => changed))

def setAttribute (s : Deployment) (me : Thread) (id : ContainerId) (key value : String) :
    Outcome Container :=
  s.settle do
    s.containerService.check
    let c ← s.forChange me id "set-attribute"
    let changed := { c with attributes := c.attributes.insert key value }
    return (changed, s.modify id (fun _ => changed))

end ContainerProfiles.Deployment
