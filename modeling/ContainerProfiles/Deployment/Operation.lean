import ContainerProfiles.Deployment.Start

namespace ContainerProfiles

-- What can be asked of a deployment, as data, and the answers. A run is a list of operations, each with the thread
-- that asks and, where there is one, the listener of the call.

inductive Operation where
  | start
  | stop
  | versions
  | addVersion (listed : ProfileVersion) (profiles : List Profile)
  | removeVersion (v : Version)
  | getVersion (v : Version)
  | addProfile (p : Profile)
  | replaceProfile (p : Profile)
  | removeProfile (v : Version) (id : ProfileId)
  | getProfile (v : Version) (id : ProfileId)
  | getProfiles (v : Version)
  | effective (v : Version) (id : ProfileId)
  | effectiveFor (v : Version) (ids : List ProfileId)
  | lineage (v : Version) (ids : List ProfileId)
  | linked (v : Version) (id : ProfileId)
  | checkAssignment (handle : LockHandle) (v : Version) (ids : List ProfileId)
  | create (r : ContainerRequest)
  | startContainer (id : ContainerId)
  | stopContainer (id : ContainerId)
  | destroy (id : ContainerId)
  | assignVersion (id : ContainerId) (v : Version)
  | addProfiles (id : ContainerId) (profiles : List ProfileId)
  | removeProfiles (id : ContainerId) (profiles : List ProfileId)
  | updateProfile (p : Profile)
  | getContainer (id : ContainerId)
  | listContainers
  | currentContainer
  | containerEffective (id : ContainerId)
  | addEndpoint (id : ContainerId) (endpoint : Endpoint)
  | setAttribute (id : ContainerId) (key value : String)

inductive Reply where
  | done
  | activity (profiles containers : Bool)
  | container (c : Container)
  | noContainer
  | containers (cs : List Container)
  | profile (p : Profile)
  | profiles (ps : List Profile)
  | version (listed : ProfileVersion)
  | versions (vs : List Version)
  | identities (ids : List ProfileId)
  | linked (l : LinkedProfile)

namespace Deployment

def looking (s : Deployment) (answer : α → Reply) (r : Except OperationError α) : Outcome Reply :=
  (r.map answer, s)

def acting (answer : α → Reply) (r : Outcome α) : Outcome Reply := (r.1.map answer, r.2)

-- `me` asks; `caller` listens to this operation alone.
def perform (s : Deployment) (me : Thread) (caller : Option String) : Operation → Outcome Reply
  | .start => acting .container (s.start me)
  | .stop => (.ok (.activity false false), s.stop)
  | .versions => s.looking .versions s.versions
  | .addVersion listed profiles => acting .version (s.addVersion me listed profiles)
  | .removeVersion v => acting .version (s.removeVersion me v)
  | .getVersion v => s.looking .version (s.getVersion me v)
  | .addProfile p => acting .profile (s.addProfile me p)
  | .replaceProfile p => acting .profile (s.replaceProfile me p caller)
  | .removeProfile v id => acting .profile (s.removeProfile me v id)
  | .getProfile v id => s.looking .profile (s.getProfile me v id)
  | .getProfiles v => s.looking .profiles (s.getProfiles me v)
  | .effective v id => s.looking .profile (s.effective me v id)
  | .effectiveFor v ids => s.looking .profile (s.effectiveFor me v ids)
  | .lineage v ids => s.looking .identities (s.lineage me v ids)
  | .linked v id => s.looking .linked (s.linked me v id)
  | .checkAssignment handle v ids => s.looking (fun _ => .done) (s.checkAssignment handle v ids)
  | .create r => acting .container (s.create me r)
  | .startContainer id => acting .container (s.startContainer me id caller)
  | .stopContainer id => acting .container (s.stopContainer me id)
  | .destroy id => acting .container (s.destroy me id caller)
  | .assignVersion id v => acting .container (s.assignVersion me id v caller)
  | .addProfiles id profiles => acting .container (s.addProfiles me id profiles caller)
  | .removeProfiles id profiles => acting .container (s.removeProfiles me id profiles caller)
  | .updateProfile p => acting .profile (s.updateProfile me p caller)
  | .getContainer id => s.looking .container (s.getContainer me id)
  | .listContainers => s.looking .containers s.listContainers
  | .currentContainer =>
      s.looking (fun c => (c.map Reply.container).getD .noContainer) (s.currentContainer me)
  | .containerEffective id => s.looking .profile (s.containerEffective me id)
  | .addEndpoint id endpoint => acting .container (s.addEndpoint me id endpoint)
  | .setAttribute id key value => acting .container (s.setAttribute me id key value)

end Deployment
end ContainerProfiles
