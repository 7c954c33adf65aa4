import ContainerProfiles.Deployment.Operation
import ContainerProfiles.Request

namespace ContainerProfiles

-- Operations read from requests, and the answers as documents.

namespace Request

def container (n : Node) : Reading ContainerRequest := do
  return {
    identity := ← text n "id"
    parent := ← text? n "parent"
    version := ← version? n "version"
    profiles := ← getOr (Node.list? Node.text?) n "profiles" []
    attributes := ← attributes n "attributes" }

-- `handle` is the lock that the request refers to, if it is there.
def operation (n : Node) (handle : Option LockHandle) : Reading (Option Operation) := do
  match verb n with
  | "start" => return some .start
  | "stop" => return some .stop
  | "versions" => return some .versions
  | "add_version" =>
      let listed : ProfileVersion :=
        { version := ← version n "version"
          profiles := ← getOr (Node.list? Node.text?) n "listed" []
          attributes := ← attributes n "attributes" }
      return some (.addVersion listed (← profiles n "profiles"))
  | "remove_version" => return some (.removeVersion (← version n "version"))
  | "get_version" => return some (.getVersion (← version n "version"))
  | "add_profile" => return some (.addProfile (← profile n "profile"))
  | "replace_profile" => return some (.replaceProfile (← profile n "profile"))
  | "remove_profile" => return some (.removeProfile (← version n "version") (← text n "profile"))
  | "get_profile" => return some (.getProfile (← version n "version") (← text n "profile"))
  | "get_profiles" => return some (.getProfiles (← version n "version"))
  | "effective" => return some (.effective (← version n "version") (← text n "profile"))
  | "effective_for" => return some (.effectiveFor (← version n "version") (← texts n "profiles"))
  | "lineage" => return some (.lineage (← version n "version") (← texts n "profiles"))
  | "linked" => return some (.linked (← version n "version") (← text n "profile"))
  | "check_assignment" =>
      match handle with
      | some h => return some (.checkAssignment h (← version n "version") (← texts n "profiles"))
      | none => return none
  | "create" => return some (.create (← container n))
  | "start_container" => return some (.startContainer (← text n "id"))
  | "stop_container" => return some (.stopContainer (← text n "id"))
  | "destroy" => return some (.destroy (← text n "id"))
  | "set_version" => return some (.assignVersion (← text n "id") (← version n "version"))
  | "add_profiles" => return some (.addProfiles (← text n "id") (← texts n "profiles"))
  | "remove_profiles" => return some (.removeProfiles (← text n "id") (← texts n "profiles"))
  | "update_profile" => return some (.updateProfile (← profile n "profile"))
  | "get" => return some (.getContainer (← text n "id"))
  | "list" => return some .listContainers
  | "current" => return some .currentContainer
  | "container_effective" => return some (.containerEffective (← text n "id"))
  | "endpoint" => return some (.addEndpoint (← text n "id") ⟨← text n "name", ← text n "url"⟩)
  | "attribute" =>
      return some (.setAttribute (← text n "id") (← text n "key") (← text n "value"))
  | _ => return none

end Request

def identitiesNode (ids : List String) : Node := .list (ids.map .text)

namespace LinkedProfile

def toNode (l : LinkedProfile) : Node :=
  .table [("identity", .text l.identity), ("parents", identitiesNode (l.parents.map (·.identity))),
    ("lineage", identitiesNode (l.lineage.map (·.identity))), ("effective", l.effective.toNode)]

end LinkedProfile

namespace Reply

def toNode : Reply → Node
  | done | noContainer => .null
  | activity ofProfiles ofContainers =>
      .table [("profiles", .truth ofProfiles), ("containers", .truth ofContainers)]
  | container c => c.toNode
  | containers cs => .list (cs.map Container.toNode)
  | profile p => p.toNode
  | profiles ps => .list (ps.map Profile.toNode)
  | version listed => listed.toNode
  | versions vs => .list (vs.map (fun v => .text v.text))
  | identities ids => identitiesNode ids
  | linked l => l.toNode

end Reply
end ContainerProfiles
