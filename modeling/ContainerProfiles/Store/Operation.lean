import ContainerProfiles.Request
import ContainerProfiles.Store.Basic

namespace ContainerProfiles

-- What can be asked of a store, as data, and the answers.

inductive StoreOperation where
  | versions
  | version (v : Version)
  | addVersion (v : Version) (attributes : Attributes)
  | removeVersion (v : Version)
  | profile (v : Version) (id : ProfileId)
  | profiles (v : Version)
  | addProfile (p : Profile)
  | updateProfile (p : Profile)
  | removeProfile (v : Version) (id : ProfileId)

inductive StoreReply where
  | done
  | versions (vs : List Version)
  | version (listed : Option ProfileVersion)
  | profile (p : Option Profile)
  | profiles (ps : List Profile)

namespace Store

def reading (s : Store) (answer : α → StoreReply) (r : Except StoreError α) :
    Except StoreError StoreReply × Store :=
  (r.map answer, s)

def writing (r : Except StoreError Unit × Store) : Except StoreError StoreReply × Store :=
  (r.1.map (fun _ => .done), r.2)

def perform (s : Store) (now : String) : StoreOperation → Except StoreError StoreReply × Store
  | .versions => s.reading .versions s.versions
  | .version v => s.reading .version (s.version? v)
  | .addVersion v attributes => writing (s.addVersion now v attributes)
  | .removeVersion v => writing (s.removeVersion v)
  | .profile v id => s.reading .profile (s.profile? v id)
  | .profiles v => s.reading .profiles (s.profiles v)
  | .addProfile p => writing (s.addProfile now p)
  | .updateProfile p => writing (s.updateProfile now p)
  | .removeProfile v id => writing (s.removeProfile v id)

end Store

namespace Request

def storeOperation (n : Node) : Reading (Option StoreOperation) := do
  match verb n with
  | "versions" => return some .versions
  | "get_version" => return some (.version (← version n "version"))
  | "add_version" =>
      let v ← version n "version"
      -- A new version is empty, whatever profiles are listed for it.
      let _ ← getOr (Node.list? Node.text?) n "profiles" []
      return some (.addVersion v (← attributes n "attributes"))
  | "remove_version" => return some (.removeVersion (← version n "version"))
  | "get" => return some (.profile (← version n "version") (← text n "profile"))
  | "list" => return some (.profiles (← version n "version"))
  | "add" => return some (.addProfile (← profile n "profile"))
  | "update" => return some (.updateProfile (← profile n "profile"))
  | "remove" => return some (.removeProfile (← version n "version") (← text n "profile"))
  | _ => return none

end Request

namespace StoreReply

def toNode : StoreReply → Node
  | done => .null
  | versions vs => .list (vs.map (fun v => .text v.text))
  | version listed => (listed.map ProfileVersion.toNode).getD .null
  | profile p => (p.map Profile.toNode).getD .null
  | profiles ps => .list (ps.map Profile.toNode)

end StoreReply
end ContainerProfiles
