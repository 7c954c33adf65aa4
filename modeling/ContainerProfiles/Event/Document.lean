import ContainerProfiles.Document.Node
import ContainerProfiles.Event.Audience
import ContainerProfiles.Request

namespace ContainerProfiles

-- Events, notices and latches as documents.

namespace ProvisionEvent

def fields (e : ProvisionEvent) : List (String × Node) :=
  [("container", .text e.container), ("event_type", .text e.stage.text),
    ("profile", Node.ofText? e.profile), ("error", Node.ofText? e.error)]

end ProvisionEvent

namespace ProfileEvent

def fields (e : ProfileEvent) : List (String × Node) :=
  [("version", .text e.version.text), ("profile", .text e.profile),
    ("event_type", .text (if e.error.isSome then "error" else "updated")),
    ("error", Node.ofText? e.error)]

end ProfileEvent

namespace Notice

-- With the listener under `via`.
def toNode : Notice → Node
  | heard listener (.provision e) => .table (e.fields ++ [("via", .text listener)])
  | heard listener (.profile e) => .table (e.fields ++ [("via", .text listener)])
  | observed state installed =>
      .table [("via", .text "observer"), ("state", .text state.text),
        ("installed", .list (installed.map .text))]

end Notice

namespace Latch

def toNode (l : Latch) : Node :=
  .table [("remaining", .integer l.remaining), ("open", .truth l.isOpen)]

end Latch

namespace Request

-- What names an error is an error event, whatever its type.
def provisionEvent (n : Node) : Reading ProvisionEvent := do
  let container ← text n "container"
  let profile ← text? n "profile"
  match ← text? n "error" with
  | some e => return { container, stage := .error, profile, error := some e }
  | none =>
      let stage ← get (fun n => n.text?.bind ProvisionStage.ofText?) n "type"
      return { container, stage, profile }

def profileEvent (n : Node) : Reading ProfileEvent := do
  return {
    version := ← version n "version"
    profile := ← text n "profile"
    error := ← text? n "error" }

end Request
end ContainerProfiles
