import ContainerProfiles.Content
import ContainerProfiles.Profile.Edit
import ContainerProfiles.Request

namespace ContainerProfiles.Request

-- Edits of profiles and resources read from requests.

def profileEdit (n : Node) : Reading (Option ProfileEdit) := do
  match verb n with
  | "version" => return some (.version (← version n "version"))
  | "parent" => return some (.parent (← text n "parent"))
  | "item" => return some (.item (← get Item.ofNode? n "item"))
  | "replace_item" => return some (.replaceItem (← get Item.ofNode? n "item"))
  | "remove_item" => return some (.removeItem (← text n "id"))
  | "configuration" =>
      return some (.configure (← text n "id") (← text n "key") (← text n "value"))
  | "attribute" => return some (.attribute (← text n "key") (← text n "value"))
  | _ => return none

-- A list of bytes or else a text, as often as `repeat` says.
def content (n : Node) : Reading (List UInt8) := do
  let times ← getOr (Node.natural? UInt64.size) n "repeat" 1
  let bytes ← get? (Node.list? (fun b => (b.natural? 256).map UInt8.ofNat)) n "bytes"
  let piece ← match bytes with
    | some bytes => pure bytes
    | none => pure (← text n "text").toUTF8.toList
  return (List.replicate times piece).flatten

def resourceEdit (n : Node) : Reading (Option ResourceEdit) := do
  match verb n with
  | "content" => return some (.content (← content n))
  | "capability" => return some (.capability ⟨← text n "namespace", ← text n "name"⟩)
  | "requirement" => return some (.requirement (← get Requirement.ofNode? n "requirement"))
  | "attribute" => return some (.attribute (← text n "key") (← text n "value"))
  | _ => return none

end ContainerProfiles.Request
