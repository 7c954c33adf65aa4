import ContainerProfiles.Document.Schema
import ContainerProfiles.Profile.Basic
import ContainerProfiles.Profile.Error

namespace ContainerProfiles

-- Profiles as documents: fields in the order of their declaration, the kind of an item first. Reading ignores
-- fields it does not know and takes a missing list or table as empty. A document that fits the schema can be read.

open Node (Record)

namespace Version

def schema : Schema :=
  .checked (fun s => match read s with
    | .ok _ => none
    | .error e => some e.message)

def ofNode? (n : Node) : Option Version := n.text?.bind (fun s => (parse s).toOption)

end Version

namespace Capability

def schema : Schema := .record "Capability" [⟨"namespace", .text, true⟩, ⟨"name", .text, true⟩]

def ofNode? (n : Node) : Option Capability := do
  let r ← n.record? .json ["namespace", "name"] .ignored
  return { ns := ← r.required "namespace" Node.text?, name := ← r.required "name" Node.text? }

def toNode (c : Capability) : Node := .table [("namespace", .text c.ns), ("name", .text c.name)]

end Capability

namespace Requirement

def schema : Schema :=
  .record "Requirement"
    [⟨"namespace", .text, true⟩, ⟨"name", .text, true⟩, ⟨"optional", .truth, false⟩]

def ofNode? (n : Node) : Option Requirement := do
  let r ← n.record? .json ["namespace", "name", "optional"] .ignored
  return {
    ns := ← r.required "namespace" Node.text?
    name := ← r.required "name" Node.text?
    optional := ← r.optional "optional" Node.truth? false }

def toNode (q : Requirement) : Node :=
  .table [("namespace", .text q.ns), ("name", .text q.name), ("optional", .truth q.optional)]

end Requirement

namespace Resource

def schema : Schema :=
  .record "Resource"
    [⟨"identity", .text, true⟩, ⟨"capabilities", .list Capability.schema, false⟩,
     ⟨"requirements", .list Requirement.schema, false⟩, ⟨"attributes", .attributes, false⟩]

def ofNode? (n : Node) : Option Resource := do
  let r ← n.record? .json ["identity", "capabilities", "requirements", "attributes"] .ignored
  return {
    identity := ← r.required "identity" Node.text?
    capabilities := ← r.optional "capabilities" (Node.list? Capability.ofNode?) []
    requirements := ← r.optional "requirements" (Node.list? Requirement.ofNode?) []
    attributes := ← r.optional "attributes" Node.attributes? ∅ }

def toNode (r : Resource) : Node :=
  .table [("identity", .text r.identity),
    ("capabilities", .list (r.capabilities.map Capability.toNode)),
    ("requirements", .list (r.requirements.map Requirement.toNode)),
    ("attributes", Node.ofAttributes r.attributes)]

end Resource

namespace Configuration

def schema : Schema :=
  .record "Configuration"
    [⟨"name", .text, true⟩, ⟨"attributes", .attributes, false⟩, ⟨"directives", .attributes, false⟩]

def ofNode? (n : Node) : Option Configuration := do
  let r ← n.record? .json ["name", "attributes", "directives"] .ignored
  return {
    name := ← r.required "name" Node.text?
    attributes := ← r.optional "attributes" Node.attributes? ∅
    directives := ← r.optional "directives" Node.attributes? ∅ }

def toNode (c : Configuration) : Node :=
  .table [("name", .text c.name), ("attributes", Node.ofAttributes c.attributes),
    ("directives", Node.ofAttributes c.directives)]

end Configuration

namespace Item

def configurationSchema : Schema :=
  .record "ConfigurationItem"
    [⟨"id", .text, true⟩, ⟨"configurations", .list Configuration.schema, true⟩]

def resourceSchema : Schema :=
  .record "ResourceItem"
    [⟨"id", .text, true⟩, ⟨"resource", Resource.schema, true⟩, ⟨"shared", .truth, false⟩,
     ⟨"abstract", .truth, false⟩]

def requirementSchema : Schema :=
  .record "RequirementItem" [⟨"id", .text, true⟩, ⟨"requirement", Requirement.schema, true⟩]

def schema : Schema :=
  .choice "ProfileItem" "kind"
    [("configuration", configurationSchema), ("resource", resourceSchema),
     ("requirement", requirementSchema)]

def configurationOfNode? (n : Node) : Option ConfigurationItem := do
  let r ← n.record? .json ["id", "configurations"] .ignored
  return {
    id := ← r.required "id" Node.text?
    configurations := ← r.required "configurations" (Node.list? Configuration.ofNode?) }

def resourceOfNode? (n : Node) : Option ResourceItem := do
  let r ← n.record? .json ["id", "resource", "shared", "abstract"] .ignored
  return {
    id := ← r.required "id" Node.text?
    resource := ← r.required "resource" Resource.ofNode?
    shared := ← r.optional "shared" Node.truth? false
    isAbstract := ← r.optional "abstract" Node.truth? false }

def requirementOfNode? (n : Node) : Option RequirementItem := do
  let r ← n.record? .json ["id", "requirement"] .ignored
  return {
    id := ← r.required "id" Node.text?
    requirement := ← r.required "requirement" Requirement.ofNode? }

-- The kind of an item, named once, and the document without it.
def kind? : Node → Option (String × Node)
  | .table entries =>
      match entries.filter (fun e => e.1 = "kind") with
      | [(_, .text kind)] => some (kind, .table (entries.filter (fun e => e.1 ≠ "kind")))
      | _ => none
  | .list (.text kind :: fields) => some (kind, .list fields)
  | _ => none

def ofNode? (n : Node) : Option Item := do
  let (kind, fields) ← kind? n
  match kind with
  | "configuration" => (configurationOfNode? fields).map .configuration
  | "resource" => (resourceOfNode? fields).map .resource
  | "requirement" => (requirementOfNode? fields).map .requirement
  | _ => none

def toNode : Item → Node
  | configuration item =>
      .table [("kind", .text "configuration"), ("id", .text item.id),
        ("configurations", .list (item.configurations.map Configuration.toNode))]
  | resource item =>
      .table [("kind", .text "resource"), ("id", .text item.id),
        ("resource", item.resource.toNode), ("shared", .truth item.shared),
        ("abstract", .truth item.isAbstract)]
  | requirement item =>
      .table [("kind", .text "requirement"), ("id", .text item.id),
        ("requirement", item.requirement.toNode)]

end Item

namespace Profile

def schema : Schema :=
  .record "Profile"
    [⟨"identity", .text, true⟩, ⟨"version", Version.schema, true⟩, ⟨"parents", .list .text, false⟩,
     ⟨"items", .list Item.schema, false⟩, ⟨"attributes", .attributes, false⟩]

def ofNode? (n : Node) : Option Profile := do
  let r ← n.record? .json ["identity", "version", "parents", "items", "attributes"] .ignored
  return {
    identity := ← r.required "identity" Node.text?
    version := ← r.required "version" Version.ofNode?
    parents := ← r.optional "parents" (Node.list? Node.text?) []
    items := ← r.optional "items" (Node.list? Item.ofNode?) []
    attributes := ← r.optional "attributes" Node.attributes? ∅ }

def toNode (p : Profile) : Node :=
  .table [("identity", .text p.identity), ("version", .text p.version.text),
    ("parents", .list (p.parents.map .text)), ("items", .list (p.items.map Item.toNode)),
    ("attributes", Node.ofAttributes p.attributes)]

end Profile

namespace ProfileVersion

def ofNode? (n : Node) : Option ProfileVersion := do
  let r ← n.record? .json ["version", "profiles", "attributes"] .ignored
  return {
    version := ← r.required "version" Version.ofNode?
    profiles := (KeySet.ofList (← r.optional "profiles" (Node.list? Node.text?) [])).keys
    attributes := ← r.optional "attributes" Node.attributes? ∅ }

def toNode (v : ProfileVersion) : Node :=
  .table [("version", .text v.version.text), ("profiles", .list (v.profiles.map .text)),
    ("attributes", Node.ofAttributes v.attributes)]

end ProfileVersion
end ContainerProfiles
