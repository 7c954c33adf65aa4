import ContainerProfiles.Definition.Basic
import ContainerProfiles.Document.Toml.Reader

namespace ContainerProfiles

-- Definitions as documents. A field that is not declared is refused.

open Node (Record)

def texts? : Node → Option (List String) := Node.list? Node.text?

def textsNode (texts : List String) : Node := .list (texts.map .text)

namespace ProfileSection

def ofNode? (format : Format) (n : Node) : Option ProfileSection := do
  let r ← n.record? format ["id", "version", "parents", "attributes"] .refused
  return {
    id := ← r.required "id" Node.text?
    version := ← r.optional "version" (Node.nullable? Node.text?) none
    parents := ← r.optional "parents" texts? []
    attributes := ← r.optional "attributes" Node.attributes? ∅ }

def toNode (s : ProfileSection) : Node :=
  .table [("id", .text s.id), ("version", Node.ofText? s.version), ("parents", textsNode s.parents),
    ("attributes", Node.ofAttributes s.attributes)]

end ProfileSection

namespace ConfigurationSection

def ofNode? (format : Format) (n : Node) : Option ConfigurationSection := do
  let r ← n.record? format ["id", "name", "include", "exclude", "attributes"] .refused
  return {
    id := ← r.required "id" Node.text?
    name := ← r.optional "name" (Node.nullable? Node.text?) none
    included := ← r.optional "include" texts? []
    excluded := ← r.optional "exclude" texts? []
    attributes := ← r.optional "attributes" Node.attributes? ∅ }

def toNode (s : ConfigurationSection) : Node :=
  .table [("id", .text s.id), ("name", Node.ofText? s.name), ("include", textsNode s.included),
    ("exclude", textsNode s.excluded), ("attributes", Node.ofAttributes s.attributes)]

end ConfigurationSection

namespace ResourceSection

def ofNode? (format : Format) (n : Node) : Option ResourceSection := do
  let r ← n.record? format
    ["id", "name", "version", "shared", "abstract", "capabilities", "requirements", "attributes"]
    .refused
  return {
    id := ← r.required "id" Node.text?
    name := ← r.required "name" Node.text?
    version := ← r.required "version" Node.text?
    shared := ← r.optional "shared" Node.truth? false
    isAbstract := ← r.optional "abstract" Node.truth? false
    capabilities := ← r.optional "capabilities" texts? []
    requirements := ← r.optional "requirements" texts? []
    attributes := ← r.optional "attributes" Node.attributes? ∅ }

def toNode (s : ResourceSection) : Node :=
  .table [("id", .text s.id), ("name", .text s.name), ("version", .text s.version),
    ("shared", .truth s.shared), ("abstract", .truth s.isAbstract),
    ("capabilities", textsNode s.capabilities), ("requirements", textsNode s.requirements),
    ("attributes", Node.ofAttributes s.attributes)]

end ResourceSection

namespace RequirementSection

def ofNode? (format : Format) (n : Node) : Option RequirementSection := do
  let r ← n.record? format ["id", "namespace", "name", "optional"] .refused
  return {
    id := ← r.required "id" Node.text?
    ns := ← r.required "namespace" Node.text?
    name := ← r.required "name" Node.text?
    optional := ← r.optional "optional" Node.truth? false }

def toNode (s : RequirementSection) : Node :=
  .table [("id", .text s.id), ("namespace", .text s.ns), ("name", .text s.name),
    ("optional", .truth s.optional)]

end RequirementSection

namespace Definition

def ofNode? (format : Format) (n : Node) : Option Definition := do
  let r ← n.record? format
    ["definition_version", "profile", "configuration", "resource", "requirement"] .refused
  return {
    definitionVersion := ← r.required "definition_version" (Node.natural? UInt32.size)
    profile := ← r.required "profile" (ProfileSection.ofNode? format)
    configurations := ←
      r.optional "configuration" (Node.list? (ConfigurationSection.ofNode? format)) []
    resources := ← r.optional "resource" (Node.list? (ResourceSection.ofNode? format)) []
    requirements := ←
      r.optional "requirement" (Node.list? (RequirementSection.ofNode? format)) [] }

def toNode (d : Definition) : Node :=
  .table [("definition_version", .integer d.definitionVersion), ("profile", d.profile.toNode),
    ("configuration", .list (d.configurations.map ConfigurationSection.toNode)),
    ("resource", .list (d.resources.map ResourceSection.toNode)),
    ("requirement", .list (d.requirements.map RequirementSection.toNode))]

-- The document of a profile, as it is written by hand.
def read (toml : String) : Except ProfileError Definition :=
  match (Toml.read toml).bind (ofNode? .toml) with
  | some d => .ok d
  | none => .error (.malformed "")

end Definition
end ContainerProfiles
