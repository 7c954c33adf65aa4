import ContainerProfiles.Document.Node
import ContainerProfiles.Profile.Basic

namespace ContainerProfiles

-- The written form of a single profile: sections for its configurations, resources and requirements. Configuration
-- sections of one identity make one item. `Definition.toProfile` checks as it converts.

structure ConfigurationSection where
  id : String
  name : Option String := none
  included : List String := []
  excluded : List String := []
  attributes : Attributes := ∅
deriving DecidableEq

structure ResourceSection where
  id : String
  name : String
  version : String
  shared : Bool := false
  isAbstract : Bool := false
  capabilities : List String := []
  requirements : List String := []
  attributes : Attributes := ∅
deriving DecidableEq

structure RequirementSection where
  id : String
  ns : String
  name : String
  optional : Bool := false
deriving DecidableEq

structure ProfileSection where
  id : String
  version : Option String := none
  parents : List String := []
  attributes : Attributes := ∅
deriving DecidableEq

structure Definition where
  definitionVersion : Nat
  profile : ProfileSection
  configurations : List ConfigurationSection := []
  resources : List ResourceSection := []
  requirements : List RequirementSection := []
deriving DecidableEq

-- The two sides of the first colon, without blanks around them; neither may be blank.
def readNamespaced (spec : String) : Except ProfileError (String × String) :=
  match Text.aroundFirst ':' spec with
  | some (ns, name) =>
      if Text.blank ns || Text.blank name then .error (.invalidCapability spec)
      else .ok (Text.trim ns, Text.trim name)
  | none => .error (.invalidCapability spec)

namespace ConfigurationSection

-- A list of runtime types as the text of one directive; an empty list is no directive.
def directive (key : String) (names : List String) (directives : Attributes) : Attributes :=
  if names.isEmpty then directives else directives.insert key (String.intercalate "," names)

def toConfiguration (s : ConfigurationSection) : Configuration :=
  { name := s.name.getD Configuration.defaultName
    attributes := s.attributes
    directives := directive Directives.excludeKey s.excluded
      (directive Directives.includeKey s.included ∅) }

end ConfigurationSection

namespace ResourceSection

def toItem (s : ResourceSection) : Except ProfileError ResourceItem := do
  let capabilities ← s.capabilities.mapM readNamespaced
  let requirements ← s.requirements.mapM readNamespaced
  let named := Resource.named (Text.trim s.name) (Text.trim s.version)
  return {
    id := s.id
    resource := { named with
      capabilities := capabilities.map (fun c => { ns := c.1, name := c.2 })
      requirements := requirements.map (fun q => { ns := q.1, name := q.2 })
      attributes := s.attributes }
    shared := s.shared
    isAbstract := s.isAbstract }

end ResourceSection

def RequirementSection.toItem (s : RequirementSection) : RequirementItem :=
  { id := s.id, requirement := { ns := s.ns, name := s.name, optional := s.optional } }

namespace Definition

-- A section joins the item of its identity, or opens one at the end.
def addConfiguration (items : List ConfigurationItem) (s : ConfigurationSection) :
    List ConfigurationItem :=
  if items.any (fun i => i.id = s.id) then
    items.map (fun i =>
      if i.id = s.id then { i with configurations := i.configurations ++ [s.toConfiguration] } else i)
  else items ++ [{ id := s.id, configurations := [s.toConfiguration] }]

def profileVersion (d : Definition) (fallback : Option Version) : Except ProfileError Version :=
  match d.profile.version, fallback with
  | some v, _ => Version.read v
  | none, some v => .ok v
  | none, none => .error (.missingVersion (Text.trim d.profile.id))

def toProfile (d : Definition) (fallback : Option Version) : Except ProfileError Profile := do
  if d.definitionVersion ≠ 1 then throw (.unsupportedDefinition d.definitionVersion)
  let version ← d.profileVersion fallback
  let resources ← d.resources.mapM ResourceSection.toItem
  let profile : Profile :=
    { identity := Text.trim d.profile.id
      version
      parents := d.profile.parents.map Text.trim
      items := (d.configurations.foldl addConfiguration []).map .configuration
        ++ resources.map .resource ++ d.requirements.map (fun s => .requirement s.toItem)
      attributes := d.profile.attributes }
  profile.validate
  return profile

end Definition
end ContainerProfiles
