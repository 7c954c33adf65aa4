import ContainerProfiles.Resource
import ContainerProfiles.RuntimeType

namespace ContainerProfiles

-- Profiles: parents to inherit from, items (configurations, resources, requirements) and attributes.
-- `Profile.validate` gives the checks that need no other profile.

-- The first element that passes the test is changed; without one, `fresh` goes to the end.
def alterFirst (test : α → Bool) (change : α → α) (fresh : α) : List α → List α
  | [] => [fresh]
  | x :: rest => if test x then change x :: rest else x :: alterFirst test change fresh rest

structure Configuration where
  name : String
  attributes : Attributes := ∅
  directives : Attributes := ∅
deriving DecidableEq

namespace Configuration

def defaultName : String := "default"

def admits (c : Configuration) (runtime : RuntimeType) : Bool := Directives.admits c.directives runtime

end Configuration

structure ConfigurationItem where
  id : ItemId
  configurations : List Configuration := []
deriving DecidableEq

namespace ConfigurationItem

def configuration? (item : ConfigurationItem) (name : String) : Option Configuration :=
  item.configurations.find? (fun c => c.name = name)

def defaultAttributes (item : ConfigurationItem) : Attributes :=
  ((item.configuration? Configuration.defaultName).map (·.attributes)).getD ∅

-- Later configurations win; nothing at all when no configuration admits the runtime.
def attributesFor (item : ConfigurationItem) (runtime : RuntimeType) : Option Attributes :=
  match item.configurations.filter (·.admits runtime) with
  | [] => none
  | chosen => some (chosen.foldl (fun merged c => merged.extend c.attributes.entries) ∅)

end ConfigurationItem

structure ResourceItem where
  id : ItemId
  resource : Resource
  -- Installed once for all containers that name it.
  shared : Bool := false
  -- Described only, never installed on its own account.
  isAbstract : Bool := false
deriving DecidableEq

structure RequirementItem where
  id : ItemId
  requirement : Requirement
deriving DecidableEq

inductive Item where
  | configuration (item : ConfigurationItem)
  | resource (item : ResourceItem)
  | requirement (item : RequirementItem)
deriving DecidableEq

namespace Item

def id : Item → ItemId
  | configuration item => item.id
  | resource item => item.id
  | requirement item => item.id

def configuration? : Item → Option ConfigurationItem
  | configuration item => some item
  | _ => none

def resource? : Item → Option ResourceItem
  | resource item => some item
  | _ => none

def requirement? : Item → Option RequirementItem
  | requirement item => some item
  | _ => none

end Item

structure Profile where
  identity : ProfileId
  version : Version
  parents : List ProfileId := []
  items : List Item := []
  attributes : Attributes := ∅
deriving DecidableEq

namespace Profile

def item? (p : Profile) (id : ItemId) : Option Item := p.items.find? (fun i => i.id = id)

def configurationItems (p : Profile) : List ConfigurationItem := p.items.filterMap Item.configuration?
def resourceItems (p : Profile) : List ResourceItem := p.items.filterMap Item.resource?
def requirementItems (p : Profile) : List RequirementItem := p.items.filterMap Item.requirement?

-- Identities that open with this belong to merged profiles and are never stored.
def effectiveMark : String := "effective#"

def effectiveIdentity (id : ProfileId) : ProfileId := effectiveMark ++ id

def isEffective (p : Profile) : Bool := effectiveMark.toList.isPrefixOf p.identity.toList

-- The first parent that is the profile itself or was listed before.
def checkParents (identity : ProfileId) (seen : List ProfileId) :
    List ProfileId → Except ProfileError Unit
  | [] => .ok ()
  | parent :: rest =>
      if parent = identity then .error (.selfParent identity)
      else if parent ∈ seen then .error (.duplicateParent identity parent)
      else checkParents identity (parent :: seen) rest

-- The first item that is unnamed or carries a name used before.
def checkItems (identity : ProfileId) (seen : List ItemId) : List Item → Except ProfileError Unit
  | [] => .ok ()
  | item :: rest =>
      if Text.blank item.id then .error (.emptyIdentity "profile item")
      else if item.id ∈ seen then .error (.duplicateItem identity item.id)
      else checkItems identity (item.id :: seen) rest

def validate (p : Profile) : Except ProfileError Unit := do
  if Text.blank p.identity then throw (.emptyIdentity "profile")
  checkParents p.identity [] p.parents
  checkItems p.identity [] p.items

end Profile

-- A version of the store with the identities of the profiles it holds.
structure ProfileVersion where
  version : Version
  profiles : List ProfileId
  attributes : Attributes
deriving DecidableEq

end ContainerProfiles
