import ContainerProfiles.Profile.Basic

namespace ContainerProfiles

-- Changing a profile step by step; the result is checked when it is built. The steps are data too.

inductive ProfileEdit where
  | version (v : Version)
  | parent (id : ProfileId)
  | item (item : Item)
  | replaceItem (item : Item)
  | removeItem (id : ItemId)
  | configure (id : ItemId) (key value : String)
  | attribute (key value : String)

namespace Profile

def start (identity : ProfileId) : Profile := { identity, version := Version.first }

def withVersion (p : Profile) (version : Version) : Profile := { p with version }

def addParent (p : Profile) (parent : ProfileId) : Profile :=
  { p with parents := p.parents ++ [parent] }

def addItem (p : Profile) (item : Item) : Profile := { p with items := p.items ++ [item] }

def replaceItem (p : Profile) (item : Item) : Profile :=
  { p with items := alterFirst (fun i => i.id = item.id) (fun _ => item) item p.items }

def removeItem (p : Profile) (id : ItemId) : Profile :=
  { p with items := p.items.filter (fun i => i.id ≠ id) }

def setDefault (key value : String) (item : ConfigurationItem) : ConfigurationItem :=
  { item with
    configurations := alterFirst (fun c => c.name = Configuration.defaultName)
      (fun c => { c with attributes := c.attributes.insert key value })
      { name := Configuration.defaultName, attributes := Dict.insert ∅ key value }
      item.configurations }

-- Sets one key of the default configuration of item `id`.
def configure (p : Profile) (id : ItemId) (key value : String) : Profile :=
  { p with
    items := alterFirst
      (fun i => match i with
        | .configuration c => c.id = id
        | _ => false)
      (fun i => match i with
        | .configuration c => .configuration (setDefault key value c)
        | i => i)
      (.configuration (setDefault key value { id }))
      p.items }

def setAttribute (p : Profile) (key value : String) : Profile :=
  { p with attributes := p.attributes.insert key value }

def edit (p : Profile) : ProfileEdit → Profile
  | .version v => p.withVersion v
  | .parent id => p.addParent id
  | .item item => p.addItem item
  | .replaceItem item => p.replaceItem item
  | .removeItem id => p.removeItem id
  | .configure id key value => p.configure id key value
  | .attribute key value => p.setAttribute key value

def build (p : Profile) : Except ProfileError Profile := do
  p.validate
  return p

end Profile
end ContainerProfiles
