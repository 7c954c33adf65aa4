import ContainerProfiles.Profile.Basic

namespace ContainerProfiles

-- The effective profile of a list of profiles. Later profiles overlay earlier ones item by item and key by key,
-- and the items stay in the order of their first declaration.

namespace Configuration

def withoutDeleted (c : Configuration) : Configuration :=
  { c with attributes := c.attributes.withoutDeleted }

def overlay (base child : Configuration) : Configuration :=
  { base with
    attributes := base.attributes.merge child.attributes
    directives := base.directives.extend child.directives.entries }

end Configuration

namespace ConfigurationItem

def overlayOne (item : ConfigurationItem) (child : Configuration) : ConfigurationItem :=
  { item with
    configurations := alterFirst (fun c => c.name = child.name) (fun c => c.overlay child)
      child.withoutDeleted item.configurations }

def overlay (base child : ConfigurationItem) : ConfigurationItem :=
  child.configurations.foldl overlayOne base

end ConfigurationItem

namespace Item

def withoutDeleted : Item → Item
  | configuration item =>
      .configuration { item with configurations := item.configurations.map (·.withoutDeleted) }
  | item => item

-- Only configurations grow together; any other pair leaves the later declaration.
def overlay : Item → Item → Item
  | configuration base, configuration child => .configuration (base.overlay child)
  | _, child => child.withoutDeleted

end Item

namespace Profile

def overlayItem (items : List Item) (item : Item) : List Item :=
  alterFirst (fun i => i.id = item.id) (fun i => i.overlay item) item.withoutDeleted items

def overlay (base child : Profile) : Profile :=
  { base with
    items := child.items.foldl overlayItem base.items
    attributes := base.attributes.merge child.attributes }

-- The profiles of `order` laid over each other, under a name of its own.
def merge (identity : ProfileId) (version : Version) (order : List Profile) : Profile :=
  order.foldl overlay { identity, version }

-- The identity of the effective profile of a list of profiles.
def effectiveIdentityFor (version : Version) (profiles : List ProfileId) : ProfileId :=
  effectiveMark ++ version.text ++ "[" ++ String.intercalate "," profiles ++ "]"

end Profile
end ContainerProfiles
