import ContainerProfiles.Text.Cut

namespace ContainerProfiles

-- The names things are known by. A container's name is a path of segments with an optional suffix; a resource's
-- name is a symbolic name with an optional version.

abbrev ProfileId := String
abbrev ItemId := String
abbrev ContainerId := String
abbrev ResourceId := String

namespace ContainerId

def suffix (id : ContainerId) : Option String := (Text.aroundFirst '#' id).map (·.2)

def path (id : ContainerId) : String := ((Text.aroundFirst '#' id).map (·.1)).getD id

def segments (id : ContainerId) : List String := Text.pieces ':' (path id)

def simpleName (id : ContainerId) : String := (segments id).getLastD (path id)

end ContainerId

namespace ResourceId

def ofParts (name version : String) : ResourceId := name ++ ":" ++ version

def symbolicName (id : ResourceId) : String := ((Text.aroundLast ':' id).map (·.1)).getD id

def version (id : ResourceId) : Option String := (Text.aroundLast ':' id).map (·.2)

end ResourceId
end ContainerProfiles
