import ContainerProfiles.Identity
import ContainerProfiles.Version.Basic

namespace ContainerProfiles

-- Where a store on files keeps its documents: one folder per version, one file per profile.

-- An absolute part takes the place of what stands before it.
def joinPath (base part : String) : String :=
  if part.toList.head? = some '/' then part
  else if base = "" ∨ base.toList.getLast? = some '/' then base ++ part
  else base ++ "/" ++ part

structure StoreLayout where
  root : String

namespace StoreLayout

def storeFolder (l : StoreLayout) : String := joinPath l.root "store"
def formatMarker (l : StoreLayout) : String := joinPath l.storeFolder "version"
def lockFile (l : StoreLayout) : String := joinPath l.storeFolder ".lock"
def versionsFolder (l : StoreLayout) : String := joinPath l.storeFolder "versions"

-- Versions are named by their text.
def versionFolder (l : StoreLayout) (version : String) : String :=
  joinPath l.versionsFolder version

def versionDocument (l : StoreLayout) (version : String) : String :=
  joinPath (l.versionFolder version) "version.json"

def profilesFolder (l : StoreLayout) (version : String) : String :=
  joinPath (l.versionFolder version) "profiles"

def profileFile (l : StoreLayout) (version : String) (profile : ProfileId) : String :=
  joinPath (l.profilesFolder version) (profile ++ ".json")

end StoreLayout
end ContainerProfiles
