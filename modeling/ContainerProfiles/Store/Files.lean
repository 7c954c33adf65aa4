import ContainerProfiles.Store.Document
import ContainerProfiles.Store.Layout
import ContainerProfiles.Version.Order

namespace ContainerProfiles

-- A store on files. Everything that writes takes the lock file first, and that leaves the lock file behind even
-- where the operation is refused.

structure FileStore where
  layout : StoreLayout
  tree : FileTree

namespace FileStore

def onTree (s : FileStore) : Except FileFault Unit × FileTree → Except StoreError Unit × FileStore
  | (outcome, tree) => (outcome.mapError .file, { s with tree })

def makeFolders (s : FileStore) (path : String) : Except StoreError Unit × FileStore :=
  s.onTree (s.tree.makeFolders path)

-- What an operation on single files leaves behind: all of it or nothing.
def commit (s : FileStore) (r : Except FileFault FileTree) : Except StoreError Unit × FileStore :=
  s.onTree (s.tree.commit r)

-- The second step is taken when the first succeeds.
def andThen (first : Except StoreError Unit × FileStore)
    (second : FileStore → Except StoreError Unit × FileStore) : Except StoreError Unit × FileStore :=
  match first with
  | (.ok (), s) => second s
  | (.error e, s) => (.error e, s)

def contains (s : FileStore) (path : String) : Bool := s.tree.contains path

def read (s : FileStore) (path : String) : Except StoreError String :=
  (s.tree.read path).mapError .file

def checkFormat (s : FileStore) : Except StoreError Unit := do
  let found ← readDocument formatSchema formatOfNode? (← s.read s.layout.formatMarker)
  if found ≠ StoreError.format then throw (.formatMismatch found)

-- A store whose folders exist and whose marker, new or old, has the right format.
def prepare (s : FileStore) : Except StoreError Unit × FileStore :=
  andThen (s.makeFolders s.layout.versionsFolder) fun s =>
    if s.contains s.layout.formatMarker then (s.checkFormat, s)
    else s.commit (s.tree.replace s.layout.formatMarker (Json.print formatNode))

def takeLock (s : FileStore) : Except StoreError Unit × FileStore :=
  andThen (s.makeFolders s.layout.storeFolder) fun s => s.commit (s.tree.touch s.layout.lockFile)

def versionDocument? (s : FileStore) (version : String) :
    Except StoreError (Option VersionDocument) :=
  if s.contains (s.layout.versionDocument version) then do
    let text ← s.read (s.layout.versionDocument version)
    return some (← readDocument VersionDocument.schema VersionDocument.ofNode? text)
  else .ok none

def hasVersion (s : FileStore) (v : Version) : Bool := s.contains (s.layout.versionDocument v.text)

def requireVersion (s : FileStore) (v : Version) : Except StoreError Unit :=
  if s.hasVersion v then .ok () else .error (.versionNotFound v)

-- The folder names of versions do not matter, their documents do; unreadable ones are left out.
def versions (s : FileStore) : Except StoreError (List Version) :=
  if s.contains s.layout.versionsFolder then do
    let entries ← (s.tree.list s.layout.versionsFolder).mapError StoreError.file
    let documents := (entries.filter (fun e => e.2 = .folder)).filterMap (fun e =>
      match s.versionDocument? e.1 with
      | .ok found => found
      | .error _ => none)
    return (documents.map (·.version)).mergeSort (fun v w => compare v w ≠ .gt)
  else .ok []

def profileOfFile? : String × FileEntry → Option ProfileId
  | (_, .folder) => none
  | (name, .file _) =>
      if ".json".toList.isSuffixOf name.toList then
        let id := String.ofList (name.toList.take (name.toList.length - 5))
        if id.toList.head? = some '.' then none else some id
      else none

def profileIds (s : FileStore) (version : String) : Except StoreError (List ProfileId) :=
  if s.contains (s.layout.profilesFolder version) then do
    let entries ← (s.tree.list (s.layout.profilesFolder version)).mapError StoreError.file
    return (KeySet.ofList (entries.filterMap profileOfFile?)).keys
  else .ok []

def version? (s : FileStore) (v : Version) : Except StoreError (Option ProfileVersion) := do
  match ← s.versionDocument? v.text with
  | none => return none
  | some d =>
      return some
        { version := d.version, profiles := ← s.profileIds v.text, attributes := d.attributes }

def checkName (id : ProfileId) : Except StoreError Unit :=
  (checkProfileName id).mapError (.invalidName id)

def profilePath (s : FileStore) (v : Version) (id : ProfileId) : String :=
  s.layout.profileFile v.text id

def profile? (s : FileStore) (v : Version) (id : ProfileId) : Except StoreError (Option Profile) := do
  s.requireVersion v
  checkName id
  let path := s.profilePath v id
  if s.contains path then
    let d ← readDocument ProfileDocument.schema ProfileDocument.ofNode? (← s.read path)
    return some (← d.open? path)
  else return none

def writeProfile (s : FileStore) (now : String) (p : Profile) :
    Except StoreError Unit × FileStore :=
  andThen (s.makeFolders (s.layout.profilesFolder p.version.text)) fun s =>
    s.commit (s.tree.replace (s.profilePath p.version p.identity)
      (Json.print (ProfileDocument.sealed p now).toNode))

-- The step that follows the lock, unless a check on the locked store refuses it.
def locked (s : FileStore) (check : FileStore → Except StoreError Unit)
    (step : FileStore → Except StoreError Unit × FileStore) : Except StoreError Unit × FileStore :=
  andThen s.takeLock fun s =>
    match check s with
    | .error e => (.error e, s)
    | .ok () => step s

def addVersion (s : FileStore) (now : String) (v : Version) (attributes : Attributes) :
    Except StoreError Unit × FileStore :=
  s.locked (fun s => if s.hasVersion v then .error (.versionExists v) else .ok ()) fun s =>
    andThen (s.makeFolders (s.layout.profilesFolder v.text)) fun s =>
      let d : VersionDocument := { version := v, attributes, createdAt := now }
      s.commit (s.tree.replace (s.layout.versionDocument v.text) (Json.print d.toNode))

def removeVersion (s : FileStore) (v : Version) : Except StoreError Unit × FileStore :=
  s.locked (fun s => s.requireVersion v) fun s =>
    s.commit (s.tree.removeFolder (s.layout.versionFolder v.text))

def requireProfile (s : FileStore) (v : Version) (id : ProfileId) : Except StoreError Unit := do
  s.requireVersion v
  if !s.contains (s.profilePath v id) then throw (.profileNotFound v id)

def requireNoProfile (s : FileStore) (v : Version) (id : ProfileId) : Except StoreError Unit := do
  s.requireVersion v
  if s.contains (s.profilePath v id) then throw (.profileExists v id)

-- Names are checked before the lock is taken.
def named (s : FileStore) (id : ProfileId) (step : Except StoreError Unit × FileStore) :
    Except StoreError Unit × FileStore :=
  match checkName id with
  | .error e => (.error e, s)
  | .ok () => step

def addProfile (s : FileStore) (now : String) (p : Profile) : Except StoreError Unit × FileStore :=
  s.named p.identity
    (s.locked (fun s => s.requireNoProfile p.version p.identity) fun s => s.writeProfile now p)

def updateProfile (s : FileStore) (now : String) (p : Profile) :
    Except StoreError Unit × FileStore :=
  s.named p.identity
    (s.locked (fun s => s.requireProfile p.version p.identity) fun s => s.writeProfile now p)

def removeProfile (s : FileStore) (v : Version) (id : ProfileId) :
    Except StoreError Unit × FileStore :=
  s.named id
    (s.locked (fun s => s.requireProfile v id) fun s =>
      s.commit (s.tree.removeFile (s.profilePath v id)))

end FileStore
end ContainerProfiles
