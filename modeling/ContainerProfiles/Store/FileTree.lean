import ContainerProfiles.Dict
import ContainerProfiles.Text.Cut

namespace ContainerProfiles

-- A tree of folders and files. A path is looked up name by name, and whatever is not the end of it has to be a
-- folder that is there, also before `..` and a slash at the end. Writing operations give the tree back with
-- whatever was done before a fault.

inductive FileFault where
  | missing | notFolder | isFolder | taken | nameTooLong | nulInName | unfit
deriving DecidableEq

def FileFault.message : FileFault → String
  | .missing => "No such file or directory (os error 2)"
  | .notFolder => "Not a directory (os error 20)"
  | .isFolder => "Is a directory (os error 21)"
  | .taken => "File exists (os error 17)"
  | .nameTooLong => "File name too long (os error 36)"
  | .nulInName => "file name contained an unexpected NUL byte"
  | .unfit => "Invalid argument (os error 22)"

inductive FileEntry where
  | folder
  | file (content : String)
deriving DecidableEq

abbrev Path := List String

structure FileTree where
  -- The root itself is a folder and has no entry.
  entries : Dict Path FileEntry := ∅
  -- Where relative paths begin.
  workingFolder : Path := []

namespace FileTree

-- In bytes.
def longestName : Nat := 255

def nameFits (name : String) : Bool := name.utf8ByteSize ≤ longestName

-- In bytes, as it is given.
def longestPath : Nat := 4095

-- Names that stay where they are.
def isIdle (name : String) : Bool := name = "" || name = "."

def entry? (t : FileTree) (p : Path) : Option FileEntry :=
  if p.isEmpty then some .folder else t.entries.get? p

-- From a place to the one that a name means there.
def step (t : FileTree) (here : Path) (name : String) : Except FileFault Path :=
  match t.entry? here with
  | none => .error .missing
  | some (.file _) => .error .notFolder
  | some .folder =>
      if isIdle name then .ok here
      else if name = ".." then .ok here.dropLast
      else if !nameFits name then .error .nameTooLong
      else if t.entries.contains (here ++ [name]) then .ok (here ++ [name])
      else .error .missing

-- Where a path begins, and its names.
def begin? (t : FileTree) (path : String) : Except FileFault (Path × List String) :=
  if path.toList.contains '\x00' then .error .nulInName
  else if path = "" then .error .missing
  else if longestPath < path.utf8ByteSize then .error .nameTooLong
  else
    .ok (if path.toList.head? = some '/' then [] else t.workingFolder, Text.pieces '/' path)

def locate (t : FileTree) (path : String) : Except FileFault (Path × FileEntry) := do
  let (start, names) ← t.begin? path
  let p ← names.foldlM t.step start
  match t.entry? p with
  | some entry => return (p, entry)
  | none => throw .missing

def contains (t : FileTree) (path : String) : Bool := (t.locate path).toBool

def read (t : FileTree) (path : String) : Except FileFault String := do
  match ← t.locate path with
  | (_, .file content) => return content
  | (_, .folder) => throw .isFolder

-- The names right below a folder, in order.
def list (t : FileTree) (path : String) : Except FileFault (List (String × FileEntry)) := do
  match ← t.locate path with
  | (_, .file _) => throw .notFolder
  | (p, .folder) =>
      return t.entries.entries.filterMap (fun e =>
        match e.1.getLast? with
        | some name => if e.1 = p ++ [name] then some (name, e.2) else none
        | none => none)

-- All paths below a folder, those of folders with a slash at the end, in the order of the texts.
def listing (t : FileTree) (folder : Path) : List String :=
  let below := t.entries.entries.filterMap (fun e =>
    if folder.isPrefixOf e.1 ∧ folder.length < e.1.length then
      let path := String.intercalate "/" (e.1.drop folder.length)
      some (if e.2 = .folder then path ++ "/" else path)
    else none)
  below.mergeSort (fun a b => compare a b ≠ .gt)

def put (t : FileTree) (path : Path) (entry : FileEntry) : FileTree :=
  { t with entries := t.entries.insert path entry }

-- The outcome of a change that is done as a whole or not at all.
def commit (t : FileTree) : Except FileFault FileTree → Except FileFault Unit × FileTree
  | .ok next => (.ok (), next)
  | .error fault => (.error fault, t)

-- The last name of a path, whether a slash follows it, and the folder it belongs to.
structure Spot where
  folder : Path
  name : String
  slashed : Bool
deriving DecidableEq

def Spot.path (spot : Spot) : Path := spot.folder ++ [spot.name]

-- Names that are no place of their own.
def Spot.stays (spot : Spot) : Bool := isIdle spot.name || spot.name = ".."

def spot (t : FileTree) (path : String) : Except FileFault Spot := do
  let (start, names) ← t.begin? path
  let solid := (names.reverse.dropWhile (· = "")).reverse
  let folder ← solid.dropLast.foldlM t.step start
  if t.entry? folder = some .folder then
    return { folder, name := solid.getLastD "", slashed := solid.length < names.length }
  else throw .notFolder

def isFolder (t : FileTree) (path : String) : Bool :=
  match t.locate path with
  | .ok (_, .folder) => true
  | _ => false

-- A single new folder.
def makeFolder (t : FileTree) (path : String) : Except FileFault FileTree := do
  let spot ← t.spot path
  if spot.stays then throw .taken
  else if !nameFits spot.name then throw .nameTooLong
  else if t.entries.contains spot.path then throw .taken
  else return t.put spot.path .folder

-- The path without its last name that moves and all that stands idle around it; nothing above a
-- single name.
def parent (path : String) : String :=
  let names := (Text.pieces '/' path).reverse.dropWhile isIdle
  "/".intercalate (names.tail.dropWhile isIdle).reverse

-- A folder that is there already is as good as a new one.
def ensure (t : FileTree) (path : String) :
    Except FileFault FileTree → Except FileFault Unit × FileTree
  | .ok next => (.ok (), next)
  | .error fault => if t.isFolder path then (.ok (), t) else (.error fault, t)

-- The folder is tried first, and again after the one above it, when that is what is missing. A path
-- has fewer folders above it than names, which bounds the fuel.
def makeUpTo : Nat → FileTree → String → Except FileFault Unit × FileTree
  | 0, t, _ => (.ok (), t)
  | fuel + 1, t, path =>
      if path = "" then (.ok (), t)
      else
        match t.makeFolder path with
        | .error .missing =>
            match makeUpTo fuel t (parent path) with
            | (.ok (), t) => t.ensure path (t.makeFolder path)
            | failed => failed
        | outcome => t.ensure path outcome

-- A folder and the folders above it, as far as they are missing.
def makeFolders (t : FileTree) (path : String) : Except FileFault Unit × FileTree :=
  makeUpTo (Text.pieces '/' path).length.succ t path

-- Where a file of this path may be written.
def target (t : FileTree) (path : String) : Except FileFault Path := do
  let spot ← t.spot path
  if spot.stays || spot.slashed then throw .isFolder
  else if !nameFits spot.name then throw .nameTooLong
  else if t.entries.get? spot.path = some .folder then throw .isFolder
  else return spot.path

-- The file has this content afterwards, whether it was there before or not.
def write (t : FileTree) (path content : String) : Except FileFault FileTree := do
  return t.put (← t.target path) (.file content)

-- As `write`, by a file written beside it that takes its name. A name that no file can have is found
-- unfit only then.
def replace (t : FileTree) (path content : String) : Except FileFault FileTree :=
  (t.write path content).mapError (fun fault => if fault = .nulInName then .unfit else fault)

-- As `write`, after the folders above the file are made.
def deposit (t : FileTree) (path content : String) : Except FileFault Unit × FileTree :=
  match t.makeFolders (parent path) with
  | (.ok (), t) => t.commit (t.write path content)
  | failed => failed

-- An empty file, unless it is there already.
def touch (t : FileTree) (path : String) : Except FileFault FileTree := do
  let p ← t.target path
  return if t.entries.contains p then t else t.put p (.file "")

def removeFile (t : FileTree) (path : String) : Except FileFault FileTree := do
  match ← t.locate path with
  | (_, .folder) => throw .isFolder
  | (p, .file _) => return { t with entries := t.entries.erase p }

-- A folder with everything below it.
def removeFolder (t : FileTree) (path : String) : Except FileFault FileTree := do
  match ← t.locate path with
  | (_, .file _) => throw .notFolder
  | (p, .folder) => return { t with entries := t.entries.filter (fun q _ => !p.isPrefixOf q) }

end FileTree
end ContainerProfiles
