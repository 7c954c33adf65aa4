import ContainerProfiles.CommandLine.Run

namespace ContainerProfiles.CommandLine

-- The files a command works on, brought in from a file system whose folders cannot be listed: every store has a
-- list of its files beside them. What a command changed is found by comparing the trees before and after it.

def absolute (path : Path) : String := "/" ++ String.intercalate "/" path

-- The list of a store's files, one path a line.
def listFile (store : String) : String := joinPath store ".files"

def listedFiles (text : String) : List String := (Text.pieces '\n' text).filter (· ≠ "")

-- What a command reads besides its store.
def filesRead (home : Option String) (i : Invocation) : List String :=
  let settings := match i.config, home with
    | some path, _ => [path]
    | none, some home => [settingsPath home]
    | none, none => []
  match i.command with
  | .importFiles files _ _ => settings ++ files
  | _ => settings

inductive Change where
  | folder (path : Path)
  | file (path : Path) (content : String)
  | removed (path : Path) (entry : FileEntry)

-- Folders stand before what they hold, and what goes goes from below.
def changes (before after : FileTree) : List Change :=
  let made := after.entries.entries.filterMap (fun e =>
    if before.entries.get? e.1 = some e.2 then none
    else match e.2 with
      | .folder => some (.folder e.1)
      | .file content => some (.file e.1 content))
  let gone := before.entries.entries.filterMap (fun e =>
    if after.entries.contains e.1 then none else some (.removed e.1 e.2))
  gone.reverse ++ made

-- The files below a folder.
def filesBelow (t : FileTree) (folder : Path) : List Path :=
  t.entries.entries.filterMap (fun e => match e.2 with
    | .file _ => if folder.isPrefixOf e.1 then some e.1 else none
    | .folder => none)

end ContainerProfiles.CommandLine
