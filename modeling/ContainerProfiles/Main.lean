import ContainerProfiles.CommandLine.WorkingFiles
import Std.Time.DateTime

namespace ContainerProfiles.CommandLine

-- The program: it brings in the files that a command works on, runs the command over them and writes back what
-- changed.

def usage : String := "Usage: fabric [OPTIONS] <COMMAND>\n"

def padded (width : Nat) (n : Int) : String :=
  let digits := toString n
  String.ofList (List.replicate (width - digits.length) '0') ++ digits

-- The time of the day at Greenwich.
def now : IO String := do
  let t := Std.Time.PlainDateTime.ofWallTime ((← Std.Time.Timestamp.now).toWallTime .zero)
  let day := s!"{padded 4 t.year}-{padded 2 t.month.val}-{padded 2 t.day.val}"
  let time := s!"{padded 2 t.hour.val}:{padded 2 t.minute.val}:{padded 2 t.second.val}"
  return s!"{day}T{time}.{padded 9 t.nanosecond.val}+00:00"

def contentOf (path : String) : IO (Option String) := do
  try return some (← IO.FS.readFile path)
  catch _ => return none

-- A file that cannot be read is not brought in.
def bringIn (t : FileTree) (path : String) : IO FileTree := do
  match ← contentOf path with
  | none => return t
  | some content => return (t.deposit path content).2

def carryOut : Change → IO Unit
  | .folder path => IO.FS.createDirAll (absolute path)
  | .file path content => IO.FS.writeFile (absolute path) content
  | .removed path (.file _) => IO.FS.removeFile (absolute path)
  | .removed path .folder => IO.FS.removeDir (absolute path)

def workingTree : IO FileTree := do
  let here := toString (← IO.currentDir)
  let folders := (({} : FileTree).makeFolders here).2
  return { folders with workingFolder := ((folders.locate here).toOption.map (·.1)).getD [] }

def runHere (i : Invocation) : IO Exit := do
  let around : Surroundings := { home := ← IO.getEnv "HOME", clock := ← now }
  let store := expandHome around.home i.store
  let listed := listedFiles ((← contentOf (listFile store)).getD "")
  let before ← (filesRead around.home i ++ listed).foldlM bringIn (← workingTree)
  let (done, after) := runInvocation around before i
  (changes before after).forM carryOut
  match after.locate store with
  | .error _ => pure ()
  | .ok (folder, _) =>
      let files := (filesBelow after folder).map absolute
      IO.FS.writeFile (listFile store) (lines files)
  return done

end ContainerProfiles.CommandLine

open ContainerProfiles.CommandLine in
def main (args : List String) : IO UInt32 := do
  match parse args with
  | .error .usage | .error .nothing => IO.eprint usage; return 2
  | .error .help => IO.print usage; return 0
  | .error .version => IO.println "fabric 0.1.0"; return 0
  | .ok i =>
      let done ← runHere i
      IO.print done.stdout
      IO.eprint done.stderr
      return UInt32.ofNat done.code
