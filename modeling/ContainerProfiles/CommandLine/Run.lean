import ContainerProfiles.CommandLine.Arguments
import ContainerProfiles.CommandLine.Report
import ContainerProfiles.Definition.Document
import ContainerProfiles.Deployment.Start
import ContainerProfiles.Settings.Document

namespace ContainerProfiles.CommandLine

-- Running a command over a tree of files. Every command opens the store and starts a deployment on it first, which
-- makes sure of the default version and profile.

inductive CommandError where
  | operation (cause : OperationError)
  | definition (file : String) (cause : ProfileError)

namespace CommandError

def message : CommandError → String
  | operation cause => cause.message
  | definition file cause => "profile error: " ++ file ++ ": " ++ cause.message

def exitCode : CommandError → Nat
  | definition _ _ | operation (.profile _) => 2
  | operation (.store _) => 3
  | operation _ => 1

end CommandError

-- What a finished run leaves to the shell.
structure Exit where
  code : Nat := 0
  stdout : String := ""
  stderr : String := ""

namespace Exit

def refused (e : CommandError) : Exit :=
  { code := e.exitCode, stderr := "error: " ++ e.message ++ "\n" }

end Exit

structure Surroundings where
  home : Option String
  clock : String

-- What is asked for once the files and settings are known.
structure Context where
  store : String
  settings : Settings
  json : Bool
  clock : String

abbrev Ran := Except CommandError Exit × FileTree

def mainThread : Thread := "main"

-- `~/` stands for the home folder.
def expandHome (home : Option String) (path : String) : String :=
  match path.toList, home with
  | '~' :: '/' :: rest, some home => joinPath home (String.ofList rest)
  | _, _ => path

def settingsPath (home : String) : String := joinPath home ".config/fabric/fabric.toml"

def loadSettings (tree : FileTree) (path : String) : Except OperationError Settings := do
  let text ← (tree.read path).mapError OperationError.file
  (Settings.load path text).mapError .settings

-- Settings at their standard place need not be there.
def settingsFor (around : Surroundings) (tree : FileTree) (config : Option String) :
    Except OperationError Settings :=
  match config, around.home with
  | some path, _ => loadSettings tree path
  | none, none => .error (.settings .noHome)
  | none, some home =>
      if tree.contains (settingsPath home) then loadSettings tree (settingsPath home) else .ok {}

def openStore (tree : FileTree) (root : String) : Except StoreError Unit × FileStore :=
  FileStore.prepare { layout := ⟨root⟩, tree }

-- The tree of a deployment whose store is on files.
def treeOf (s : Deployment) : FileTree :=
  match s.store with
  | .files store => store.tree
  | .memory _ => {}

-- A started deployment over the store, for the rest of the command.
def started (c : Context) (provisioner : Provisioner) (tree : FileTree)
    (rest : Deployment → Except CommandError Exit × Deployment) : Ran :=
  match openStore tree c.store with
  | (.error e, store) => (.error (.operation (.store e)), store.tree)
  | (.ok (), store) =>
      match Deployment.build c.settings (.files store) provisioner {} c.clock with
      | .error e => (.error (.operation (.settings e)), store.tree)
      | .ok s =>
          match s.start mainThread with
          | (.error e, s) => (.error (.operation e), treeOf s)
          | (.ok _, s) =>
              let (outcome, s) := rest s
              (outcome, treeOf s)

def bare (c : Context) (tree : FileTree)
    (rest : Deployment → Except CommandError Exit × Deployment) : Ran :=
  started c {} tree rest

def readVersion (s : String) : Except CommandError Version :=
  (Version.read s).mapError (fun e => .operation (.profile e))

-- Lines, or the document where JSON is asked for.
def answer (c : Context) (doc : Node) (text : List String) : Exit :=
  { stdout := if c.json then document doc else lines text }

def looking (s : Deployment) (r : Except OperationError Exit) :
    Except CommandError Exit × Deployment :=
  (r.mapError .operation, s)

def acting (print : α → Exit) (r : Outcome α) : Except CommandError Exit × Deployment :=
  ((r.1.map print).mapError .operation, r.2)

-- A command whose version argument is read before anything is touched.
def onVersion (tree : FileTree) (version : String) (run : Version → Ran) : Ran :=
  match readVersion version with
  | .error e => (.error e, tree)
  | .ok v => run v

def listVersions (c : Context) (s : Deployment) : Except OperationError Exit := do
  let listed ← (← s.versions).mapM (s.getVersion mainThread)
  return answer c (.list (listed.map ProfileVersion.toNode)) (versionLines listed)

def copiedProfiles (s : Deployment) (v : Version) :
    Option String → Except CommandError (List Profile)
  | none => .ok []
  | some source => do
      let source ← readVersion source
      let profiles ← (s.getProfiles mainThread source).mapError CommandError.operation
      return profiles.map (fun p => p.withVersion v)

def addVersion (c : Context) (v : Version) (source : Option String) (s : Deployment) :
    Except CommandError Exit × Deployment :=
  match copiedProfiles s v source with
  | .error e => (.error e, s)
  | .ok seed =>
      acting (fun listed => answer c listed.toNode
          [s!"added version {listed.version.text} with {toString listed.profiles.length} profiles"])
        (s.addVersion mainThread { version := v, profiles := [], attributes := ∅ } seed)

def removeVersion (c : Context) (v : Version) (s : Deployment) :
    Except CommandError Exit × Deployment :=
  acting (fun removed => answer c
      (.table [("version", .text removed.version.text), ("status", .text "removed")])
      ["removed version " ++ removed.version.text])
    (s.removeVersion mainThread v)

def removeProfile (c : Context) (v : Version) (id : ProfileId) (s : Deployment) :
    Except CommandError Exit × Deployment :=
  acting (fun removed => answer c
      (.table [("version", .text removed.version.text), ("profile", .text removed.identity),
        ("status", .text "removed")])
      [s!"removed profile {removed.identity} from version {removed.version.text}"])
    (s.removeProfile mainThread v id)

def listProfiles (c : Context) (v : Version) (s : Deployment) : Except OperationError Exit := do
  let profiles ← s.getProfiles mainThread v
  return answer c (.list (profiles.map Profile.toNode)) (tableLines v profiles)

def showProfile (c : Context) (p : Profile) : Exit := answer c p.toNode (profileLines p)

-- One profile has an effective view of its own; a list of them is laid together.
def effectiveOf (s : Deployment) (v : Version) : List ProfileId → Except OperationError Profile
  | [id] => s.effective mainThread v id
  | ids => s.effectiveFor mainThread v ids

def readDefinition (tree : FileTree) (fallback : Option Version) (file : String) :
    Except ProfileError Profile := do
  let text ← (tree.read file).mapError (fun fault => ProfileError.unreadable fault.message)
  (← Definition.read text).toProfile fallback

-- A profile that is there already is replaced only where an update is asked for.
def importProfile (s : Deployment) (update : Bool) (p : Profile) : Outcome Profile :=
  match s.getVersion mainThread p.version with
  | .error e => (.error e, s)
  | .ok listed =>
      if update && listed.profiles.contains p.identity then s.updateProfile mainThread p none
      else s.addProfile mainThread p

-- Files before the one that fails stay imported.
def importFiles (update : Bool) (fallback : Option Version) (done : List Profile) (s : Deployment) :
    List String → Except CommandError (List Profile) × Deployment
  | [] => (.ok done, s)
  | file :: rest =>
      match readDefinition (treeOf s) fallback file with
      | .error e => (.error (.definition file e), s)
      | .ok p =>
          match importProfile s update p with
          | (.error e, s) => (.error (.operation e), s)
          | (.ok p, s) => importFiles update fallback (done ++ [p]) s rest

def imported (c : Context) (profiles : List Profile) : Exit :=
  answer c
    (.list (profiles.map (fun p =>
      .table [("version", .text p.version.text), ("profile", .text p.identity)])))
    (profiles.map (fun p => s!"imported {p.identity} into version {p.version.text}"))

def dryRunContainer : ContainerId := "dry-run"

def watcher : String := "dry-run"

def heard : List Notice → List ProvisionEvent
  | [] => []
  | .heard _ (.provision e) :: rest => e :: heard rest
  | _ :: rest => heard rest

-- Creates, starts and destroys a container, and tells what happened to it.
def dryRun (v : Version) (profiles : List ProfileId) (s : Deployment) : Outcome DryRun :=
  let id := dryRunContainer
  Deployment.andThen (s.create mainThread { identity := id, version := some v, profiles }) fun _ s =>
    let (outcome, s) := s.startContainer mainThread id (some watcher)
    match s.getContainer mainThread id with
    | .error e => (.error e, s)
    | .ok c =>
        let effective := match s.containerEffective mainThread id with
          | .ok p => some p.identity
          | .error _ => none
        let configuration := s.provisioner.targets.held
        let error := match outcome with
          | .ok _ => none
          | .error e => some e.message
        Deployment.andThen (s.destroy mainThread id (some watcher)) fun _ s =>
          (.ok { container := id, effective, installed := c.installedIds, configuration,
                 events := heard s.log, error }, s)

def dryRunExit (c : Context) (r : DryRun) : Exit :=
  { code := if r.error.isSome then 1 else 0
    stdout := if c.json then document r.toNode else lines r.shownLines
    stderr := match r.error, c.json with
      | some e, false => "error: " ++ e ++ "\n"
      | _, _ => "" }

def withRuntime (c : Context) : Option String → Except CommandError Context
  | none => .ok c
  | some name =>
      match RuntimeType.read name with
      | .ok runtime => .ok { c with settings := { c.settings with runtime } }
      | .error e => .error (.operation (.profile e))

-- The repository offers whatever any profile of the version declares.
def offered (s : Deployment) (v : Version) : Except OperationError (List Resource) := do
  return (← s.getProfiles mainThread v).flatMap (fun p => p.resourceItems.map (·.resource))

def provision (c : Context) (tree : FileTree) (v : Version) (profiles : List ProfileId)
    (runtime : Option String) : Ran :=
  match withRuntime c runtime with
  | .error e => (.error e, tree)
  | .ok dry =>
      match openStore tree c.store with
      | (.error e, store) => (.error (.operation (.store e)), store.tree)
      | (.ok (), store) =>
          match Deployment.build c.settings (.files store) {} {} c.clock with
          | .error e => (.error (.operation (.settings e)), store.tree)
          | .ok s =>
              match Deployment.andThen (s.start mainThread) (fun _ s => (offered s v, s)) with
              | (.error e, s) => (.error (.operation e), treeOf s)
              | (.ok resources, s) =>
                  started dry { repository := .ofResources resources } (treeOf s) fun s =>
                    acting (dryRunExit c) (dryRun v profiles s)

def runCommand (c : Context) (tree : FileTree) : Command → Ran
  | .versions => bare c tree fun s => looking s (listVersions c s)
  | .addVersion version source =>
      onVersion tree version fun v => bare c tree (addVersion c v source)
  | .removeVersion version => onVersion tree version fun v => bare c tree (removeVersion c v)
  | .profiles version =>
      onVersion tree version fun v => bare c tree fun s => looking s (listProfiles c v s)
  | .showProfile version id =>
      onVersion tree version fun v => bare c tree fun s =>
        looking s ((s.getProfile mainThread v id).map (showProfile c))
  | .importFiles files version update =>
      match version.mapM readVersion with
      | .error e => (.error e, tree)
      | .ok fallback => bare c tree fun s =>
          let (outcome, s) := importFiles update fallback [] s files
          (outcome.map (imported c), s)
  | .removeProfile version id =>
      onVersion tree version fun v => bare c tree (removeProfile c v id)
  | .effective version ids =>
      onVersion tree version fun v => bare c tree fun s =>
        looking s ((effectiveOf s v ids).map (showProfile c))
  | .provision version ids runtime =>
      onVersion tree version fun v => provision c tree v ids runtime
  | .completions _ => (.ok {}, tree)

def runInvocation (around : Surroundings) (tree : FileTree) (i : Invocation) : Exit × FileTree :=
  match i.command with
  | .completions _ => ({}, tree)
  | command =>
      match settingsFor around tree i.config with
      | .error e => (.refused (.operation e), tree)
      | .ok settings =>
          let c : Context :=
            { store := expandHome around.home i.store, settings, json := i.json, clock := around.clock }
          match runCommand c tree command with
          | (.ok done, tree) => (done, tree)
          | (.error e, tree) => (.refused e, tree)

end ContainerProfiles.CommandLine
