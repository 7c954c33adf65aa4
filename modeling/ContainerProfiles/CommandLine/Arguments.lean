import ContainerProfiles.Text.Cut

namespace ContainerProfiles.CommandLine

-- The arguments of the command line. Options stand before the command or after it; those that every command knows
-- count wherever they stand, and the later place wins. After `--` nothing is an option. Arguments are taken from
-- left to right, and the first that does not fit, or asks for help or the version, ends the reading.

inductive Command where
  | versions
  | addVersion (version : String) (source : Option String)
  | removeVersion (version : String)
  | profiles (version : String)
  | showProfile (version profile : String)
  | importFiles (files : List String) (version : Option String) (update : Bool)
  | removeProfile (version profile : String)
  | effective (version : String) (profiles : List String)
  | provision (version : String) (profiles : List String) (runtime : Option String)
  | completions (shell : String)
deriving DecidableEq

structure Invocation where
  store : String := "~/.local/share/fabric"
  config : Option String := none
  json : Bool := false
  command : Command
deriving DecidableEq

-- Why no command is run: what is given does not fit, is nothing at all, or asks for a text.
inductive Stop where
  | usage | nothing | help | version
deriving DecidableEq

structure Switch where
  long : String
  short : Option Char := none
  takesValue : Bool := false
  allowsEmpty : Bool := true
deriving DecidableEq

def everywhere : List Switch :=
  [{ long := "store", takesValue := true },
   { long := "config", takesValue := true, allowsEmpty := false },
   { long := "json" }, { long := "verbose", short := some 'v' }, { long := "trace" },
   { long := "help", short := some 'h' }]

def beforeCommand : List Switch := everywhere ++ [{ long := "version", short := some 'V' }]

def commandNames : List String :=
  ["versions", "add-version", "remove-version", "profiles", "show", "import", "remove-profile",
   "effective", "provision", "completions", "help"]

-- The switches of one command alone.
def ownSwitches : String → List Switch
  | "add-version" => [{ long := "from", takesValue := true }]
  | "import" => [{ long := "version", takesValue := true }, { long := "update" }]
  | "provision" => [{ long := "runtime", takesValue := true }]
  | _ => []

def shells : List String := ["bash", "elvish", "fish", "powershell", "zsh"]

-- Whether a command takes a word after those it has.
def takesWord (name : String) (words : List String) (word : String) : Bool :=
  match name with
  | "versions" => false
  | "add-version" | "remove-version" | "profiles" => words.isEmpty
  | "show" | "remove-profile" => words.length < 2
  | "import" => word ≠ ""
  | "completions" => words.isEmpty && shells.contains word
  | _ => true

-- What was found: values and flags under the long names of their switches, and the other words.
structure Found where
  values : List (String × String) := []
  flags : List String := []
  words : List String := []

namespace Found

def value? (f : Found) (name : String) : Option String :=
  (f.values.find? (fun e => e.1 = name)).map (·.2)

def has (f : Found) (name : String) : Bool := f.flags.contains name

def isEmpty (f : Found) : Bool := f.values.isEmpty && f.flags.isEmpty && f.words.isEmpty

-- A switch is given once.
def addValue (f : Found) (s : Switch) (value : String) : Except Stop Found :=
  if (f.value? s.long).isSome || (value = "" && !s.allowsEmpty) then .error .usage
  else .ok { f with values := (s.long, value) :: f.values }

def addFlag (f : Found) (s : Switch) : Except Stop Found :=
  if f.has s.long then .error .usage
  else if s.long = "help" then .error .help
  else if s.long = "version" then .error .version
  else .ok { f with flags := s.long :: f.flags }

def addWord (takes : List String → String → Bool) (f : Found) (word : String) : Except Stop Found :=
  if takes f.words word then .ok { f with words := f.words ++ [word] } else .error .usage

def addShort (switches : List Switch) (f : Found) (c : Char) : Except Stop Found :=
  match switches.find? (fun s => s.short = some c) with
  | some s => f.addFlag s
  | none => .error .usage

end Found

-- A single hyphen is a word like any other.
def looksLikeSwitch (arg : String) : Bool := arg.toList.head? = some '-' && arg ≠ "-"

-- The switch behind two hyphens and the value after an equals sign.
def longSwitch? (switches : List Switch) (arg : String) : Option (Switch × Option String) :=
  match arg.toList with
  | '-' :: '-' :: rest =>
      let text := String.ofList rest
      let (name, value) := match Text.aroundFirst '=' text with
        | some (name, value) => (name, some value)
        | none => (text, none)
      (switches.find? (fun s => s.long = name)).map (fun s => (s, value))
  | _ => none

-- Up to the first word that `ends` accepts; it is given back with what follows it. Other words have
-- to be taken. `pending` is a switch that waits for its value.
def scan (switches : List Switch) (ends : String → Bool) (takes : List String → String → Bool)
    (f : Found) (pending : Option Switch) :
    List String → Except Stop (Found × Option (String × List String))
  | [] => if pending.isSome then .error .usage else .ok (f, none)
  | arg :: rest =>
      match pending with
      | some s =>
          if looksLikeSwitch arg then .error .usage
          else do scan switches ends takes (← f.addValue s arg) none rest
      | none =>
          if arg = "--" then do return (← rest.foldlM (Found.addWord takes) f, none)
          else if !looksLikeSwitch arg then
            if ends arg then .ok (f, some (arg, rest))
            else do scan switches ends takes (← f.addWord takes arg) none rest
          else
            match longSwitch? switches arg with
            | some (s, value) =>
                match s.takesValue, value with
                | true, some value => do scan switches ends takes (← f.addValue s value) none rest
                | true, none => scan switches ends takes f (some s) rest
                | false, some _ => .error .usage
                | false, none => do scan switches ends takes (← f.addFlag s) none rest
            | none =>
                match arg.toList with
                | '-' :: '-' :: _ => .error .usage
                | letters => do
                    let f ← (letters.drop 1).foldlM (Found.addShort switches) f
                    scan switches ends takes f none rest

def command? (name : String) (f : Found) : Option Command :=
  match name, f.words with
  | "versions", [] => some .versions
  | "add-version", [v] => some (.addVersion v (f.value? "from"))
  | "remove-version", [v] => some (.removeVersion v)
  | "profiles", [v] => some (.profiles v)
  | "show", [v, p] => some (.showProfile v p)
  | "import", file :: files =>
      some (.importFiles (file :: files) (f.value? "version") (f.has "update"))
  | "remove-profile", [v, p] => some (.removeProfile v p)
  | "effective", v :: p :: ps => some (.effective v (p :: ps))
  | "provision", v :: p :: ps => some (.provision v (p :: ps) (f.value? "runtime"))
  | "completions", [shell] => some (.completions shell)
  | _, _ => none

-- Help may be asked for on a single command.
def helpOn : List String → Stop
  | [] => .help
  | [name] => if commandNames.contains name then .help else .usage
  | _ => .usage

def parse (args : List String) : Except Stop Invocation := do
  match ← scan beforeCommand commandNames.contains (fun _ _ => false) {} none args with
  | (before, none) => throw (if before.isEmpty then .nothing else .usage)
  | (before, some (name, rest)) =>
      if name = "help" then throw (helpOn rest)
      let (after, _) ← scan (everywhere ++ ownSwitches name) (fun _ => false) (takesWord name) {} none
        rest
      match command? name after with
      | none => throw .usage
      | some command =>
          let given (name : String) : Option String := (after.value? name).or (before.value? name)
          let standard : Invocation := { command }
          return { standard with
            store := (given "store").getD standard.store
            config := given "config"
            json := before.has "json" || after.has "json" }

end ContainerProfiles.CommandLine
