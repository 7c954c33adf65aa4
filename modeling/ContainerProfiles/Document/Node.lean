import ContainerProfiles.Dict

namespace ContainerProfiles

-- Parsed documents, and how records are taken out of them. A record is a table of its fields, or a list of them in
-- their declared order; a field that is named twice, or has the wrong shape, spoils it.

inductive Node where
  | null
  | truth (b : Bool)
  | integer (n : Int)
  -- A number with a fraction or an exponent, as it is spelled.
  | literal (spelling : String)
  | text (s : String)
  | list (elements : List Node)
  | table (entries : List (String × Node))
deriving Inhabited

-- The formats of documents differ in what they let pass as a record or a choice.
inductive Format where
  | json | toml
deriving DecidableEq

namespace Node

def text? : Node → Option String
  | text s => some s
  | _ => none

def truth? : Node → Option Bool
  | truth b => some b
  | _ => none

-- A natural number below the limit.
def natural? (limit : Nat) : Node → Option Nat
  | integer n => if 0 ≤ n ∧ n < (limit : Int) then some n.toNat else none
  | _ => none

def list? (one : Node → Option α) : Node → Option (List α)
  | list elements => elements.mapM one
  | _ => none

def nullable? (one : Node → Option α) : Node → Option (Option α)
  | null => some none
  | n => (one n).map some

def attributes? : Node → Option Attributes
  | table entries => (entries.mapM (fun e => (text? e.2).map (fun s => (e.1, s)))).map Dict.ofList
  | _ => none

def ofAttributes (a : Attributes) : Node := table (a.entries.map (fun e => (e.1, text e.2)))

-- A text that may be missing.
def ofText? (s : Option String) : Node := (s.map text).getD null

-- The name of a choice that has no content: a text, or the only key of a table with nothing under it.
def choice? (format : Format) : Node → Option String
  | text s => some s
  | table [(name, content)] =>
      match format, content with
      | .json, null | .toml, table [] | .toml, list [] => some name
      | _, _ => none
  | _ => none

structure Record where
  fields : List (String × Node)

-- What a field of another name means to a reader.
inductive Unknown where
  | ignored | refused
deriving DecidableEq

-- Elements beyond the fields are passed over in TOML and refused in JSON.
def record? (format : Format) (names : List String) (unknown : Unknown) : Node → Option Record
  | table entries =>
      if names.any (fun name => (entries.filter (fun e => e.1 = name)).length > 1) then none
      else if unknown = .refused && entries.any (fun e => !names.contains e.1) then none
      else some ⟨entries⟩
  | list elements =>
      if format = .json && elements.length > names.length then none
      else some ⟨names.zip elements⟩
  | _ => none

namespace Record

def find? (r : Record) (name : String) : Option Node :=
  (r.fields.find? (fun e => e.1 = name)).map (·.2)

def required (r : Record) (name : String) (one : Node → Option α) : Option α :=
  (r.find? name).bind one

def optional (r : Record) (name : String) (one : Node → Option α) (missing : α) : Option α :=
  match r.find? name with
  | none => some missing
  | some n => one n

end Record
end Node
end ContainerProfiles
