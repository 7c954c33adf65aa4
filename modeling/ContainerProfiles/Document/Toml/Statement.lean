import ContainerProfiles.Document.Toml.Scalar

namespace ContainerProfiles.Toml

-- The statements of a TOML text, one after another: table headers, headers of table lists, and assignments, each
-- under a path of keys.

inductive Statement where
  | table (path : List String)
  | element (path : List String)
  | assignment (path : List String) (value : Node)

def afterComment : List Char → List Char
  | '#' :: rest => rest.dropWhile isVisible
  | cs => cs

-- What follows the end of a line; the text may end there too.
def lineEnd (cs : List Char) : Option (List Char) :=
  match afterComment (skipSpaces cs) with
  | [] => some []
  | cs => newline? cs

-- Blanks, line ends and whole comments, as they may stand inside of a list.
def skipLines : Nat → List Char → Option (List Char)
  | 0, cs => some cs
  | fuel + 1, cs =>
      match skipSpaces cs with
      | '#' :: rest => (newline? (rest.dropWhile isVisible)).bind (skipLines fuel)
      | cs =>
          match newline? cs with
          | some rest => skipLines fuel rest
          | none => some cs

-- A table written in one line while it is filled. A table made by a dotted key may grow further.
inductive Inline where
  | leaf (n : Node)
  | dotted (entries : List (String × Inline))

def replaceEntry (key : String) (x : α) (entries : List (String × α)) : List (String × α) :=
  entries.map (fun e => if e.1 = key then (key, x) else e)

def value? (key : String) (entries : List (String × α)) : Option α :=
  (entries.find? (fun e => e.1 = key)).map (·.2)

namespace Inline

def assign (value : Node) : List String → List (String × Inline) → Option (List (String × Inline))
  | [], _ => none
  | [key], entries =>
      match value? key entries with
      | none => some (entries ++ [(key, leaf value)])
      | some _ => none
  | key :: keys, entries =>
      match value? key entries with
      | none => (assign value keys []).map (fun t => entries ++ [(key, dotted t)])
      | some (dotted t) => (assign value keys t).map (fun t => replaceEntry key (dotted t) entries)
      | some (leaf _) => none

mutual

def toNode : Inline → Node
  | leaf n => n
  | dotted entries => .table (entryNodes entries)

def entryNodes : List (String × Inline) → List (String × Node)
  | [] => []
  | (key, i) :: rest => (key, i.toNode) :: entryNodes rest

end

end Inline

def word (spelling : String) (node : Node) (cs : List Char) : Option (Node × List Char) :=
  let w := spelling.toList
  if w.isPrefixOf cs then some (node, cs.drop w.length) else none

mutual

-- Recursion is bounded by the length of the text, nesting by `depth`.
def value : Nat → Nat → List Char → Option (Node × List Char)
  | 0, _, _ => none
  | fuel + 1, depth, cs =>
      match cs with
      | '"' :: _ => (string? cs).map (fun r => (.text (String.ofList r.1), r.2))
      | '\'' :: _ => (string? cs).map (fun r => (.text (String.ofList r.1), r.2))
      | '[' :: rest =>
          if depth + 1 < depthLimit then do
            let rest ← skipLines fuel rest
            let (elements, rest) ← elements fuel (depth + 1) rest
            return (.list elements, rest)
          else none
      | '{' :: rest =>
          if depth + 1 < depthLimit then
            match skipSpaces rest with
            | '}' :: rest => some (.table [], rest)
            | rest => do
                let (entries, rest) ← inlineEntries fuel (depth + 1) [] rest
                return (.table (Inline.entryNodes entries), rest)
          else none
      | 't' :: _ => word "true" (.truth true) cs
      | 'f' :: _ => word "false" (.truth false) cs
      | 'i' :: _ => specialFloat cs
      | 'n' :: _ => specialFloat cs
      | cs => number cs

-- The elements up to the closing bracket, which a comma may precede.
def elements : Nat → Nat → List Char → Option (List Node × List Char)
  | 0, _, _ => none
  | fuel + 1, depth, cs =>
      match cs with
      | ']' :: rest => some ([], rest)
      | cs => do
          let (n, rest) ← value fuel depth cs
          let rest ← skipLines fuel rest
          match rest with
          | ',' :: rest => do
              let rest ← skipLines fuel rest
              let (ns, rest) ← elements fuel depth rest
              return (n :: ns, rest)
          | ']' :: rest => return ([n], rest)
          | _ => none

def inlineEntries : Nat → Nat → List (String × Inline) → List Char →
    Option (List (String × Inline) × List Char)
  | 0, _, _, _ => none
  | fuel + 1, depth, entries, cs => do
      let (path, rest) ← Toml.path cs
      let rest ← expect '=' rest
      let (n, rest) ← value fuel depth (skipSpaces rest)
      let entries ← Inline.assign n path entries
      match skipSpaces rest with
      | ',' :: rest => inlineEntries fuel depth entries rest
      | '}' :: rest => return (entries, rest)
      | _ => none

end

def assignment (cs : List Char) : Option (Statement × List Char) := do
  let (path, rest) ← Toml.path cs
  let rest ← expect '=' rest
  let (n, rest) ← value (rest.length + 1) 0 (skipSpaces rest)
  return (.assignment path n, rest)

def header : List Char → Option (Statement × List Char)
  | '[' :: '[' :: rest => do
      let (path, rest) ← Toml.path rest
      let rest ← expect ']' rest
      let rest ← expect ']' rest
      return (.element path, rest)
  | '[' :: rest => do
      let (path, rest) ← Toml.path rest
      let rest ← expect ']' rest
      return (.table path, rest)
  | _ => none

-- Every turn takes a line or the rest of the text.
def statements : Nat → List Char → Option (List Statement)
  | 0, _ => none
  | fuel + 1, cs =>
      match skipSpaces cs with
      | [] => some []
      | cs =>
          match lineEnd cs with
          | some rest => statements fuel rest
          | none => do
              let (s, rest) ← if cs.head? = some '[' then header cs else assignment cs
              let rest ← lineEnd rest
              let more ← statements fuel rest
              return s :: more

-- A byte order mark may open the text.
def readStatements (s : String) : Option (List Statement) :=
  match s.toList with
  | '\uFEFF' :: cs => statements (cs.length + 1) cs
  | cs => statements (cs.length + 1) cs

end ContainerProfiles.Toml
