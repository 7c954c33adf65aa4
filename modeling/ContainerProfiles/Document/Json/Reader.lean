import ContainerProfiles.Document.Json.Number
import ContainerProfiles.Document.Json.Text

namespace ContainerProfiles.Json

-- Reading a JSON text. Fields of an object are kept in their order, repeated ones included. The first fault from
-- the left is the one that is told.

def isBlank (c : Char) : Bool := c = ' ' || c = '\n' || c = '\r' || c = '\t'

def skip (cs : List Char) : List Char := cs.dropWhile isBlank

-- The letters one by one.
def word : List Char → Move
  | [], rest => .ok rest
  | _ :: _, [] => stopBefore .endInValue []
  | w :: ws, c :: rest => if c = w then word ws rest else stopAt .noWord (c :: rest)

def constant (n : Node) (letters : String) (cs : List Char) : Reads (Node × List Char) :=
  (word letters.toList cs).map (fun rest => (n, rest))

-- A value without parts.
def scalar : Step Node
  | [] => stopBefore .endInValue []
  | '"' :: rest => (text rest).map (fun r => (.text r.1, r.2))
  | '-' :: rest => number true rest
  | 't' :: rest => constant (.truth true) "rue" rest
  | 'f' :: rest => constant (.truth false) "alse" rest
  | 'n' :: rest => constant .null "ull" rest
  | c :: rest => if c.isDigit then number false (c :: rest) else stopAt .noValue (c :: rest)

-- Up to the first character of the next element: `first` if none has been read, and false where the
-- list ends.
def nextElement (first : Bool) (cs : List Char) : Reads (Bool × List Char) :=
  match skip cs with
  | [] => stopBefore .endInList []
  | ']' :: rest => .ok (false, ']' :: rest)
  | c :: rest =>
      if first then .ok (true, c :: rest)
      else if c = ',' then
        match skip rest with
        | [] => stopBefore .endInValue []
        | ']' :: rest => stopAt .trailingComma (']' :: rest)
        | rest => .ok (true, rest)
      else stopAt .noElementEnd (c :: rest)

def nextField (first : Bool) (cs : List Char) : Reads (Bool × List Char) :=
  match skip cs with
  | [] => stopBefore .endInObject []
  | '}' :: rest => .ok (false, '}' :: rest)
  | c :: rest =>
      if first then .ok (true, c :: rest)
      else if c = ',' then
        match skip rest with
        | [] => stopBefore .endInValue []
        | '}' :: rest => stopAt .trailingComma ('}' :: rest)
        | rest => .ok (true, rest)
      else stopAt .noFieldEnd (c :: rest)

def key : Step String
  | '"' :: rest => text rest
  | rest => stopAt .keyNotText rest

def colon (cs : List Char) : Reads (List Char) :=
  match skip cs with
  | [] => stopBefore .endInObject []
  | ':' :: rest => .ok rest
  | rest => stopAt .noColon rest

def endList (cs : List Char) : Reads (List Char) :=
  match skip cs with
  | [] => stopBefore .endInList []
  | ']' :: rest => .ok rest
  | ',' :: rest =>
      match skip rest with
      | ']' :: rest => stopAt .trailingComma (']' :: rest)
      | rest => stopAt .trailingText rest
  | rest => stopAt .trailingText rest

def endTable (cs : List Char) : Reads (List Char) :=
  match skip cs with
  | [] => stopBefore .endInObject []
  | '}' :: rest => .ok rest
  | ',' :: rest => stopAt .trailingComma (',' :: rest)
  | rest => stopAt .trailingText rest

-- How far the end of a list or object is looked for after a fault inside.
def behindList (cs : List Char) : List Char :=
  match skip cs with
  | ']' :: rest => rest
  | ',' :: rest => skip rest
  | rest => rest

def behindTable (cs : List Char) : List Char :=
  match skip cs with
  | '}' :: rest => rest
  | rest => rest

def Stop.settled (s : Stop) (behind : List Char → List Char) : Stop :=
  if s.placed then s else { fault := s.fault, rest := behind s.rest }

def closed (finish : Move) (behind : List Char → List Char) (inside : Step Node) : Step Node :=
  fun cs =>
    match inside cs with
    | .ok (n, rest) => (finish rest).map (fun rest => (n, rest))
    | .error stop => .error (stop.settled behind)

def inList : Step Node → Step Node := closed endList behindList

def inTable : Step Node → Step Node := closed endTable behindTable

-- The length of the text is always enough as fuel.
def elements (one : Step Node) : Nat → Bool → Step (List Node)
  | 0, _, rest => stopAt .noValue rest
  | fuel + 1, first, cs => do
      let (more, rest) ← nextElement first cs
      if more then
        let (n, rest) ← one rest
        let (ns, rest) ← elements one fuel false rest
        return (n :: ns, rest)
      else return ([], rest)

-- `one` goes on after a key and before its colon. It knows the keys before and may leave the entry
-- out.
def entries (one : List String → String → Step (Option Node)) :
    Nat → List String → Step (List (String × Node))
  | 0, _, rest => stopAt .noValue rest
  | fuel + 1, before, cs => do
      let (more, rest) ← nextField before.isEmpty cs
      if more then
        let (name, rest) ← key rest
        let (n, rest) ← one before name rest
        let (others, rest) ← entries one fuel (name :: before) rest
        return ((n.map (fun n => (name, n))).toList ++ others, rest)
      else return ([], rest)

def entry (one : Step Node) (cs : List Char) : Reads (Option Node × List Char) := do
  let (n, rest) ← one (← colon cs)
  return (some n, rest)

def listOf (fuel : Nat) (one : Step Node) : Step Node := fun cs =>
  (elements one fuel true cs).map (fun r => (.list r.1, r.2))

def tableOf (fuel : Nat) (one : List String → String → Step (Option Node)) : Step Node := fun cs =>
  (entries one fuel [] cs).map (fun r => (.table r.1, r.2))

-- So many lists and objects may stand within each other.
def deepest : Nat := 127

-- Any value, with so many levels left for what stands within it.
def value (fuel : Nat) : Nat → Step Node
  | depth, cs =>
      match skip cs, depth with
      | '[' :: rest, depth + 1 =>
          inList (listOf fuel (value fuel depth)) rest
      | '{' :: rest, depth + 1 =>
          inTable (tableOf fuel (fun _ _ => entry (value fuel depth))) rest
      | '[' :: rest, 0 => stopAt .tooDeep ('[' :: rest)
      | '{' :: rest, 0 => stopAt .tooDeep ('{' :: rest)
      | rest, _ => scalar rest

-- A whole text, by a step that is given fuel and depth.
def whole (one : Nat → Nat → Step Node) (s : String) : Except Complaint Node :=
  let cs := s.toList
  let found : Reads (Node × List Char) := do
    let (n, rest) ← one (cs.length + 1) deepest cs
    match skip rest with
    | [] => return (n, [])
    | rest => stopAt .trailingText rest
  match found with
  | .ok (n, _) => .ok n
  | .error stop => .error (stop.complaint cs)

def read (s : String) : Except Complaint Node := whole value s

end ContainerProfiles.Json
