import ContainerProfiles.Document.Node

namespace ContainerProfiles.Json

-- Writing a document as JSON: over several lines, each level two blanks further in, where empty tables and lists stay
-- on one line, or all on one line.

def hexPair (n : Nat) : List Char := [Nat.digitChar (n / 16), Nat.digitChar (n % 16)]

-- Quotes, backslashes and controls below the blank are escaped and nothing else.
def escaped (c : Char) : List Char :=
  match c with
  | '"' => ['\\', '"']
  | '\\' => ['\\', '\\']
  | '\x08' => ['\\', 'b']
  | '\t' => ['\\', 't']
  | '\n' => ['\\', 'n']
  | '\x0c' => ['\\', 'f']
  | '\r' => ['\\', 'r']
  | c => if c.toNat < 0x20 then ['\\', 'u', '0', '0'] ++ hexPair c.toNat else [c]

def quoted (s : String) : List Char := '"' :: (s.toList.flatMap escaped ++ ['"'])

def newline (depth : Nat) : List Char := '\n' :: List.replicate (2 * depth) ' '

mutual

def chars (depth : Nat) : Node → List Char
  | .null => "null".toList
  | .truth b => (if b then "true" else "false").toList
  | .integer n => (toString n).toList
  | .literal spelling => spelling.toList
  | .text s => quoted s
  | .list [] => ['[', ']']
  | .list (n :: ns) =>
      '[' :: newline (depth + 1) ++ chars (depth + 1) n ++ elementChars (depth + 1) ns
        ++ newline depth ++ [']']
  | .table [] => ['\x7b', '\x7d']
  | .table ((key, n) :: entries) =>
      '\x7b' :: newline (depth + 1) ++ quoted key ++ [':', ' '] ++ chars (depth + 1) n
        ++ entryChars (depth + 1) entries ++ newline depth ++ ['\x7d']

def elementChars (depth : Nat) : List Node → List Char
  | [] => []
  | n :: ns => ',' :: newline depth ++ chars depth n ++ elementChars depth ns

def entryChars (depth : Nat) : List (String × Node) → List Char
  | [] => []
  | (key, n) :: entries =>
      ',' :: newline depth ++ quoted key ++ [':', ' '] ++ chars depth n ++ entryChars depth entries

end

def print (n : Node) : String := String.ofList (chars 0 n)

-- On one line.
mutual

def lineChars : Node → List Char
  | .null => "null".toList
  | .truth b => (if b then "true" else "false").toList
  | .integer n => (toString n).toList
  | .literal spelling => spelling.toList
  | .text s => quoted s
  | .list [] => ['[', ']']
  | .list (n :: ns) => '[' :: (lineChars n ++ elementLine ns ++ [']'])
  | .table [] => ['\x7b', '\x7d']
  | .table ((key, n) :: entries) =>
      '\x7b' :: (quoted key ++ ':' :: (lineChars n ++ entryLine entries ++ ['\x7d']))

def elementLine : List Node → List Char
  | [] => []
  | n :: ns => ',' :: (lineChars n ++ elementLine ns)

def entryLine : List (String × Node) → List Char
  | [] => []
  | (key, n) :: entries => ',' :: (quoted key ++ ':' :: (lineChars n ++ entryLine entries))

end

def line (n : Node) : String := String.ofList (lineChars n)

end ContainerProfiles.Json
