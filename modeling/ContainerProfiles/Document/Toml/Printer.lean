namespace ContainerProfiles.Toml

-- Writing texts as TOML strings. The plainest form that needs no escape is taken: basic, literal, and the forms
-- over several lines; escapes come last.

def hexDigit (n : Nat) : Char := (Nat.digitChar n).toUpper

def isControl (c : Char) : Bool := c.toNat < 0x20 || c.toNat = 0x7F

-- Controls that no form holds as they are.
def isHardControl (c : Char) : Bool := isControl c && c ≠ '\t' && c ≠ '\n'

-- How often `q` stands in a row at most, `run` of them before the text.
def longestRun (q : Char) (run : Nat) : List Char → Nat
  | [] => run
  | c :: rest => if c = q then longestRun q (run + 1) rest else max run (longestRun q 0 rest)

def escaped (c : Char) : List Char :=
  match c with
  | '\x08' => ['\\', 'b']
  | '\t' => ['\\', 't']
  | '\n' => ['\\', 'n']
  | '\x0c' => ['\\', 'f']
  | '\r' => ['\\', 'r']
  | '"' => ['\\', '"']
  | '\\' => ['\\', '\\']
  | c =>
      if isControl c then ['\\', 'u', '0', '0', hexDigit (c.toNat / 16), hexDigit (c.toNat % 16)]
      else [c]

-- The inside of a basic string over several lines: of quotes in a row each third is escaped.
def escapedLines (quotes : Nat) : List Char → List Char
  | [] => []
  | '\n' :: rest => '\n' :: escapedLines 0 rest
  | '"' :: rest =>
      if quotes = 2 then '\\' :: '"' :: escapedLines 0 rest
      else '"' :: escapedLines (quotes + 1) rest
  | c :: rest => escaped c ++ escapedLines 0 rest

def basic (cs : List Char) : List Char := '"' :: (cs.flatMap escaped ++ ['"'])
def literal (cs : List Char) : List Char := '\'' :: (cs ++ ['\''])

-- A first line break is not part of the text, so a text with line breaks begins after one.
def opening (cs : List Char) : List Char := if '\n' ∈ cs then ['\n'] else []

def basicLines (cs : List Char) : List Char :=
  "\"\"\"".toList ++ opening cs ++ escapedLines 0 cs ++ "\"\"\"".toList

def literalLines (cs : List Char) : List Char :=
  "'''".toList ++ opening cs ++ cs ++ "'''".toList

def stringChars (cs : List Char) : List Char :=
  let hard := cs.any isHardControl
  let backslash := cs.contains '\\'
  let double := longestRun '"' 0 cs
  let single := longestRun '\'' 0 cs
  let lines := cs.contains '\n'
  if !hard && !backslash && double = 0 && !lines then basic cs
  else if !hard && single = 0 && !lines then literal cs
  else if !hard && !backslash && double ≤ 2 then basicLines cs
  else if !hard && single ≤ 2 then literalLines cs
  else if lines then basicLines cs
  else basic cs

def string (s : String) : String := String.ofList (stringChars s.toList)

end ContainerProfiles.Toml
