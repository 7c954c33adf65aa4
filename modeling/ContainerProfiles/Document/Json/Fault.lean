import ContainerProfiles.Document.Schema

namespace ContainerProfiles.Json

-- Where reading a JSON text stops, and why. Lines count from one; a column is the number of bytes of its line up
-- to the fault, the byte at fault included.

inductive Fault where
  | endInList | endInObject | endInString | endInValue
  | noColon | noElementEnd | noFieldEnd | noWord | noValue
  | badEscape | badNumber | control | halfPair | lonePart | keyNotText
  | trailingComma | trailingText | outOfRange | tooDeep
  | misfit (m : Misfit)
deriving DecidableEq

def Fault.message : Fault → String
  | .endInList => "EOF while parsing a list"
  | .endInObject => "EOF while parsing an object"
  | .endInString => "EOF while parsing a string"
  | .endInValue => "EOF while parsing a value"
  | .noColon => "expected \x60:\x60"
  | .noElementEnd => "expected \x60,\x60 or \x60]\x60"
  | .noFieldEnd => "expected \x60,\x60 or \x60\x7d\x60"
  | .noWord => "expected ident"
  | .noValue => "expected value"
  | .badEscape => "invalid escape"
  | .badNumber => "invalid number"
  | .control => "control character (\\u0000-\\u001F) found while parsing a string"
  | .halfPair => "unexpected end of hex escape"
  | .lonePart => "lone leading surrogate in hex escape"
  | .keyNotText => "key must be a string"
  | .trailingComma => "trailing comma"
  | .trailingText => "trailing characters"
  | .outOfRange => "number out of range"
  | .tooDeep => "recursion limit exceeded"
  | .misfit m => m.message

-- A fault and what is left from there on, of which so many bytes have been looked at.
structure Stop where
  fault : Fault
  rest : List Char
  seen : Nat := 0
  -- If not, the fault belongs to the whole list or object around it, and is placed behind that.
  placed : Bool := true

abbrev Reads := Except Stop

-- A step gives what it reads together with what is left of the text.
abbrev Step (α : Type) := List Char → Reads (α × List Char)

-- A step that only moves on.
abbrev Move := List Char → Reads (List Char)

-- The next character is at fault.
def stopAt (fault : Fault) (rest : List Char) : Reads α :=
  .error { fault, rest, seen := 1 }

-- The fault shows in what has been read.
def stopBefore (fault : Fault) (rest : List Char) : Reads α := .error { fault, rest }

def stopAround (m : Misfit) (rest : List Char) : Reads α :=
  .error { fault := .misfit m, rest, placed := false }

def byteCount (cs : List Char) : Nat := cs.foldl (fun n c => n + c.utf8Size) 0

structure Position where
  line : Nat
  column : Nat
deriving DecidableEq

-- The position behind so many bytes of a text.
def positionBehind (bytes line column : Nat) : List Char → Position
  | [] => ⟨line, column⟩
  | c :: rest =>
      if bytes < c.utf8Size then ⟨line, column + bytes⟩
      else if c = '\n' then positionBehind (bytes - 1) (line + 1) 0 rest
      else positionBehind (bytes - c.utf8Size) line (column + c.utf8Size) rest

structure Complaint where
  fault : Fault
  position : Position
deriving DecidableEq

def Complaint.message (c : Complaint) : String :=
  c.fault.message ++
    s!" at line {toString c.position.line} column {toString c.position.column}"

-- Past the end of the text there is nothing to look at.
def Stop.complaint (s : Stop) (text : List Char) : Complaint :=
  let total := byteCount text
  ⟨s.fault, positionBehind (min total (total - byteCount s.rest + s.seen)) 1 0 text⟩

end ContainerProfiles.Json
