import ContainerProfiles.Document.Digits
import ContainerProfiles.Document.Json.Fault

namespace ContainerProfiles.Json
open Document

-- Strings in a JSON text: those that are kept, and those that are passed over, of which only the form is looked
-- at.

def escape? : Char → Option Char
  | '"' => some '"'
  | '\\' => some '\\'
  | '/' => some '/'
  | 'b' => some '\x08'
  | 'f' => some '\x0c'
  | 'n' => some '\n'
  | 'r' => some '\r'
  | 't' => some '\t'
  | _ => none

-- The two parts of a pair that stands for one character past the first plane.
def isHigh (n : Nat) : Bool := 0xD800 ≤ n && n < 0xDC00
def isLow (n : Nat) : Bool := 0xDC00 ≤ n && n < 0xE000

def paired (high low : Nat) : Nat := 0x10000 + (high - 0xD800) * 0x400 + (low - 0xDC00)

-- Four bytes belong to such an escape, whatever they are.
def badHex (rest : List Char) : Reads α :=
  if byteCount rest < 4 then stopBefore .endInString []
  else .error { fault := .badEscape, rest, seen := 4 }

def pushed (x : α) : Reads (List α × List Char) → Reads (List α × List Char)
  | .ok (xs, rest) => .ok (x :: xs, rest)
  | .error stop => .error stop

-- The rest of a string after its opening quote, and what follows the closing one. The first part of
-- a pair has to be followed by the second.
def stringBody : Step (List Char)
  | '"' :: rest => .ok ([], rest)
  | '\\' :: 'u' :: a :: b :: c :: d :: rest =>
      match hex? [a, b, c, d] with
      | none => badHex (a :: b :: c :: d :: rest)
      | some n =>
          if isLow n then stopBefore .lonePart rest
          else if isHigh n then
            match rest with
            | '\\' :: 'u' :: a :: b :: c :: d :: rest =>
                match hex? [a, b, c, d] with
                | none => badHex (a :: b :: c :: d :: rest)
                | some m =>
                    if isLow m then pushed (Char.ofNat (paired n m)) (stringBody rest)
                    else stopBefore .lonePart rest
            | '\\' :: 'u' :: rest => badHex rest
            | '\\' :: c :: rest => stopAt .halfPair (c :: rest)
            | ['\\'] | [] => stopBefore .endInString []
            | c :: rest => stopAt .halfPair (c :: rest)
          else pushed (Char.ofNat n) (stringBody rest)
  | '\\' :: 'u' :: rest => badHex rest
  | '\\' :: c :: rest =>
      match escape? c with
      | some x => pushed x (stringBody rest)
      | none => stopAt .badEscape (c :: rest)
  | ['\\'] | [] => stopBefore .endInString []
  | c :: rest =>
      if c.toNat < 0x20 then stopAt .control (c :: rest) else pushed c (stringBody rest)

def text (cs : List Char) : Reads (String × List Char) :=
  (stringBody cs).map (fun r => (String.ofList r.1, r.2))

-- What follows the closing quote of a string that is passed over.
def passString : Move
  | '"' :: rest => .ok rest
  | '\\' :: 'u' :: a :: b :: c :: d :: rest =>
      match hex? [a, b, c, d] with
      | some _ => passString rest
      | none => badHex (a :: b :: c :: d :: rest)
  | '\\' :: 'u' :: rest => badHex rest
  | '\\' :: c :: rest =>
      match escape? c with
      | some _ => passString rest
      | none => stopAt .badEscape (c :: rest)
  | ['\\'] | [] => stopBefore .endInString []
  | c :: rest => if c.toNat < 0x20 then stopBefore .control (c :: rest) else passString rest

end ContainerProfiles.Json
