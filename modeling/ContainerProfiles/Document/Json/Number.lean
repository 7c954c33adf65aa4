import ContainerProfiles.Document.Digits
import ContainerProfiles.Document.Double
import ContainerProfiles.Document.Json.Fault

namespace ContainerProfiles.Json
open Document

-- Numbers in a JSON text. A whole number is kept as it is if 64 bits hold it; every other number becomes one of
-- double precision, from as many of its leading digits as 64 bits hold.

structure Exponent where
  negative : Bool
  digits : List Char
deriving DecidableEq

-- The digits of a number without its sign: before the point, behind it, and of the exponent.
structure Numeral where
  whole : List Char
  places : Option (List Char)
  exponent : Option Exponent
deriving DecidableEq

-- At least one digit. `atEnd` is the fault if the text ends instead.
def digits (atEnd : Fault) (cs : List Char) : Reads (List Char × List Char) :=
  match cs.takeWhile Char.isDigit, cs with
  | [], [] => stopBefore atEnd []
  | [], rest => stopAt .badNumber rest
  | ds, cs => .ok (ds, cs.dropWhile Char.isDigit)

-- A zero stands alone.
def wholePart (atEnd : Fault) : Step (List Char)
  | '0' :: c :: rest =>
      if c.isDigit then stopAt .badNumber (c :: rest) else .ok (['0'], c :: rest)
  | cs => digits atEnd cs

def fraction (atEnd : Fault) : Step (Option (List Char))
  | '.' :: rest => (digits atEnd rest).map (fun r => (some r.1, r.2))
  | cs => .ok (none, cs)

def signedDigits (atEnd : Fault) : Step Exponent
  | '+' :: rest => (digits atEnd rest).map (fun r => (⟨false, r.1⟩, r.2))
  | '-' :: rest => (digits atEnd rest).map (fun r => (⟨true, r.1⟩, r.2))
  | rest => (digits atEnd rest).map (fun r => (⟨false, r.1⟩, r.2))

def exponent (atEnd : Fault) : Step (Option Exponent)
  | [] => .ok (none, [])
  | c :: rest =>
      if c = 'e' || c = 'E' then (signedDigits atEnd rest).map (fun r => (some r.1, r.2))
      else .ok (none, c :: rest)

def numeral (atEnd : Fault) (cs : List Char) : Reads (Numeral × List Char) := do
  let (whole, rest) ← wholePart atEnd cs
  let (places, rest) ← fraction atEnd rest
  let (exponent, rest) ← exponent atEnd rest
  return (⟨whole, places, exponent⟩, rest)

def passNumber (cs : List Char) : Reads (List Char) := (numeral .badNumber cs).map (·.2)

-- Digits taken together as long as 64 bits hold them, and the power of ten that goes with them.
structure Leading where
  significand : Nat := 0
  power : Int := 0
  full : Bool := false

namespace Leading

def next (l : Leading) (c : Char) : Nat := l.significand * 10 + (digitValue? c).getD 0

def isFull (l : Leading) (c : Char) : Bool := l.full || UInt64.size ≤ l.next c

-- A digit that is dropped counts for its place before the point, and not behind it.
def addWhole (l : Leading) (c : Char) : Leading :=
  if l.isFull c then { l with power := l.power + 1, full := true }
  else { l with significand := l.next c }

def addPlace (l : Leading) (c : Char) : Leading :=
  if l.isFull c then { l with full := true }
  else { l with significand := l.next c, power := l.power - 1 }

end Leading

-- Behind the point another digit may have room again.
def Numeral.leading (n : Numeral) : Leading :=
  (n.places.getD []).foldl Leading.addPlace
    { n.whole.foldl Leading.addWhole {} with full := false }

-- What is left of the digits of an exponent from where 32 bits with a sign no longer hold it.
def beyond? (value : Nat) : List Char → Option (List Char)
  | [] => none
  | c :: ds =>
      let next := value * 10 + (digitValue? c).getD 0
      if UInt32.size / 2 ≤ next then some ds else beyond? next ds

-- The value of a number that is followed by `rest`.
def Numeral.double (n : Numeral) (rest : List Char) : Reads Double :=
  let l := n.leading
  let settled (power : Int) : Reads Double :=
    match Double.scaled? l.significand power with
    | some x => .ok x
    | none => stopBefore .outOfRange rest
  match n.exponent with
  | none => settled l.power
  | some e =>
      match beyond? 0 e.digits with
      | some ds =>
          if l.significand = 0 || e.negative then .ok .zero
          else stopBefore .outOfRange (ds ++ rest)
      | none =>
          let power : Int := ofDigits 10 e.digits
          settled (if e.negative then l.power - power else l.power + power)

-- The whole number, if it is one and 64 bits hold it. Minus zero is none.
def Numeral.integer? (n : Numeral) (negative : Bool) : Option Int :=
  if n.places.isSome || n.exponent.isSome then none
  else
    let value := ofDigits 10 n.whole
    if negative then
      if value = 0 || UInt64.size / 2 < value then none else some (-(value : Int))
    else if value < UInt64.size then some value else none

def number (negative : Bool) (cs : List Char) : Reads (Node × List Char) := do
  let (n, rest) ← numeral .endInValue cs
  match n.integer? negative with
  | some i => return (.integer i, rest)
  | none =>
      let x ← n.double rest
      return (.literal ((if negative then "-" else "") ++ x.text), rest)

end ContainerProfiles.Json
