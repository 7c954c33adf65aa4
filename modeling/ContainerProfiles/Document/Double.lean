import ContainerProfiles.Document.Digits

namespace ContainerProfiles.Document

-- Numbers of double precision without their sign, as multiples of the least of them above zero. Calculating rounds
-- to the nearest, and to the even one where two are equally near.

structure Double where
  units : Nat
deriving DecidableEq

namespace Double

def zero : Double := ⟨0⟩

-- So many units make one.
def unitsOfOne : Nat := Nat.pow 2 1074

-- Binary digits that are kept.
def precision : Nat := 53

-- From here on numbers are infinite.
def infinite : Nat := Nat.pow 2 (1024 + 1074)

def isFinite (x : Double) : Bool := x.units < infinite

-- The quotient, and the even one of two neighbours when it lies between them.
def roundedQuotient (n d : Nat) : Nat :=
  let q := n / d
  let twice := 2 * (n % d)
  if d < twice || (d = twice && q % 2 = 1) then q + 1 else q

-- A fraction of units.
def nearest (n d : Nat) : Double :=
  let step := Nat.pow 2 (Nat.log2 (n / d) + 1 - precision)
  ⟨roundedQuotient n (d * step) * step⟩

def ofNat (n : Nat) : Double := nearest (n * unitsOfOne) 1

def mul (x y : Double) : Double := nearest (x.units * y.units) unitsOfOne

def div (x y : Double) : Double := nearest (x.units * unitsOfOne) y.units

def tenTo (k : Nat) : Double := ofNat (Nat.pow 10 k)

-- The powers of ten that are finite end here.
def highestPower : Nat := 308

-- Powers of ten beyond the highest are divided by in steps. The last step takes what is left.
def dividedByTenTo : Nat → Nat → Double → Double
  | 0, places, x => x.div (tenTo places)
  | steps + 1, places, x =>
      if places ≤ highestPower then x.div (tenTo places)
      else dividedByTenTo steps (places - highestPower) (x.div (tenTo highestPower))

-- Two divisions by the highest power leave nothing of a whole number of 64 bits, so that it does not
-- matter how many places beyond these are asked for.
def enoughPlaces : Nat := 3 * highestPower

-- A whole number of 64 bits times a power of ten, if that is finite. Every step is rounded.
def scaled? (significand : Nat) (power : Int) : Option Double :=
  let x := ofNat significand
  if significand = 0 then some x
  else if power < 0 then some (dividedByTenTo 2 (min power.natAbs enoughPlaces) x)
  else if power ≤ highestPower then
    let y := x.mul (tenTo power.toNat)
    if y.isFinite then some y else none
  else none

-- Every number ends within 1074 decimal places, and these are its digits up to there.
def allDigits (x : Double) : Nat := x.units * Nat.pow 5 1074

-- The digits of a number, of which the last stands so many places before the end of those.
def ofDecimal (n place : Nat) : Double := nearest (n * Nat.pow 10 place) (Nat.pow 5 1074)

-- The two numbers around another that end at a place, the nearer one first.
def neighbours (n place : Nat) : List Nat :=
  let low := n / Nat.pow 10 place
  if roundedQuotient n (Nat.pow 10 place) = low then [low, low + 1] else [low + 1, low]

-- The fewest digits that are read back as the number, from `count` of all `length` on, and the place
-- of the last of them. Seventeen are always enough.
def shortest (x : Double) (length : Nat) : Nat → Nat → Nat × Nat
  | 0, _ => (x.allDigits, 0)
  | more + 1, count =>
      let place := length - count
      match (neighbours x.allDigits place).find? (fun n => ofDecimal n place = x) with
      | some n => (n, place)
      | none => shortest x length more (count + 1)

-- Without zeros at the end.
def significant (cs : List Char) : List Char := (cs.reverse.dropWhile (· = '0')).reverse

def zeros (n : Nat) : List Char := List.replicate n '0'

-- Digits of which the first counts ten to the power: with a point where it is near, and otherwise
-- with an exponent.
def spelled (ds : List Char) (power : Int) : String :=
  if power < -5 || 15 < power then
    let point := if ds.length > 1 then ['.'] else []
    String.ofList (ds.take 1 ++ point ++ ds.drop 1)
      ++ (if power < 0 then "e-" else "e+") ++ toString power.natAbs
  else if power < 0 then String.ofList ('0' :: '.' :: (zeros (power.natAbs - 1) ++ ds))
  else
    let whole := power.toNat + 1
    let places := if ds.length ≤ whole then ['0'] else ds.drop whole
    String.ofList (ds.take whole ++ zeros (whole - ds.length) ++ '.' :: places)

def text (x : Double) : String :=
  if x = zero then "0.0"
  else
    let length := (Nat.toDigits 10 x.allDigits).length
    let (n, place) := shortest x length 17 1
    let ds := Nat.toDigits 10 n
    spelled (significant ds) ((ds.length + place : Int) - 1 - 1074)

end Double
end ContainerProfiles.Document
