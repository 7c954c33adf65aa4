namespace ContainerProfiles.Document

-- Numbers written in digits of a base, and characters given by their code point.

def digitValue? (c : Char) : Option Nat :=
  if '0' ≤ c ∧ c ≤ '9' then some (c.toNat - '0'.toNat)
  else if 'a' ≤ c ∧ c ≤ 'f' then some (c.toNat - 'a'.toNat + 10)
  else if 'A' ≤ c ∧ c ≤ 'F' then some (c.toNat - 'A'.toNat + 10)
  else none

def isDigitOf (base : Nat) (c : Char) : Bool :=
  match digitValue? c with
  | some d => d < base
  | none => false

def ofDigits (base : Nat) (cs : List Char) : Nat :=
  cs.foldl (fun n c => n * base + (digitValue? c).getD 0) 0

def hex? (cs : List Char) : Option Nat :=
  if cs.all (isDigitOf 16) then some (ofDigits 16 cs) else none

-- Surrogates and numbers past the last code point are no characters.
def charOf? (n : Nat) : Option Char := if n.isValidChar then some (Char.ofNat n) else none

-- The least number that lies closer to infinity than to the largest finite one.
def overflowAt : Nat := Nat.pow 2 1024 - Nat.pow 2 970

-- Whether m * 10 ^ e is out of range, decided without building a huge power.
def tooLarge (m : Nat) (e : Int) : Bool :=
  if m = 0 then false
  else if e ≥ 0 then e > 400 || m * Nat.pow 10 e.toNat ≥ overflowAt
  else
    let k := (-e).toNat
    k < (Nat.toDigits 10 m).length && m ≥ overflowAt * Nat.pow 10 k

end ContainerProfiles.Document
