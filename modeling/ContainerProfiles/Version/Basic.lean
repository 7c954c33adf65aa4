namespace ContainerProfiles

-- Versions: three numbers of 64 bits, then the segments of a pre-release and of build metadata. Versions are
-- ordered by their rank.

def isPlain (c : Char) : Bool := c.isAlphanum || c = '-'

structure Segment where
  text : List Char
  nonempty : text ≠ []
  plain : ∀ c ∈ text, isPlain c = true
deriving DecidableEq

namespace Segment

def numeric (s : Segment) : Bool := s.text.all Char.isDigit

def value (digits : List Char) : Nat := digits.foldl (fun n c => n * 10 + (c.toNat - '0'.toNat)) 0

-- Numbers stand before words; numbers by value, then the shorter spelling; words by code points.
def rank (s : Segment) : List Nat :=
  if s.numeric then [0, value s.text, s.text.length] else 1 :: s.text.map Char.toNat

-- A number of a pre-release is spelled without leading zeros.
def canonical (s : Segment) : Bool := !(s.numeric && s.text.length > 1 && s.text.head? = some '0')

end Segment

structure PreSegment extends Segment where
  canonical : toSegment.canonical = true
deriving DecidableEq

structure Version where
  major : UInt64
  minor : UInt64
  patch : UInt64
  pre : List PreSegment := []
  build : List Segment := []
deriving DecidableEq

namespace Version

-- A release stands after its pre-releases, and a version without build metadata before those with.
def rank (v : Version) : List (List (List Nat)) :=
  [[[v.major.toNat], [v.minor.toNat], [v.patch.toNat]],
   if v.pre.isEmpty then [[2]] else v.pre.map (fun s => s.toSegment.rank),
   v.build.map Segment.rank]

instance : Ord Version := ⟨fun v w => compare v.rank w.rank⟩

def first : Version := { major := 1, minor := 0, patch := 0 }

instance : Inhabited Version := ⟨first⟩

def joinSegments (segments : List Segment) : List Char :=
  List.intercalate ['.'] (segments.map Segment.text)

def toChars (v : Version) : List Char :=
  Nat.toDigits 10 v.major.toNat ++ '.' :: Nat.toDigits 10 v.minor.toNat
    ++ '.' :: Nat.toDigits 10 v.patch.toNat
    ++ (if v.pre.isEmpty then [] else '-' :: joinSegments (v.pre.map PreSegment.toSegment))
    ++ (if v.build.isEmpty then [] else '+' :: joinSegments v.build)

def text (v : Version) : String := String.ofList v.toChars

end Version

end ContainerProfiles
