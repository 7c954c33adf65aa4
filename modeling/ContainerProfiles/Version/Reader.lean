import ContainerProfiles.Text.Blank
import ContainerProfiles.Text.Shown
import ContainerProfiles.Version.Basic

namespace ContainerProfiles.Version

-- Reading a version. Blanks around it are dropped and missing numbers are taken as zero; after that the text is
-- read from left to right, and the first place that does not fit decides the fault.

inductive Part where
  | major | minor | patch | pre | build
deriving DecidableEq

def Part.text : Part → String
  | .major => "major version number"
  | .minor => "minor version number"
  | .patch => "patch version number"
  | .pre => "pre-release identifier"
  | .build => "build metadata"

inductive Fault where
  | empty
  | unexpectedEnd (part : Part)
  | unexpectedChar (part : Part) (c : Char)
  | unexpectedAfter (part : Part) (c : Char)
  | leadingZero (part : Part)
  | tooLarge (part : Part)
  | emptySegment (part : Part)
deriving DecidableEq

def Fault.text : Fault → String
  | .empty => "empty string, expected a semver version"
  | .unexpectedEnd part => "unexpected end of input while parsing " ++ part.text
  | .unexpectedChar part c =>
      "unexpected character " ++ Text.shownChar c ++ " while parsing " ++ part.text
  | .unexpectedAfter part c => "unexpected character " ++ Text.shownChar c ++ " after " ++ part.text
  | .leadingZero part => "invalid leading zero in " ++ part.text
  | .tooLarge part => "value of " ++ part.text ++ " exceeds u64::MAX"
  | .emptySegment part => "empty identifier segment in " ++ part.text

-- The digits that follow the first one; a number that is zero so far ends there.
def moreDigits (part : Part) (value : Nat) : List Char → Except Fault (UInt64 × List Char)
  | [] => .ok (UInt64.ofNat value, [])
  | c :: rest =>
      if c.isDigit then
        if value = 0 then .error (.leadingZero part)
        else
          let next := value * 10 + (c.toNat - '0'.toNat)
          if next < UInt64.size then moreDigits part next rest else .error (.tooLarge part)
      else .ok (UInt64.ofNat value, c :: rest)

def number (part : Part) : List Char → Except Fault (UInt64 × List Char)
  | [] => .error (.unexpectedEnd part)
  | c :: rest =>
      if c.isDigit then moreDigits part (c.toNat - '0'.toNat) rest
      else .error (.unexpectedChar part c)

def dot (part : Part) : List Char → Except Fault (List Char)
  | [] => .error (.unexpectedEnd part)
  | c :: rest => if c = '.' then .ok rest else .error (.unexpectedAfter part c)

theorem nonempty_of_plain {cs : List Char} (h : (!cs.isEmpty && cs.all isPlain) = true) : cs ≠ [] := by
  rintro rfl
  simp at h

def segment (part : Part) (cs : List Char) : Except Fault Segment :=
  if h : (!cs.isEmpty && cs.all isPlain) = true then
    .ok ⟨cs, nonempty_of_plain h, List.all_eq_true.mp (Bool.and_eq_true_iff.mp h).2⟩
  else .error (.emptySegment part)

def preSegment (cs : List Char) : Except Fault PreSegment := do
  let s ← segment .pre cs
  if h : s.canonical = true then .ok ⟨s, h⟩ else .error (.leadingZero .pre)

def inSegments (c : Char) : Bool := isPlain c || c = '.'

-- The segments that open a text, each read by `one`, and what follows them.
def segments (one : List Char → Except Fault α) (cs : List Char) :
    Except Fault (List α × List Char) := do
  let read ← ((cs.takeWhile inSegments).splitOn '.').mapM one
  return (read, cs.dropWhile inSegments)

structure Tail where
  pre : List PreSegment := []
  build : List Segment := []
  last : Part := .patch
  rest : List Char

def readPre : List Char → Except Fault Tail
  | '-' :: cs => do
      let (pre, rest) ← segments preSegment cs
      return { pre, last := .pre, rest }
  | cs => .ok { rest := cs }

def readBuild (tail : Tail) : Except Fault Tail :=
  match tail.rest with
  | '+' :: cs => do
      let (build, rest) ← segments (segment .build) cs
      return { tail with build, last := .build, rest }
  | _ => .ok tail

def readFull (cs : List Char) : Except Fault Version := do
  if cs.isEmpty then throw .empty
  let (major, cs) ← number .major cs
  let cs ← dot .major cs
  let (minor, cs) ← number .minor cs
  let cs ← dot .minor cs
  let (patch, cs) ← number .patch cs
  let tail ← readPre cs
  let tail ← readBuild tail
  match tail.rest with
  | [] => return { major, minor, patch, pre := tail.pre, build := tail.build }
  | c :: _ => throw (.unexpectedAfter tail.last c)

def opensTail (c : Char) : Bool := c = '-' || c = '+'

-- One number stands for the major version, two for major and minor.
def padded (cs : List Char) : List Char :=
  let core := cs.takeWhile (fun c => !opensTail c)
  let tail := cs.dropWhile (fun c => !opensTail c)
  match core.count '.' with
  | 0 => core ++ ".0.0".toList ++ tail
  | 1 => core ++ ".0".toList ++ tail
  | _ => cs

def parse (s : String) : Except Fault Version := readFull (padded (Text.trimChars s.toList))

end ContainerProfiles.Version
