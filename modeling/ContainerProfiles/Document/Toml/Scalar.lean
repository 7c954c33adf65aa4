import ContainerProfiles.Document.Digits
import ContainerProfiles.Document.Node

namespace ContainerProfiles.Toml
open Document

-- The scalars of TOML: keys, strings in their four forms, numbers, dates and times. Each reader takes what it can
-- from the front of a text and gives back the rest.

def isSpace (c : Char) : Bool := c = ' ' || c = '\t'

def skipSpaces (cs : List Char) : List Char := cs.dropWhile isSpace

-- Tabs and everything from the blank on, but no delete character.
def isVisible (c : Char) : Bool := c = '\t' || (0x20 ≤ c.toNat && c.toNat ≠ 0x7F)

def newline? : List Char → Option (List Char)
  | '\n' :: rest => some rest
  | '\r' :: '\n' :: rest => some rest
  | _ => none

def escape? : Char → Option Char
  | 'b' => some '\x08'
  | 't' => some '\t'
  | 'n' => some '\n'
  | 'f' => some '\x0c'
  | 'r' => some '\r'
  | '"' => some '"'
  | '\\' => some '\\'
  | _ => none

def charOfHex? (cs : List Char) : Option Char := (hex? cs).bind charOf?

def cons? (c : Option Char) (tail : Option (List Char × List Char)) :
    Option (List Char × List Char) := do
  let c ← c
  let (cs, rest) ← tail
  return (c :: cs, rest)

-- The rest of a one-line string with escapes, after its opening quote.
def basicBody : List Char → Option (List Char × List Char)
  | '"' :: rest => some ([], rest)
  | '\\' :: 'u' :: a :: b :: c :: d :: rest => cons? (charOfHex? [a, b, c, d]) (basicBody rest)
  | '\\' :: 'U' :: a :: b :: c :: d :: e :: f :: g :: h :: rest =>
      cons? (charOfHex? [a, b, c, d, e, f, g, h]) (basicBody rest)
  | '\\' :: c :: rest => cons? (escape? c) (basicBody rest)
  | c :: rest => if isVisible c then cons? (some c) (basicBody rest) else none
  | [] => none

-- At most two quotes may stand directly before the closing three.
def closing (quote : Char) (cs : List Char) : List Char × List Char :=
  match cs with
  | a :: b :: rest =>
      if a = quote && b = quote then ([quote, quote], rest)
      else if a = quote then ([quote], b :: rest)
      else ([], cs)
  | [a] => if a = quote then ([quote], []) else ([], cs)
  | [] => ([], [])

def endsLine (cs : List Char) : Bool := (newline? (skipSpaces cs)).isSome

-- `folding` is set after a backslash at the end of a line: blanks and line ends are then dropped.
def multiBasicBody (folding : Bool) : List Char → Option (List Char × List Char)
  | '"' :: '"' :: '"' :: rest => some (closing '"' rest)
  | '\\' :: 'u' :: a :: b :: c :: d :: rest =>
      cons? (charOfHex? [a, b, c, d]) (multiBasicBody false rest)
  | '\\' :: 'U' :: a :: b :: c :: d :: e :: f :: g :: h :: rest =>
      cons? (charOfHex? [a, b, c, d, e, f, g, h]) (multiBasicBody false rest)
  | '\\' :: c :: rest =>
      if endsLine (c :: rest) then multiBasicBody true (c :: rest)
      else cons? (escape? c) (multiBasicBody false rest)
  | '\r' :: '\n' :: rest =>
      if folding then multiBasicBody true rest else cons? (some '\n') (multiBasicBody false rest)
  | c :: rest =>
      if folding && (isSpace c || c = '\n') then multiBasicBody true rest
      else if isVisible c || c = '\n' then cons? (some c) (multiBasicBody false rest)
      else none
  | [] => none

def literalBody : List Char → Option (List Char × List Char)
  | '\'' :: rest => some ([], rest)
  | c :: rest => if isVisible c then cons? (some c) (literalBody rest) else none
  | [] => none

def multiLiteralBody : List Char → Option (List Char × List Char)
  | '\'' :: '\'' :: '\'' :: rest => some (closing '\'' rest)
  | '\r' :: '\n' :: rest => cons? (some '\n') (multiLiteralBody rest)
  | c :: rest => if isVisible c || c = '\n' then cons? (some c) (multiLiteralBody rest) else none
  | [] => none

-- A line end directly after three opening quotes does not belong to the string.
def afterOpening (cs : List Char) : List Char := (newline? cs).getD cs

def string? : List Char → Option (List Char × List Char)
  | '"' :: '"' :: '"' :: rest => multiBasicBody false (afterOpening rest)
  | '"' :: rest => basicBody rest
  | '\'' :: '\'' :: '\'' :: rest => multiLiteralBody (afterOpening rest)
  | '\'' :: rest => literalBody rest
  | _ => none

def isBare (c : Char) : Bool := c.isAlphanum || c = '-' || c = '_'

def simpleKey : List Char → Option (String × List Char)
  | '"' :: rest => (basicBody rest).map (fun r => (String.ofList r.1, r.2))
  | '\'' :: rest => (literalBody rest).map (fun r => (String.ofList r.1, r.2))
  | cs =>
      let key := cs.takeWhile isBare
      if key.isEmpty then none else some (String.ofList key, cs.dropWhile isBare)

-- Keys joined by dots. Every key takes a character at least, so the length bounds the count.
def keyPath : Nat → List Char → Option (List String × List Char)
  | 0, _ => none
  | fuel + 1, cs => do
      let (key, rest) ← simpleKey (skipSpaces cs)
      match skipSpaces rest with
      | '.' :: rest => do
          let (keys, rest) ← keyPath fuel rest
          return (key :: keys, rest)
      | rest => return ([key], rest)

def depthLimit : Nat := 80

def path (cs : List Char) : Option (List String × List Char) := do
  let (keys, rest) ← keyPath cs.length cs
  if keys.length < depthLimit then some (keys, rest) else none

-- Digits of a base, with single underscores between them.
def underscored (base : Nat) : List Char → List Char × List Char
  | '_' :: c :: rest =>
      if isDigitOf base c then
        let (ds, rest) := underscored base rest
        (c :: ds, rest)
      else ([], '_' :: c :: rest)
  | c :: rest =>
      if isDigitOf base c then
        let (ds, rest) := underscored base rest
        (c :: ds, rest)
      else ([], c :: rest)
  | [] => ([], [])

def digitRun (base : Nat) : List Char → Option (List Char × List Char)
  | [] => none
  | c :: rest =>
      if isDigitOf base c then
        let (ds, rest) := underscored base rest
        some (c :: ds, rest)
      else none

-- A decimal number is zero or does not begin with a zero.
def decimalRun : List Char → Option (List Char × List Char)
  | '0' :: rest => some (['0'], rest)
  | cs => digitRun 10 cs

def sign : List Char → Bool × List Char
  | '-' :: rest => (true, rest)
  | '+' :: rest => (false, rest)
  | rest => (false, rest)

-- Whole numbers are kept when they fit into 64 bits with a sign.
def bounded (negative : Bool) (n : Nat) : Option Node :=
  if negative then
    if n ≤ UInt64.size / 2 then some (.integer (-(n : Int))) else none
  else if n < UInt64.size / 2 then some (.integer n) else none

def wholeOf (base : Nat) (cs : List Char) : Option (Node × List Char) := do
  let (ds, rest) ← digitRun base cs
  let n ← bounded false (ofDigits base ds)
  return (n, rest)

def whole : List Char → Option (Node × List Char)
  | '0' :: 'x' :: rest => wholeOf 16 rest
  | '0' :: 'o' :: rest => wholeOf 8 rest
  | '0' :: 'b' :: rest => wholeOf 2 rest
  | cs => do
      let (negative, rest) := sign cs
      let (ds, rest) ← decimalRun rest
      let n ← bounded negative (ofDigits 10 ds)
      return (n, rest)

def fraction? : List Char → Option (List Char × List Char)
  | '.' :: rest => digitRun 10 rest
  | _ => none

def exponent? : List Char → Option (Int × List Char)
  | c :: rest =>
      if c = 'e' || c = 'E' then do
        let (negative, rest) := sign rest
        let (ds, rest) ← digitRun 10 rest
        let n : Int := ofDigits 10 ds
        return (if negative then -n else n, rest)
      else none
  | [] => none

-- Below the least finite number a float is infinite, above the largest it is none.
def float (cs : List Char) : Option (Node × List Char) := do
  let (negative, rest) := sign cs
  let (ds, rest) ← decimalRun rest
  let (frac, rest) := match fraction? rest with
    | some (frac, rest) => (frac, rest)
    | none => ([], rest)
  let (exp, rest, marked) := match exponent? rest with
    | some (exp, rest) => (exp, rest, true)
    | none => (0, rest, false)
  if frac.isEmpty && !marked then none
  if !negative && tooLarge (ofDigits 10 (ds ++ frac)) (exp - frac.length) then none
  let spelling := cs.take (cs.length - rest.length)
  return (.literal (String.ofList spelling), rest)

def specialFloat (cs : List Char) : Option (Node × List Char) :=
  let spelled := (sign cs).2
  if "inf".toList.isPrefixOf spelled || "nan".toList.isPrefixOf spelled then
    let rest := spelled.drop 3
    some (.literal (String.ofList (cs.take (cs.length - rest.length))), rest)
  else none

def fixedDigits (count : Nat) (cs : List Char) : Option (Nat × List Char) :=
  let ds := cs.take count
  if ds.length = count && ds.all Char.isDigit then some (ofDigits 10 ds, cs.drop count) else none

def expect (c : Char) : List Char → Option (List Char)
  | d :: rest => if d = c then some rest else none
  | [] => none

def daysIn (year month : Nat) : Nat :=
  if month = 2 then (if year % 4 = 0 && (year % 100 ≠ 0 || year % 400 = 0) then 29 else 28)
  else if month ∈ [4, 6, 9, 11] then 30
  else 31

-- The readers of dates and times give back the plain spelling of what they read.
def date (cs : List Char) : Option (List Char × List Char) := do
  let (year, rest) ← fixedDigits 4 cs
  let rest ← expect '-' rest
  let (month, rest) ← fixedDigits 2 rest
  let rest ← expect '-' rest
  let (day, rest) ← fixedDigits 2 rest
  if 1 ≤ month && month ≤ 12 && 1 ≤ day && day ≤ daysIn year month then some (cs.take 10, rest)
  else none

-- Parts of a second, down to nanoseconds and without zeros at the end.
def secondParts (ds : List Char) : List Char :=
  match ((ds.take 9).reverse.dropWhile (· = '0')).reverse with
  | [] => []
  | ds => '.' :: ds

def time (cs : List Char) : Option (List Char × List Char) := do
  let (hour, rest) ← fixedDigits 2 cs
  let rest ← expect ':' rest
  let (minute, rest) ← fixedDigits 2 rest
  let rest ← expect ':' rest
  let (second, rest) ← fixedDigits 2 rest
  if hour > 23 || minute > 59 || second > 60 then none
  let plain := cs.take 8
  match rest with
  | '.' :: rest =>
      let ds := rest.takeWhile Char.isDigit
      if ds.isEmpty then some (plain, '.' :: rest)
      else some (plain ++ secondParts ds, rest.dropWhile Char.isDigit)
  | rest => some (plain, rest)

-- No difference at all is a positive one.
def offset (cs : List Char) : Option (List Char × List Char) :=
  match cs with
  | 'Z' :: rest | 'z' :: rest => some (['Z'], rest)
  | c :: rest =>
      if c = '+' || c = '-' then do
        let (hour, after) ← fixedDigits 2 rest
        let after ← expect ':' after
        let (minute, after) ← fixedDigits 2 after
        if hour > 23 || minute > 59 then none
        else some ((if hour = 0 && minute = 0 then '+' else c) :: rest.take 5, after)
      else none
  | [] => none

-- A date, alone or with a time, whose offset may be missing.
def dateTime (cs : List Char) : Option (List Char × List Char) :=
  match date cs with
  | none => time cs
  | some (day, rest) =>
      match rest with
      | [] => some (day, [])
      | c :: more =>
          if c = 'T' || c = 't' || c = ' ' then
            match time more with
            | none => some (day, rest)
            | some (clock, rest) =>
                let (shift, rest) := (offset rest).getD ([], rest)
                some (day ++ 'T' :: clock ++ shift, rest)
          else some (day, rest)

-- The key under which a date or time stands where a table is looked for.
def momentKey : String := "$__toml_private_datetime"

def moment (cs : List Char) : Option (Node × List Char) :=
  (dateTime cs).map (fun r => (.table [(momentKey, .text (String.ofList r.1))], r.2))

def number (cs : List Char) : Option (Node × List Char) :=
  moment cs <|> float cs <|> specialFloat cs <|> whole cs

end ContainerProfiles.Toml
