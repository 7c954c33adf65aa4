import ContainerProfiles.Document.Node
import ContainerProfiles.Text.Shown

namespace ContainerProfiles

-- Schemas: what a document has to look like, and the first thing in it that does not fit. Entries of a table are
-- looked at in their order and before those that are missing; a record ignores entries it does not know.

-- A field that is not required has a value of its own when it is missing.
structure Field (α : Type) where
  name : String
  content : α
  required : Bool := true

inductive Schema where
  | text
  -- A text that is refused for a reason.
  | checked (refusal? : String → Option String)
  | truth
  -- A natural number of 32 bits.
  | word
  | attributes
  | list (element : Schema)
  | nullable (content : Schema)
  | record (title : String) (fields : List (Field Schema))
  -- A record of which one entry, the tag, tells the fields of the others. As a list it begins with
  -- the tag.
  | choice (title tag : String) (variants : List (String × Schema))

inductive Misfit where
  | wrongType (found expected : String)
  | wrongValue (found expected : String)
  | tooShort (length : Nat) (title : String) (fields : Nat)
  | tooLong (length fields : Nat)
  | missing (field : String)
  | repeated (field : String)
  | unknownVariant (name : String) (known : List String)
  | refused (reason : String)
deriving DecidableEq

namespace Misfit

def named (name : String) : String := "\x60" ++ name ++ "\x60"

def counted (n : Nat) : String := toString n ++ (if n = 1 then " element" else " elements")

def message : Misfit → String
  | wrongType found expected => s!"invalid type: {found}, expected {expected}"
  | wrongValue found expected => s!"invalid value: {found}, expected {expected}"
  | tooShort length title fields =>
      s!"invalid length {toString length}, expected struct {title} with {counted fields}"
  | tooLong length fields =>
      s!"invalid length {toString length}, expected {counted fields} in sequence"
  | missing field => "missing field " ++ named field
  | repeated field => "duplicate field " ++ named field
  | unknownVariant name known =>
      s!"unknown variant {named name}, expected one of " ++ ", ".intercalate (known.map named)
  | refused reason => reason

-- What is found in the place of something else.
def kind : Node → String
  | .null => "null"
  | .truth b => "boolean " ++ named (toString b)
  | .integer n => "integer " ++ named (toString n)
  | .literal spelling => "floating point " ++ named spelling
  | .text s => "string " ++ Text.shownText s
  | .list _ => "sequence"
  | .table _ => "map"

end Misfit

def Field.find? (fields : List (Field α)) (name : String) : Option (Field α) :=
  fields.find? (fun f => f.name = name)

-- The first required field that is not among the names.
def Field.absent? (fields : List (Field α)) (names : List String) : Option (Field α) :=
  fields.find? (fun f => f.required && !names.contains f.name)

namespace Schema

def expected : Schema → String
  | text | checked _ => "a string"
  | truth => "a boolean"
  | word => "u32"
  | attributes => "a map"
  | list _ => "a sequence"
  | nullable content => content.expected
  | record title _ => "struct " ++ title
  | choice title _ _ => "internally tagged enum " ++ title

-- What the text of a tag is called.
def tagExpected : String := "variant identifier"

abbrev Check := Node → Except Misfit Unit

def isText : Check
  | .text _ => .ok ()
  | n => .error (.wrongType (Misfit.kind n) text.expected)

def knownVariant (known : List String) : Node → Except Misfit String
  | .text name => if known.contains name then .ok name else .error (.unknownVariant name known)
  | n => .error (.wrongType (Misfit.kind n) tagExpected)

-- Entries from left to right, behind those of the names.
def checkEntries (fields : List (Field Check)) (names : List String) :
    List (String × Node) → Except Misfit Unit
  | [] =>
      match Field.absent? fields names with
      | some f => .error (.missing f.name)
      | none => .ok ()
  | (name, n) :: entries =>
      match Field.find? fields name with
      | none => checkEntries fields (name :: names) entries
      | some f =>
          if names.contains name then .error (.repeated name)
          else do
            f.content n
            checkEntries fields (name :: names) entries

-- The elements of a record of `count` fields in their order; `taken` of them are checked already.
def checkElements (title : String) (count : Nat) :
    Nat → List (Field Check) → List Node → Except Misfit Unit
  | _, [], [] => .ok ()
  | taken, [], n :: rest => .error (.tooLong (taken + (n :: rest).length) taken)
  | taken, f :: fields, [] =>
      if f.required then .error (.tooShort taken title count)
      else checkElements title count (taken + 1) fields []
  | taken, f :: fields, n :: rest => do
      f.content n
      checkElements title count (taken + 1) fields rest

-- The tag and the document without it.
def tagged (tag : String) (known : List String) : Node → Except Misfit (String × Node)
  | .table entries =>
      match entries.filter (fun e => e.1 = tag) with
      | [] => .error (.missing tag)
      | [(_, n)] => do
          return (← knownVariant known n, .table (entries.filter (fun e => e.1 ≠ tag)))
      | _ => .error (.repeated tag)
  | .list [] => .error (.missing tag)
  | .list (n :: rest) => do return (← knownVariant known n, .list rest)
  | n => .error (.wrongType (Misfit.kind n) tagExpected)

mutual

def check : Schema → Check
  | text => isText
  | checked refusal? => fun
      | .text s => match refusal? s with
          | some reason => .error (.refused reason)
          | none => .ok ()
      | n => isText n
  | truth => fun
      | .truth _ => .ok ()
      | n => .error (.wrongType (Misfit.kind n) truth.expected)
  | word => fun
      | .integer n =>
          if 0 ≤ n ∧ n < (UInt32.size : Int) then .ok ()
          else .error (.wrongValue (Misfit.kind (.integer n)) word.expected)
      | n => .error (.wrongType (Misfit.kind n) word.expected)
  | attributes => fun
      | .table entries => entries.forM (fun e => isText e.2)
      | n => .error (.wrongType (Misfit.kind n) attributes.expected)
  | list element => fun
      | .list elements => elements.forM (check element)
      | n => .error (.wrongType (Misfit.kind n) (list element).expected)
  | nullable content => fun
      | .null => .ok ()
      | n => check content n
  | record title fields => fun
      | .table entries => checkEntries (checks fields) [] entries
      | .list elements => checkElements title fields.length 0 (checks fields) elements
      | n => .error (.wrongType (Misfit.kind n) (record title fields).expected)
  | choice title tag variants => fun
      | .table entries => checkVariant variants (tagged tag (variants.map (·.1)) (.table entries))
      | .list elements => checkVariant variants (tagged tag (variants.map (·.1)) (.list elements))
      | n => .error (.wrongType (Misfit.kind n) (choice title tag variants).expected)

def checks : List (Field Schema) → List (Field Check)
  | [] => []
  | ⟨name, content, required⟩ :: fields => ⟨name, check content, required⟩ :: checks fields

def checkVariant : List (String × Schema) → Except Misfit (String × Node) → Except Misfit Unit
  | _, .error misfit => .error misfit
  | [], .ok _ => .ok ()
  | (name, content) :: variants, .ok (tag, n) =>
      if name = tag then check content n else checkVariant variants (.ok (tag, n))

end

-- The document is as the schema wants it.
def fits (schema : Schema) (n : Node) : Bool := (schema.check n).toBool

end Schema
end ContainerProfiles
