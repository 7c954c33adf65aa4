import ContainerProfiles.Document.Json.Passing

namespace ContainerProfiles.Json
open Schema (Check)

-- Reading a JSON text as a schema wants it. What does not fit is told where it is met, before anything that
-- follows it in the text.

-- So many levels are left for what stands within the value.
abbrev Reader := Nat → Step Node

-- What stands in the place of something else is read before it is refused, unless it has parts.
def misplaced (expected : String) (cs : List Char) : Reads (Node × List Char) :=
  let refused (kind : String) (rest : List Char) : Reads (Node × List Char) :=
    stopBefore (.misfit (.wrongType kind expected)) rest
  match cs with
  | '[' :: rest => refused (Misfit.kind (.list [])) ('[' :: rest)
  | '{' :: rest => refused (Misfit.kind (.table [])) ('{' :: rest)
  | cs => do
      let (n, rest) ← scalar cs
      refused (Misfit.kind n) rest

-- A list or an object whose insides are read one way or the other, if they are wanted at all.
def bracketed (expected : String) (asList asTable : Option Reader) : Reader := fun depth cs =>
  match skip cs, asList, asTable, depth with
  | '[' :: rest, some inside, _, depth + 1 => inList (inside depth) rest
  | '{' :: rest, _, some inside, depth + 1 => inTable (inside depth) rest
  | '[' :: rest, some _, _, 0 => stopAt .tooDeep ('[' :: rest)
  | '{' :: rest, _, some _, 0 => stopAt .tooDeep ('{' :: rest)
  | rest, _, _, _ => misplaced expected rest

-- A value without parts that is wanted to pass a check. A refusal belongs to what is around it.
def checkedScalar (expected : String) (check : Check) : Reader := fun _ cs =>
  match skip cs with
  | '[' :: rest => misplaced expected ('[' :: rest)
  | '{' :: rest => misplaced expected ('{' :: rest)
  | cs => do
      let (n, rest) ← scalar cs
      match check n with
      | .ok () => return (n, rest)
      | .error (.refused reason) => stopAround (.refused reason) rest
      | .error m => stopBefore (.misfit m) rest

def textReader : Reader := checkedScalar Schema.text.expected Schema.isText

-- Fields of an object in any order; those that the record does not know are passed over.
def fieldsByName (fuel : Nat) (fields : List (Field Reader)) : Reader := fun depth cs => do
  let (es, rest) ← entries (fun before name cs =>
    match Field.find? fields name with
    | none => do return (none, ← pass fuel (← colon cs))
    | some f =>
        if before.contains name then stopAround (.repeated name) cs
        else entry (f.content depth) cs) fuel [] cs
  match Field.absent? fields (es.map (·.1)) with
  | some f => stopAround (.missing f.name) rest
  | none => return (.table es, rest)

-- The fields of a record of `count` fields as a list; `taken` of them are read already.
def fieldsInOrder (title : String) (count depth : Nat) :
    Nat → List (Field Reader) → Step (List Node)
  | _, [], rest => .ok ([], rest)
  | taken, f :: fields, cs => do
      let (more, rest) ← nextElement (taken = 0) cs
      if more then
        let (n, rest) ← f.content depth rest
        let (ns, rest) ← fieldsInOrder title count depth (taken + 1) fields rest
        return (n :: ns, rest)
      else if f.required then stopAround (.tooShort taken title count) rest
      else fieldsInOrder title count depth (taken + 1) fields rest

def variantName (known : List String) : Step Node := fun cs =>
  checkedScalar Schema.tagExpected (fun n => (Schema.knownVariant known n).map (fun _ => ())) 0 cs

def taggedEntries (fuel : Nat) (tag : String) (known : List String) : Reader := fun depth cs => do
  let (es, rest) ← entries (fun before name cs =>
    if name = tag then
      if before.contains tag then stopAround (.repeated tag) cs else entry (variantName known) cs
    else entry (value fuel depth) cs) fuel [] cs
  if es.any (fun e => e.1 = tag) then return (.table es, rest) else stopAround (.missing tag) rest

def taggedElements (fuel : Nat) (tag : String) (known : List String) : Reader := fun depth cs => do
  let (more, rest) ← nextElement true cs
  if more then
    let (n, rest) ← variantName known rest
    let (ns, rest) ← elements (value fuel depth) fuel false rest
    return (.list (n :: ns), rest)
  else stopAround (.missing tag) rest

-- The whole of it is read before it is looked at.
def afterwards (check : Check) (one : Reader) : Reader := fun depth cs => do
  let (n, rest) ← one depth cs
  match check n with
  | .ok () => return (n, rest)
  | .error m => stopAround m rest

mutual

def fitting (fuel : Nat) : Schema → Reader
  | .nullable content => fun depth cs =>
      match skip cs with
      | 'n' :: rest => constant .null "ull" rest
      | rest => fitting fuel content depth rest
  | .attributes =>
      bracketed Schema.attributes.expected none
        (some (fun depth => tableOf fuel (fun _ _ => entry (textReader depth))))
  | .list element =>
      bracketed (Schema.list element).expected
        (some (fun depth => listOf fuel (fitting fuel element depth))) none
  | .record title fields =>
      let readers := fieldReaders fuel fields
      bracketed (Schema.record title fields).expected
        (some (fun depth cs =>
          (fieldsInOrder title fields.length depth 0 readers cs).map (fun r => (.list r.1, r.2))))
        (some (fieldsByName fuel readers))
  | .choice title tag variants =>
      let known := variants.map (·.1)
      afterwards (Schema.choice title tag variants).check
        (bracketed (Schema.choice title tag variants).expected
          (some (taggedElements fuel tag known)) (some (taggedEntries fuel tag known)))
  | schema => checkedScalar schema.expected schema.check

def fieldReaders (fuel : Nat) : List (Field Schema) → List (Field Reader)
  | [] => []
  | ⟨name, content, required⟩ :: fields =>
      ⟨name, fitting fuel content, required⟩ :: fieldReaders fuel fields

end

def readAs (schema : Schema) (s : String) : Except Complaint Node :=
  whole (fun fuel => fitting fuel schema) s

end ContainerProfiles.Json
