import ContainerProfiles.Document.Json.Reader

namespace ContainerProfiles.Json

-- Passing over a value that nothing asks for. Only its form is looked at: numbers may be out of range, texts may
-- hold parts of pairs, and lists and objects may stand within each other as deep as they like.

def passKey : Move
  | [] => stopBefore .endInObject []
  | '"' :: rest => do colon (← passString rest)
  | rest => stopAt .keyNotText rest

-- Behind an element or an entry: true where another one follows.
def passComma (isEnd : Char → Bool) (atEnd other : Fault) : Step Bool := fun cs =>
  match skip cs with
  | [] => stopBefore atEnd []
  | ',' :: rest => .ok (true, rest)
  | c :: rest => if isEnd c then .ok (false, rest) else stopAt other (c :: rest)

mutual

-- The fuel bounds the recursion; the length of a text is always enough for it.
def pass : Nat → Move
  | 0, rest => stopAt .noValue rest
  | fuel + 1, cs =>
      match skip cs with
      | [] => stopBefore .endInValue []
      | '[' :: rest =>
          match skip rest with
          | [] => stopBefore .endInList []
          | ']' :: rest => .ok rest
          | rest => passElements fuel rest
      | '{' :: rest =>
          match skip rest with
          | [] => stopBefore .endInObject []
          | '}' :: rest => .ok rest
          | rest => passEntries fuel rest
      | '"' :: rest => passString rest
      | '-' :: rest => passNumber rest
      | c :: rest =>
          if c.isDigit then passNumber (c :: rest) else (scalar (c :: rest)).map (·.2)

def passElements : Nat → Move
  | 0, rest => stopAt .noValue rest
  | fuel + 1, cs => do
      let (more, rest) ← passComma (· = ']') .endInList .noElementEnd (← pass fuel cs)
      if more then passElements fuel rest else return rest

def passEntries : Nat → Move
  | 0, rest => stopAt .noValue rest
  | fuel + 1, cs => do
      let rest ← passKey (skip cs)
      let (more, rest) ← passComma (· = '}') .endInObject .noFieldEnd (← pass fuel rest)
      if more then passEntries fuel rest else return rest

end

end ContainerProfiles.Json
