import ContainerProfiles.Document.Toml.Statement

namespace ContainerProfiles.Toml

-- Reading a TOML text: its statements build a tree of tables. A table may be opened by a header once, a key
-- assigned once, and a table made by dotted keys is closed to headers of its own name.

inductive Branch where
  | leaf (n : Node)
  -- `implied` as long as no header names the table; `dotted` when dotted keys made it.
  | table (implied dotted : Bool) (entries : List (String × Branch))
  -- The tables of a list, the latest first.
  | tables (earlier : List Branch) (latest : Branch)

namespace Branch

def empty (implied dotted : Bool) : Branch := table implied dotted []

-- Changes the table that a path leads to. Missing tables are made on the way, in a list the latest
-- table is meant, and dotted keys do not enter a table that a header opened.
def within (dotted : Bool) (change : Branch → Option Branch) : List String → Branch → Option Branch
  | [], b => change b
  | key :: keys, table implied made entries =>
      match value? key entries with
      | none =>
          (within dotted change keys (empty true dotted)).map
            (fun b => table implied made (entries ++ [(key, b)]))
      | some (leaf _) => none
      | some (tables earlier latest) =>
          (within dotted change keys latest).map
            (fun b => table implied made (replaceEntry key (tables earlier b) entries))
      | some (table i d es) =>
          if dotted && !i then none
          else
            (within dotted change keys (table i d es)).map
              (fun b => table implied made (replaceEntry key b entries))
  | _ :: _, _ => none

-- A key directly in a table opened by a header, or at the end of a dotted path.
def assign (dotted : Bool) (key : String) (value : Node) : Branch → Option Branch
  | table implied made entries =>
      if made ≠ dotted || (value? key entries).isSome then none
      else some (table implied made (entries ++ [(key, leaf value)]))
  | _ => none

-- A header may name a table that so far is only implied by longer headers.
def openTable (key : String) : Branch → Option Branch
  | table implied made entries =>
      match value? key entries with
      | none => some (table implied made (entries ++ [(key, empty false false)]))
      | some (table true false es) =>
          some (table implied made (replaceEntry key (table false false es) entries))
      | some _ => none
  | _ => none

def openElement (key : String) : Branch → Option Branch
  | table implied made entries =>
      match value? key entries with
      | none => some (table implied made (entries ++ [(key, tables [] (empty false false))]))
      | some (tables earlier latest) =>
          some (table implied made
            (replaceEntry key (tables (latest :: earlier) (empty false false)) entries))
      | some _ => none
  | _ => none

mutual

def toNode : Branch → Node
  | leaf n => n
  | table _ _ entries => .table (entryNodes entries)
  | tables earlier latest => .list ((elementNodes earlier).reverse ++ [latest.toNode])

def entryNodes : List (String × Branch) → List (String × Node)
  | [] => []
  | (key, b) :: rest => (key, b.toNode) :: entryNodes rest

def elementNodes : List Branch → List Node
  | [] => []
  | b :: rest => b.toNode :: elementNodes rest

end

end Branch

-- The tree so far and the path that the last header opened.
structure Outline where
  root : Branch := .empty false false
  current : List String := []

def Outline.add (o : Outline) : Statement → Option Outline
  | .table path => do
      let root ← o.root.within false (Branch.openTable (path.getLastD "")) path.dropLast
      return { root, current := path }
  | .element path => do
      let root ← o.root.within false (Branch.openElement (path.getLastD "")) path.dropLast
      return { root, current := path }
  | .assignment path value => do
      let keys := path.dropLast
      let root ← o.root.within false
        (Branch.within true (Branch.assign (!keys.isEmpty) (path.getLastD "") value) keys) o.current
      return { o with root }

def read (s : String) : Option Node := do
  let statements ← readStatements s
  let outline ← statements.foldlM Outline.add {}
  return outline.root.toNode

end ContainerProfiles.Toml
