namespace ContainerProfiles

-- Finite maps whose entries are kept in the order of their keys, each key once. The order is part of the type, so
-- two maps with the same look-ups are equal (`ext_get?`); `get?_insert`, `get?_erase`, `get?_filter` and
-- `get?_map` say what each operation does to the look-ups.

universe u v w

structure Dict (κ : Type u) (α : Type v) [Ord κ] where
  entries : List (κ × α)
  sorted : entries.Pairwise (fun a b => compare a.1 b.1 = .lt)
deriving DecidableEq

namespace Dict

variable {κ : Type u} {α : Type v} {β : Type w} [Ord κ]

def lookup (k : κ) : List (κ × α) → Option α
  | [] => none
  | (k', x) :: rest => if compare k k' = .eq then some x else lookup k rest

def place (k : κ) (x : α) : List (κ × α) → List (κ × α)
  | [] => [(k, x)]
  | (k', x') :: rest =>
      match compare k k' with
      | .lt => (k, x) :: (k', x') :: rest
      | .eq => (k, x) :: rest
      | .gt => (k', x') :: place k x rest

def empty : Dict κ α := ⟨[], .nil⟩

instance : EmptyCollection (Dict κ α) := ⟨empty⟩
instance : Inhabited (Dict κ α) := ⟨empty⟩

def get? (d : Dict κ α) (k : κ) : Option α := lookup k d.entries

def contains (d : Dict κ α) (k : κ) : Bool := (d.get? k).isSome

def keys (d : Dict κ α) : List κ := d.entries.map (·.1)

def values (d : Dict κ α) : List α := d.entries.map (·.2)

def size (d : Dict κ α) : Nat := d.entries.length

def isEmpty (d : Dict κ α) : Bool := d.entries.isEmpty

def filter (p : κ → α → Bool) (d : Dict κ α) : Dict κ α :=
  ⟨d.entries.filter (fun e => p e.1 e.2), d.sorted.filter _⟩

def erase (d : Dict κ α) (k : κ) : Dict κ α := d.filter (fun k' _ => compare k k' ≠ .eq)

def map (f : α → β) (d : Dict κ α) : Dict κ β :=
  ⟨d.entries.map (fun e => (e.1, f e.2)), by
    rw [List.pairwise_map]; exact d.sorted⟩

theorem mem_place {k : κ} {x : α} {e : κ × α} {l : List (κ × α)}
    (present : e ∈ place k x l) : e = (k, x) ∨ e ∈ l := by
  induction l with
  | nil => simpa [place] using present
  | cons head rest ih =>
      obtain ⟨k', x'⟩ := head
      simp only [place] at present
      split at present <;> grind

theorem place_sorted [Std.TransOrd κ] (k : κ) (x : α) {l : List (κ × α)}
    (h : l.Pairwise (fun a b => compare a.1 b.1 = .lt)) :
    (place k x l).Pairwise (fun a b => compare a.1 b.1 = .lt) := by
  induction l with
  | nil => simp [place]
  | cons head rest ih =>
      obtain ⟨k', x'⟩ := head
      obtain ⟨above, tail⟩ := List.pairwise_cons.mp h
      simp only [place]
      split
      next less =>
        refine List.pairwise_cons.mpr ⟨fun e member => ?_, h⟩
        rcases List.mem_cons.mp member with rfl | later
        · exact less
        · exact Std.TransCmp.lt_trans less (above e later)
      next same =>
        refine List.pairwise_cons.mpr ⟨fun e member => ?_, tail⟩
        exact Std.TransCmp.lt_of_eq_of_lt same (above e member)
      next greater =>
        refine List.pairwise_cons.mpr ⟨fun e member => ?_, ih tail⟩
        rcases mem_place member with rfl | later
        · exact Std.OrientedCmp.lt_of_gt greater
        · exact above e later

def insert [Std.TransOrd κ] (d : Dict κ α) (k : κ) (x : α) : Dict κ α :=
  ⟨place k x d.entries, place_sorted k x d.sorted⟩

-- Later pairs win, as when they are inserted one after another.
def extend [Std.TransOrd κ] (d : Dict κ α) (pairs : List (κ × α)) : Dict κ α :=
  pairs.foldl (fun d e => d.insert e.1 e.2) d

def ofList [Std.TransOrd κ] (pairs : List (κ × α)) : Dict κ α := extend ∅ pairs

@[simp] theorem get?_empty (k : κ) : (∅ : Dict κ α).get? k = none := rfl

theorem lookup_map (f : α → β) (k : κ) (l : List (κ × α)) :
    lookup k (l.map (fun e => (e.1, f e.2))) = (lookup k l).map f := by
  induction l with
  | nil => rfl
  | cons head rest ih =>
      simp only [List.map_cons, lookup]
      split
      · rfl
      · exact ih

@[simp] theorem get?_map (d : Dict κ α) (f : α → β) (k : κ) :
    (d.map f).get? k = (d.get? k).map f :=
  lookup_map f k d.entries

section Keys

variable [Std.LawfulEqOrd κ]

theorem lookup_place [DecidableEq κ] (k k' : κ) (x : α) (l : List (κ × α)) :
    lookup k' (place k x l) = if k' = k then some x else lookup k' l := by
  induction l with
  | nil => simp [place, lookup]
  | cons head rest ih =>
      obtain ⟨k'', x''⟩ := head
      simp only [place]
      split
      next => simp [lookup]
      next same =>
        have := Std.LawfulEqOrd.compare_eq_iff_eq.mp same
        subst this
        by_cases h : k' = k <;> simp [lookup, h]
      next greater =>
        have apart : k ≠ k'' := by
          intro same
          rw [Std.LawfulEqOrd.compare_eq_iff_eq.mpr same] at greater
          exact absurd greater (by decide)
        by_cases h : k' = k''
        · subst h; simp [lookup, Ne.symm apart]
        · simp [lookup, h, ih]

@[simp] theorem get?_insert [Std.TransOrd κ] [DecidableEq κ] (d : Dict κ α) (k k' : κ) (x : α) :
    (d.insert k x).get? k' = if k' = k then some x else d.get? k' :=
  lookup_place k k' x d.entries

theorem lookup_eq_some {k : κ} {x : α} {l : List (κ × α)}
    (h : l.Pairwise (fun a b => compare a.1 b.1 = .lt)) :
    lookup k l = some x ↔ (k, x) ∈ l := by
  induction l with
  | nil => simp [lookup]
  | cons head rest ih =>
      obtain ⟨k', x'⟩ := head
      obtain ⟨above, tail⟩ := List.pairwise_cons.mp h
      by_cases same : k = k'
      · subst same
        simp only [lookup, Std.ReflOrd.compare_self, if_true, Option.some.injEq, List.mem_cons,
          Prod.mk.injEq, true_and]
        constructor
        · exact fun h => .inl h.symm
        · rintro (rfl | later)
          · rfl
          · exact absurd (above _ later) (by simp)
      · simp [lookup, same, ih tail]

theorem get?_eq_some {d : Dict κ α} {k : κ} {x : α} : d.get? k = some x ↔ (k, x) ∈ d.entries :=
  lookup_eq_some d.sorted

@[simp] theorem get?_filter (d : Dict κ α) (p : κ → α → Bool) (k : κ) :
    (d.filter p).get? k = (d.get? k).filter (p k) := by
  ext x
  simp [get?_eq_some, filter, Option.filter_eq_some_iff]

@[simp] theorem get?_erase [DecidableEq κ] (d : Dict κ α) (k k' : κ) :
    (d.erase k).get? k' = if k' = k then none else d.get? k' := by
  ext x
  by_cases h : k' = k
  · simp [erase, h]
  · simp [erase, h, Option.filter_eq_some_iff, Ne.symm h]

theorem mem_keys {d : Dict κ α} {k : κ} : k ∈ d.keys ↔ d.contains k := by
  simp [keys, contains, Option.isSome_iff_exists, get?_eq_some]

theorem keys_nodup (d : Dict κ α) : d.keys.Nodup := by
  refine List.pairwise_map.mpr (d.sorted.imp fun {a b} less same => ?_)
  rw [same] at less
  simp at less

-- Two lists in strict key order with the same members are the same list.
theorem ext_get? [Std.TransOrd κ] {d e : Dict κ α} (h : ∀ k, d.get? k = e.get? k) : d = e := by
  have members : ∀ p : κ × α, p ∈ d.entries ↔ p ∈ e.entries := by
    intro p; rw [← get?_eq_some, ← get?_eq_some, h]
  have strict : ∀ a b : κ × α, compare a.1 b.1 = .lt → compare b.1 a.1 = .lt → False := by
    intro a b one two
    have := Std.TransCmp.lt_trans one two
    simp at this
  have once : ∀ f : Dict κ α, f.entries.Nodup := fun f =>
    f.sorted.imp fun {a b} less same => by subst same; simp at less
  have equal : d.entries = e.entries :=
    List.Perm.eq_of_pairwise (fun a b _ _ one two => (strict a b one two).elim) d.sorted e.sorted
      ((List.perm_ext_iff_of_nodup (once d) (once e)).mpr members)
  cases d; cases e; simpa using equal

end Keys
end Dict

-- A set of keys, in their order.
abbrev KeySet (κ : Type u) [Ord κ] := Dict κ Unit

namespace KeySet

variable {κ : Type u} [Ord κ]

def add [Std.TransOrd κ] (s : KeySet κ) (k : κ) : KeySet κ := Dict.insert s k ()

def ofList [Std.TransOrd κ] (ks : List κ) : KeySet κ := ks.foldl add ∅

end KeySet

-- Texts under keys. An overlay may delete what it inherits.
abbrev Attributes := Dict String String

namespace Attributes

-- The value that takes an inherited key away.
def deleted : String := "#deleted#"

-- What `overlay` says about a key replaces what `base` says.
def merge (base overlay : Attributes) : Attributes :=
  overlay.entries.foldl (fun d e => if e.2 = deleted then d.erase e.1 else d.insert e.1 e.2) base

def withoutDeleted (a : Attributes) : Attributes := a.filter (fun _ x => x ≠ deleted)

end Attributes
end ContainerProfiles
