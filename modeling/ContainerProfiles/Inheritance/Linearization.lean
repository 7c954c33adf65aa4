import ContainerProfiles.Profile.Basic

namespace ContainerProfiles

-- The profiles that some roots inherit from, parents before children. The walk goes depth first in the declared
-- order and lists a profile once its parents are listed; a profile met again while it is still open closes a
-- cycle.

-- Profiles under their identities.
abbrev Catalog := Dict ProfileId Profile

inductive LineageError where
  | cycle (child parent : ProfileId)
  | missing (profile : ProfileId)
deriving DecidableEq

namespace Catalog

-- Of two profiles of one identity the later counts.
def ofProfiles (profiles : List Profile) : Catalog :=
  Dict.ofList (profiles.map (fun p => (p.identity, p)))

-- The named profiles in the order of the names, all of which have to be there.
def pick (profiles : Catalog) (ids : List ProfileId) : Except LineageError (List Profile) :=
  ids.mapM (fun id => match profiles.get? id with
    | some p => .ok p
    | none => .error (.missing id))

-- How many stored profiles are not open yet.
def unopened (profiles : Catalog) (opened : List ProfileId) : Nat :=
  (profiles.keys.filter (· ∉ opened)).length

theorem filter_length_lt {p q : α → Bool} {l : List α} (weaker : ∀ x ∈ l, p x → q x)
    {x : α} (member : x ∈ l) (yes : q x) (no : ¬ p x) : (l.filter p).length < (l.filter q).length := by
  have bounded : ∀ l : List α, (∀ x ∈ l, p x → q x) → (l.filter p).length ≤ (l.filter q).length := by
    intro l weaker
    rw [← List.countP_eq_length_filter, ← List.countP_eq_length_filter]
    exact List.countP_mono_left weaker
  induction l with
  | nil => cases member
  | cons y rest ih =>
      have later : ∀ x ∈ rest, p x → q x := fun x h => weaker x (.tail _ h)
      rcases List.mem_cons.mp member with rfl | present
      · have := bounded rest later
        simp [yes, no]; omega
      · have := ih later present
        by_cases py : p y
        · simp [py, weaker y (.head _) py]; omega
        · by_cases qy : q y <;> simp [py, qy] <;> omega

theorem unopened_lt {profiles : Catalog} {opened : List ProfileId} {id : ProfileId} {p : Profile}
    (found : profiles.get? id = some p) (fresh : id ∉ opened) :
    profiles.unopened (id :: opened) < profiles.unopened opened := by
  unfold unopened
  refine filter_length_lt (fun x _ => by simp) (x := id) ?_ (by simpa using fresh) (by simp)
  simp [Dict.mem_keys, Dict.contains, found]

-- `opened` holds the profiles whose parents are being listed, the latest first.
def visit (profiles : Catalog) (opened : List ProfileId) (listed : List Profile) :
    List ProfileId → Except LineageError (List Profile)
  | [] => .ok listed
  | id :: rest =>
      if id ∈ listed.map Profile.identity then visit profiles opened listed rest
      else if fresh : id ∈ opened then .error (.cycle (opened.headD id) id)
      else
        match found : profiles.get? id with
        | none => .error (.missing id)
        | some p =>
            have := unopened_lt found fresh
            match visit profiles (id :: opened) listed p.parents with
            | .error e => .error e
            | .ok listed => visit profiles opened (listed ++ [p]) rest
termination_by ids => (profiles.unopened opened, ids.length)
decreasing_by
  · exact Prod.Lex.right _ (by simp)
  · exact Prod.Lex.left _ _ (by assumption)
  · exact Prod.Lex.right _ (by simp)

def linearize (profiles : Catalog) (roots : List ProfileId) : Except LineageError (List Profile) :=
  visit profiles [] [] roots

end Catalog
end ContainerProfiles
