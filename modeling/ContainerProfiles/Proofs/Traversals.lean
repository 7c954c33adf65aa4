import ContainerProfiles.OperationError
import ContainerProfiles.Proofs.CatalogEdits
import ContainerProfiles.Proofs.FailedWalks

namespace ContainerProfiles

-- The walk over ancestors taken as a loop: a stack of profiles, each with the number of its parents that were
-- looked at, and two sets for what is listed and what is on the stack.

open Relation Catalog

structure Cursor where
  profile : Profile
  passed : Nat := 0

structure Traversal where
  pending : List ProfileId
  -- The profile opened last comes first.
  stack : List Cursor := []
  visited : KeySet ProfileId := ∅
  inProgress : KeySet ProfileId := ∅
  order : List Profile := []

inductive Progress where
  | going (t : Traversal)
  | ended (answer : Except LineageError (List Profile))

namespace Traversal

def enter (t : Traversal) (c : Catalog) (id : ProfileId) : Progress :=
  match c.get? id with
  | none => .ended (.error (.missing id))
  | some p => .going { t with
      stack := { profile := p } :: t.stack
      inProgress := KeySet.add t.inProgress p.identity }

def step (c : Catalog) (t : Traversal) : Progress :=
  match t.stack with
  | [] =>
      match t.pending with
      | [] => .ended (.ok t.order)
      | root :: rest =>
          let t := { t with pending := rest }
          if t.visited.contains root then .going t else t.enter c root
  | top :: below =>
      match top.profile.parents[top.passed]? with
      | some parent =>
          let t := { t with stack := { top with passed := top.passed + 1 } :: below }
          if t.visited.contains parent then .going t
          else if t.inProgress.contains parent then .ended (.error (.cycle top.profile.identity parent))
          else t.enter c parent
      | none => .going { t with
          stack := below
          inProgress := t.inProgress.erase top.profile.identity
          visited := KeySet.add t.visited top.profile.identity
          order := t.order ++ [top.profile] }

def Leads (c : Catalog) : Traversal → Traversal → Prop := ReflTransGen fun t u => t.step c = .going u

def Ends (c : Catalog) (t : Traversal) (answer : Except LineageError (List Profile)) : Prop :=
  ∃ last, Leads c t last ∧ last.step c = .ended answer

abbrev openedIn (stack : List Cursor) : List ProfileId := stack.map (·.profile.identity)

-- Where the loop stands: both sets say what the order and the stack say.
def amid (pending : List ProfileId) (stack : List Cursor) (listed : List Profile) : Traversal :=
  { pending, stack, order := listed
    visited := KeySet.ofList (identities listed)
    inProgress := KeySet.ofList (openedIn stack) }

section Steps

variable {c : Catalog} {pending : List ProfileId} {stack below : List Cursor} {listed : List Profile}
  {p q : Profile} {k : Nat} {id : ProfileId}

theorem enter_missing (missing : c.get? id = none) (t : Traversal) :
    t.enter c id = .ended (.error (.missing id)) := by
  unfold enter
  rw [missing]

theorem enter_found (found : c.get? id = some q) :
    (amid pending stack listed).enter c id = .going (amid pending ({ profile := q } :: stack) listed) := by
  have pushed : KeySet.add (KeySet.ofList (openedIn stack)) q.identity =
      KeySet.ofList (openedIn ({ profile := q } :: stack)) := by
    refine Dict.ext_contains fun i => Bool.eq_iff_iff.mpr ?_
    rw [KeySet.add, Dict.contains_insert, Dict.contains_ofList, Dict.contains_ofList]
    exact List.mem_cons.symm
  unfold enter
  rw [found]
  change Progress.going { amid pending stack listed with
    stack := _, inProgress := KeySet.add (KeySet.ofList (openedIn stack)) q.identity } = _
  rw [pushed]
  rfl

theorem step_root_listed (old : id ∈ identities listed) :
    (amid (id :: pending) [] listed).step c = .going (amid pending [] listed) :=
  if_pos (Dict.contains_ofList.mpr old)

theorem step_root_new (c : Catalog) (pending : List ProfileId) (new : id ∉ identities listed) :
    (amid (id :: pending) [] listed).step c = (amid pending [] listed).enter c id :=
  if_neg fun old => new (Dict.contains_ofList.mp old)

-- A turn that finds a parent to look at, told from what is said of the parent.
theorem step_parent (c : Catalog) (pending : List ProfileId) (below : List Cursor) (listed : List Profile)
    (next : p.parents[k]? = some id) :
    (amid pending ({ profile := p, passed := k } :: below) listed).step c =
      if id ∈ identities listed then .going (amid pending ({ profile := p, passed := k + 1 } :: below) listed)
      else if id ∈ openedIn ({ profile := p, passed := k } :: below) then .ended (.error (.cycle p.identity id))
      else (amid pending ({ profile := p, passed := k + 1 } :: below) listed).enter c id := by
  unfold step
  dsimp only [amid]
  rw [next]
  dsimp only
  simp only [Dict.contains_ofList]
  rfl

theorem step_leave (looked : p.parents[k]? = none) (apart : p.identity ∉ openedIn below) :
    (amid pending ({ profile := p, passed := k } :: below) listed).step c =
      .going (amid pending below (listed ++ [p])) := by
  have popped : (KeySet.ofList (openedIn ({ profile := p, passed := k } :: below))).erase p.identity =
      KeySet.ofList (openedIn below) := by
    refine Dict.ext_contains fun i => Bool.eq_iff_iff.mpr ?_
    rw [Dict.contains_erase, Dict.contains_ofList, Dict.contains_ofList]
    constructor
    · rintro ⟨other, member⟩
      rcases List.mem_cons.mp member with same | there
      · exact absurd same other
      · exact there
    · exact fun there => ⟨fun same => apart (same ▸ there), .tail _ there⟩
  have noted : KeySet.add (KeySet.ofList (identities listed)) p.identity =
      KeySet.ofList (identities (listed ++ [p])) := by
    rw [identities_append, KeySet.ofList, KeySet.ofList, List.foldl_append]
    rfl
  unfold step
  dsimp only [amid]
  rw [looked]
  dsimp only
  rw [popped, noted]

end Steps

theorem Leads.ends {c : Catalog} {t u : Traversal} {answer : Except LineageError (List Profile)}
    (leads : Leads c t u) (ends : Ends c u answer) : Ends c t answer := by
  obtain ⟨last, more, done⟩ := ends
  exact ⟨last, leads.trans more, done⟩

theorem parent_at {p : Profile} {k : Nat} {id : ProfileId} {rest : List ProfileId}
    (left : id :: rest = p.parents.drop k) : p.parents[k]? = some id ∧ rest = p.parents.drop (k + 1) := by
  constructor
  · rw [← List.head?_drop, ← left]
    rfl
  · rw [← List.tail_drop, ← left]
    rfl

variable {c : Catalog} {listed order : List Profile} {opened ids : List ProfileId}

-- With its parents walked through, a profile leaves the stack and is listed.
theorem leads_of_walk (keyed : c.Keyed) (walk : Walk c opened listed ids order) {pending : List ProfileId}
    {p : Profile} {k : Nat} {below : List Cursor}
    (stacked : opened = openedIn ({ profile := p, passed := k } :: below)) (left : ids = p.parents.drop k)
    (apart : p.identity ∉ openedIn below) :
    Leads c (amid pending ({ profile := p, passed := k } :: below) listed)
      (amid pending below (order ++ [p])) := by
  induction walk generalizing p k below with
  | done =>
      have looked : p.parents[k]? = none := by rw [← List.head?_drop, ← left]; rfl
      exact .single (step_leave looked apart)
  | @again listed opened rest order id old _ ih =>
      obtain ⟨next, left⟩ := parent_at left
      have passed := step_parent c pending below listed next
      rw [if_pos old] at passed
      exact .head passed (ih stacked left apart)
  | @fresh listed opened q traced rest order id new unopened found _ _ inside outside =>
      obtain ⟨next, left⟩ := parent_at left
      subst stacked
      have named : q.identity = id := keyed id q found
      have entered := step_parent c pending below listed next
      rw [if_neg new, if_neg unopened, enter_found found] at entered
      have above : Leads c
          (amid pending ({ profile := q } :: { profile := p, passed := k + 1 } :: below) listed)
          (amid pending ({ profile := p, passed := k + 1 } :: below) (traced ++ [q])) :=
        inside (by rw [← named]; rfl) rfl (by rw [named]; exact unopened)
      exact .head entered (above.trans (outside rfl left apart))

theorem ends_of_halt (keyed : c.Keyed) (halt : Halt c opened listed ids e) {pending : List ProfileId}
    {p : Profile} {k : Nat} {below : List Cursor}
    (stacked : opened = openedIn ({ profile := p, passed := k } :: below)) (left : ids = p.parents.drop k) :
    Ends c (amid pending ({ profile := p, passed := k } :: below) listed) (.error e) := by
  induction halt generalizing p k below with
  | @closing listed opened rest id new isOpen =>
      obtain ⟨next, _⟩ := parent_at left
      subst stacked
      have met := step_parent c pending below listed next
      rw [if_neg new, if_pos isOpen] at met
      exact ⟨_, .refl, met⟩
  | @absent listed opened rest id new unopened missing =>
      obtain ⟨next, _⟩ := parent_at left
      subst stacked
      have met := step_parent c pending below listed next
      rw [if_neg new, if_neg unopened, enter_missing missing] at met
      exact ⟨_, .refl, met⟩
  | @again listed opened rest e id old _ ih =>
      obtain ⟨next, left⟩ := parent_at left
      have passed := step_parent c pending below listed next
      rw [if_pos old] at passed
      exact Leads.ends (.single passed) (ih stacked left)
  | @above listed opened q e rest id new unopened found _ ih =>
      obtain ⟨next, left⟩ := parent_at left
      subst stacked
      have entered := step_parent c pending below listed next
      rw [if_neg new, if_neg unopened, enter_found found] at entered
      exact Leads.ends (.single entered) (ih (by rw [← keyed id q found]; rfl) rfl)
  | @beside listed opened q traced rest e id new unopened found parents _ ih =>
      obtain ⟨next, left⟩ := parent_at left
      subst stacked
      have named : q.identity = id := keyed id q found
      have entered := step_parent c pending below listed next
      rw [if_neg new, if_neg unopened, enter_found found] at entered
      have above : Leads c
          (amid pending ({ profile := q } :: { profile := p, passed := k + 1 } :: below) listed)
          (amid pending ({ profile := p, passed := k + 1 } :: below) (traced ++ [q])) :=
        leads_of_walk keyed parents (by rw [← named]; rfl) rfl (by rw [named]; exact unopened)
      exact Leads.ends (.head entered above) (ih rfl left)

theorem leads_through_root (keyed : c.Keyed) {id : ProfileId} {rest : List ProfileId} {p : Profile}
    {traced : List Profile} (new : id ∉ identities listed) (found : c.get? id = some p)
    (parents : Walk c [id] listed p.parents traced) :
    Leads c (amid (id :: rest) [] listed) (amid rest [] (traced ++ [p])) := by
  have entered := step_root_new c rest new
  rw [enter_found found] at entered
  refine .head entered (leads_of_walk keyed parents ?_ rfl List.not_mem_nil)
  rw [← keyed id p found]
  rfl

theorem ends_of_walk (keyed : c.Keyed) {roots : List ProfileId} (walk : Walk c [] listed roots order) :
    Ends c (amid roots [] listed) (.ok order) := by
  generalize start : ([] : List ProfileId) = opened at walk
  induction walk with
  | done => exact ⟨_, .refl, rfl⟩
  | again old _ ih => exact Leads.ends (.single (step_root_listed old)) (ih start)
  | fresh new _ found parents _ _ outside =>
      subst start
      exact (leads_through_root keyed new found parents).ends (outside rfl)

theorem ends_of_failed_walk (keyed : c.Keyed) {roots : List ProfileId} (halt : Halt c [] listed roots e) :
    Ends c (amid roots [] listed) (.error e) := by
  generalize start : ([] : List ProfileId) = opened at halt
  induction halt with
  | closing _ isOpen =>
      subst start
      cases isOpen
  | absent new _ missing => exact ⟨_, .refl, (step_root_new c _ new).trans (enter_missing missing _)⟩
  | again old _ ih => exact Leads.ends (.single (step_root_listed old)) (ih start)
  | @above listed opened p e rest id new _ found inner _ =>
      subst start
      have entered := step_root_new c rest new
      rw [enter_found found] at entered
      have above : Ends c (amid rest [{ profile := p }] listed) (.error e) :=
        ends_of_halt keyed inner (by rw [← keyed id p found]; rfl) rfl
      exact Leads.ends (.single entered) above
  | beside new _ found parents _ ih =>
      subst start
      exact (leads_through_root keyed new found parents).ends (ih rfl)

theorem ends_linearize (keyed : c.Keyed) (roots : List ProfileId) :
    Ends c { pending := roots } (c.linearize roots) := by
  cases answer : c.linearize roots with
  | ok order => exact ends_of_walk keyed (linearize_eq_ok.mp answer)
  | error e => exact ends_of_failed_walk keyed (linearize_eq_error.mp answer)

end Traversal
end ContainerProfiles
