import ContainerProfiles.Inheritance.Linearization
import ContainerProfiles.Proofs.Entries
import Mathlib.Logic.Relation

namespace ContainerProfiles.Catalog

-- What a walk over the ancestors of some roots finds. `Walk` gives the successful walks as a relation, `Ordered`
-- the lists with parents before children.

open Relation

def Keyed (c : Catalog) : Prop := ∀ id p, c.get? id = some p → p.identity = id

-- `parent` is among the declared parents of the profile stored as `child`.
def Inherits (c : Catalog) (child parent : ProfileId) : Prop :=
  ∃ p, c.get? child = some p ∧ parent ∈ p.parents

def Closed (c : Catalog) : Prop := ∀ child parent, c.Inherits child parent → c.contains parent

def Acyclic (c : Catalog) : Prop := ∀ id, ¬ TransGen c.Inherits id id

-- One of the roots, or an ancestor of one.
def Ancestral (c : Catalog) (roots : List ProfileId) (id : ProfileId) : Prop :=
  ∃ root ∈ roots, ReflTransGen c.Inherits root id

abbrev identities (listed : List Profile) : List ProfileId := listed.map Profile.identity

theorem identities_append (listed : List Profile) (p : Profile) :
    identities (listed ++ [p]) = identities listed ++ [p.identity] := by simp [identities]

theorem Ancestral.root {c : Catalog} {id : ProfileId} {rest : List ProfileId} : c.Ancestral (id :: rest) id :=
  ⟨id, List.mem_cons_self, .refl⟩

theorem Ancestral.later {c : Catalog} {first id : ProfileId} {rest : List ProfileId}
    (above : c.Ancestral rest id) : c.Ancestral (first :: rest) id := by
  obtain ⟨root, isRoot, path⟩ := above
  exact ⟨root, List.mem_cons_of_mem _ isRoot, path⟩

theorem Ancestral.parent {c : Catalog} {first id : ProfileId} {rest : List ProfileId}
    (above : c.Ancestral p.parents id) (found : c.get? first = some p) : c.Ancestral (first :: rest) id := by
  obtain ⟨parent, isParent, path⟩ := above
  exact ⟨first, List.mem_cons_self, .head ⟨p, found, isParent⟩ path⟩

section Visit

variable {c : Catalog} {opened : List ProfileId} {listed : List Profile} {id : ProfileId} {rest : List ProfileId}

theorem visit_missing (new : id ∉ identities listed) (unopened : id ∉ opened) (missing : c.get? id = none) :
    c.visit opened listed (id :: rest) = .error (.missing id) := by
  rw [visit, if_neg new, dif_neg unopened]
  split
  · rfl
  · simp_all

theorem visit_fresh (new : id ∉ identities listed) (unopened : id ∉ opened) (found : c.get? id = some p) :
    c.visit opened listed (id :: rest) = match c.visit (id :: opened) listed p.parents with
      | .error e => .error e
      | .ok listed => c.visit opened (listed ++ [p]) rest := by
  rw [visit, if_neg new, dif_neg unopened]
  split
  · simp_all
  · rename_i q found'
    cases found.symm.trans found'
    rfl

end Visit

inductive Walk (c : Catalog) : List ProfileId → List Profile → List ProfileId → List Profile → Prop
  | done : Walk c opened listed [] listed
  | again {id : ProfileId} : id ∈ identities listed → Walk c opened listed rest order →
      Walk c opened listed (id :: rest) order
  | fresh {id : ProfileId} : id ∉ identities listed → id ∉ opened → c.get? id = some p →
      Walk c (id :: opened) listed p.parents traced → Walk c opened (traced ++ [p]) rest order →
      Walk c opened listed (id :: rest) order

theorem walk_of_visit {c : Catalog} {opened : List ProfileId} {listed order : List Profile}
    {ids : List ProfileId} (walked : c.visit opened listed ids = .ok order) :
    Walk c opened listed ids order := by
  induction opened, listed, ids using visit.induct c generalizing order with
  | case1 opened listed =>
      rw [visit] at walked
      cases walked
      exact .done
  | case2 opened listed id rest old ih =>
      rw [visit, if_pos old] at walked
      exact .again old (ih walked)
  | case3 opened listed id rest new isOpen =>
      rw [visit, if_neg new, dif_pos isOpen] at walked
      cases walked
  | case4 opened listed id rest new unopened missing =>
      rw [visit_missing new unopened missing] at walked
      cases walked
  | case5 opened listed id rest new unopened p found less e failed ih =>
      rw [visit_fresh new unopened found, failed] at walked
      cases walked
  | case6 opened listed id rest new unopened p found less traced parents inside outside =>
      rw [visit_fresh new unopened found, parents] at walked
      exact .fresh new unopened found (inside parents) (outside walked)

theorem visit_of_walk {c : Catalog} (walk : Walk c opened listed ids order) :
    c.visit opened listed ids = .ok order := by
  induction walk with
  | done => rw [visit]
  | again old _ ih => rw [visit, if_pos old, ih]
  | fresh new unopened found _ _ inside outside =>
      rw [visit_fresh new unopened found, inside]
      exact outside

theorem visit_eq_ok {c : Catalog} :
    c.visit opened listed ids = .ok order ↔ Walk c opened listed ids order :=
  ⟨walk_of_visit, visit_of_walk⟩

namespace Walk

variable {c : Catalog} {opened : List ProfileId} {listed order : List Profile} {ids : List ProfileId}

theorem keeps (walk : Walk c opened listed ids order) : listed ⊆ order := by
  induction walk with
  | done => exact fun _ member => member
  | again _ _ ih => exact ih
  | fresh _ _ _ _ _ inside outside =>
      exact fun _ member => outside (List.mem_append_left _ (inside member))

theorem keeps_identities (walk : Walk c opened listed ids order) :
    identities listed ⊆ identities order := List.map_subset _ walk.keeps

theorem covers (keyed : c.Keyed) (walk : Walk c opened listed ids order) : ids ⊆ identities order := by
  induction walk with
  | done => exact List.nil_subset _
  | again old rest ih => exact List.cons_subset.mpr ⟨rest.keeps_identities old, ih⟩
  | fresh _ _ found _ rest _ ih =>
      refine List.cons_subset.mpr ⟨rest.keeps_identities ?_, ih⟩
      rw [identities_append, ← keyed _ _ found]
      simp

-- What is still open stays out of the list.
theorem skips_opened (keyed : c.Keyed) (walk : Walk c opened listed ids order) :
    ∀ id ∈ opened, id ∈ identities order → id ∈ identities listed := by
  induction walk with
  | done => exact fun _ _ member => member
  | again _ _ ih => exact ih
  | fresh _ unopened found _ _ inside outside =>
      intro id isOpen member
      have before := outside id isOpen member
      rw [identities_append, List.mem_append, List.mem_singleton, keyed _ _ found] at before
      rcases before with traced | same
      · exact inside id (List.mem_cons_of_mem _ isOpen) traced
      · subst same; exact absurd isOpen unopened

theorem ancestral (keyed : c.Keyed) (walk : Walk c opened listed ids order) :
    ∀ id ∈ identities order, id ∈ identities listed ∨ c.Ancestral ids id := by
  induction walk with
  | done => exact fun _ member => .inl member
  | again _ _ ih =>
      intro id member
      rcases ih id member with old | ⟨root, isRoot, path⟩
      · exact .inl old
      · exact .inr ⟨root, List.mem_cons_of_mem _ isRoot, path⟩
  | @fresh listed opened p traced rest order first _ _ found _ _ inside outside =>
      intro id member
      rcases outside id member with old | ⟨root, isRoot, path⟩
      · rw [identities_append, List.mem_append, List.mem_singleton, keyed _ _ found] at old
        rcases old with below | rfl
        · rcases inside id below with old | ⟨parent, isParent, path⟩
          · exact .inl old
          · exact .inr ⟨first, List.mem_cons_self, .head ⟨p, found, isParent⟩ path⟩
        · exact .inr ⟨id, List.mem_cons_self, .refl⟩
      · exact .inr ⟨root, List.mem_cons_of_mem _ isRoot, path⟩

end Walk

inductive Ordered (c : Catalog) : List Profile → Prop
  | nil : Ordered c []
  | snoc : Ordered c listed → c.get? p.identity = some p → p.identity ∉ identities listed →
      (∀ parent ∈ p.parents, parent ∈ identities listed) → Ordered c (listed ++ [p])

theorem Walk.ordered {c : Catalog} (keyed : c.Keyed) (walk : Walk c opened listed ids order)
    (before : Ordered c listed) : Ordered c order := by
  induction walk with
  | done => exact before
  | again _ _ ih => exact ih before
  | @fresh listed opened p traced rest order id new unopened found parents _ inside outside =>
      have same := keyed _ _ found
      refine outside (.snoc (inside before) (same ▸ found) ?_ (parents.covers keyed))
      rw [same]
      exact fun member => new (parents.skips_opened keyed id List.mem_cons_self member)

namespace Ordered

variable {c : Catalog} {order : List Profile}

theorem parent_listed (ordered : Ordered c order) {id parent : ProfileId} (member : id ∈ identities order)
    (edge : c.Inherits id parent) : parent ∈ identities order := by
  induction ordered with
  | nil => cases member
  | snoc _ found _ parents ih =>
      rw [identities_append, List.mem_append] at member ⊢
      rcases member with old | last
      · exact .inl (ih old)
      · obtain ⟨q, found', isParent⟩ := edge
        rw [List.mem_singleton.mp last, found] at found'
        cases found'
        exact .inl (parents parent isParent)

theorem ancestor_listed (ordered : Ordered c order) {id ancestor : ProfileId}
    (member : id ∈ identities order) (path : ReflTransGen c.Inherits id ancestor) :
    ancestor ∈ identities order := by
  induction path with
  | refl => exact member
  | tail _ edge ih => exact ordered.parent_listed ih edge

theorem stored (ordered : Ordered c order) {id : ProfileId} (member : id ∈ identities order) : c.contains id := by
  induction ordered with
  | nil => cases member
  | snoc _ found _ _ ih =>
      rw [identities_append, List.mem_append] at member
      rcases member with old | last
      · exact ih old
      · rw [List.mem_singleton.mp last]
        exact Dict.contains_iff.mpr ⟨_, found⟩

-- The last profile is nobody's ancestor here: its parents are listed before it, and so are theirs.
theorem acyclic (ordered : Ordered c order) {id : ProfileId} (member : id ∈ identities order) :
    ¬ TransGen c.Inherits id id := by
  induction ordered with
  | nil => cases member
  | @snoc listed p before found new parents ih =>
      rw [identities_append, List.mem_append] at member
      rcases member with old | last
      · exact ih old
      · rw [List.mem_singleton.mp last]
        intro cycle
        obtain ⟨parent, ⟨q, found', isParent⟩, path⟩ := TransGen.head'_iff.mp cycle
        rw [found] at found'
        cases found'
        exact new (before.ancestor_listed (parents parent isParent) path)

end Ordered

theorem linearize_eq_ok {c : Catalog} : c.linearize roots = .ok order ↔ Walk c [] [] roots order :=
  visit_eq_ok

theorem linearize_ordered {c : Catalog} (keyed : c.Keyed) (walked : c.linearize roots = .ok order) :
    Ordered c order := (linearize_eq_ok.mp walked).ordered keyed .nil

theorem mem_linearize {c : Catalog} (keyed : c.Keyed) {roots : List ProfileId}
    (walked : c.linearize roots = .ok order) {id : ProfileId} :
    id ∈ identities order ↔ c.Ancestral roots id := by
  have walk := linearize_eq_ok.mp walked
  constructor
  · intro member
    rcases walk.ancestral keyed id member with none | found
    · cases none
    · exact found
  · rintro ⟨root, isRoot, path⟩
    exact (linearize_ordered keyed walked).ancestor_listed (walk.covers keyed isRoot) path

-- The walk looks at nothing but the roots and their ancestors, also where it comes to an error.
theorem visit_congr {c d : Catalog} (opened : List ProfileId) (listed : List Profile) (ids : List ProfileId)
    (agree : ∀ id, c.Ancestral ids id → d.get? id = c.get? id) :
    d.visit opened listed ids = c.visit opened listed ids := by
  induction opened, listed, ids using visit.induct c with
  | case1 opened listed => rw [visit, visit]
  | case2 opened listed id rest old ih =>
      rw [visit, visit, if_pos old, if_pos old, ih fun i above => agree i above.later]
  | case3 opened listed id rest new isOpen =>
      rw [visit, visit, if_neg new, if_neg new, dif_pos isOpen, dif_pos isOpen]
  | case4 opened listed id rest new unopened missing =>
      have missing' := (agree id .root).trans missing
      rw [visit_missing new unopened missing, visit_missing new unopened missing']
  | case5 opened listed id rest new unopened p found less e failed ih =>
      have found' := (agree id .root).trans found
      rw [visit_fresh new unopened found, visit_fresh new unopened found', failed,
        ih fun i above => agree i (above.parent found), failed]
  | case6 opened listed id rest new unopened p found less traced parents inside outside =>
      have found' := (agree id .root).trans found
      rw [visit_fresh new unopened found, visit_fresh new unopened found', parents,
        inside fun i above => agree i (above.parent found), parents]
      exact outside fun i above => agree i above.later

theorem linearize_congr {c d : Catalog} {roots : List ProfileId}
    (agree : ∀ id, c.Ancestral roots id → d.get? id = c.get? id) : d.linearize roots = c.linearize roots :=
  visit_congr [] [] roots agree

theorem linearize_transfer {c d : Catalog} (walked : c.linearize roots = .ok order)
    (agree : ∀ id, c.Ancestral roots id → d.get? id = c.get? id) : d.linearize roots = .ok order :=
  (linearize_congr agree).trans walked

theorem above_parents {c : Catalog} {opened : List ProfileId} {id : ProfileId} {rest : List ProfileId}
    (found : c.get? id = some p) (above : ∀ i ∈ id :: rest, ∀ child ∈ opened, TransGen c.Inherits child i) :
    ∀ parent ∈ p.parents, ∀ child ∈ id :: opened, TransGen c.Inherits child parent := by
  intro parent isParent child isOpen
  have edge : c.Inherits id parent := ⟨p, found, isParent⟩
  rcases List.mem_cons.mp isOpen with rfl | older
  · exact .single edge
  · exact .tail (above id List.mem_cons_self child older) edge

-- Every open profile has what is still to be visited among its ancestors, so meeting an open one
-- again would close a cycle.
theorem visit_succeeds {c : Catalog} (opened : List ProfileId) (listed : List Profile) (ids : List ProfileId)
    (stored : ∀ id, c.Ancestral ids id → c.contains id)
    (acyclic : ∀ id, c.Ancestral ids id → ¬ TransGen c.Inherits id id)
    (above : ∀ id ∈ ids, ∀ child ∈ opened, TransGen c.Inherits child id) :
    ∃ order, c.visit opened listed ids = .ok order := by
  induction opened, listed, ids using visit.induct c with
  | case1 opened listed => exact ⟨listed, by rw [visit]⟩
  | case2 opened listed id rest old ih =>
      obtain ⟨order, walked⟩ := ih (fun i higher => stored i higher.later) (fun i higher => acyclic i higher.later)
        (fun i member => above i (.tail _ member))
      exact ⟨order, by rw [visit, if_pos old, walked]⟩
  | case3 opened listed id rest new isOpen =>
      exact absurd (above id List.mem_cons_self id isOpen) (acyclic id .root)
  | case4 opened listed id rest new unopened missing =>
      have present := stored id .root
      simp [Dict.contains, missing] at present
  | case5 opened listed id rest new unopened p found less e failed ih =>
      obtain ⟨order, walked⟩ := ih (fun i higher => stored i (higher.parent found))
        (fun i higher => acyclic i (higher.parent found)) (above_parents found above)
      rw [failed] at walked
      cases walked
  | case6 opened listed id rest new unopened p found less traced parents inside outside =>
      obtain ⟨order, walked⟩ := outside (fun i higher => stored i higher.later)
        (fun i higher => acyclic i higher.later) (fun i member => above i (.tail _ member))
      exact ⟨order, by rw [visit_fresh new unopened found, parents]; exact walked⟩
-- There is an answer exactly if all ancestors are stored and none inherits from itself.
theorem linearize_exists {c : Catalog} (keyed : c.Keyed) {roots : List ProfileId} :
    (∃ order, c.linearize roots = .ok order) ↔
      ∀ id, c.Ancestral roots id → c.contains id ∧ ¬ TransGen c.Inherits id id := by
  constructor
  · rintro ⟨order, walked⟩ id ancestral
    have ordered := linearize_ordered keyed walked
    have member := (mem_linearize keyed walked).mpr ancestral
    exact ⟨ordered.stored member, ordered.acyclic member⟩
  · intro sound
    exact visit_succeeds [] [] roots (fun id higher => (sound id higher).1) (fun id higher => (sound id higher).2)
      fun _ _ _ none => by cases none

theorem contains_of_ancestral {c : Catalog} (closed : c.Closed) {roots : List ProfileId}
    (stored : ∀ id ∈ roots, c.contains id) {id : ProfileId} (ancestral : c.Ancestral roots id) :
    c.contains id := by
  obtain ⟨root, isRoot, path⟩ := ancestral
  rcases path.cases_tail with rfl | ⟨child, _, edge⟩
  · exact stored _ isRoot
  · exact closed child id edge

theorem linearize_succeeds {c : Catalog} (closed : c.Closed) (acyclic : c.Acyclic) {roots : List ProfileId}
    (stored : ∀ id ∈ roots, c.contains id) : ∃ order, c.linearize roots = .ok order :=
  visit_succeeds [] [] roots (fun _ higher => contains_of_ancestral closed stored higher) (fun id _ => acyclic id)
    fun _ _ _ none => by cases none

end ContainerProfiles.Catalog
