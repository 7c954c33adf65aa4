import ContainerProfiles.Proofs.Runs

namespace ContainerProfiles

-- The tree of containers. Whose child a container is and which children it has is written down at both ends; only
-- creating and destroying touch it.

open Relation

-- All that ties a container to others.
def Container.place (c : Container) : ContainerId × Option ContainerId × KeySet ContainerId :=
  (c.identity, c.parent, c.children)

namespace ContainerRegistry

variable {r q : ContainerRegistry}

def ChildOf (r : ContainerRegistry) (child parent : ContainerId) : Prop :=
  ∃ c, r.live.get? child = some c ∧ c.parent = some parent

def Lists (r : ContainerRegistry) (parent child : ContainerId) : Prop :=
  ∃ p, r.live.get? parent = some p ∧ p.children.contains child

-- From parent to parent the way leads to `root`, and no further.
def RootOf (r : ContainerRegistry) (id root : ContainerId) : Prop :=
  ReflTransGen r.ChildOf id root ∧ ∃ c, r.live.get? root = some c ∧ c.parent = none

structure Forest (r : ContainerRegistry) : Prop where
  keyed : ∀ id c, r.live.get? id = some c → c.identity = id
  linked : ∀ child parent, r.ChildOf child parent ↔ r.Lists parent child
  rooted : ∀ id c, r.live.get? id = some c → ∃ root, r.RootOf id root
  apart : ∀ id, r.contains id → r.isDestroyed id = false

theorem forest_empty : Forest {} := by
  refine ⟨?_, fun child parent => ⟨?_, ?_⟩, ?_, ?_⟩
  · intro id c live
    cases live
  · rintro ⟨_, live, _⟩
    cases live
  · rintro ⟨_, live, _⟩
    cases live
  · intro id c live
    cases live
  · intro id live
    cases live

structure SamePlaces (r q : ContainerRegistry) : Prop where
  places : ∀ id, (q.live.get? id).map Container.place = (r.live.get? id).map Container.place
  destroyed : q.destroyed = r.destroyed

theorem SamePlaces.symm (same : SamePlaces r q) : SamePlaces q r :=
  ⟨fun id => (same.places id).symm, same.destroyed.symm⟩

theorem SamePlaces.live (same : SamePlaces r q) {id : ContainerId} {c : Container}
    (live : q.live.get? id = some c) : ∃ old, r.live.get? id = some old ∧ old.place = c.place := by
  have place := same.places id
  rw [live] at place
  exact Option.map_eq_some_iff.mp place.symm

theorem SamePlaces.childOf (same : SamePlaces r q) {child parent : ContainerId} :
    q.ChildOf child parent ↔ r.ChildOf child parent := by
  have carried : ∀ {r q : ContainerRegistry}, SamePlaces r q → q.ChildOf child parent →
      r.ChildOf child parent := by
    rintro r q same ⟨c, live, up⟩
    obtain ⟨old, before, place⟩ := same.live live
    exact ⟨old, before, (congrArg (·.2.1) place).trans up⟩
  exact ⟨carried same, carried same.symm⟩

theorem SamePlaces.lists (same : SamePlaces r q) {child parent : ContainerId} :
    q.Lists parent child ↔ r.Lists parent child := by
  have carried : ∀ {r q : ContainerRegistry}, SamePlaces r q → q.Lists parent child →
      r.Lists parent child := by
    rintro r q same ⟨p, live, listed⟩
    obtain ⟨old, before, place⟩ := same.live live
    have children : old.children = p.children := congrArg (·.2.2) place
    exact ⟨old, before, children ▸ listed⟩
  exact ⟨carried same, carried same.symm⟩

theorem Forest.same (forest : r.Forest) (same : SamePlaces r q) : q.Forest := by
  refine ⟨fun id c live => ?_, fun child parent => ?_, fun id c live => ?_, fun id present => ?_⟩
  · obtain ⟨old, before, place⟩ := same.live live
    exact (congrArg (·.1) place).symm.trans (forest.keyed id old before)
  · rw [same.childOf, same.lists, forest.linked]
  · obtain ⟨old, before, _⟩ := same.live live
    obtain ⟨root, path, top, found, alone⟩ := forest.rooted id old before
    obtain ⟨top', found', place⟩ := same.symm.live found
    refine ⟨root, ReflTransGen.mono (fun _ _ => same.childOf.mpr) _ _ path, top', found', ?_⟩
    exact (congrArg (·.2.1) place).trans alone
  · obtain ⟨c, live⟩ := Dict.contains_iff.mp present
    obtain ⟨old, before, _⟩ := same.live live
    have clear := forest.apart id (Dict.contains_iff.mpr ⟨old, before⟩)
    unfold isDestroyed at clear ⊢
    rw [same.destroyed, clear]

theorem modify_destroyed (r : ContainerRegistry) (id : ContainerId) (change : Container → Container) :
    (r.modify id change).destroyed = r.destroyed := by
  unfold modify
  split <;> rfl

theorem samePlaces_modify {id : ContainerId} {change : Container → Container}
    (stays : ∀ c, r.live.get? id = some c → (change c).place = c.place) :
    SamePlaces r (r.modify id change) := by
  refine ⟨fun other => ?_, r.modify_destroyed id change⟩
  rw [get?_modify]
  split
  · rename_i same
    subst same
    cases live : r.live.get? other with
    | none => rfl
    | some c => exact congrArg some (stays c live)
  · rfl

def relinked (r : ContainerRegistry) (change : KeySet ContainerId → KeySet ContainerId)
    (parent : Option ContainerId) : ContainerRegistry :=
  parent.elim r fun p => r.modify p fun c => { c with children := change c.children }

theorem linkChild_eq (r : ContainerRegistry) (child : ContainerId) (parent : Option ContainerId) :
    Deployment.linkChild r child parent = r.relinked (KeySet.add · child) parent := by
  cases parent <;> rfl

theorem unlinkChild_eq (r : ContainerRegistry) (child : ContainerId) (parent : Option ContainerId) :
    Deployment.unlinkChild r child parent = r.relinked (·.erase child) parent := by
  cases parent <;> rfl

theorem get?_relinked (r : ContainerRegistry) (change : KeySet ContainerId → KeySet ContainerId)
    (parent : Option ContainerId) (id : ContainerId) :
    (r.relinked change parent).live.get? id = (r.live.get? id).map (fun c =>
      { c with children := if parent = some id then change c.children else c.children }) := by
  cases parent with
  | none => simp [relinked]
  | some p =>
      change (r.modify p _).live.get? id = _
      rw [get?_modify]
      by_cases same : id = p
      · simp [same]
      · simp [same, Ne.symm same]

theorem relinked_destroyed (r : ContainerRegistry) (change : KeySet ContainerId → KeySet ContainerId)
    (parent : Option ContainerId) : (r.relinked change parent).destroyed = r.destroyed := by
  cases parent with
  | none => rfl
  | some p => exact r.modify_destroyed p _

-- A new container under one that is there, or under none.
def planted (r : ContainerRegistry) (c : Container) : ContainerRegistry :=
  Deployment.linkChild { live := r.live.insert c.identity c, destroyed := r.destroyed.erase c.identity }
    c.identity c.parent

section Planted

variable {c : Container} (absent : r.live.get? c.identity = none) (childless : c.children = ∅)
  (attached : ∀ p, c.parent = some p → ∃ d, r.live.get? p = some d)

theorem get?_planted_other {id : ContainerId} (other : id ≠ c.identity) :
    (r.planted c).live.get? id = (r.live.get? id).map (fun d =>
      { d with children := if c.parent = some id then KeySet.add d.children c.identity else d.children }) := by
  unfold planted
  rw [linkChild_eq, get?_relinked, Dict.get?_insert, if_neg other]

theorem live_planted_other {id : ContainerId} (other : id ≠ c.identity) {d : Container}
    (live : (r.planted c).live.get? id = some d) :
    ∃ old, r.live.get? id = some old ∧ d.identity = old.identity ∧ d.parent = old.parent := by
  rw [get?_planted_other other] at live
  obtain ⟨old, before, rfl⟩ := Option.map_eq_some_iff.mp live
  exact ⟨old, before, rfl, rfl⟩

theorem stays_planted {id : ContainerId} (other : id ≠ c.identity) {old : Container}
    (live : r.live.get? id = some old) :
    ∃ d, (r.planted c).live.get? id = some d ∧ d.parent = old.parent :=
  ⟨_, (get?_planted_other other).trans (Option.map_eq_some_iff.mpr ⟨old, live, rfl⟩), rfl⟩

theorem apart_planted (forest : r.Forest) {id : ContainerId} (present : (r.planted c).contains id) :
    (r.planted c).isDestroyed id = false := by
  unfold isDestroyed
  rw [← Bool.not_eq_true]
  intro gone
  unfold planted at gone
  rw [linkChild_eq, relinked_destroyed] at gone
  obtain ⟨other, before⟩ := Dict.contains_erase.mp gone
  obtain ⟨d, live⟩ := Dict.contains_iff.mp present
  obtain ⟨old, was, _⟩ := live_planted_other other live
  have clear := forest.apart id (Dict.contains_iff.mpr ⟨old, was⟩)
  unfold isDestroyed at clear
  rw [clear] at before
  cases before

include absent attached

theorem unattached : c.parent ≠ some c.identity := by
  intro own
  obtain ⟨d, live⟩ := attached _ own
  rw [absent] at live
  cases live

theorem get?_planted_self : (r.planted c).live.get? c.identity = some c := by
  unfold planted
  rw [linkChild_eq, get?_relinked, Dict.get?_insert, if_pos rfl, Option.map_some,
    if_neg (unattached absent attached)]

theorem childOf_planted {child parent : ContainerId} :
    (r.planted c).ChildOf child parent ↔
      child = c.identity ∧ c.parent = some parent ∨ r.ChildOf child parent := by
  by_cases new : child = c.identity
  · subst new
    have fresh : ¬ r.ChildOf c.identity parent := by
      rintro ⟨d, live, _⟩
      rw [absent] at live
      cases live
    constructor
    · rintro ⟨d, found, up⟩
      cases (get?_planted_self absent attached).symm.trans found
      exact .inl ⟨rfl, up⟩
    · rintro (⟨_, up⟩ | old)
      · exact ⟨c, get?_planted_self absent attached, up⟩
      · exact absurd old fresh
  · constructor
    · rintro ⟨d, found, up⟩
      obtain ⟨old, live, _, same⟩ := live_planted_other new found
      exact .inr ⟨old, live, same.symm.trans up⟩
    · rintro (⟨same, _⟩ | ⟨old, live, up⟩)
      · exact absurd same new
      · obtain ⟨d, found, same⟩ := stays_planted new live
        exact ⟨d, found, same.trans up⟩

-- A root stays one: what is added below it is no parent.
theorem rooted_planted (forest : r.Forest) {id : ContainerId} {d : Container} (live : r.live.get? id = some d) :
    ∃ root, (r.planted c).RootOf id root := by
  obtain ⟨root, path, top, found, alone⟩ := forest.rooted id d live
  have other : root ≠ c.identity := by
    intro same
    rw [same, absent] at found
    cases found
  obtain ⟨top', found', same⟩ := stays_planted other found
  exact ⟨root, ReflTransGen.mono (fun _ _ edge => (childOf_planted absent attached).mpr (.inr edge)) _ _ path,
    top', found', same.trans alone⟩

include childless

theorem lists_planted {child parent : ContainerId} :
    (r.planted c).Lists parent child ↔
      child = c.identity ∧ c.parent = some parent ∨ r.Lists parent child := by
  by_cases new : parent = c.identity
  · subst new
    have fresh : ¬ r.Lists c.identity child := by
      rintro ⟨d, live, _⟩
      rw [absent] at live
      cases live
    constructor
    · rintro ⟨d, found, listed⟩
      cases (get?_planted_self absent attached).symm.trans found
      rw [childless] at listed
      cases listed
    · rintro (⟨_, own⟩ | old)
      · exact absurd own (unattached absent attached)
      · exact absurd old fresh
  · unfold Lists
    rw [get?_planted_other new]
    constructor
    · rintro ⟨d, found, listed⟩
      obtain ⟨old, live, rfl⟩ := Option.map_eq_some_iff.mp found
      dsimp only at listed
      split at listed
      · rename_i up
        rcases Dict.contains_insert.mp listed with same | before
        · exact .inl ⟨same, up⟩
        · exact .inr ⟨old, live, before⟩
      · exact .inr ⟨old, live, listed⟩
    · rintro (⟨same, up⟩ | ⟨old, live, before⟩)
      · obtain ⟨old, live⟩ := attached parent up
        refine ⟨_, Option.map_eq_some_iff.mpr ⟨old, live, rfl⟩, ?_⟩
        rw [if_pos up]
        exact Dict.contains_insert.mpr (.inl same)
      · refine ⟨_, Option.map_eq_some_iff.mpr ⟨old, live, rfl⟩, ?_⟩
        dsimp only
        split
        · exact Dict.contains_insert.mpr (.inr before)
        · exact before

theorem Forest.plant (forest : r.Forest) : (r.planted c).Forest := by
  refine ⟨fun id d live => ?_, fun child parent => ?_, fun id d live => ?_, fun id => apart_planted forest⟩
  · by_cases new : id = c.identity
    · subst new
      cases (get?_planted_self absent attached).symm.trans live
      rfl
    · obtain ⟨old, before, same, _⟩ := live_planted_other new live
      exact same.trans (forest.keyed id old before)
  · rw [childOf_planted absent attached, lists_planted absent childless attached, forest.linked]
  · by_cases new : id = c.identity
    · subst new
      cases up : c.parent with
      | none => exact ⟨c.identity, .refl, c, get?_planted_self absent attached, up⟩
      | some p =>
          obtain ⟨q, there⟩ := attached p up
          obtain ⟨root, path, top⟩ := rooted_planted absent attached forest there
          exact ⟨root, .head ⟨c, get?_planted_self absent attached, up⟩ path, top⟩
    · obtain ⟨old, before, _⟩ := live_planted_other new live
      exact rooted_planted absent attached forest before

end Planted

def felled (r : ContainerRegistry) (c : Container) : ContainerRegistry :=
  Deployment.unlinkChild (r.remove c.identity) c.identity c.parent

section Felled

variable {c : Container}

theorem felled_self : (r.felled c).live.get? c.identity = none := by
  unfold felled
  rw [unlinkChild_eq, get?_relinked, get?_remove, if_pos rfl, Option.map_none]

theorem get?_felled_other {id : ContainerId} (other : id ≠ c.identity) :
    (r.felled c).live.get? id = (r.live.get? id).map (fun d =>
      { d with children := if c.parent = some id then d.children.erase c.identity else d.children }) := by
  unfold felled
  rw [unlinkChild_eq, get?_relinked, get?_remove, if_neg other]

theorem live_felled {id : ContainerId} {d : Container} (live : (r.felled c).live.get? id = some d) :
    id ≠ c.identity ∧ ∃ old, r.live.get? id = some old ∧ d.identity = old.identity ∧ d.parent = old.parent := by
  have other : id ≠ c.identity := by
    rintro rfl
    cases felled_self.symm.trans live
  rw [get?_felled_other other] at live
  obtain ⟨old, before, rfl⟩ := Option.map_eq_some_iff.mp live
  exact ⟨other, old, before, rfl, rfl⟩

theorem stays_felled {id : ContainerId} (other : id ≠ c.identity) {old : Container}
    (live : r.live.get? id = some old) :
    ∃ d, (r.felled c).live.get? id = some d ∧ d.parent = old.parent :=
  ⟨_, (get?_felled_other other).trans (Option.map_eq_some_iff.mpr ⟨old, live, rfl⟩), rfl⟩

theorem childOf_felled {child parent : ContainerId} :
    (r.felled c).ChildOf child parent ↔ child ≠ c.identity ∧ r.ChildOf child parent := by
  constructor
  · rintro ⟨d, found, up⟩
    obtain ⟨other, old, live, _, same⟩ := live_felled found
    exact ⟨other, old, live, same.symm.trans up⟩
  · rintro ⟨other, old, live, up⟩
    obtain ⟨d, found, same⟩ := stays_felled other live
    exact ⟨d, found, same.trans up⟩

theorem apart_felled (forest : r.Forest) {id : ContainerId} (present : (r.felled c).contains id) :
    (r.felled c).isDestroyed id = false := by
  obtain ⟨d, found⟩ := Dict.contains_iff.mp present
  obtain ⟨other, old, before, _⟩ := live_felled found
  have clear := forest.apart id (Dict.contains_iff.mpr ⟨old, before⟩)
  unfold isDestroyed felled at *
  rw [unlinkChild_eq, relinked_destroyed]
  unfold remove
  split
  · rw [← Bool.not_eq_true]
    intro again
    rcases Dict.contains_insert.mp again with same | before
    · exact other same
    · rw [clear] at before
      cases before
  · exact clear

variable (forest : r.Forest) (live : r.live.get? c.identity = some c) (childless : c.children = ∅)

include forest live childless

theorem Forest.not_childOf_childless (child : ContainerId) : ¬ r.ChildOf child c.identity := by
  intro edge
  obtain ⟨p, found, listed⟩ := (forest.linked _ _).mp edge
  cases live.symm.trans found
  rw [childless] at listed
  cases listed

theorem lists_felled {child parent : ContainerId} :
    (r.felled c).Lists parent child ↔ child ≠ c.identity ∧ r.Lists parent child := by
  by_cases gone : parent = c.identity
  · subst gone
    constructor
    · rintro ⟨d, found, _⟩
      cases felled_self.symm.trans found
    · rintro ⟨_, listed⟩
      exact absurd ((forest.linked _ _).mpr listed) (forest.not_childOf_childless live childless child)
  · unfold Lists
    rw [get?_felled_other gone]
    constructor
    · rintro ⟨d, found, listed⟩
      obtain ⟨old, before, rfl⟩ := Option.map_eq_some_iff.mp found
      dsimp only at listed
      split at listed
      · obtain ⟨other, kept⟩ := Dict.contains_erase.mp listed
        exact ⟨other, old, before, kept⟩
      · rename_i apart
        refine ⟨?_, old, before, listed⟩
        rintro rfl
        obtain ⟨d, found, up⟩ := (forest.linked _ _).mpr ⟨old, before, listed⟩
        cases live.symm.trans found
        exact apart up
    · rintro ⟨other, old, before, listed⟩
      refine ⟨_, Option.map_eq_some_iff.mpr ⟨old, before, rfl⟩, ?_⟩
      dsimp only
      split
      · exact Dict.contains_erase.mpr ⟨other, listed⟩
      · exact listed

-- No line of parents leads through what has no children.
theorem rootOf_felled {id root : ContainerId} (path : r.RootOf id root) (other : id ≠ c.identity) :
    (r.felled c).RootOf id root := by
  obtain ⟨path, top, found, alone⟩ := path
  have parted : ∀ child, ¬ r.ChildOf child c.identity := forest.not_childOf_childless live childless
  have remains : root ≠ c.identity := by
    rintro rfl
    rcases path.cases_tail with same | ⟨child, _, edge⟩
    · exact other same.symm
    · exact parted child edge
  obtain ⟨top', found', same⟩ := stays_felled remains found
  refine ⟨?_, top', found', same.trans alone⟩
  induction path using ReflTransGen.head_induction_on with
  | refl => exact .refl
  | @head a b edge _ ih =>
      have next : b ≠ c.identity := by
        rintro rfl
        exact parted a edge
      exact .head (childOf_felled.mpr ⟨other, edge⟩) (ih next)

theorem Forest.fell : (r.felled c).Forest := by
  refine ⟨fun id d found => ?_, fun child parent => ?_, fun id d found => ?_, fun id => apart_felled forest⟩
  · obtain ⟨_, old, before, same, _⟩ := live_felled found
    exact same.trans (forest.keyed id old before)
  · rw [childOf_felled, lists_felled forest live childless, forest.linked]
  · obtain ⟨other, old, before, _⟩ := live_felled found
    obtain ⟨root, path⟩ := forest.rooted id old before
    exact ⟨root, rootOf_felled forest live childless path other⟩

end Felled
end ContainerRegistry
end ContainerProfiles
