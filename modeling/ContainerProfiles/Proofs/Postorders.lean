import ContainerProfiles.Proofs.Traversals
import Mathlib.Data.List.Nodup

namespace ContainerProfiles.Catalog

-- What a linearization is. `Postorder` is the depth-first order from left to right that remembers nothing but what
-- is listed, `Listing` says what such a list holds and in which order, and `Reported` what a refusal names.

open Relation

-- Each profile after its parents, and none twice. Nothing tells what is open, so a cycle has no order.
inductive Postorder (c : Catalog) : List Profile → List ProfileId → List Profile → Prop
  | done : Postorder c listed [] listed
  | again {id : ProfileId} : id ∈ identities listed → Postorder c listed rest order →
      Postorder c listed (id :: rest) order
  | fresh {id : ProfileId} : id ∉ identities listed → c.get? id = some p → Postorder c listed p.parents traced →
      Postorder c (traced ++ [p]) rest order → Postorder c listed (id :: rest) order

-- All that the profile inherits from is stored, and the way up comes to an end.
inductive Founded (c : Catalog) : ProfileId → Prop
  | intro {id : ProfileId} : c.get? id = some p → (∀ parent ∈ p.parents, Founded c parent) → Founded c id

namespace Founded

variable {c : Catalog} {id higher : ProfileId}

theorem stored (founded : Founded c id) : c.contains id := by
  cases founded with
  | intro found _ => exact Dict.contains_iff.mpr ⟨_, found⟩

theorem parent (founded : Founded c id) (edge : c.Inherits id higher) : Founded c higher := by
  cases founded with
  | intro found parents =>
      obtain ⟨p, found', declared⟩ := edge
      rw [found] at found'
      cases found'
      exact parents higher declared

theorem ancestor (founded : Founded c id) (path : ReflTransGen c.Inherits id higher) : Founded c higher := by
  induction path with
  | refl => exact founded
  | tail _ edge ih => exact ih.parent edge

-- A cycle through a profile runs through one of its parents, which is founded earlier.
theorem acyclic (founded : Founded c id) : ¬ TransGen c.Inherits id id := by
  induction founded with
  | intro found _ ih =>
      intro cycle
      obtain ⟨parent, edge, path⟩ := TransGen.head'_iff.mp cycle
      have turned : TransGen c.Inherits parent parent := TransGen.tail' path edge
      obtain ⟨q, found', declared⟩ := edge
      rw [found] at found'
      cases found'
      exact ih parent declared turned

end Founded

theorem Walk.postorder {c : Catalog} (walk : Walk c opened listed ids order) : Postorder c listed ids order := by
  induction walk with
  | done => exact .done
  | again old _ ih => exact .again old ih
  | fresh new _ found _ _ inside outside => exact .fresh new found inside outside

namespace Postorder

variable {c : Catalog} {listed order other : List Profile} {ids : List ProfileId}

theorem unique (ordered : Postorder c listed ids order) (again : Postorder c listed ids other) : order = other := by
  induction ordered generalizing other with
  | done =>
      cases again
      rfl
  | again old _ ih =>
      cases again with
      | again _ rest => exact ih rest
      | fresh new => exact absurd old new
  | fresh new found _ _ inside outside =>
      cases again with
      | again old => exact absurd old new
      | fresh _ found' parents rest =>
          rw [found] at found'
          cases found'
          cases inside parents
          exact outside rest

-- What is listed and what is asked for is founded: a profile is, once its parents are.
theorem founded (keyed : c.Keyed) (ordered : Postorder c listed ids order)
    (before : ∀ id ∈ identities listed, Founded c id) :
    (∀ id ∈ identities order, Founded c id) ∧ ∀ id ∈ ids, Founded c id := by
  induction ordered with
  | done => exact ⟨before, nofun⟩
  | again old _ ih => exact ⟨(ih before).1, List.forall_mem_cons.mpr ⟨before _ old, (ih before).2⟩⟩
  | @fresh listed p traced rest order id _ found _ _ inside outside =>
      obtain ⟨above, parents⟩ := inside before
      have here : Founded c id := .intro found parents
      have listed : ∀ i ∈ identities (traced ++ [p]), Founded c i := by
        intro i member
        rw [identities_append, List.mem_append, List.mem_singleton, keyed id p found] at member
        rcases member with earlier | rfl
        · exact above i earlier
        · exact here
      exact ⟨(outside listed).1, List.forall_mem_cons.mpr ⟨here, (outside listed).2⟩⟩

-- What is listed was listed before or is above what was asked for.
theorem ancestral (keyed : c.Keyed)
    (ordered : Postorder c listed ids order) : ∀ id ∈ identities order, id ∈ identities listed ∨ c.Ancestral ids id := by
  induction ordered with
  | done => exact fun _ member => .inl member
  | again _ _ ih => exact fun id member => (ih id member).imp_right Ancestral.later
  | @fresh listed p traced rest order first _ found _ _ inside outside =>
      intro id member
      rcases outside id member with old | above
      · rw [identities_append, List.mem_append, List.mem_singleton, keyed _ _ found] at old
        rcases old with below | rfl
        · exact (inside id below).imp_right fun above => above.parent found
        · exact .inr .root
      · exact .inr above.later

end Postorder

theorem linearize_eq_ok_iff_postorder {c : Catalog} (keyed : c.Keyed) {roots : List ProfileId} :
    c.linearize roots = .ok order ↔ Postorder c [] roots order := by
  constructor
  · exact fun walked => (linearize_eq_ok.mp walked).postorder
  · intro ordered
    have founded : ∀ id, c.Ancestral roots id → Founded c id := by
      rintro id ⟨root, isRoot, path⟩
      exact ((ordered.founded keyed nofun).2 root isRoot).ancestor path
    obtain ⟨walked, answer⟩ := (linearize_exists keyed).mpr fun id above =>
      ⟨(founded id above).stored, (founded id above).acyclic⟩
    rw [ordered.unique (linearize_eq_ok.mp answer).postorder]
    exact answer

structure Listing (c : Catalog) (roots : List ProfileId) (order : List Profile) : Prop where
  exactly : ∀ id, id ∈ identities order ↔ c.Ancestral roots id
  once : (identities order).Nodup
  stored : ∀ p ∈ order, c.get? p.identity = some p
  parentsFirst : ∀ before p after, order = before ++ p :: after → p.parents ⊆ identities before

namespace Ordered

variable {c : Catalog} {order : List Profile}

theorem once (ordered : Ordered c order) : (identities order).Nodup := by
  induction ordered with
  | nil => exact .nil
  | snoc _ _ new _ ih =>
      rw [identities_append]
      exact List.Nodup.append ih (List.nodup_singleton _) (List.disjoint_singleton.mpr new)

theorem found (ordered : Ordered c order) : ∀ p ∈ order, c.get? p.identity = some p := by
  induction ordered with
  | nil => exact nofun
  | snoc _ found _ _ ih =>
      intro q member
      rcases List.mem_append.mp member with old | last
      · exact ih q old
      · rw [List.mem_singleton.mp last]
        exact found

theorem parents_before (ordered : Ordered c order) :
    ∀ before p after, order = before ++ p :: after → p.parents ⊆ identities before := by
  induction ordered with
  | nil => exact fun before p after parts => by simp at parts
  | snoc _ _ _ parents ih =>
      intro before q after parts
      rcases List.eq_nil_or_concat after with rfl | ⟨after, r, rfl⟩
      · obtain ⟨rfl, same⟩ := List.append_inj' parts rfl
        cases same
        exact parents
      · rw [List.concat_eq_append, ← List.cons_append, ← List.append_assoc] at parts
        exact ih before q after (List.append_inj' parts rfl).1

end Ordered

theorem listing_of_linearize {c : Catalog} (keyed : c.Keyed) {roots : List ProfileId}
    (walked : c.linearize roots = .ok order) : c.Listing roots order where
  exactly := fun _ => mem_linearize keyed walked
  once := (linearize_ordered keyed walked).once
  stored := (linearize_ordered keyed walked).found
  parentsFirst := (linearize_ordered keyed walked).parents_before

-- The edge lies on a cycle above the roots, or the identity is named there and not stored.
def Reported (c : Catalog) (version : Version) (roots : List ProfileId) : OperationError → Prop
  | .obstacle (.cycle v child parent) => v = version ∧ c.Ancestral roots child ∧ c.Inherits child parent ∧
      ReflTransGen c.Inherits parent child
  | .profileNotFound v id => v = version ∧ c.get? id = none ∧
      (id ∈ roots ∨ ∃ child, c.Ancestral roots child ∧ c.Inherits child id)
  | _ => False

theorem Halt.reported {c : Catalog} {roots : List ProfileId} (halt : Halt c [] [] roots e) (version : Version) :
    c.Reported version roots (.ofLineage version e) := by
  have blames := halt.blames .start
  cases e with
  | cycle child parent =>
      obtain ⟨who, edge, back⟩ := blames
      exact ⟨rfl, who.resolve_left nofun, edge, back⟩
  | missing id => exact ⟨rfl, blames⟩

structure Linearized (c : Catalog) (version : Version) (roots : List ProfileId) : Prop where
  ends : Traversal.Ends c { pending := roots } (c.linearize roots)
  succeeds : (∃ order, c.linearize roots = .ok order) ↔
    ∀ id, c.Ancestral roots id → c.contains id ∧ ¬ TransGen c.Inherits id id
  postorder : ∀ order, c.linearize roots = .ok order ↔ Postorder c [] roots order
  listing : ∀ order, c.linearize roots = .ok order → c.Listing roots order
  -- The walk stops at the first edge or identity that stands against it.
  halts : ∀ e, c.linearize roots = .error e ↔ Halt c [] [] roots e
  reported : ∀ e, c.linearize roots = .error e → c.Reported version roots (.ofLineage version e)

theorem linearize_in_postorder {c : Catalog} (keyed : c.Keyed) (version : Version) (roots : List ProfileId) :
    c.Linearized version roots where
  ends := Traversal.ends_linearize keyed roots
  succeeds := linearize_exists keyed
  postorder := fun _ => linearize_eq_ok_iff_postorder keyed
  listing := fun _ walked => listing_of_linearize keyed walked
  halts := fun _ => linearize_eq_error
  reported := fun _ failed => (linearize_eq_error.mp failed).reported version

-- A root listed to the end, then a cycle of two that is entered from the side.
def sideways : Catalog := .ofProfiles [
  { identity := "base", version := .first },
  { identity := "web", version := .first, parents := ["base", "base"] },
  { identity := "site", version := .first, parents := ["web", "left"] },
  { identity := "left", version := .first, parents := ["right"] },
  { identity := "right", version := .first, parents := ["base", "left"] }]

theorem linearize_in_postorder_sideways : sideways.Keyed ∧ sideways.Linearized .first ["web", "site"] ∧
    sideways.linearize ["web", "site"] = .error (.cycle "right" "left") := by
  have keyed : sideways.Keyed := fun id p found => (get?_ofProfiles found).2
  have linearized := linearize_in_postorder keyed .first ["web", "site"]
  refine ⟨keyed, linearized, (linearized.halts _).mpr ?_⟩
  have base : Walk sideways ["web"] [] ["base", "base"] [{ identity := "base", version := .first }] :=
    .fresh (by decide) (by decide) rfl .done (.again (by decide) .done)
  refine .beside (by decide) (by decide) rfl base ?_
  refine .above (by decide) (by decide) rfl (.again (by decide) ?_)
  refine .above (by decide) (by decide) rfl (.above (by decide) (by decide) rfl (.again (by decide) ?_))
  exact .closing (by decide) (by decide)

end ContainerProfiles.Catalog
