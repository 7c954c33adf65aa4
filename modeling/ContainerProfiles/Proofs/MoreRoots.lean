import ContainerProfiles.Proofs.Checks
import ContainerProfiles.Proofs.Merging
import ContainerProfiles.Proofs.Postorders

namespace ContainerProfiles

-- A linearization with more roots.

open Relation

namespace Catalog

variable {c : Catalog} {opened : List ProfileId} {listed order : List Profile} {ids roots more : List ProfileId}

theorem Walk.extends (walk : Walk c opened listed ids order) : ∃ added, order = listed ++ added := by
  induction walk with
  | done => exact ⟨[], (List.append_nil _).symm⟩
  | again _ _ ih => exact ih
  | @fresh _ _ p _ _ _ _ _ _ _ _ _ inside outside =>
      obtain ⟨above, rfl⟩ := inside
      obtain ⟨beside, rfl⟩ := outside
      exact ⟨above ++ [p] ++ beside, by simp only [List.append_assoc]⟩

theorem Walk.split (walk : Walk c opened listed (ids ++ more) order) :
    ∃ between, Walk c opened listed ids between ∧ Walk c opened between more order := by
  induction ids generalizing listed with
  | nil => exact ⟨listed, .done, walk⟩
  | cons id rest ih =>
      cases walk with
      | again old walk =>
          obtain ⟨between, one, two⟩ := ih walk
          exact ⟨between, .again old one, two⟩
      | fresh new unopened found parents walk =>
          obtain ⟨between, one, two⟩ := ih walk
          exact ⟨between, .fresh new unopened found parents one, two⟩

theorem Walk.append {between : List Profile} (one : Walk c opened listed ids between)
    (two : Walk c opened between more order) : Walk c opened listed (ids ++ more) order := by
  induction one with
  | done => exact two
  | again old _ ih => exact .again old (ih two)
  | fresh new unopened found parents _ _ outside => exact .fresh new unopened found parents (outside two)

theorem Walk.idle (old : ∀ id ∈ ids, id ∈ identities listed) : Walk c opened listed ids listed := by
  induction ids with
  | nil => exact .done
  | cons id rest ih => exact .again (old id List.mem_cons_self) (ih fun i later => old i (.tail _ later))

theorem Halt.append (halt : Halt c opened listed ids e) (more : List ProfileId) :
    Halt c opened listed (ids ++ more) e := by
  induction halt with
  | closing new isOpen => exact .closing new isOpen
  | absent new unopened missing => exact .absent new unopened missing
  | again old _ ih => exact .again old ih
  | above new unopened found inner _ => exact .above new unopened found inner
  | beside new unopened found parents _ ih => exact .beside new unopened found parents ih

theorem ancestral_append {id : ProfileId} :
    c.Ancestral (roots ++ more) id ↔ c.Ancestral roots id ∨ c.Ancestral more id := by
  simp only [Ancestral, List.mem_append, or_and_right, exists_or]

-- What further roots add is what they bring that was not there.
theorem linearize_added (keyed : c.Keyed) {whole : List Profile} (walked : c.linearize (roots ++ more) = .ok whole) :
    ∃ order added, c.linearize roots = .ok order ∧ whole = order ++ added ∧
      ∀ id, id ∈ identities added ↔ c.Ancestral more id ∧ ¬ c.Ancestral roots id := by
  obtain ⟨order, one, two⟩ := (linearize_eq_ok.mp walked).split
  obtain ⟨added, rfl⟩ := two.extends
  have first : c.linearize roots = .ok order := linearize_eq_ok.mpr one
  refine ⟨order, added, first, rfl, fun id => ?_⟩
  have once : (identities order ++ identities added).Nodup := by
    rw [← List.map_append]
    exact (linearize_ordered keyed walked).once
  have all : id ∈ identities order ∨ id ∈ identities added ↔ c.Ancestral roots id ∨ c.Ancestral more id := by
    rw [← List.mem_append, ← List.map_append, mem_linearize keyed walked, ancestral_append]
  have old : id ∈ identities order ↔ c.Ancestral roots id := mem_linearize keyed first
  constructor
  · intro member
    have new : ¬ c.Ancestral roots id := by
      intro above
      exact (List.nodup_append.mp once).2.2 id (old.mpr above) id member rfl
    exact ⟨(all.mp (.inr member)).resolve_left new, new⟩
  · rintro ⟨above, new⟩
    exact (all.mpr (.inr above)).resolve_left fun member => new (old.mp member)

theorem linearize_listed (walked : c.linearize roots = .ok order) (listed : more ⊆ identities order) :
    c.linearize (roots ++ more) = .ok order :=
  linearize_eq_ok.mpr ((linearize_eq_ok.mp walked).append (.idle listed))

theorem linearize_inherited (keyed : c.Keyed) (inherited : ∀ id ∈ more, c.Ancestral roots id) :
    c.linearize (roots ++ more) = c.linearize roots := by
  cases walked : c.linearize roots with
  | ok order => exact linearize_listed walked fun id member => (mem_linearize keyed walked).mpr (inherited id member)
  | error e => exact linearize_eq_error.mpr ((linearize_eq_error.mp walked).append more)

-- Every profile stands behind its parents, so each is listed as soon as it is met.
theorem Ordered.walk (ordered : Ordered c order) : Walk c [] [] (identities order) order := by
  induction ordered with
  | nil => exact .done
  | snoc _ found new parents ih =>
      rw [identities_append]
      exact ih.append (.fresh new List.not_mem_nil found (.idle parents) .done)

end Catalog

namespace Profile

-- The name of a merged profile is no part of what is merged.
theorem merge_renamed (identity other : ProfileId) (version : Version) (order : List Profile) :
    merge identity version order = { merge other version order with identity } := by
  rw [merge, merge, foldl_overlay, foldl_overlay]

end Profile

namespace Container

-- Assigning appends, and nothing but what was asked for.
theorem addProfiles_extends (c : Container) (ids : List ProfileId) :
    ∃ more, more ⊆ ids ∧ (c.addProfiles ids).profiles = c.profiles ++ more := by
  unfold addProfiles
  induction ids generalizing c with
  | nil => exact ⟨[], List.Subset.refl _, (List.append_nil _).symm⟩
  | cons id rest ih =>
      rw [List.foldl_cons]
      split
      · obtain ⟨more, asked, extended⟩ := ih c
        exact ⟨more, List.subset_cons_of_subset id asked, extended⟩
      · obtain ⟨more, asked, extended⟩ := ih { c with profiles := c.profiles ++ [id] }
        exact ⟨id :: more, List.cons_subset_cons id asked, extended.trans (List.append_assoc _ _ _)⟩

end Container

namespace Deployment

variable {s : Deployment} {me : Thread} {v : Version} {roots more ids : List ProfileId} {order : List Profile}

theorem order_listed (answered : s.order me v roots = .ok order) (listed : more ⊆ Catalog.identities order) :
    s.order me v (roots ++ more) = .ok order := by
  simp only [Deployment.order, bind_eq_ok] at answered ⊢
  obtain ⟨_, permitted, state, loaded, walked⟩ := answered
  refine ⟨(), permitted, state, loaded, ?_⟩
  exact VersionState.linearize_eq_ok.mpr (Catalog.linearize_listed (VersionState.linearize_eq_ok.mp walked) listed)

theorem lineage_eq_ok :
    s.lineage me v roots = .ok ids ↔ ∃ order, s.order me v roots = .ok order ∧ Catalog.identities order = ids := by
  simp only [Deployment.lineage, bind_eq_ok, pure_eq_ok, Catalog.identities]

theorem effectiveFor_of_order (walked : s.order me v roots = .ok order) :
    s.effectiveFor me v roots = .ok (Profile.merge (Profile.effectiveIdentityFor v roots) v order) := by
  rw [effectiveFor, walked]
  rfl

theorem order_of_walk {state : VersionState} (permitted : s.permitVersion me v .read = .ok ())
    (loaded : s.load v = .ok state) (walk : Catalog.Walk state.profiles [] [] roots order) :
    s.order me v roots = .ok order := by
  refine bind_eq_ok.mpr ⟨(), permitted, bind_eq_ok.mpr ⟨state, loaded, ?_⟩⟩
  exact VersionState.linearize_eq_ok.mpr (Catalog.linearize_eq_ok.mpr walk)

theorem effectiveFor_of_walk {state : VersionState} (permitted : s.permitVersion me v .read = .ok ())
    (loaded : s.load v = .ok state) (walk : Catalog.Walk state.profiles [] [] roots order) :
    s.effectiveFor me v roots = .ok (Profile.merge (Profile.effectiveIdentityFor v roots) v order) :=
  effectiveFor_of_order (order_of_walk permitted loaded walk)

-- The answers for the second list are those for the first, under the name of the second.
structure AnswersAlike (s : Deployment) (me : Thread) (v : Version) (before after ids : List ProfileId) : Prop where
  lineage : s.lineage me v after = .ok ids
  effective : ∃ p, s.effectiveFor me v before = .ok p ∧
    s.effectiveFor me v after = .ok { p with identity := Profile.effectiveIdentityFor v after }

theorem answersAlike_of_lineage (answered : s.lineage me v roots = .ok ids) (listed : more ⊆ ids) :
    s.AnswersAlike me v roots (roots ++ more) ids := by
  obtain ⟨order, walked, rfl⟩ := lineage_eq_ok.mp answered
  have again : s.order me v (roots ++ more) = .ok order := order_listed walked listed
  refine ⟨lineage_eq_ok.mpr ⟨order, again, rfl⟩, _, effectiveFor_of_order walked, ?_⟩
  rw [effectiveFor_of_order again, Profile.merge_renamed _ (Profile.effectiveIdentityFor v roots)]

theorem answersAlike_of_assigned {c : Container} (answered : s.lineage me v c.profiles = .ok ids)
    (listed : more ⊆ ids) :
    s.AnswersAlike me v c.profiles (c.addProfiles more).profiles ids := by
  obtain ⟨added, asked, extended⟩ := c.addProfiles_extends more
  rw [extended]
  exact answersAlike_of_lineage answered (List.Subset.trans asked listed)

end Deployment

namespace Catalog

structure Extending (c : Catalog) (roots more : List ProfileId) : Prop where
  added : ∀ whole, c.linearize (roots ++ more) = .ok whole → ∃ order added, c.linearize roots = .ok order ∧
    whole = order ++ added ∧ ∀ id, id ∈ identities added ↔ c.Ancestral more id ∧ ¬ c.Ancestral roots id
  inherited : (∀ id ∈ more, c.Ancestral roots id) → c.linearize (roots ++ more) = c.linearize roots
  served : ∀ (s : Deployment) me v ids, s.lineage me v roots = .ok ids → more ⊆ ids →
    s.AnswersAlike me v roots (roots ++ more) ids
  assigned : ∀ (s : Deployment) me v ids (holder : Container), holder.profiles = roots →
    s.lineage me v roots = .ok ids → more ⊆ ids → s.AnswersAlike me v roots (holder.addProfiles more).profiles ids
  again : ∀ order, c.linearize roots = .ok order → c.linearize (identities order) = .ok order

theorem linearize_extends {c : Catalog} (keyed : c.Keyed) (roots more : List ProfileId) : c.Extending roots more where
  added := fun _ walked => linearize_added keyed walked
  inherited := linearize_inherited keyed
  served := fun _ _ _ _ => Deployment.answersAlike_of_lineage
  assigned := by
    rintro s me v ids holder rfl answered listed
    exact Deployment.answersAlike_of_assigned answered listed
  again := fun _ walked => linearize_eq_ok.mpr (linearize_ordered keyed walked).walk

-- Two ways up from the last profile, of which the first root has gone one.
def diamond : List Profile := [
  { identity := "base", version := .first },
  { identity := "left", version := .first, parents := ["base"] },
  { identity := "right", version := .first, parents := ["base"] },
  { identity := "site", version := .first, parents := ["left", "right"] }]

theorem linearize_extends_diamond : (ofProfiles diamond).Keyed ∧
    (ofProfiles diamond).Extending ["left"] ["base", "site"] ∧
    (ofProfiles diamond).linearize ["left", "base", "site"] = .ok diamond := by
  have keyed : (ofProfiles diamond).Keyed := fun id p found => (get?_ofProfiles found).2
  refine ⟨keyed, linearize_extends keyed ["left"] ["base", "site"], linearize_eq_ok.mpr ?_⟩
  have first : Walk (ofProfiles diamond) ["left"] [] ["base"] (diamond.take 1) :=
    .fresh (by decide) (by decide) rfl .done .done
  have last : Walk (ofProfiles diamond) ["site"] (diamond.take 2) ["left", "right"] (diamond.take 3) :=
    .again (by decide) (.fresh (by decide) (by decide) rfl (.again (by decide) .done) .done)
  have further : Walk (ofProfiles diamond) [] (diamond.take 2) ["base", "site"] diamond :=
    .again (by decide) (.fresh (by decide) (by decide) rfl last .done)
  exact .fresh (by decide) (by decide) rfl first further

end Catalog
end ContainerProfiles
