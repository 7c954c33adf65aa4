import ContainerProfiles.Deployment.Profiles
import ContainerProfiles.Proofs.Lineage

namespace ContainerProfiles

-- What makes the profiles of one version fit together, and why the edits of a version keep them so: a checked
-- profile is put in its place, a profile that nobody inherits from goes away, a whole batch is checked against
-- itself.

namespace Catalog

open Relation

structure Sound (c : Catalog) (v : Version) : Prop where
  keyed : c.Keyed
  version : ∀ id p, c.get? id = some p → p.version = v
  valid : ∀ id p, c.get? id = some p → p.validate = .ok ()
  plain : ∀ id p, c.get? id = some p → p.isEffective = false
  closed : c.Closed
  acyclic : c.Acyclic

-- What a single profile has to meet as part of `c`.
structure Fits (c : Catalog) (v : Version) (p : Profile) : Prop where
  valid : p.validate = .ok ()
  plain : p.isEffective = false
  version : p.version = v
  parents : ∀ parent ∈ p.parents, c.contains parent
  walked : ∃ order, c.linearize [p.identity] = .ok order

theorem Fits.acyclic {c : Catalog} (keyed : c.Keyed) (fits : c.Fits v p) :
    ¬ TransGen c.Inherits p.identity p.identity := by
  obtain ⟨order, walked⟩ := fits.walked
  have listed := (mem_linearize keyed walked).mpr ⟨p.identity, List.mem_cons_self, .refl⟩
  exact (linearize_ordered keyed walked).acyclic listed

theorem Keyed.insert {c : Catalog} (keyed : c.Keyed) (p : Profile) : Keyed (Dict.insert c p.identity p) := by
  intro id q found
  rw [Dict.get?_insert] at found
  split at found
  · rename_i same
    cases found
    exact same.symm
  · exact keyed id q found

theorem inherits_of_insert {c : Catalog} (edge : Inherits (c.insert k p) child parent)
    (other : child ≠ k) : c.Inherits child parent := by
  obtain ⟨q, found, isParent⟩ := edge
  rw [Dict.get?_insert, if_neg other] at found
  exact ⟨q, found, isParent⟩

-- A path in the changed graph either was there before or goes through the changed profile.
theorem path_of_insert {c : Catalog} (path : TransGen (Inherits (c.insert k p)) a b) :
    TransGen c.Inherits a b ∨
      ReflTransGen (Inherits (c.insert k p)) a k ∧ TransGen (Inherits (c.insert k p)) k b := by
  induction path with
  | single edge =>
      by_cases here : a = k
      · subst here; exact .inr ⟨.refl, .single edge⟩
      · exact .inl (.single (inherits_of_insert edge here))
  | @tail b d before edge ih =>
      rcases ih with old | ⟨into, out⟩
      · by_cases here : b = k
        · subst here; exact .inr ⟨before.to_reflTransGen, .single edge⟩
        · exact .inl (.tail old (inherits_of_insert edge here))
      · exact .inr ⟨into, .tail out edge⟩

theorem put_sound {c : Catalog} (sound : c.Sound v) (fits : Fits (c.insert p.identity p) v p) :
    Sound (c.insert p.identity p) v := by
  have one : ∀ {P : Profile → Prop}, P p → (∀ id q, c.get? id = some q → P q) →
      ∀ id q, (c.insert p.identity p).get? id = some q → P q := by
    intro P new old id q found
    rw [Dict.get?_insert] at found
    split at found
    · cases found; exact new
    · exact old id q found
  have keyed := sound.keyed.insert p
  refine ⟨keyed, one fits.version sound.version, one fits.valid sound.valid,
    one fits.plain sound.plain, ?_, ?_⟩
  · intro child parent edge
    by_cases here : child = p.identity
    · obtain ⟨q, found, isParent⟩ := edge
      rw [Dict.get?_insert, if_pos here] at found
      cases found
      exact fits.parents parent isParent
    · exact Dict.contains_insert.mpr (.inr (sound.closed child parent (inherits_of_insert edge here)))
  · intro id cycle
    rcases path_of_insert cycle with old | ⟨into, out⟩
    · exact sound.acyclic id old
    · exact fits.acyclic keyed (out.trans_left into)

section Exchange

variable {c : Catalog} {k : ProfileId} {p : Profile} {roots : List ProfileId}

theorem inherits_insert (edge : c.Inherits child parent) (other : child ≠ k) :
    Inherits (c.insert k p) child parent := by
  obtain ⟨q, found, isParent⟩ := edge
  exact ⟨q, by rw [Dict.get?_insert, if_neg other, found], isParent⟩

-- A way up to the profile need not go through it before it ends.
theorem path_exchanged (root : ProfileId) :
    ReflTransGen (Inherits (c.insert k p)) root k ↔ ReflTransGen c.Inherits root k := by
  constructor
  · intro path
    induction path using ReflTransGen.head_induction_on with
    | refl => exact .refl
    | @head a b edge _ ih =>
        by_cases here : a = k
        · exact here ▸ .refl
        · exact .head (inherits_of_insert edge here) ih
  · intro path
    induction path using ReflTransGen.head_induction_on with
    | refl => exact .refl
    | @head a b edge _ ih =>
        by_cases here : a = k
        · exact here ▸ .refl
        · exact .head (inherits_insert edge here) ih

theorem ancestral_exchanged : Ancestral (c.insert k p) roots k ↔ c.Ancestral roots k :=
  exists_congr fun root => and_congr_right fun _ => path_exchanged root

theorem linearize_apart (apart : ¬ c.Ancestral roots k) :
    linearize (c.insert k p) roots = c.linearize roots := by
  refine linearize_congr fun id ancestral => ?_
  have other : id ≠ k := fun same => apart (same ▸ ancestral)
  rw [Dict.get?_insert, if_neg other]

theorem ancestral_of_insert {id : ProfileId} (above : Ancestral (c.insert k p) roots id) :
    c.Ancestral roots id ∨ Ancestral (c.insert k p) [k] id := by
  obtain ⟨root, isRoot, path⟩ := above
  rcases reflTransGen_iff_eq_or_transGen.mp path with rfl | path
  · exact .inl ⟨id, isRoot, .refl⟩
  · rcases path_of_insert path with old | ⟨_, up⟩
    · exact .inl ⟨root, isRoot, old.to_reflTransGen⟩
    · exact .inr ⟨k, List.mem_cons_self, up.to_reflTransGen⟩

-- What had an answer has one after the exchange: the new ancestors are those of the profile itself.
theorem linearize_exchanged (keyed : c.Keyed)
    (own : ∃ order, linearize (c.insert p.identity p) [p.identity] = .ok order)
    (answered : ∃ order, c.linearize roots = .ok order) :
    ∃ order, linearize (c.insert p.identity p) roots = .ok order := by
  have before := (linearize_exists keyed).mp answered
  have above := (linearize_exists (keyed.insert p)).mp own
  refine (linearize_exists (keyed.insert p)).mpr fun id ancestral => ?_
  rcases ancestral_of_insert ancestral with old | new
  · obtain ⟨stored, acyclic⟩ := before id old
    refine ⟨Dict.contains_insert.mpr (.inr stored), fun cycle => ?_⟩
    rcases path_of_insert cycle with turned | ⟨into, out⟩
    · exact acyclic turned
    · -- the cycle goes through the profile, which then inherits from itself
      exact (above p.identity .root).2 (out.trans_left into)
  · exact above id new

end Exchange

theorem get?_of_erase {c : Catalog} {id : ProfileId} (found : (c.erase k).get? id = some q) : c.get? id = some q := by
  rw [Dict.get?_erase] at found
  split at found
  · cases found
  · exact found

theorem inherits_of_erase {c : Catalog} (edge : Inherits (c.erase k) child parent) :
    c.Inherits child parent := by
  obtain ⟨q, found, isParent⟩ := edge
  exact ⟨q, get?_of_erase found, isParent⟩

theorem Keyed.erase {c : Catalog} (keyed : c.Keyed) (k : ProfileId) : Keyed (Dict.erase c k) :=
  fun id q found => keyed id q (get?_of_erase found)

theorem erase_sound {c : Catalog} (sound : c.Sound v) (leaf : ∀ child, ¬ c.Inherits child k) :
    Sound (c.erase k) v := by
  have old : ∀ id q, (c.erase k).get? id = some q → c.get? id = some q := fun _ _ => get?_of_erase
  refine ⟨sound.keyed.erase k,
    fun id q found => sound.version id q (old id q found),
    fun id q found => sound.valid id q (old id q found),
    fun id q found => sound.plain id q (old id q found), ?_, ?_⟩
  · intro child parent edge
    have before := inherits_of_erase edge
    refine Dict.contains_erase.mpr ⟨?_, sound.closed child parent before⟩
    rintro rfl
    exact leaf child before
  · intro id cycle
    exact sound.acyclic id (TransGen.mono (fun _ _ => inherits_of_erase) _ _ cycle)

theorem get?_ofProfiles {profiles : List Profile} {id : ProfileId} {p : Profile}
    (found : (ofProfiles profiles).get? id = some p) : p ∈ profiles ∧ p.identity = id := by
  have pair := Dict.mem_of_extend found
  simp only [Dict.get?_empty, reduceCtorEq, or_false, List.mem_map, Prod.mk.injEq] at pair
  obtain ⟨q, member, same, rfl⟩ := pair
  exact ⟨member, same⟩

theorem ofProfiles_sound {profiles : List Profile}
    (fits : ∀ p ∈ profiles, (ofProfiles profiles).Fits v p) : (ofProfiles profiles).Sound v := by
  have keyed : (ofProfiles profiles).Keyed := fun id p found => (get?_ofProfiles found).2
  refine ⟨keyed, fun id p found => (fits p (get?_ofProfiles found).1).version,
    fun id p found => (fits p (get?_ofProfiles found).1).valid,
    fun id p found => (fits p (get?_ofProfiles found).1).plain, ?_, ?_⟩
  · rintro child parent ⟨p, found, isParent⟩
    exact (fits p (get?_ofProfiles found).1).parents parent isParent
  · intro id cycle
    obtain ⟨_, ⟨p, found, _⟩, _⟩ := TransGen.head'_iff.mp cycle
    obtain ⟨member, rfl⟩ := get?_ofProfiles found
    exact (fits p member).acyclic keyed cycle

end Catalog
end ContainerProfiles
