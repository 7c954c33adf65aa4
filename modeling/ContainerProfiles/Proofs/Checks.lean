import ContainerProfiles.Deployment.Containers
import ContainerProfiles.Proofs.CatalogEdits
import ContainerProfiles.Proofs.Fallible

namespace ContainerProfiles

-- What the checks on profiles have found once they are passed.

namespace Profile

theorem checkParents_eq_ok {identity : ProfileId} {seen parents : List ProfileId} :
    checkParents identity seen parents = .ok () ↔
      identity ∉ parents ∧ parents.Nodup ∧ ∀ parent ∈ parents, parent ∉ seen := by
  induction parents generalizing seen with
  | nil => simp [checkParents]
  | cons parent rest ih =>
      unfold checkParents
      by_cases self : parent = identity
      · simp [self]
      · by_cases old : parent ∈ seen
        · simp [self, old]
        · rw [if_neg self, if_neg old, ih]
          simp only [List.mem_cons, List.nodup_cons, not_or, forall_eq_or_imp]
          grind

theorem checkItems_eq_ok {identity : ProfileId} {seen : List ItemId} {items : List Item} :
    checkItems identity seen items = .ok () ↔ (∀ item ∈ items, Text.blank item.id = false) ∧
      (items.map Item.id).Nodup ∧ ∀ item ∈ items, item.id ∉ seen := by
  induction items generalizing seen with
  | nil => simp [checkItems]
  | cons item rest ih =>
      unfold checkItems
      by_cases blank : Text.blank item.id
      · simp [blank]
      · by_cases old : item.id ∈ seen
        · simp [blank, old]
        · rw [if_neg blank, if_neg old, ih]
          simp only [List.mem_cons, List.map_cons, List.nodup_cons, List.mem_map, not_or, forall_eq_or_imp]
          grind

-- What a profile has to be before anything else is looked at.
theorem validate_eq_ok {p : Profile} : p.validate = .ok () ↔ Text.blank p.identity = false ∧
    (p.identity ∉ p.parents ∧ p.parents.Nodup) ∧
    (∀ id ∈ p.items.map Item.id, Text.blank id = false) ∧ (p.items.map Item.id).Nodup := by
  unfold validate
  rw [guard_eq_ok, bind_eq_ok]
  constructor
  · rintro ⟨named, _, parents, items⟩
    obtain ⟨foreign, single, _⟩ := checkParents_eq_ok.mp parents
    obtain ⟨unblank, once, _⟩ := checkItems_eq_ok.mp items
    exact ⟨by simpa using named, ⟨foreign, single⟩, by simpa using unblank, once⟩
  · rintro ⟨named, ⟨foreign, single⟩, unblank, once⟩
    refine ⟨by simp [named], (), checkParents_eq_ok.mpr ⟨foreign, single, fun _ _ => List.not_mem_nil⟩, ?_⟩
    exact checkItems_eq_ok.mpr ⟨by simpa using unblank, once, fun _ _ => List.not_mem_nil⟩

end Profile

namespace VersionState

theorem linearize_eq_ok {v : VersionState} {version : Version} {roots : List ProfileId} :
    v.linearize version roots = .ok order ↔ v.profiles.linearize roots = .ok order :=
  mapError_eq_ok

theorem contains_of_require {v : VersionState} {id : ProfileId} (required : v.require id = .ok p) :
    v.profiles.contains id := by
  unfold require at required
  split at required
  · rename_i q found
    exact Dict.contains_iff.mpr ⟨q, found⟩
  · cases required

theorem fits_of_check {v : VersionState} {p : Profile} (accepted : v.check p = .ok ()) :
    v.profiles.Fits v.version p := by
  simp only [check, bind_eq_ok, guard_eq_ok, mapError_eq_ok] at accepted
  obtain ⟨_, valid, plain, version, rest⟩ := accepted
  split at rest
  · cases throw_eq_ok.mp rest
  · rename_i present
    obtain ⟨order, walked, _⟩ := bind_eq_ok.mp rest
    refine ⟨valid, by simpa using plain, by simpa using version, fun parent isParent => ?_,
      order, linearize_eq_ok.mp walked⟩
    simpa using List.find?_eq_none.mp present parent isParent

theorem check_of_fits {v : VersionState} {p : Profile} (fits : v.profiles.Fits v.version p) : v.check p = .ok () := by
  obtain ⟨order, walked⟩ := fits.walked
  have there : p.parents.find? (fun parent => !v.profiles.contains parent) = none :=
    List.find?_eq_none.mpr fun parent isParent => by simp [fits.parents parent isParent]
  simp only [check, bind_eq_ok, guard_eq_ok, mapError_eq_ok]
  refine ⟨(), fits.valid, by simp [fits.plain], fun other => other fits.version, ?_⟩
  rw [there]
  exact bind_eq_ok.mpr ⟨order, linearize_eq_ok.mpr walked, rfl⟩

-- A profile without parents is checked by itself.
theorem check_alone {v : VersionState} {p : Profile} (found : v.profiles.get? p.identity = some p)
    (valid : p.validate = .ok ()) (plain : p.isEffective = false) (version : p.version = v.version)
    (parentless : p.parents = []) : v.check p = .ok () := by
  have parents : Catalog.Walk v.profiles [p.identity] [] p.parents [] := by
    rw [parentless]
    exact .done
  refine check_of_fits ⟨valid, plain, version, fun parent isParent => ?_, [p], ?_⟩
  · rw [parentless] at isParent
    cases isParent
  · exact Catalog.linearize_eq_ok.mpr (.fresh List.not_mem_nil List.not_mem_nil found parents .done)

theorem leaf_of_childrenOf {v : VersionState} {id : ProfileId}
    (alone : ¬ (!(v.childrenOf id).isEmpty) = true) : ∀ child, ¬ v.profiles.Inherits child id := by
  rintro child ⟨p, found, isParent⟩
  have none : v.childrenOf id = [] := by simpa using alone
  have listed : p ∈ v.profiles.values := Dict.mem_values.mpr ⟨child, found⟩
  have member : p.identity ∈ v.childrenOf id :=
    List.mem_map.mpr ⟨p, List.mem_filter.mpr ⟨listed, by simpa using isParent⟩, rfl⟩
  rw [none] at member
  cases member

end VersionState
end ContainerProfiles
