import ContainerProfiles.Proofs.ExchangedProfiles
import ContainerProfiles.Proofs.FittingDocuments
import ContainerProfiles.Proofs.Merging

namespace ContainerProfiles

-- The profiles of one version under another. A walk asks a profile for its name and its parents, and what is laid
-- over each other are items and attributes, so the copies inherit, are walked and are merged as the originals are.

variable {v w : Version} {id : ProfileId} {roots : List ProfileId}

namespace Profile

theorem merge_withVersion (identity : ProfileId) (v w : Version) (order : List Profile) :
    merge identity v (order.map (·.withVersion w)) = merge identity v order := List.foldl_map ..

-- What is merged does not depend on what it is merged as.
theorem merge_as (identity other : ProfileId) (v w : Version) (order : List Profile) :
    merge identity v order = { merge other w order with identity, version := v } := by
  rw [merge, merge, foldl_overlay, foldl_overlay]

theorem merge_identity (identity : ProfileId) (v : Version) (order : List Profile) :
    (merge identity v order).identity = identity := by
  rw [merge, foldl_overlay]

theorem merge_at (identity : ProfileId) (v w : Version) (order : List Profile) :
    merge identity v order = (merge identity w order).withVersion v := by
  rw [merge, merge, foldl_overlay, foldl_overlay]
  rfl

end Profile

namespace Catalog

variable {c : Catalog}

def atVersion (c : Catalog) (v : Version) : Catalog := c.map (·.withVersion v)

theorem get?_atVersion (c : Catalog) (v : Version) (id : ProfileId) :
    (c.atVersion v).get? id = (c.get? id).map (·.withVersion v) := Dict.get?_map ..

@[simp] theorem contains_atVersion (c : Catalog) (v : Version) (id : ProfileId) :
    (c.atVersion v).contains id = c.contains id := by
  unfold Dict.contains
  rw [get?_atVersion, Option.isSome_map]

@[simp] theorem keys_atVersion (c : Catalog) (v : Version) : (c.atVersion v).keys = c.keys :=
  Dict.keys_congr fun id => by rw [contains_atVersion]

@[simp] theorem values_atVersion (c : Catalog) (v : Version) :
    (c.atVersion v).values = c.values.map (·.withVersion v) := by
  unfold atVersion Dict.values Dict.map
  rw [List.map_map, List.map_map]
  rfl

theorem inherits_atVersion (c : Catalog) (v : Version) : (c.atVersion v).Inherits = c.Inherits := by
  funext child parent
  refine propext ⟨fun ⟨p, found, isParent⟩ => ?_, fun ⟨p, found, isParent⟩ => ?_⟩
  · rw [get?_atVersion] at found
    obtain ⟨q, original, rfl⟩ := Option.map_eq_some_iff.mp found
    exact ⟨q, original, isParent⟩
  · exact ⟨p.withVersion v, by rw [get?_atVersion, found, Option.map_some], isParent⟩

theorem Sound.atVersion (sound : c.Sound w) (v : Version) : (c.atVersion v).Sound v := by
  have each : ∀ {P : Profile → Prop}, (∀ id p, c.get? id = some p → P (p.withVersion v)) →
      ∀ id q, (c.atVersion v).get? id = some q → P q := by
    intro P holds id q found
    rw [get?_atVersion] at found
    obtain ⟨p, original, rfl⟩ := Option.map_eq_some_iff.mp found
    exact holds id p original
  refine ⟨fun id q found => ?_, each fun _ _ _ => rfl, each sound.valid, each sound.plain, ?_, ?_⟩
  · rw [get?_atVersion] at found
    obtain ⟨p, original, rfl⟩ := Option.map_eq_some_iff.mp found
    exact sound.keyed id p original
  · intro child parent edge
    rw [inherits_atVersion] at edge
    rw [contains_atVersion]
    exact sound.closed child parent edge
  · unfold Acyclic
    rw [inherits_atVersion]
    exact sound.acyclic

-- The walk over the copies takes the turns of the walk over the originals, up to the same error.
theorem visit_atVersion (c : Catalog) (v : Version) (opened : List ProfileId) (listed : List Profile)
    (ids : List ProfileId) :
    (c.atVersion v).visit opened (listed.map (·.withVersion v)) ids =
      (c.visit opened listed ids).map (List.map (·.withVersion v)) := by
  have named (listed : List Profile) (id : ProfileId) :
      id ∈ identities (listed.map (·.withVersion v)) ↔ id ∈ identities listed := by
    rw [identities, List.map_map]
    rfl
  induction opened, listed, ids using visit.induct c with
  | case1 opened listed =>
      rw [visit, visit]
      rfl
  | case2 opened listed id rest old ih => rw [visit, visit, if_pos old, if_pos ((named listed id).mpr old), ih]
  | case3 opened listed id rest new isOpen =>
      rw [visit, visit, if_neg new, dif_pos isOpen, if_neg (mt (named listed id).mp new), dif_pos isOpen]
      rfl
  | case4 opened listed id rest new unopened missing =>
      have absent : (c.atVersion v).get? id = none := by rw [get?_atVersion, missing, Option.map_none]
      rw [visit_missing new unopened missing, visit_missing (mt (named listed id).mp new) unopened absent]
      rfl
  | case5 opened listed id rest new unopened p found less e failed ih =>
      have copied : (c.atVersion v).get? id = some (p.withVersion v) := by rw [get?_atVersion, found, Option.map_some]
      have fails : (c.atVersion v).visit (id :: opened) (listed.map (·.withVersion v)) (p.withVersion v).parents =
          .error e := by
        rw [failed] at ih
        exact ih
      rw [visit_fresh new unopened found, visit_fresh (mt (named listed id).mp new) unopened copied, failed, fails]
      rfl
  | case6 opened listed id rest new unopened p found less traced parents inside outside =>
      have copied : (c.atVersion v).get? id = some (p.withVersion v) := by rw [get?_atVersion, found, Option.map_some]
      have traces : (c.atVersion v).visit (id :: opened) (listed.map (·.withVersion v)) (p.withVersion v).parents =
          .ok (traced.map (·.withVersion v)) := by
        rw [parents] at inside
        exact inside
      rw [visit_fresh new unopened found, visit_fresh (mt (named listed id).mp new) unopened copied, parents, traces]
      rw [List.map_append] at outside
      exact outside

theorem linearize_atVersion (c : Catalog) (v : Version) (roots : List ProfileId) :
    (c.atVersion v).linearize roots = (c.linearize roots).map (List.map (·.withVersion v)) :=
  c.visit_atVersion v [] [] roots

theorem Sound.fits {p : Profile} (sound : c.Sound v) (found : c.get? id = some p) : c.Fits v p where
  valid := sound.valid id p found
  plain := sound.plain id p found
  version := sound.version id p found
  parents := fun parent isParent => sound.closed id parent ⟨p, found, isParent⟩
  walked := by
    refine linearize_succeeds sound.closed sound.acyclic fun root isRoot => ?_
    rw [List.mem_singleton.mp isRoot, sound.keyed id p found]
    exact Dict.contains_iff.mpr ⟨p, found⟩

end Catalog

namespace Deployment

variable {admits : Version → Prop} {m : MemoryStore} {s : Deployment} {me : Thread} {one two : StoredVersion}

theorem order_reflected (reflects : s.store.Reflects admits m) (keyed : m.Keyed)
    (permitted : s.permitVersion me v .read = .ok ()) (stored : m.versions.get? v = some one) (roots : List ProfileId) :
    s.order me v roots = (one.profiles.linearize roots).mapError (OperationError.ofLineage v) := by
  unfold order
  rw [permitted, load_stored reflects keyed stored]
  rfl

section Copied

variable (reflects : s.store.Reflects admits m) (sound : m.Sound) (original : m.versions.get? w = some one)
  (copied : m.versions.get? v = some two) (copy : two.profiles = one.profiles.atVersion v)
  (allowed : s.permitVersion me w .read = .ok ()) (allowed' : s.permitVersion me v .read = .ok ())

include reflects sound original copied copy allowed allowed'

theorem order_copied (there : ∀ id ∈ roots, one.profiles.contains id) :
    ∃ order, s.order me w roots = .ok order ∧ s.order me v roots = .ok (order.map (·.withVersion v)) := by
  have keyed : m.Keyed := fun v entry stored => (sound v entry stored).keyed
  have fitting := sound w one original
  obtain ⟨order, walked⟩ := Catalog.linearize_succeeds fitting.closed fitting.acyclic there
  refine ⟨order, ?_, ?_⟩
  · rw [order_reflected reflects keyed allowed original, walked]
    rfl
  · rw [order_reflected reflects keyed allowed' copied, copy, Catalog.linearize_atVersion, walked]
    rfl

theorem effective_copied (there : one.profiles.contains id) :
    ∃ p, s.effective me w id = .ok p ∧ s.effective me v id = .ok (p.withVersion v) := by
  have present : ∀ root ∈ [id], one.profiles.contains root := by simpa using there
  obtain ⟨order, walked, again⟩ := order_copied reflects sound original copied copy allowed allowed' present
  unfold effective
  rw [walked, again]
  refine ⟨_, rfl, congrArg Except.ok ?_⟩
  rw [Profile.merge_withVersion]
  exact Profile.merge_at ..

theorem effectiveFor_copied (there : ∀ id ∈ roots, one.profiles.contains id) :
    ∃ p, s.effectiveFor me w roots = .ok p ∧ p.identity = Profile.effectiveIdentityFor w roots ∧
      s.effectiveFor me v roots =
        .ok { p with identity := Profile.effectiveIdentityFor v roots, version := v } := by
  obtain ⟨order, walked, again⟩ := order_copied reflects sound original copied copy allowed allowed' there
  unfold effectiveFor
  rw [walked, again]
  refine ⟨_, rfl, Profile.merge_identity .., congrArg Except.ok ?_⟩
  rw [Profile.merge_withVersion]
  exact Profile.merge_as ..

end Copied
end Deployment
end ContainerProfiles
