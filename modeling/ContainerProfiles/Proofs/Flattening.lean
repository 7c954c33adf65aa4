import ContainerProfiles.Proofs.DeletionMarks

namespace ContainerProfiles

-- Merging in two goes. A merged profile holds each item once and no attribute that takes a key away, so declared
-- once more it comes out as it is, and what follows it is laid over just what the first merge ended in.

section Again

variable {α κ : Type} [DecidableEq κ] {key : α → κ} {change : α → α → α} {keep : α → α}

theorem gatherOne_of_new {l : List α} {x : α} (new : key x ∉ l.map key) :
    gatherOne key change keep l x = l ++ [keep x] := by
  unfold gatherOne
  induction l with
  | nil => rfl
  | cons y rest ih =>
      rw [List.map_cons, List.mem_cons, not_or] at new
      unfold alterFirst
      rw [if_neg (by simpa using Ne.symm new.1), ih new.2, List.cons_append]

variable (changed : ∀ x y, key x = key y → key (change x y) = key y) (kept : ∀ x, key (keep x) = key x)

include kept in
theorem gather_of_new {l later : List α} (once : ((l ++ later).map key).Nodup) :
    gather key change keep l later = l ++ later.map keep := by
  induction later generalizing l with
  | nil => exact (List.append_nil l).symm
  | cons x rest ih =>
      have new : key x ∉ l.map key := by
        rw [List.map_append] at once
        intro old
        exact (List.nodup_append.mp once).2.2 (key x) old (key x) List.mem_cons_self rfl
      have once' : ((l ++ [keep x] ++ rest).map key).Nodup := by
        have same : (l ++ [keep x] ++ rest).map key = (l ++ x :: rest).map key := by simp [kept]
        rw [same]
        exact once
      have step : gather key change keep l (x :: rest) = gather key change keep (l ++ [keep x]) rest :=
        congrArg (gather key change keep · rest) (gatherOne_of_new new)
      rw [step, ih once', List.append_assoc, List.map_cons, List.singleton_append]

include changed kept in
theorem gather_gathered {l : List α} (settled : ∀ x ∈ gather key change keep [] l, keep x = x) :
    gather key change keep [] (gather key change keep [] l) = gather key change keep [] l := by
  have once : ((gather key change keep [] l).map key).Nodup := by
    rw [keys_gather changed kept]
    exact nodup_eraseDups _
  rw [gather_of_new kept once, List.nil_append]
  exact (List.map_congr_left settled).trans (List.map_id' _)

end Again

namespace Attributes

variable {a : Attributes}

theorem undeleted_of_unmarked (clean : ¬ a.Marked) (k : String) : undeleted (a.get? k) = a.get? k := by
  cases found : a.get? k with
  | none => rfl
  | some x =>
      have kept : x ≠ deleted := fun gone => clean (marked_iff.mpr ⟨k, gone ▸ found⟩)
      exact undeleted_eq_some.mpr ⟨rfl, kept⟩

theorem withoutDeleted_of_unmarked (clean : ¬ a.Marked) : a.withoutDeleted = a :=
  Dict.ext_get? fun k => (get?_withoutDeleted a k).trans (undeleted_of_unmarked clean k)

theorem merge_empty_of_unmarked (clean : ¬ a.Marked) : (∅ : Attributes).merge a = a := by
  apply Dict.ext_get?
  intro k
  rw [get?_merge]
  refine Eq.trans ?_ (undeleted_of_unmarked clean k)
  cases a.get? k <;> rfl

end Attributes

namespace Profile

variable (identity inner : ProfileId) (version innerVersion : Version)

theorem merge_eq (order : List Profile) : merge identity version order =
    { identity, version
      items := gather Item.id Item.overlay Item.withoutDeleted [] (order.flatMap (·.items))
      attributes := (order.map (·.attributes)).foldl .merge ∅ } := by
  rw [merge, foldl_overlay]
  rfl

theorem withoutDeleted_merged {order : List Profile} {item : Item}
    (member : item ∈ (merge identity version order).items) : item.withoutDeleted = item := by
  cases item with
  | configuration item =>
      obtain ⟨first, later, _, same⟩ := endsIn_of_merge (mem_configurationItems.mpr member)
      have settled : ∀ c ∈ item.configurations, c.withoutDeleted = c := by
        intro c held
        rw [same] at held
        unfold Configuration.withoutDeleted
        rw [Attributes.withoutDeleted_of_unmarked (ConfigurationItem.grown_unmarked held)]
      have unchanged : item.configurations.map (·.withoutDeleted) = item.configurations :=
        (List.map_congr_left settled).trans (List.map_id' _)
      change Item.configuration { item with configurations := item.configurations.map (·.withoutDeleted) } = _
      rw [unchanged]
  | resource item => rfl
  | requirement item => rfl

-- Declared alone, a merged profile is what it is but for its name.
theorem merge_merged (order : List Profile) :
    merge identity version [merge inner innerVersion order] = merge identity version order := by
  have items : gather Item.id Item.overlay Item.withoutDeleted [] (merge inner innerVersion order).items =
      (merge inner innerVersion order).items := by
    rw [items_merge]
    apply gather_gathered Item.overlay_id Item.withoutDeleted_id
    intro item member
    rw [← items_merge inner innerVersion] at member
    exact withoutDeleted_merged inner innerVersion member
  have attributes : (∅ : Attributes).merge (merge inner innerVersion order).attributes =
      (merge inner innerVersion order).attributes :=
    Attributes.merge_empty_of_unmarked
      (Attributes.unmarked_of_undeleted (attributes_merge inner innerVersion order))
  rw [merge_eq identity version [merge inner innerVersion order], List.flatMap_singleton, List.map_singleton,
    List.foldl_cons, List.foldl_nil, items, attributes, merge_eq inner, merge_eq identity version order]

-- Whatever is merged first, the rest meets what it would have met.
theorem merge_flattened (earlier later : List Profile) :
    merge identity version (earlier ++ later) = merge identity version (merge inner innerVersion earlier :: later) ∧
      (merge identity version [merge inner innerVersion earlier]).items = (merge inner innerVersion earlier).items ∧
      (merge identity version [merge inner innerVersion earlier]).attributes =
        (merge inner innerVersion earlier).attributes := by
  have again := merge_merged identity inner version innerVersion earlier
  refine ⟨?_, ?_, ?_⟩
  · calc merge identity version (earlier ++ later)
        = later.foldl overlay (merge identity version earlier) := List.foldl_append
      _ = later.foldl overlay (merge identity version [merge inner innerVersion earlier]) := by rw [again]
      _ = merge identity version (merge inner innerVersion earlier :: later) := rfl
  · rw [again, merge_eq identity, merge_eq inner]
  · rw [again, merge_eq identity, merge_eq inner]

end Profile
end ContainerProfiles
