import ContainerProfiles.Proofs.ConvertedDefinitions

namespace ContainerProfiles

-- Which runtimes a converted configuration is for. Its section lists runtime types to include and to exclude; the
-- lists are joined into directives, and the directives are split and read again when a runtime asks.

theorem RuntimeType.text_ne_empty (t : RuntimeType) : t.text ≠ "" := by
  cases t <;> decide

theorem RuntimeType.ofText?_eq_some {s : String} {t : RuntimeType} : ofText? s = some t ↔ s = t.text := by
  unfold ofText?
  constructor
  · intro found
    have same := List.find?_some found
    exact (of_decide_eq_true same).symm
  · rintro rfl
    cases t <;> decide

theorem RuntimeType.read_eq_ok {s : String} {t : RuntimeType} : read s = .ok t ↔ lowered (Text.trim s) = t.text := by
  rw [← ofText?_eq_some]
  unfold read
  cases ofText? (lowered (Text.trim s)) <;> simp

theorem RuntimeType.lowered_eq_empty {s : String} : lowered s = "" ↔ s = "" := by
  rw [← String.toList_eq_nil_iff, ← String.toList_eq_nil_iff]
  simp [lowered]

-- Names may hold several types themselves, with commas between them.
def Entry (names : List String) (piece : String) : Prop := ∃ name ∈ names, piece ∈ Text.pieces ',' name

-- What is left of a list in the end: its types, lowered, without the blank ones.
def typesOf (names : List String) : List String :=
  ((names.flatMap (Text.pieces ',')).map (fun piece => RuntimeType.lowered (Text.trim piece))).filter (· ≠ "")

theorem mem_typesOf {names : List String} {type : String} :
    type ∈ typesOf names ↔ type ≠ "" ∧ ∃ piece, Entry names piece ∧ RuntimeType.lowered (Text.trim piece) = type := by
  unfold typesOf Entry
  rw [List.mem_filter, List.mem_map, decide_eq_true_eq, and_comm]
  simp only [List.mem_flatMap]

theorem typesOf_eq_nil {names : List String} : typesOf names = [] ↔ ∀ piece, Entry names piece → Text.blank piece := by
  rw [List.eq_nil_iff_forall_not_mem]
  constructor
  · intro none piece entry
    by_contra solid
    have filled : RuntimeType.lowered (Text.trim piece) ≠ "" := by
      rwa [Ne, RuntimeType.lowered_eq_empty, Text.trim_eq_empty]
    exact none _ (mem_typesOf.mpr ⟨filled, piece, entry, rfl⟩)
  · intro blank type member
    obtain ⟨filled, piece, entry, rfl⟩ := mem_typesOf.mp member
    exact filled (RuntimeType.lowered_eq_empty.mpr (Text.trim_eq_empty.mpr (blank piece entry)))

theorem text_mem_typesOf {names : List String} {t : RuntimeType} :
    t.text ∈ typesOf names ↔ ∃ piece, Entry names piece ∧ RuntimeType.read piece = .ok t := by
  simp only [mem_typesOf, RuntimeType.read_eq_ok]
  exact and_iff_right t.text_ne_empty

-- Joining the names and splitting them again changes nothing: no piece runs over the end of a name.
theorem listed_eq {directives : Attributes} {key : String} {names : List String}
    (held : directives.get? key = ConfigurationSection.listing names) :
    Directives.listed directives key = if (typesOf names).isEmpty then none else some (typesOf names) := by
  unfold Directives.listed
  rw [held]
  unfold ConfigurationSection.listing
  by_cases unlisted : names = []
  · rw [unlisted]
    rfl
  · have pieces : Text.pieces ',' (String.intercalate "," names) = names.flatMap (Text.pieces ',') :=
      Text.pieces_intercalate ',' unlisted
    rw [if_neg unlisted]
    dsimp only
    rw [pieces]
    rfl

-- The runtimes a section means, from its lists alone.
structure ConfigurationSection.Means (s : ConfigurationSection) (runtime : RuntimeType) : Prop where
  included : (∀ piece, Entry s.included piece → Text.blank piece) ∨
    ∃ piece, Entry s.included piece ∧ RuntimeType.read piece = .ok runtime
  spared : ¬ ∃ piece, Entry s.excluded piece ∧ RuntimeType.read piece = .ok runtime

theorem ConfigurationSection.Tells.admits_iff {s : ConfigurationSection} {c : Configuration} (tells : s.Tells c)
    (runtime : RuntimeType) : c.admits runtime ↔ s.Means runtime := by
  have means : s.Means runtime ↔
      (typesOf s.included = [] ∨ runtime.text ∈ typesOf s.included) ∧ runtime.text ∉ typesOf s.excluded := by
    rw [typesOf_eq_nil, text_mem_typesOf, text_mem_typesOf]
    exact ⟨fun ⟨included, spared⟩ => ⟨included, spared⟩, fun ⟨included, spared⟩ => ⟨included, spared⟩⟩
  rw [means]
  unfold Configuration.admits Directives.admits
  rw [listed_eq tells.included, listed_eq tells.excluded]
  cases typesOf s.included <;> cases typesOf s.excluded <;> simp

namespace Definition

theorem configurationItems_assembled (d : Definition) (v : Version) (resources : List ResourceItem) :
    (d.assembled v resources).configurationItems = grouped d.configurations := by
  unfold Profile.configurationItems assembled
  rw [foldl_addConfiguration]
  simp [List.filterMap_append, List.filterMap_map, Function.comp_def, Item.configuration?]

-- Every section has its configuration in the profile, and this one is for the runtimes that the section means.
theorem toProfile_admits {d : Definition} {fallback : Option Version} {p : Profile}
    (accepted : d.toProfile fallback = .ok p) :
    (∀ item ∈ p.configurationItems, List.Forall₂ (fun s c => ∀ runtime, c.admits runtime ↔ s.Means runtime)
      (d.configurations.filter (·.id = item.id)) item.configurations) ∧
    ∀ s ∈ d.configurations, ∃ item ∈ p.configurationItems, item.id = s.id := by
  obtain ⟨_, v, _, resources, _, _, rfl⟩ := toProfile_eq_ok.mp accepted
  rw [configurationItems_assembled]
  constructor
  · intro item member
    obtain ⟨id, _, rfl⟩ := List.mem_map.mp member
    apply List.forall₂_map_right_iff.mpr
    exact List.forall₂_same.mpr fun s _ => s.tells_toConfiguration.admits_iff
  · intro s member
    have named : s.id ∈ (d.configurations.map (·.id)).eraseDups :=
      List.mem_eraseDups.mpr (List.mem_map_of_mem member)
    exact ⟨ofIdentity d.configurations s.id, List.mem_map_of_mem named, rfl⟩

-- A list of two in one name, and a list without any.
def mixed : Definition :=
  { definitionVersion := 1
    profile := { id := "web", version := some "1" }
    configurations := [{ id := "net", included := ["Karaf, tomcat", " "], excluded := ["TOMCAT"] },
      { id := "net", name := some "late", included := [" , ", ""] }] }

theorem toProfile_mixed : ∃ p, mixed.toProfile none = .ok p ∧
    (p.configurationItems.map fun item => item.configurations.map fun c => RuntimeType.all.filter c.admits) =
      [[[.karaf], RuntimeType.all]] ∧
    (∀ item ∈ p.configurationItems, List.Forall₂ (fun s c => ∀ runtime, c.admits runtime ↔ s.Means runtime)
      (mixed.configurations.filter (·.id = item.id)) item.configurations) ∧
    ∀ s ∈ mixed.configurations, ∃ item ∈ p.configurationItems, item.id = s.id := by
  have accepted : mixed.toProfile none = .ok (mixed.assembled { major := 1, minor := 0, patch := 0 } []) := by rfl
  exact ⟨_, accepted, by decide, toProfile_admits accepted⟩

end Definition
end ContainerProfiles
