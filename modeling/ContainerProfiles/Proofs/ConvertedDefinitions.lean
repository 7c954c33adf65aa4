import ContainerProfiles.Definition.Basic
import ContainerProfiles.Proofs.Checks
import ContainerProfiles.Proofs.Merging

namespace ContainerProfiles

-- Which definitions become profiles, and what becomes of them.

-- The two sides of the first colon, and both of them say something.
structure Namespaced (spec ns name : String) : Prop where
  first : ':' ∉ ns.toList
  whole : spec.toList = ns.toList ++ ':' :: name.toList
  space : Text.blank ns = false
  name : Text.blank name = false

theorem aroundFirst_eq_some {sep : Char} {s before after : String} :
    Text.aroundFirst sep s = some (before, after) ↔
      sep ∉ before.toList ∧ s.toList = before.toList ++ sep :: after.toList := by
  unfold Text.aroundFirst
  rw [Option.map_eq_some_iff, ← Text.cutFirst_eq_some]
  constructor
  · rintro ⟨⟨front, back⟩, cut, same⟩
    cases same
    simpa using cut
  · intro cut
    exact ⟨_, cut, by simp⟩

theorem readNamespaced_eq_ok {spec : String} {read : String × String} :
    readNamespaced spec = .ok read ↔
      ∃ ns name, Namespaced spec ns name ∧ read = (Text.trim ns, Text.trim name) := by
  unfold readNamespaced
  constructor
  · intro accepted
    split at accepted
    · rename_i ns name cut
      split at accepted
      · cases accepted
      · rename_i filled
        cases accepted
        obtain ⟨first, whole⟩ := aroundFirst_eq_some.mp cut
        simp only [Bool.or_eq_true, not_or, Bool.not_eq_true] at filled
        exact ⟨ns, name, ⟨first, whole, filled.1, filled.2⟩, rfl⟩
    · cases accepted
  · rintro ⟨ns, name, ⟨first, whole, space, named⟩, rfl⟩
    rw [aroundFirst_eq_some.mpr ⟨first, whole⟩]
    simp [space, named]

-- A list of runtime types is one directive, an empty one is none.
def ConfigurationSection.listing (names : List String) : Option String :=
  if names = [] then none else some (String.intercalate "," names)

structure ConfigurationSection.Tells (s : ConfigurationSection) (c : Configuration) : Prop where
  name : c.name = s.name.getD "default"
  attributes : c.attributes = s.attributes
  included : c.directives.get? Directives.includeKey = listing s.included
  excluded : c.directives.get? Directives.excludeKey = listing s.excluded
  nothingElse : ∀ key, key ≠ Directives.includeKey → key ≠ Directives.excludeKey → c.directives.get? key = none

structure ResourceSection.Tells (s : ResourceSection) (item : ResourceItem) : Prop where
  id : item.id = s.id
  identity : item.resource.identity = ResourceId.ofParts (Text.trim s.name) (Text.trim s.version)
  capabilities : List.Forall₂ (fun spec (c : Capability) => ∃ ns name, Namespaced spec ns name ∧
    c = { ns := Text.trim ns, name := Text.trim name }) s.capabilities item.resource.capabilities
  requirements : List.Forall₂ (fun spec (q : Requirement) => ∃ ns name, Namespaced spec ns name ∧
    q = { ns := Text.trim ns, name := Text.trim name, optional := false }) s.requirements item.resource.requirements
  attributes : item.resource.attributes = s.attributes
  shared : item.shared = s.shared
  isAbstract : item.isAbstract = s.isAbstract

structure RequirementSection.Tells (s : RequirementSection) (item : RequirementItem) : Prop where
  id : item.id = s.id
  requirement : item.requirement = { ns := s.ns, name := s.name, optional := s.optional }

theorem ConfigurationSection.get?_directive (key other : String) (names : List String) (a : Attributes) :
    (directive key names a).get? other =
      if other = key then (listing names).or (a.get? other) else a.get? other := by
  unfold directive listing
  cases names with
  | nil => simp
  | cons name names => simp

theorem ConfigurationSection.tells_toConfiguration (s : ConfigurationSection) : s.Tells s.toConfiguration := by
  have apart : Directives.includeKey ≠ Directives.excludeKey := by decide
  refine ⟨rfl, rfl, ?_, ?_, fun key one two => ?_⟩
  · simp [toConfiguration, get?_directive, apart]
  · simp [toConfiguration, get?_directive, Ne.symm apart]
  · simp [toConfiguration, get?_directive, one, two]

theorem exists_forall₂ {R : α → β → Prop} {xs : List α} :
    (∃ ys, List.Forall₂ R xs ys) ↔ ∀ x ∈ xs, ∃ y, R x y := by
  induction xs with
  | nil => exact ⟨fun _ => nofun, fun _ => ⟨[], .nil⟩⟩
  | cons x rest ih =>
      rw [List.forall_mem_cons, ← ih]
      constructor
      · rintro ⟨_, related⟩
        cases related with
        | cons first later => exact ⟨⟨_, first⟩, _, later⟩
      · rintro ⟨⟨y, first⟩, ys, later⟩
        exact ⟨y :: ys, .cons first later⟩

namespace ResourceSection

theorem told_specs {specs : List String} {pairs : List (String × String)} (f : String × String → α)
    (read : specs.mapM readNamespaced = .ok pairs) : List.Forall₂ (fun spec a => ∃ ns name, Namespaced spec ns name ∧
      a = f (Text.trim ns, Text.trim name)) specs (pairs.map f) := by
  apply List.forall₂_map_right_iff.mpr
  apply (mapM_eq_ok.mp read).imp
  intro spec pair one
  obtain ⟨ns, name, parts, same⟩ := readNamespaced_eq_ok.mp one
  exact ⟨ns, name, parts, congrArg f same⟩

theorem toItem_eq_ok {s : ResourceSection} {item : ResourceItem} (read : s.toItem = .ok item) : s.Tells item := by
  unfold toItem at read
  simp only [bind_eq_ok, pure_eq_ok] at read
  obtain ⟨capabilities, provided, requirements, required, rfl⟩ := read
  exact ⟨rfl, rfl, told_specs (fun c => Capability.mk c.1 c.2) provided,
    told_specs (fun q => Requirement.mk q.1 q.2 false) required, rfl, rfl, rfl⟩

theorem toItem_succeeds {s : ResourceSection} : (∃ item, s.toItem = .ok item) ↔
    ∀ spec ∈ s.capabilities ++ s.requirements, ∃ ns name, Namespaced spec ns name := by
  have one : ∀ specs : List String, (∃ read, specs.mapM readNamespaced = .ok read) ↔
      ∀ spec ∈ specs, ∃ ns name, Namespaced spec ns name := by
    intro specs
    simp only [mapM_eq_ok, exists_forall₂, readNamespaced_eq_ok]
    exact forall₂_congr fun spec _ => ⟨fun ⟨_, ns, name, parts, _⟩ => ⟨ns, name, parts⟩,
      fun ⟨ns, name, parts⟩ => ⟨_, ns, name, parts, rfl⟩⟩
  rw [List.forall_mem_append, ← one, ← one]
  unfold toItem
  simp only [bind_eq_ok, pure_eq_ok]
  constructor
  · rintro ⟨_, capabilities, provided, requirements, required, _⟩
    exact ⟨⟨capabilities, provided⟩, requirements, required⟩
  · rintro ⟨⟨capabilities, provided⟩, requirements, required⟩
    exact ⟨_, capabilities, provided, requirements, required, rfl⟩

end ResourceSection

namespace Definition

def ofIdentity (sections : List ConfigurationSection) (id : ItemId) : ConfigurationItem :=
  { id, configurations := (sections.filter (·.id = id)).map ConfigurationSection.toConfiguration }

theorem ofIdentity_concat_self (sections : List ConfigurationSection) (s : ConfigurationSection) :
    ofIdentity (sections ++ [s]) s.id = { ofIdentity sections s.id with
      configurations := (ofIdentity sections s.id).configurations ++ [s.toConfiguration] } := by
  simp [ofIdentity]

theorem ofIdentity_concat_other {sections : List ConfigurationSection} {s : ConfigurationSection} {id : ItemId}
    (other : s.id ≠ id) : ofIdentity (sections ++ [s]) id = ofIdentity sections id := by
  simp [ofIdentity, other]

-- One item for each identity, in the order in which they come first.
def grouped (sections : List ConfigurationSection) : List ConfigurationItem :=
  (sections.map (·.id)).eraseDups.map (ofIdentity sections)

theorem any_grouped (sections : List ConfigurationSection) (id : ItemId) :
    (grouped sections).any (fun item => item.id = id) = decide (id ∈ sections.map (·.id)) := by
  rw [Bool.eq_iff_iff, List.any_eq_true, decide_eq_true_eq]
  simp [grouped, ofIdentity, List.mem_eraseDups]

-- A section joins those of its identity, or is the first of them and stands behind the others.
theorem addConfiguration_grouped (sections : List ConfigurationSection) (s : ConfigurationSection) :
    addConfiguration (grouped sections) s = grouped (sections ++ [s]) := by
  unfold addConfiguration
  rw [any_grouped]
  unfold grouped
  rw [List.map_append, List.map_singleton, eraseDups_concat]
  by_cases old : s.id ∈ sections.map (·.id)
  · rw [if_pos (decide_eq_true old), if_pos old, List.map_map]
    apply List.map_congr_left
    intro id _
    by_cases same : s.id = id
    · subst same
      rw [ofIdentity_concat_self]
      exact if_pos rfl
    · rw [ofIdentity_concat_other same]
      exact if_neg (Ne.symm same)
  · have others : ∀ id ∈ (sections.map (·.id)).eraseDups, ofIdentity (sections ++ [s]) id = ofIdentity sections id := by
      intro id member
      apply ofIdentity_concat_other
      intro same
      exact old (same ▸ List.mem_eraseDups.mp member)
    have first : sections.filter (·.id = s.id) = [] := by
      apply List.filter_eq_nil_iff.mpr
      intro t there same
      exact old (List.mem_map.mpr ⟨t, there, of_decide_eq_true same⟩)
    rw [if_neg (by simpa using old), if_neg old, List.map_append, List.map_singleton, ofIdentity_concat_self,
      List.map_congr_left others]
    simp [ofIdentity, first]

theorem foldl_addConfiguration (sections : List ConfigurationSection) :
    sections.foldl addConfiguration [] = grouped sections := by
  induction sections using List.reverseRecOn with
  | nil => rfl
  | append_singleton sections s ih =>
      rw [List.foldl_append, ih]
      exact addConfiguration_grouped sections s

-- The version that is declared, or else the one that is given.
def Named (d : Definition) (fallback : Option Version) (v : Version) : Prop :=
  (∃ declared, d.profile.version = some declared ∧ Version.read declared = .ok v) ∨
    d.profile.version = none ∧ fallback = some v

-- Configurations count once each, however many sections they have.
def itemIds (d : Definition) : List ItemId :=
  (d.configurations.map (·.id)).eraseDups ++ (d.resources.map (·.id) ++ d.requirements.map (·.id))

structure WellFormed (d : Definition) (fallback : Option Version) : Prop where
  format : d.definitionVersion = 1
  version : ∃ v, d.Named fallback v
  specs : ∀ s ∈ d.resources, ∀ spec ∈ s.capabilities ++ s.requirements, ∃ ns name, Namespaced spec ns name
  identity : Text.trim d.profile.id ≠ ""
  foreign : Text.trim d.profile.id ∉ d.profile.parents.map Text.trim
  parents : (d.profile.parents.map Text.trim).Nodup
  items : ∀ id ∈ d.itemIds, Text.blank id = false
  distinct : d.itemIds.Nodup

structure Yields (d : Definition) (fallback : Option Version) (p : Profile) : Prop where
  valid : p.validate = .ok ()
  identity : p.identity = Text.trim d.profile.id
  version : d.Named fallback p.version
  parents : p.parents = d.profile.parents.map Text.trim
  attributes : p.attributes = d.profile.attributes
  items : ∃ configurations resources requirements, p.items = configurations.map .configuration ++
      (resources.map .resource ++ requirements.map .requirement) ∧
    List.Forall₂ (fun id (item : ConfigurationItem) => item.id = id ∧
      List.Forall₂ ConfigurationSection.Tells (d.configurations.filter (·.id = id)) item.configurations)
      (d.configurations.map (·.id)).eraseDups configurations ∧
    List.Forall₂ ResourceSection.Tells d.resources resources ∧
    List.Forall₂ RequirementSection.Tells d.requirements requirements

theorem profileVersion_eq_ok {d : Definition} {fallback : Option Version} {v : Version} :
    d.profileVersion fallback = .ok v ↔ d.Named fallback v := by
  unfold profileVersion Named
  cases d.profile.version with
  | some declared => simp
  | none => cases fallback <;> simp

-- The profile before its last check.
def assembled (d : Definition) (v : Version) (resources : List ResourceItem) : Profile :=
  { identity := Text.trim d.profile.id
    version := v
    parents := d.profile.parents.map Text.trim
    items := (d.configurations.foldl addConfiguration []).map .configuration ++ resources.map .resource
      ++ d.requirements.map (fun s => .requirement s.toItem)
    attributes := d.profile.attributes }

theorem toProfile_eq_ok {d : Definition} {fallback : Option Version} {p : Profile} :
    d.toProfile fallback = .ok p ↔ d.definitionVersion = 1 ∧ ∃ v, d.Named fallback v ∧
      ∃ resources, d.resources.mapM ResourceSection.toItem = .ok resources ∧
        (d.assembled v resources).validate = .ok () ∧ p = d.assembled v resources := by
  unfold toProfile
  simp only [guard_eq_ok, bind_eq_ok, pure_eq_ok, profileVersion_eq_ok, not_not]
  refine and_congr_right fun _ => exists_congr fun v => and_congr_right fun _ =>
    exists_congr fun resources => and_congr_right fun _ => ?_
  constructor
  · rintro ⟨_, valid, rfl⟩
    exact ⟨valid, rfl⟩
  · rintro ⟨valid, rfl⟩
    exact ⟨(), valid, rfl⟩

theorem ids_assembled {d : Definition} {resources : List ResourceItem} (v : Version)
    (read : d.resources.mapM ResourceSection.toItem = .ok resources) :
    (d.assembled v resources).items.map Item.id = d.itemIds := by
  have named : d.resources.map (·.id) = resources.map (·.id) := by
    have told := (mapM_eq_ok.mp read).imp fun s item one => (ResourceSection.toItem_eq_ok one).id.symm
    simpa [List.forall₂_map_left_iff, List.forall₂_map_right_iff, ← List.forall₂_eq_eq_eq] using told
  unfold assembled itemIds
  rw [foldl_addConfiguration, named]
  simp [grouped, List.map_map, Function.comp_def, Item.id, ofIdentity, RequirementSection.toItem]

theorem validate_assembled {d : Definition} {resources : List ResourceItem} (v : Version)
    (read : d.resources.mapM ResourceSection.toItem = .ok resources) :
    (d.assembled v resources).validate = .ok () ↔ Text.trim d.profile.id ≠ "" ∧
      (Text.trim d.profile.id ∉ d.profile.parents.map Text.trim ∧ (d.profile.parents.map Text.trim).Nodup) ∧
      (∀ id ∈ d.itemIds, Text.blank id = false) ∧ d.itemIds.Nodup := by
  have solid : Text.blank (Text.trim d.profile.id) = false ↔ Text.trim d.profile.id ≠ "" := by
    rw [Text.blank_trim, Ne, Text.trim_eq_empty, Bool.not_eq_true]
  rw [Profile.validate_eq_ok, ids_assembled v read, ← solid]
  rfl

theorem yields_assembled {d : Definition} {fallback : Option Version} {v : Version} {resources : List ResourceItem}
    (named : d.Named fallback v) (read : d.resources.mapM ResourceSection.toItem = .ok resources)
    (valid : (d.assembled v resources).validate = .ok ()) : d.Yields fallback (d.assembled v resources) := by
  refine ⟨valid, rfl, named, rfl, rfl, grouped d.configurations, resources,
    d.requirements.map RequirementSection.toItem, ?_, ?_, ?_, ?_⟩
  · simp [assembled, foldl_addConfiguration]
  · apply List.forall₂_map_right_iff.mpr
    apply List.forall₂_same.mpr
    intro id _
    refine ⟨rfl, List.forall₂_map_right_iff.mpr (List.forall₂_same.mpr ?_)⟩
    exact fun s _ => s.tells_toConfiguration
  · exact (mapM_eq_ok.mp read).imp fun s item => ResourceSection.toItem_eq_ok
  · apply List.forall₂_map_right_iff.mpr
    exact List.forall₂_same.mpr fun s _ => ⟨rfl, rfl⟩

-- What is well formed converts, nothing else does, and the profile tells the whole definition.
theorem toProfile_accepts (d : Definition) (fallback : Option Version) :
    ((∃ p, d.toProfile fallback = .ok p) ↔ d.WellFormed fallback) ∧
      ∀ p, d.toProfile fallback = .ok p → d.Yields fallback p := by
  have sections : (∃ resources, d.resources.mapM ResourceSection.toItem = .ok resources) ↔
      ∀ s ∈ d.resources, ∀ spec ∈ s.capabilities ++ s.requirements, ∃ ns name, Namespaced spec ns name := by
    simp only [mapM_eq_ok, exists_forall₂, ResourceSection.toItem_succeeds]
  refine ⟨⟨?_, ?_⟩, ?_⟩
  · rintro ⟨p, accepted⟩
    obtain ⟨format, v, named, resources, read, valid, _⟩ := toProfile_eq_ok.mp accepted
    obtain ⟨identity, ⟨foreign, parents⟩, items, distinct⟩ := (validate_assembled v read).mp valid
    exact ⟨format, ⟨v, named⟩, sections.mp ⟨resources, read⟩, identity, foreign, parents, items, distinct⟩
  · intro wellFormed
    obtain ⟨v, named⟩ := wellFormed.version
    obtain ⟨resources, read⟩ := sections.mpr wellFormed.specs
    have valid : (d.assembled v resources).validate = .ok () := (validate_assembled v read).mpr
      ⟨wellFormed.identity, ⟨wellFormed.foreign, wellFormed.parents⟩, wellFormed.items, wellFormed.distinct⟩
    exact ⟨_, toProfile_eq_ok.mpr ⟨wellFormed.format, v, named, resources, read, valid, rfl⟩⟩
  · intro p accepted
    obtain ⟨_, v, named, resources, read, valid, rfl⟩ := toProfile_eq_ok.mp accepted
    exact yields_assembled named read valid

-- Two sections of one configuration, and everything else once.
def doubled : Definition :=
  { definitionVersion := 1
    profile := { id := " web ", version := some "1", parents := ["base "] }
    configurations := [{ id := "net", included := ["karaf"] }, { id := "net", name := some "late" }]
    resources := [{ id := "server", name := "httpd", version := "2", capabilities := ["http: port "] }]
    requirements := [{ id := "disk", ns := "storage", name := "local" }] }

theorem toProfile_doubled : ∃ p, doubled.toProfile none = .ok p ∧ p.items.map Item.id = ["net", "server", "disk"] ∧
    doubled.WellFormed none ∧ doubled.Yields none p := by
  obtain ⟨p, accepted, ids⟩ : ∃ p, doubled.toProfile none = .ok p ∧ p.items.map Item.id = ["net", "server", "disk"] :=
    ⟨_, rfl, rfl⟩
  have both := toProfile_accepts doubled none
  exact ⟨p, accepted, ids, both.1.mp ⟨p, accepted⟩, both.2 p accepted⟩

end Definition
end ContainerProfiles
