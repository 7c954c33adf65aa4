import ContainerProfiles.Proofs.ConvertedDefinitions

namespace ContainerProfiles

-- The names of declared resources. The name and the version of a section become one identity with a colon between
-- them, and whoever asks for either cuts the identity at its last colon.

namespace ResourceId

theorem toList_ofParts (name version : String) :
    (ofParts name version).toList = name.toList ++ ':' :: version.toList := by
  simp [ofParts]

theorem ofParts_assoc (name front last : String) :
    ofParts name (ofParts front last) = ofParts (ofParts name front) last := by
  simp [ofParts, String.append_assoc]

theorem aroundLast_ofParts {name version : String} (plain : ':' ∉ version.toList) :
    Text.aroundLast ':' (ofParts name version) = some (name, version) := by
  unfold Text.aroundLast
  rw [toList_ofParts, Text.cutLast_eq_some.mpr ⟨plain, rfl⟩]
  simp

theorem symbolicName_of_plain {name version : String} (plain : ':' ∉ version.toList) :
    symbolicName (ofParts name version) = name := by
  simp [symbolicName, aroundLast_ofParts plain]

theorem version_of_plain {name version : String} (plain : ':' ∉ version.toList) :
    ResourceId.version (ofParts name version) = some version := by
  simp [ResourceId.version, aroundLast_ofParts plain]

-- A text with a colon has a last one.
theorem last_part {s : String} (coloned : ':' ∈ s.toList) :
    ∃ front last, ':' ∉ last.toList ∧ s = ofParts front last := by
  obtain ⟨back, rest, reversed, absent⟩ := List.eq_append_cons_of_mem (List.mem_reverse.mpr coloned)
  refine ⟨String.ofList rest.reverse, String.ofList back.reverse, by simpa using absent, ?_⟩
  rw [← String.toList_inj, toList_ofParts, ← List.reverse_reverse s.toList, reversed]
  simp

theorem front_ne (name front : String) : ofParts name front ≠ name := by
  intro same
  have longer := congrArg (fun s => s.toList.length) same
  simp [toList_ofParts] at longer

theorem symbolicName_ofParts {name version : String} :
    symbolicName (ofParts name version) = name ↔ ':' ∉ version.toList := by
  refine ⟨fun kept coloned => ?_, symbolicName_of_plain⟩
  obtain ⟨front, last, plain, rfl⟩ := last_part coloned
  rw [ofParts_assoc, symbolicName_of_plain plain] at kept
  exact front_ne name front kept

theorem version_ofParts {name version : String} :
    ResourceId.version (ofParts name version) = some version ↔ ':' ∉ version.toList := by
  refine ⟨fun kept coloned => ?_, version_of_plain⟩
  obtain ⟨front, last, plain, rfl⟩ := last_part coloned
  rw [ofParts_assoc, version_of_plain plain] at kept
  rw [Option.some.inj kept, toList_ofParts] at plain
  simp at plain

-- `other` and `rest` are cut at a colon of `version`, not at the one behind `name`.
def Shifted (name version other rest : String) : Prop :=
  ∃ middle, other = ofParts name middle ∧ version = ofParts middle rest

theorem same_or_shifted {name version other rest : String} {extra : List Char}
    (longer : other.toList = name.toList ++ extra) (tail : ':' :: version.toList = extra ++ ':' :: rest.toList) :
    (name = other ∧ version = rest) ∨ Shifted name version other rest := by
  cases extra with
  | nil =>
      rw [List.append_nil] at longer
      rw [List.nil_append, List.cons.injEq] at tail
      exact .inl ⟨(String.toList_inj.mp longer).symm, String.toList_inj.mp tail.2⟩
  | cons c middle =>
      rw [List.cons_append, List.cons.injEq] at tail
      obtain ⟨rfl, tail⟩ := tail
      refine .inr ⟨String.ofList middle, ?_, ?_⟩
      · rw [← String.toList_inj, toList_ofParts, longer, String.toList_ofList]
      · rw [← String.toList_inj, toList_ofParts, tail, String.toList_ofList]

-- A text is composed in as many ways as it has colons.
theorem ofParts_eq_ofParts {name version other rest : String} : ofParts name version = ofParts other rest ↔
    (name = other ∧ version = rest) ∨ Shifted name version other rest ∨ Shifted other rest name version := by
  constructor
  · intro same
    rw [← String.toList_inj, toList_ofParts, toList_ofParts, List.append_eq_append_iff] at same
    rcases same with ⟨extra, longer, tail⟩ | ⟨extra, longer, tail⟩
    · exact (same_or_shifted longer tail).imp_right .inl
    · rcases same_or_shifted longer tail with ⟨names, versions⟩ | shifted
      · exact .inl ⟨names.symm, versions.symm⟩
      · exact .inr (.inr shifted)
  · rintro (⟨rfl, rfl⟩ | ⟨middle, rfl, rfl⟩ | ⟨middle, rfl, rfl⟩)
    · rfl
    · exact ofParts_assoc name middle rest
    · exact (ofParts_assoc other middle version).symm

theorem Shifted.coloned {name version other rest : String} (shifted : Shifted name version other rest) :
    ':' ∈ version.toList := by
  obtain ⟨middle, _, rfl⟩ := shifted
  simp [toList_ofParts]

end ResourceId

-- What a resource still tells of the section that declares it.
structure ResourceSection.Names (s : ResourceSection) (r : Resource) : Prop where
  name : r.symbolicName = Text.trim s.name ↔ ':' ∉ (Text.trim s.version).toList
  version : ResourceId.version r.identity = some (Text.trim s.version) ↔ ':' ∉ (Text.trim s.version).toList
  required : ∀ optional, r.provides { ns := "identity", name := Text.trim s.name, optional } ↔
    ':' ∉ (Text.trim s.version).toList ∨ { ns := "identity", name := Text.trim s.name } ∈ r.capabilities
  -- of a version with colons the last part is left, and the others have gone to the name
  otherwise : ∀ front last, ':' ∉ last.toList → Text.trim s.version = ResourceId.ofParts front last →
    r.symbolicName = ResourceId.ofParts (Text.trim s.name) front ∧ ResourceId.version r.identity = some last

-- Sections that nobody can tell apart by the identities of their resources.
def ResourceSection.Alike (s t : ResourceSection) : Prop :=
  (Text.trim s.name = Text.trim t.name ∧ Text.trim s.version = Text.trim t.version) ∨
    ResourceId.Shifted (Text.trim s.name) (Text.trim s.version) (Text.trim t.name) (Text.trim t.version) ∨
    ResourceId.Shifted (Text.trim t.name) (Text.trim t.version) (Text.trim s.name) (Text.trim s.version)

structure ResourceSection.Compares (s t : ResourceSection) (r u : Resource) : Prop where
  alike : r.identity = u.identity ↔ s.Alike t
  apart : ':' ∉ (Text.trim s.version).toList → ':' ∉ (Text.trim t.version).toList → r.identity = u.identity →
    Text.trim s.name = Text.trim t.name ∧ Text.trim s.version = Text.trim t.version

theorem Resource.provides_identity (r : Resource) (name : String) (optional : Bool) :
    r.provides { ns := "identity", name, optional } ↔
      r.symbolicName = name ∨ { ns := "identity", name } ∈ r.capabilities := by
  have admits : ∀ c : Capability, Requirement.admits { ns := "identity", name, optional } c ↔
      c = { ns := "identity", name } := by
    rintro ⟨ns, other⟩
    simp only [Requirement.admits, Bool.and_eq_true, decide_eq_true_eq, Capability.mk.injEq]
    exact and_congr eq_comm eq_comm
  simp only [provides, identityNamespace, decide_true, Bool.true_and, Bool.or_eq_true, decide_eq_true_eq,
    List.any_eq_true, admits, exists_eq_right]
  rw [eq_comm]

theorem ResourceSection.Tells.names {s : ResourceSection} {item : ResourceItem} (tells : s.Tells item) :
    s.Names item.resource := by
  have name : item.resource.symbolicName = Text.trim s.name ↔ ':' ∉ (Text.trim s.version).toList := by
    unfold Resource.symbolicName
    rw [tells.identity]
    exact ResourceId.symbolicName_ofParts
  refine ⟨name, ?_, fun optional => ?_, fun front last plain composed => ?_⟩
  · rw [tells.identity]
    exact ResourceId.version_ofParts
  · rw [Resource.provides_identity, name]
  · unfold Resource.symbolicName
    rw [tells.identity, composed, ResourceId.ofParts_assoc]
    exact ⟨ResourceId.symbolicName_of_plain plain, ResourceId.version_of_plain plain⟩

theorem ResourceSection.Tells.compares {s t : ResourceSection} {item mate : ResourceItem} (tells : s.Tells item)
    (retells : t.Tells mate) : s.Compares t item.resource mate.resource := by
  have alike : item.resource.identity = mate.resource.identity ↔ s.Alike t := by
    rw [tells.identity, retells.identity]
    exact ResourceId.ofParts_eq_ofParts
  refine ⟨alike, fun plain too same => ?_⟩
  rcases alike.mp same with parts | shifted | shifted
  · exact parts
  · exact absurd shifted.coloned plain
  · exact absurd shifted.coloned too

namespace Definition

theorem resourceItems_assembled (d : Definition) (v : Version) (resources : List ResourceItem) :
    (d.assembled v resources).resourceItems = resources := by
  unfold Profile.resourceItems assembled
  simp [List.filterMap_append, List.filterMap_map, Function.comp_def, Item.resource?]

theorem resources_told {d : Definition} {fallback : Option Version} {p : Profile}
    (accepted : d.toProfile fallback = .ok p) : List.Forall₂ ResourceSection.Tells d.resources p.resourceItems := by
  obtain ⟨_, v, _, resources, read, _, rfl⟩ := toProfile_eq_ok.mp accepted
  rw [resourceItems_assembled]
  exact (mapM_eq_ok.mp read).imp fun s item => ResourceSection.toItem_eq_ok

-- Within a definition and across definitions, a name is kept wherever its version has no colon.
theorem toProfile_names {d e : Definition} {fallback spare : Option Version} {p q : Profile}
    (accepted : d.toProfile fallback = .ok p) (too : e.toProfile spare = .ok q) :
    List.Forall₂ (fun s item => s.Names item.resource) d.resources p.resourceItems ∧
    List.Forall₂ (fun s item => List.Forall₂ (fun t mate => s.Compares t item.resource mate.resource)
      e.resources q.resourceItems) d.resources p.resourceItems := by
  have told := resources_told accepted
  have retold := resources_told too
  refine ⟨told.imp fun s item tells => tells.names, told.imp fun s item tells => ?_⟩
  exact retold.imp fun t mate retells => tells.compares retells

-- One name with a colon, one version with a colon, and a pair without any.
def coloned : Definition :=
  { definitionVersion := 1
    profile := { id := "web", version := some "1" }
    resources := [{ id := "server", name := " httpd", version := "2:1" },
      { id := "mirror", name := "httpd:2", version := "1 " }, { id := "core", name := "core", version := "1.0.0" }] }

theorem toProfile_names_coloned : ∃ p, coloned.toProfile none = .ok p ∧
    List.Forall₂ (fun s item => s.Names item.resource) coloned.resources p.resourceItems ∧
    List.Forall₂ (fun s item => List.Forall₂ (fun t mate => s.Compares t item.resource mate.resource)
      coloned.resources p.resourceItems) coloned.resources p.resourceItems := by
  obtain ⟨p, accepted⟩ : ∃ p, coloned.toProfile none = .ok p := ⟨_, rfl⟩
  exact ⟨p, accepted, toProfile_names accepted accepted⟩

-- The server cannot be required by its name, and has the identity of the mirror.
theorem coloned_version_misnames : ∃ p server mirror core, coloned.toProfile none = .ok p ∧
    p.resourceItems = [server, mirror, core] ∧
    server.resource.symbolicName = "httpd:2" ∧ ResourceId.version server.resource.identity = some "1" ∧
    server.resource.provides { ns := "identity", name := "httpd" } = false ∧
    server.resource.identity = mirror.resource.identity := by
  exact ⟨_, _, _, _, rfl, rfl, by decide, by decide, by decide, by decide⟩

end Definition
end ContainerProfiles
