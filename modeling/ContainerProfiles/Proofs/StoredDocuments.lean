import ContainerProfiles.Proofs.Entries
import ContainerProfiles.Proofs.FittingDocuments
import ContainerProfiles.Proofs.VersionText
import ContainerProfiles.Store.Document
import Mathlib.Data.List.Nodup

namespace ContainerProfiles

-- The documents of a store say what was written into them: each is of the form its schema wants, and what is taken
-- out of it is what was put in.

-- All fields are there, in their order.
theorem Schema.exact_of_fields {fields : List (Field Schema)} {es : List (String × Node)}
    (distinct : (fields.map Field.name).Nodup)
    (each : List.Forall₂ (fun f e => f.name = e.1 ∧ f.content.Exact depth e.2) fields es) (title : String) :
    (Schema.record title fields).Exact (depth + 1) (.table es) := by
  have names : es.map Prod.fst = fields.map Field.name := by
    induction each with
    | nil => rfl
    | cons both _ ih =>
        rw [List.map_cons, List.map_cons, ih (List.nodup_cons.mp distinct).2, both.1]
  have own : ∀ e ∈ es, ∃ f ∈ fields, f.name = e.1 ∧ f.content.Exact depth e.2 := by
    clear names distinct
    induction each with
    | nil => exact fun _ none => by cases none
    | @cons f e _ _ both _ ih =>
        intro d member
        rcases List.mem_cons.mp member with rfl | later
        · exact ⟨f, List.mem_cons_self, both⟩
        · obtain ⟨g, listed, same⟩ := ih d later
          exact ⟨g, .tail _ listed, same⟩
  refine .record (names ▸ distinct) (fun e member => ?_) (fun e member f found => ?_) ?_
  · obtain ⟨f, listed, same, _⟩ := own e member
    exact List.find?_isSome.mpr ⟨f, listed, by simpa using same⟩
  · obtain ⟨g, listed, same, wanted⟩ := own e member
    have named : f.name = e.1 := by simpa using List.find?_some found
    have one : f = g := List.inj_on_of_nodup_map distinct (List.mem_of_find?_eq_some found) listed
      (named.trans same.symm)
    exact one ▸ wanted
  · refine List.find?_eq_none.mpr fun f listed => ?_
    have present : (es.map Prod.fst).contains f.name := by
      rw [List.contains_iff_mem, names]
      exact List.mem_map.mpr ⟨f, listed, rfl⟩
    rw [present]
    simp

-- A further field may be left out if it is not required.
theorem Schema.Exact.spare {fields : List (Field Schema)} {es : List (String × Node)} {f : Field Schema}
    (wanted : (Schema.record title fields).Exact depth (.table es)) (optional : f.required = false) :
    (Schema.record title (fields ++ [f])).Exact depth (.table es) := by
  cases wanted with
  | record distinct known each complete =>
      have same : ∀ e ∈ es, Field.find? (fields ++ [f]) e.1 = Field.find? fields e.1 := fun e member =>
        List.find?_append.trans (Option.or_of_isSome (known e member))
      refine .record distinct (fun e member => ?_) (fun e member => ?_) ?_
      · rw [same e member]
        exact known e member
      · rw [same e member]
        exact each e member
      · unfold Field.absent? at complete ⊢
        rw [List.find?_append, complete]
        simp [optional]

theorem Schema.exact_list {element : Schema} {toNode : α → Node} {xs : List α}
    (each : ∀ x ∈ xs, element.Exact depth (toNode x)) :
    (Schema.list element).Exact (depth + 1) (.list (xs.map toNode)) := by
  refine .list fun n member => ?_
  obtain ⟨x, listed, rfl⟩ := List.mem_map.mp member
  exact each x listed

theorem Schema.exact_attributes (depth : Nat) (a : Attributes) :
    Schema.attributes.Exact (depth + 1) (Node.ofAttributes a) := .attributes a.entries a.keys_nodup

namespace Node

theorem list?_map {one : Node → Option α} {toNode : α → Node} (back : ∀ x, one (toNode x) = some x)
    (xs : List α) : list? one (.list (xs.map toNode)) = some xs := by
  unfold list?
  induction xs with
  | nil => rfl
  | cons x xs ih =>
      dsimp only at ih ⊢
      rw [List.map_cons, List.mapM_cons, back, ih]
      rfl

theorem list?_texts (xs : List String) : list? text? (.list (xs.map .text)) = some xs :=
  have back : ∀ s, text? (.text s) = some s := fun _ => rfl
  list?_map back xs

theorem attributes?_ofAttributes (a : Attributes) : attributes? (ofAttributes a) = some a := by
  have pairs : ∀ es : List (String × String), (es.map fun e => (e.1, Node.text e.2)).mapM
      (fun e => (text? e.2).map (fun s => (e.1, s))) = some es := by
    intro es
    induction es with
    | nil => rfl
    | cons e es ih =>
        rw [List.map_cons, List.mapM_cons, ih]
        rfl
  unfold attributes? ofAttributes
  dsimp only
  rw [pairs, Option.map_some, Dict.ofList_entries]

end Node

theorem Version.exact_text (v : Version) (depth : Nat) : Version.schema.Exact depth (.text v.text) := by
  refine .checked ?_
  rw [read_text]

theorem Version.ofNode?_text (v : Version) : Version.ofNode? (.text v.text) = some v := by
  simp only [ofNode?, Node.text?, Option.bind_some, parse_text]
  rfl

theorem Capability.exact_toNode (c : Capability) (depth : Nat) :
    Capability.schema.Exact (depth + 1) c.toNode :=
  Schema.exact_of_fields (by simp) (.cons ⟨rfl, .text _⟩ (.cons ⟨rfl, .text _⟩ .nil)) _

theorem Capability.ofNode?_toNode (c : Capability) : Capability.ofNode? c.toNode = some c := by
  simp [ofNode?, toNode, Node.record?, Node.Record.required, Node.Record.find?, Node.text?]

theorem Requirement.exact_toNode (q : Requirement) (depth : Nat) :
    Requirement.schema.Exact (depth + 1) q.toNode :=
  Schema.exact_of_fields (by simp)
    (.cons ⟨rfl, .text _⟩ (.cons ⟨rfl, .text _⟩ (.cons ⟨rfl, .truth _⟩ .nil))) _

theorem Requirement.ofNode?_toNode (q : Requirement) : Requirement.ofNode? q.toNode = some q := by
  simp [ofNode?, toNode, Node.record?, Node.Record.required, Node.Record.optional, Node.Record.find?,
    Node.text?, Node.truth?]

theorem Resource.exact_toNode (r : Resource) (depth : Nat) :
    Resource.schema.Exact (depth + 3) r.toNode :=
  Schema.exact_of_fields (by simp)
    (.cons ⟨rfl, .text _⟩
      (.cons ⟨rfl, Schema.exact_list fun c _ => c.exact_toNode depth⟩
        (.cons ⟨rfl, Schema.exact_list fun q _ => q.exact_toNode depth⟩
          (.cons ⟨rfl, Schema.exact_attributes _ _⟩ .nil)))) _

theorem Resource.ofNode?_toNode (r : Resource) : Resource.ofNode? r.toNode = some r := by
  simp [ofNode?, toNode, Node.record?, Node.Record.required, Node.Record.optional, Node.Record.find?,
    Node.text?, Node.list?_map Capability.ofNode?_toNode, Node.list?_map Requirement.ofNode?_toNode,
    Node.attributes?_ofAttributes]

theorem Configuration.exact_toNode (c : Configuration) (depth : Nat) :
    Configuration.schema.Exact (depth + 2) c.toNode :=
  Schema.exact_of_fields (by simp)
    (.cons ⟨rfl, .text _⟩
      (.cons ⟨rfl, Schema.exact_attributes _ _⟩ (.cons ⟨rfl, Schema.exact_attributes _ _⟩ .nil))) _

theorem Configuration.ofNode?_toNode (c : Configuration) : Configuration.ofNode? c.toNode = some c := by
  simp [ofNode?, toNode, Node.record?, Node.Record.required, Node.Record.optional, Node.Record.find?,
    Node.text?, Node.attributes?_ofAttributes]

theorem Item.exact_toNode (i : Item) (depth : Nat) : Item.schema.Exact (depth + 4) i.toNode := by
  cases i with
  | configuration item =>
      change Schema.Exact _ _ (.table (("kind", .text "configuration") :: _))
      refine .choice rfl (by simp) (Schema.exact_of_fields (by simp) ?_ _)
      exact .cons ⟨rfl, .text _⟩
        (.cons ⟨rfl, Schema.exact_list fun c _ => c.exact_toNode depth⟩ .nil)
  | resource item =>
      change Schema.Exact _ _ (.table (("kind", .text "resource") :: _))
      refine .choice rfl (by simp) (Schema.exact_of_fields (by simp) ?_ _)
      exact .cons ⟨rfl, .text _⟩
        (.cons ⟨rfl, item.resource.exact_toNode depth⟩ (.cons ⟨rfl, .truth _⟩ (.cons ⟨rfl, .truth _⟩ .nil)))
  | requirement item =>
      change Schema.Exact _ _ (.table (("kind", .text "requirement") :: _))
      refine .choice rfl (by simp) (Schema.exact_of_fields (by simp) ?_ _)
      exact .cons ⟨rfl, .text _⟩ (.cons ⟨rfl, item.requirement.exact_toNode (depth + 2)⟩ .nil)

theorem Item.ofNode?_toNode (i : Item) : Item.ofNode? i.toNode = some i := by
  cases i with
  | configuration item =>
      simp [ofNode?, toNode, kind?, configurationOfNode?, Node.record?, Node.Record.required,
        Node.Record.find?, Node.text?, Node.list?_map Configuration.ofNode?_toNode]
  | resource item =>
      simp [ofNode?, toNode, kind?, resourceOfNode?, Node.record?, Node.Record.required,
        Node.Record.optional, Node.Record.find?, Node.text?, Node.truth?, Resource.ofNode?_toNode]
  | requirement item =>
      simp [ofNode?, toNode, kind?, requirementOfNode?, Node.record?, Node.Record.required,
        Node.Record.find?, Node.text?, Requirement.ofNode?_toNode]

theorem Profile.exact_toNode (p : Profile) (depth : Nat) : Profile.schema.Exact (depth + 6) p.toNode :=
  Schema.exact_of_fields (by simp)
    (.cons ⟨rfl, .text _⟩
      (.cons ⟨rfl, p.version.exact_text _⟩
        (.cons ⟨rfl, Schema.exact_list fun _ _ => .text _⟩
          (.cons ⟨rfl, Schema.exact_list fun i _ => i.exact_toNode depth⟩
            (.cons ⟨rfl, Schema.exact_attributes _ _⟩ .nil))))) _

theorem Profile.ofNode?_toNode (p : Profile) : Profile.ofNode? p.toNode = some p := by
  simp [ofNode?, toNode, Node.record?, Node.Record.required, Node.Record.optional, Node.Record.find?,
    Node.text?, Version.ofNode?_text, Node.list?_texts, Node.list?_map Item.ofNode?_toNode,
    Node.attributes?_ofAttributes]

theorem readDocument_print {schema : Schema} {ofNode? : Node → Option α} {d : α} {n : Node}
    (wanted : schema.Exact Json.deepest n) (back : ofNode? n = some d) :
    readDocument schema ofNode? (Json.print n) = .ok d := by
  unfold readDocument
  rw [Json.readAs_print wanted]
  dsimp only
  rw [back]

theorem VersionDocument.read_print (d : VersionDocument) :
    readDocument schema ofNode? (Json.print d.toNode) = .ok d := by
  have wanted : schema.Exact (126 + 1) d.toNode := Schema.exact_of_fields (by simp)
    (.cons ⟨rfl, d.version.exact_text _⟩
      (.cons ⟨rfl, Schema.exact_attributes 125 _⟩ (.cons ⟨rfl, .text _⟩ .nil))) _
  refine readDocument_print wanted ?_
  simp [ofNode?, toNode, Node.record?, Node.Record.required, Node.Record.optional, Node.Record.find?,
    Node.text?, Version.ofNode?_text, Node.attributes?_ofAttributes]

-- With a seal or without one.
theorem ProfileDocument.read_print (d : ProfileDocument) :
    readDocument schema ofNode? (Json.print d.toNode) = .ok d := by
  obtain ⟨p, updatedAt, checksum⟩ := d
  cases checksum with
  | none =>
      have bare : (Schema.record "ProfileDocument" [⟨"profile", Profile.schema, true⟩, ⟨"updated_at", .text, true⟩]).Exact
          (126 + 1) (toNode ⟨p, updatedAt, none⟩) := Schema.exact_of_fields (by simp)
        (.cons ⟨rfl, p.exact_toNode 120⟩ (.cons ⟨rfl, .text _⟩ .nil)) _
      refine readDocument_print (bare.spare rfl) ?_
      simp [ofNode?, toNode, Node.record?, Node.Record.required, Node.Record.optional, Node.Record.find?,
        Node.text?, Profile.ofNode?_toNode]
  | some sum =>
      have wanted : schema.Exact (126 + 1) (toNode ⟨p, updatedAt, some sum⟩) := Schema.exact_of_fields (by simp)
        (.cons ⟨rfl, p.exact_toNode 120⟩
          (.cons ⟨rfl, .text _⟩
            (.cons ⟨rfl, .present (n := .text sum) Node.noConfusion (.text sum)⟩ .nil))) _
      refine readDocument_print wanted ?_
      simp [ofNode?, toNode, Node.record?, Node.Record.required, Node.Record.optional, Node.Record.find?,
        Node.text?, Node.nullable?, Profile.ofNode?_toNode]

theorem ProfileDocument.digest_checksum (d : ProfileDocument) (sum : Option String) :
    digest { d with checksum := sum } = digest d := by
  simp only [digest]

theorem ProfileDocument.open?_intact {d : ProfileDocument} (intact : d.checksum = some d.digest)
    (path : String) : d.open? path = .ok d.profile := by
  unfold open?
  rw [intact]
  exact if_pos rfl

theorem ProfileDocument.sealed_intact (p : Profile) (now : String) :
    (sealed p now).checksum = some (sealed p now).digest :=
  congrArg some (digest_checksum { profile := p, updatedAt := now } _).symm

-- What is sealed is read back as it was, and its seal is whole.
theorem ProfileDocument.sealed_read (p : Profile) (now : String) :
    readDocument schema ofNode? (Json.print (sealed p now).toNode) = .ok (sealed p now) := read_print _

theorem ProfileDocument.sealed_open? (p : Profile) (now path : String) :
    (sealed p now).open? path = .ok p := open?_intact (sealed_intact p now) path

theorem format_read :
    readDocument formatSchema formatOfNode? (Json.print formatNode) = .ok StoreError.format := by
  have read : (readDocument formatSchema formatOfNode? (Json.print formatNode)).toOption =
      some StoreError.format := by decide +kernel
  cases found : readDocument formatSchema formatOfNode? (Json.print formatNode) with
  | error e =>
      rw [found] at read
      cases read
  | ok n =>
      rw [found] at read
      exact congrArg Except.ok (Option.some.inj read)

end ContainerProfiles
