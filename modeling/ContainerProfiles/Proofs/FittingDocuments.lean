import ContainerProfiles.Document.Json.Fitting
import ContainerProfiles.Proofs.Fallible
import ContainerProfiles.Proofs.ReadBack

namespace ContainerProfiles

-- Documents of the very form that a schema wants. They pass its check, and what is read from their print while the
-- schema is kept to is the document that was printed.

-- A record has the fields it must have and none besides; a choice begins with its tag.
inductive Schema.Exact : Schema → Nat → Node → Prop
  | text (s : String) : Exact .text depth (.text s)
  | checked : refusal? s = none → Exact (.checked refusal?) depth (.text s)
  | truth (b : Bool) : Exact .truth depth (.truth b)
  | attributes (pairs : List (String × String)) : (pairs.map Prod.fst).Nodup →
      Exact .attributes (depth + 1) (.table (pairs.map (fun e => (e.1, .text e.2))))
  | list : (∀ n ∈ ns, Exact element depth n) → Exact (.list element) (depth + 1) (.list ns)
  | present : n ≠ .null → Exact content depth n → Exact (.nullable content) depth n
  | record : (es.map Prod.fst).Nodup → (∀ e ∈ es, (Field.find? fields e.1).isSome) →
      (∀ e ∈ es, ∀ f, Field.find? fields e.1 = some f → Exact f.content depth e.2) →
      Field.absent? fields (es.map Prod.fst) = none → Exact (.record title fields) (depth + 1) (.table es)
  | choice {kind tag : String} : variants.find? (fun v => v.1 = kind) = some (kind, content) →
      tag ∉ es.map Prod.fst → Exact content (depth + 1) (.table es) →
      Exact (.choice title tag variants) (depth + 1) (.table ((tag, .text kind) :: es))

def Field.map (g : α → β) (f : Field α) : Field β := ⟨f.name, g f.content, f.required⟩

theorem Field.find?_map (g : α → β) (fields : List (Field α)) (name : String) :
    find? (fields.map (map g)) name = (find? fields name).map (map g) := List.find?_map

theorem Field.absent?_map (g : α → β) (fields : List (Field α)) (names : List String) :
    absent? (fields.map (map g)) names = (absent? fields names).map (map g) := List.find?_map

theorem Field.absent?_congr (fields : List (Field α)) {xs ys : List String} (same : ∀ x, x ∈ xs ↔ x ∈ ys) :
    absent? fields xs = absent? fields ys := by
  unfold absent?
  congr 1
  funext f
  have contained : xs.contains f.name = ys.contains f.name := by
    rw [Bool.eq_iff_iff, List.contains_iff_mem, List.contains_iff_mem, same]
  rw [contained]

namespace Schema

theorem Exact.plain (wanted : Exact schema depth n) : n.Plain depth := by
  induction wanted with
  | text s => exact .text s
  | checked _ => exact .text _
  | truth b => exact .truth b
  | attributes pairs distinct =>
      refine .table (by simpa [List.map_map, Function.comp_def] using distinct) fun e member => ?_
      obtain ⟨_, _, rfl⟩ := List.mem_map.mp member
      exact .text _
  | list _ ih => exact .list ih
  | present _ _ ih => exact ih
  | @record es fields _ _ distinct known _ _ ih =>
      refine .table distinct fun e member => ?_
      obtain ⟨f, found⟩ := Option.isSome_iff_exists.mp (known e member)
      exact ih e member f found
  | choice _ untagged _ ih =>
      cases ih with
      | table distinct inner =>
          refine .table (List.nodup_cons.mpr ⟨untagged, distinct⟩) fun e member => ?_
          rcases List.mem_cons.mp member with rfl | later
          · exact .text _
          · exact inner e later

theorem checks_eq (fields : List (Field Schema)) : checks fields = fields.map (Field.map check) := by
  induction fields with
  | nil => rfl
  | cons f fields ih => rw [checks, ih]; rfl

theorem checkEntries_ok {fields : List (Field Check)} {names : List String} {es : List (String × Node)}
    (distinct : (es.map Prod.fst).Nodup) (fresh : ∀ e ∈ es, e.1 ∉ names)
    (each : ∀ e ∈ es, ∃ f, Field.find? fields e.1 = some f ∧ f.content e.2 = .ok ())
    (complete : Field.absent? fields (names ++ es.map Prod.fst) = none) :
    checkEntries fields names es = .ok () := by
  induction es generalizing names with
  | nil =>
      rw [checkEntries]
      rw [List.map_nil, List.append_nil] at complete
      rw [complete]
  | cons e es ih =>
      obtain ⟨name, n⟩ := e
      obtain ⟨alone, others⟩ := List.nodup_cons.mp distinct
      obtain ⟨f, found, passed⟩ := each _ List.mem_cons_self
      have new : names.contains name = false := by simpa using fresh _ List.mem_cons_self
      rw [checkEntries, found]
      dsimp only at passed ⊢
      rw [new, passed, if_neg Bool.false_ne_true]
      refine ih others (fun d member => ?_) (fun d member => each d (.tail _ member)) ?_
      · rw [List.mem_cons, not_or]
        refine ⟨fun same => alone ?_, fresh d (.tail _ member)⟩
        exact same ▸ List.mem_map.mpr ⟨d, member, rfl⟩
      · rw [← complete]
        refine Field.absent?_congr _ fun x => ?_
        simp only [List.mem_append, List.mem_cons, List.map_cons, or_assoc, or_left_comm]

theorem known_variant {variants : List (String × Schema)}
    (found : variants.find? (fun v => v.1 = kind) = some (kind, content)) :
    (variants.map Prod.fst).contains kind := by
  rw [List.contains_iff_mem]
  exact List.mem_map.mpr ⟨_, List.mem_of_find?_eq_some found, rfl⟩

-- The tag is taken off wherever it stands; here it stands first.
theorem tagged_table {known : List String} (named : known.contains kind) {es : List (String × Node)}
    (untagged : tag ∉ es.map Prod.fst) :
    tagged tag known (.table ((tag, .text kind) :: es)) = .ok (kind, .table es) := by
  have others : ∀ e ∈ es, e.1 ≠ tag := by
    intro e member same
    exact untagged (same ▸ List.mem_map.mpr ⟨e, member, rfl⟩)
  have one : ((tag, Node.text kind) :: es).filter (fun e => e.1 = tag) = [(tag, .text kind)] := by
    rw [List.filter_cons_of_pos (by simp), List.filter_eq_nil_iff.mpr fun e member => by
      simpa using others e member]
  have rest : ((tag, Node.text kind) :: es).filter (fun e => e.1 ≠ tag) = es := by
    rw [List.filter_cons_of_neg (by simp), List.filter_eq_self.mpr fun e member => by
      simpa using others e member]
  simp only [tagged, one, rest, knownVariant, named, if_true]
  rfl

theorem checkVariant_ok {variants : List (String × Schema)}
    (found : variants.find? (fun v => v.1 = kind) = some (kind, content))
    (passed : check content n = .ok ()) : checkVariant variants (.ok (kind, n)) = .ok () := by
  induction variants with
  | nil => cases found
  | cons v variants ih =>
      obtain ⟨name, inner⟩ := v
      rw [List.find?_cons] at found
      rw [checkVariant]
      by_cases same : name = kind
      · simp only [same, decide_true, Option.some.injEq, Prod.mk.injEq, true_and] at found
        rw [if_pos same, found, passed]
      · simp only [same, decide_false] at found
        rw [if_neg same]
        exact ih found

theorem Exact.check (wanted : Exact schema depth n) : schema.check n = .ok () := by
  induction wanted with
  | text s => rfl
  | checked accepted =>
      simp only [Schema.check]
      rw [accepted]
  | truth b => rfl
  | attributes pairs distinct =>
      simp only [Schema.check]
      refine forM_eq_ok.mpr fun e member => ?_
      obtain ⟨_, _, rfl⟩ := List.mem_map.mp member
      rfl
  | list _ ih =>
      simp only [Schema.check]
      exact forM_eq_ok.mpr ih
  | @present n content _ something _ ih =>
      simp only [Schema.check]
      cases n with
      | null => exact absurd rfl something
      | _ => exact ih
  | @record es fields _ _ distinct known _ complete ih =>
      simp only [Schema.check]
      refine checkEntries_ok distinct (fun _ _ => List.not_mem_nil) (fun e member => ?_) ?_
      · obtain ⟨f, found⟩ := Option.isSome_iff_exists.mp (known e member)
        refine ⟨f.map Schema.check, ?_, ih e member f found⟩
        rw [checks_eq, Field.find?_map, found]
        rfl
      · rw [checks_eq, Field.absent?_map, List.nil_append, complete]
        rfl
  | @choice content depth es title variants kind tag found untagged _ ih =>
      simp only [Schema.check]
      rw [tagged_table (known_variant found) untagged]
      exact checkVariant_ok found ih

end Schema

namespace Json
open Schema (Check Exact)

theorem checkedText_restored {check : Check} (passed : check (.text s) = .ok ()) (fuel levels : Nat)
    (expected : String) : Restores fuel (checkedScalar expected check levels) (.text s) := by
  intro depth cs rest found _
  have read := scalar_text s depth rest
  rw [chars, quoted_append] at found read
  unfold checkedScalar
  rw [found]
  change (scalar _ >>= _) = _
  rw [read]
  simp only [bind, Except.bind]
  rw [passed]
  rfl

theorem checkedTruth_restored {check : Check} (passed : check (.truth b) = .ok ()) (fuel levels : Nat)
    (expected : String) : Restores fuel (checkedScalar expected check levels) (.truth b) := by
  intro depth cs rest found _
  unfold checkedScalar
  rw [found]
  cases b
  · change (scalar ('f' :: _) >>= _) = _
    rw [show scalar ('f' :: _) = .ok (.truth false, rest) from scalar_truth false depth rest]
    simp only [bind, Except.bind]
    rw [passed]
    rfl
  · change (scalar ('t' :: _) >>= _) = _
    rw [show scalar ('t' :: _) = .ok (.truth true, rest) from scalar_truth true depth rest]
    simp only [bind, Except.bind]
    rw [passed]
    rfl

theorem bracketed_list {asTable : Option Reader} {inside : Reader} {ns : List Node}
    (read : ∀ depth rest, (chars depth (.list ns)).length < fuel →
      ∃ cs, chars depth (.list ns) ++ rest = '[' :: cs ∧ inList (inside levels) cs = .ok (.list ns, rest))
    (expected : String) : Restores fuel (bracketed expected (some inside) asTable (levels + 1)) (.list ns) := by
  intro depth cs rest found room
  obtain ⟨inner, same, done⟩ := read depth rest room
  unfold bracketed
  rw [found, same]
  exact done

theorem bracketed_table {asList : Option Reader} {inside : Reader} {es : List (String × Node)}
    (read : ∀ depth rest, (chars depth (.table es)).length < fuel →
      ∃ cs, chars depth (.table es) ++ rest = '\x7b' :: cs ∧
        inside levels cs = .ok (.table es, '\x7d' :: rest))
    (expected : String) : Restores fuel (bracketed expected asList (some inside) (levels + 1)) (.table es) := by
  intro depth cs rest found room
  obtain ⟨inner, same, done⟩ := read depth rest room
  unfold bracketed
  rw [found, same]
  exact inTable_restored done

theorem fieldReaders_eq (fuel : Nat) (fields : List (Field Schema)) :
    fieldReaders fuel fields = fields.map (Field.map (fitting fuel)) := by
  induction fields with
  | nil => rfl
  | cons f fields ih => rw [fieldReaders, ih]; rfl

theorem fieldsByName_restored {fields : List (Field Reader)} {es : List (String × Node)}
    (plain : ∀ e ∈ es, Node.Plain levels e.2) (distinct : (es.map Prod.fst).Nodup)
    (each : ∀ e ∈ es, ∃ f, Field.find? fields e.1 = some f ∧ Restores fuel (f.content levels) e.2)
    (complete : Field.absent? fields (es.map Prod.fst) = none) (depth : Nat) (rest : List Char)
    (room : (chars depth (.table es)).length < fuel) :
    ∃ cs, chars depth (.table es) ++ rest = '\x7b' :: cs ∧
      fieldsByName fuel fields levels cs = .ok (.table es, '\x7d' :: rest) := by
  -- The reader of one field is the one that the definition names.
  obtain ⟨one, fields_read, field_read⟩ : ∃ one, (∀ cs, entries one fuel [] cs = .ok (es, '\x7d' :: rest) →
      fieldsByName fuel fields levels cs = .ok (.table es, '\x7d' :: rest)) ∧
      ∀ e ∈ es, RestoresEntry fuel one e.1 e.2 := by
    refine ⟨?one, ?_, ?_⟩
    rotate_left
    · intro cs read
      unfold fieldsByName
      refine (congrArg (fun found => found >>= _) read).trans ?_
      simp only [bind, Except.bind]
      rw [complete]
      rfl
    · intro e member before depth rest fresh room
      obtain ⟨f, found, restores⟩ := each e member
      have new : before.contains e.1 = false := by simpa using fresh
      dsimp only
      rw [found]
      dsimp only
      rw [new, if_neg Bool.false_ne_true]
      exact entry_restored (plain e member) restores depth rest room
  obtain ⟨cs, same, read⟩ := entries_restored field_read distinct depth rest room
  exact ⟨cs, same, fields_read cs read⟩

theorem taggedEntries_restored {es : List (String × Node)} {known : List String} {kind tag : String}
    (plain : ∀ e ∈ es, Node.Plain levels e.2) (distinct : (es.map Prod.fst).Nodup)
    (untagged : tag ∉ es.map Prod.fst) (named : known.contains kind) (depth : Nat) (rest : List Char)
    (room : (chars depth (.table ((tag, .text kind) :: es))).length < fuel) :
    ∃ cs, chars depth (.table ((tag, .text kind) :: es)) ++ rest = '\x7b' :: cs ∧
      taggedEntries fuel tag known levels cs = .ok (.table ((tag, .text kind) :: es), '\x7d' :: rest) := by
  have accepted : (Schema.knownVariant known (.text kind)).map (fun _ => ()) = .ok () := by
    simp only [Schema.knownVariant, named, if_true]
    rfl
  have tagged : Restores fuel (variantName known) (.text kind) := by
    intro depth cs rest found room
    exact checkedText_restored accepted fuel 0 _ depth cs rest found room
  have one : ∀ e ∈ (tag, Node.text kind) :: es, RestoresEntry fuel (fun before name cs =>
      if name = tag then
        if before.contains tag then stopAround (.repeated tag) cs else entry (variantName known) cs
      else entry (value fuel levels) cs) e.1 e.2 := by
    intro e member before depth rest fresh room
    dsimp only
    rcases List.mem_cons.mp member with rfl | later
    · have new : before.contains tag = false := by simpa using fresh
      rw [if_pos rfl, new, if_neg Bool.false_ne_true]
      exact entry_restored (.text kind : Node.Plain 0 _) tagged depth rest room
    · have other : e.1 ≠ tag := fun same => untagged (List.mem_map.mpr ⟨e, later, same⟩)
      rw [if_neg other]
      exact entry_restored (plain e later) (value_restored (plain e later) fuel) depth rest room
  obtain ⟨cs, same, read⟩ := entries_restored one (List.nodup_cons.mpr ⟨untagged, distinct⟩) depth rest room
  refine ⟨cs, same, ?_⟩
  unfold taggedEntries
  rw [read]
  simp [bind, Except.bind, pure, Except.pure]

theorem afterwards_restored {check : Check} {one : Reader} (passed : check n = .ok ())
    (restores : Restores fuel (one levels) n) : Restores fuel (afterwards check one levels) n := by
  intro depth cs rest found room
  unfold afterwards
  rw [restores depth cs rest found room]
  simp only [bind, Except.bind]
  rw [passed]
  rfl

theorem attributes_restored (pairs : List (String × String)) (distinct : (pairs.map Prod.fst).Nodup)
    (levels depth : Nat) (rest : List Char)
    (room : (chars depth (.table (pairs.map fun e => (e.1, .text e.2)))).length < fuel) :
    ∃ cs, chars depth (.table (pairs.map fun e => (e.1, .text e.2))) ++ rest = '\x7b' :: cs ∧
      tableOf fuel (fun _ _ => entry (textReader levels)) cs =
        .ok (.table (pairs.map fun e => (e.1, .text e.2)), '\x7d' :: rest) := by
  have keys : (pairs.map fun e => (e.1, Node.text e.2)).map Prod.fst = pairs.map Prod.fst := by
    simp [List.map_map, Function.comp_def]
  have each : ∀ e ∈ pairs.map (fun e => (e.1, Node.text e.2)),
      RestoresEntry fuel (fun _ _ => entry (textReader levels)) e.1 e.2 := by
    intro e member before depth rest _ room
    obtain ⟨pair, _, rfl⟩ := List.mem_map.mp member
    have passed := (Exact.text pair.2 : Exact .text 0 _).check
    exact entry_restored (.text pair.2 : Node.Plain 0 _) (checkedText_restored passed _ _ _) depth rest room
  obtain ⟨cs, same, read⟩ := entries_restored each (keys ▸ distinct) depth rest room
  exact ⟨cs, same, tableOf_restored read⟩

theorem fitting_restored (wanted : Exact schema levels n) (fuel : Nat) :
    Restores fuel (fitting fuel schema levels) n := by
  induction wanted with
  | text s =>
      simp only [fitting]
      exact checkedText_restored (Exact.text s : Exact .text 0 _).check _ _ _
  | checked accepted =>
      simp only [fitting]
      exact checkedText_restored (Exact.checked accepted : Exact _ 0 _).check _ _ _
  | truth b =>
      simp only [fitting]
      exact checkedTruth_restored (Exact.truth b : Exact _ 0 _).check _ _ _
  | @attributes levels pairs distinct =>
      simp only [fitting]
      exact bracketed_table (attributes_restored pairs distinct levels) _
  | list inner ih =>
      simp only [fitting]
      exact bracketed_list (fun depth rest room =>
        inList_restored (fun n member => (inner n member).plain) ih depth rest room) _
  | @present n content levels something inner ih =>
      simp only [fitting]
      intro depth cs rest found room
      have read := ih depth (chars depth n ++ rest) rest (skip_chars inner.plain depth rest) room
      dsimp only
      rw [found]
      -- Only the missing value begins with this letter.
      cases inner.plain with
      | null => exact absurd rfl something
      | truth b => cases b <;> exact read
      | text s => exact read
      | @list ns => cases ns <;> exact read
      | @table es => cases es <;> exact read
  | record distinct known inner complete ih =>
      simp only [fitting]
      refine bracketed_table (fun depth rest room => ?_) _
      refine fieldsByName_restored (fun e member => ?_) distinct (fun e member => ?_) ?_ depth rest room
      · obtain ⟨f, found⟩ := Option.isSome_iff_exists.mp (known e member)
        exact (inner e member f found).plain
      · obtain ⟨f, found⟩ := Option.isSome_iff_exists.mp (known e member)
        refine ⟨f.map (fitting fuel), ?_, ih e member f found⟩
        rw [fieldReaders_eq, Field.find?_map, found]
        rfl
      · rw [fieldReaders_eq, Field.absent?_map, complete]
        rfl
  | @choice content levels es title variants kind tag found untagged inner _ =>
      have wanted : Exact (.choice title tag variants) (levels + 1) (.table ((tag, .text kind) :: es)) :=
        .choice found untagged inner
      simp only [fitting]
      refine afterwards_restored wanted.check (bracketed_table (fun depth rest room => ?_) _)
      cases inner.plain with
      | table distinct plain =>
          exact taggedEntries_restored plain distinct untagged (Schema.known_variant found) depth rest room

theorem readAs_print (wanted : Exact schema deepest n) : readAs schema (print n) = .ok n := by
  have opened := skip_chars wanted.plain 0 []
  have read := fitting_restored wanted ((chars 0 n).length + 1) 0 (chars 0 n) [] (by simpa using opened)
    (Nat.lt_succ_self _)
  unfold readAs whole print
  dsimp only
  rw [String.toList_ofList, read]
  rfl

end Json
end ContainerProfiles
