import ContainerProfiles.Document.Json.Fitting
import ContainerProfiles.Document.Json.Printer

namespace ContainerProfiles

-- What is printed is read back, in documents without numbers and without a key twice. A reader is given the
-- printed text with anything behind it and leaves that.

-- With so many levels for what stands within.
inductive Node.Plain : Nat → Node → Prop
  | null : Plain depth .null
  | truth (b : Bool) : Plain depth (.truth b)
  | text (s : String) : Plain depth (.text s)
  | list : (∀ n ∈ ns, Plain depth n) → Plain (depth + 1) (.list ns)
  | table : (es.map Prod.fst).Nodup → (∀ e ∈ es, Plain depth e.2) → Plain (depth + 1) (.table es)

namespace Json
open Document

theorem stringBody_plain {c : Char} (quote : c ≠ '"') (slash : c ≠ '\\') (high : ¬ c.toNat < 0x20)
    (cs : List Char) : stringBody (c :: cs) = pushed c (stringBody cs) := by
  rw [stringBody.eq_def]
  split
  case h_7 same =>
    cases same
    exact if_neg high
  all_goals simp_all

theorem hex?_hexPair : ∀ n, n < 0x20 → hex? (['0', '0'] ++ hexPair n) = some n := by decide

theorem stringBody_control {c : Char} (low : c.toNat < 0x20) (cs : List Char) :
    stringBody (['\\', 'u', '0', '0'] ++ hexPair c.toNat ++ cs) = pushed c (stringBody cs) := by
  have digits := hex?_hexPair c.toNat low
  have single : isLow c.toNat = false ∧ isHigh c.toNat = false := by
    simp only [isLow, isHigh, Bool.and_eq_false_iff, decide_eq_false_iff_not]
    omega
  simp only [hexPair, List.cons_append, List.nil_append] at digits ⊢
  rw [stringBody, digits]
  simp [single, Char.ofNat_toNat]

theorem stringBody_escaped (c : Char) (cs : List Char) :
    stringBody (escaped c ++ cs) = pushed c (stringBody cs) := by
  unfold escaped
  split
  case h_8 quote slash _ _ _ _ _ =>
    split
    · rename_i low
      exact stringBody_control low cs
    · rename_i high
      exact stringBody_plain quote slash high cs
  all_goals rfl

theorem stringBody_flatMap (cs rest : List Char) :
    stringBody (cs.flatMap escaped ++ '"' :: rest) = .ok (cs, rest) := by
  induction cs with
  | nil => rfl
  | cons c cs ih =>
      rw [List.flatMap_cons, List.append_assoc, stringBody_escaped, ih]
      rfl

theorem quoted_append (s : String) (rest : List Char) :
    quoted s ++ rest = '"' :: (s.toList.flatMap escaped ++ '"' :: rest) := by
  simp [quoted]

theorem text_quoted (s : String) (rest : List Char) :
    text (s.toList.flatMap escaped ++ '"' :: rest) = .ok (s, rest) := by
  unfold text
  rw [stringBody_flatMap]
  exact congrArg (fun t => Except.ok (t, rest)) String.ofList_toList

theorem skip_cons {c : Char} (solid : isBlank c = false) (cs : List Char) : skip (c :: cs) = c :: cs := by
  simp [skip, solid]

theorem skip_newline (depth : Nat) (cs : List Char) : skip (newline depth ++ cs) = skip cs := by
  refine List.dropWhile_append_of_pos fun c member => ?_
  rcases List.mem_cons.mp member with rfl | blank
  · rfl
  · rw [List.eq_of_mem_replicate blank]
    rfl

-- How a value may begin.
def opening : List Char := ['n', 't', 'f', '"', '[', '\x7b']

theorem chars_opening (plain : Node.Plain levels n) (depth : Nat) :
    ∃ c cs, chars depth n = c :: cs ∧ c ∈ opening := by
  cases plain with
  | null => exact ⟨'n', _, rfl, by decide⟩
  | truth b =>
      cases b
      · exact ⟨'f', _, rfl, by decide⟩
      · exact ⟨'t', _, rfl, by decide⟩
  | text s => exact ⟨'"', _, rfl, by decide⟩
  | @list ns =>
      cases ns
      · exact ⟨'[', _, rfl, by decide⟩
      · exact ⟨'[', _, rfl, by decide⟩
  | @table es =>
      cases es
      · exact ⟨'\x7b', _, rfl, by decide⟩
      · exact ⟨'\x7b', _, rfl, by decide⟩

theorem solid_of_opening {c : Char} (opens : c ∈ opening) : isBlank c = false := by
  have solid : opening.all (fun d => !isBlank d) := by decide
  simpa using List.all_eq_true.mp solid c opens

-- The reader goes on behind the value, which it finds after some blanks.
def Restores (fuel : Nat) (one : Step Node) (n : Node) : Prop :=
  ∀ depth cs rest, skip cs = chars depth n ++ rest → (chars depth n).length < fuel → one cs = .ok (n, rest)

theorem skip_chars (plain : Node.Plain levels n) (depth : Nat) (rest : List Char) :
    skip (chars depth n ++ rest) = chars depth n ++ rest := by
  obtain ⟨c, cs, same, opens⟩ := chars_opening plain depth
  rw [same]
  exact skip_cons (solid_of_opening opens) _

theorem skip_newline_chars (plain : Node.Plain levels n) (depth indent : Nat) (rest : List Char) :
    skip (newline depth ++ (chars indent n ++ rest)) = chars indent n ++ rest := by
  rw [skip_newline, skip_chars plain]

theorem nextElement_first (plain : Node.Plain levels n) (depth indent : Nat) (rest : List Char) :
    nextElement true (newline depth ++ (chars indent n ++ rest)) = .ok (true, chars indent n ++ rest) := by
  obtain ⟨c, cs, same, opens⟩ := chars_opening plain indent
  unfold nextElement
  rw [skip_newline_chars plain, same, List.cons_append]
  have other : c ≠ ']' := by
    rintro rfl
    revert opens
    decide
  split <;> simp_all

theorem nextElement_later (plain : Node.Plain levels n) (depth indent : Nat) (rest : List Char) :
    nextElement false (',' :: (newline depth ++ (chars indent n ++ rest))) =
      .ok (true, chars indent n ++ rest) := by
  obtain ⟨c, cs, same, opens⟩ := chars_opening plain indent
  have other : c ≠ ']' := by
    rintro rfl
    revert opens
    decide
  have next := skip_newline_chars plain depth indent rest
  rw [same, List.cons_append] at next ⊢
  simp [nextElement, skip_cons, isBlank, next, other]

theorem nextElement_end (first : Bool) (depth : Nat) (rest : List Char) :
    nextElement first (newline depth ++ ']' :: rest) = .ok (false, ']' :: rest) := by
  unfold nextElement
  rw [skip_newline, skip_cons rfl]
  rfl

theorem elements_rest {one : Step Node} {ns : List Node} (plain : ∀ n ∈ ns, Node.Plain levels n)
    (each : ∀ n ∈ ns, Restores fuel one n) (indent outer : Nat) (rest : List Char)
    (room : (elementChars indent ns).length < fuel) (budget : Nat) (enough : ns.length < budget) :
    elements one budget false (elementChars indent ns ++ (newline outer ++ ']' :: rest)) =
      .ok (ns, ']' :: rest) := by
  induction ns generalizing budget with
  | nil =>
      obtain ⟨budget, rfl⟩ : ∃ k, budget = k + 1 := ⟨budget - 1, by simp at enough; omega⟩
      rw [elements, elementChars, List.nil_append, nextElement_end]
      rfl
  | cons n ns ih =>
      obtain ⟨budget, rfl⟩ : ∃ k, budget = k + 1 := ⟨budget - 1, by simp at enough; omega⟩
      simp only [elementChars, List.length_cons, List.length_append] at room enough
      have first := each n List.mem_cons_self indent
        (chars indent n ++ (elementChars indent ns ++ (newline outer ++ ']' :: rest))) _
        (skip_chars (plain n List.mem_cons_self) ..) (by omega)
      have later := ih (fun m member => plain m (.tail _ member)) (fun m member => each m (.tail _ member))
        (by omega) budget (by omega)
      simp only [elementChars, List.cons_append, List.append_assoc]
      rw [elements, nextElement_later (plain n List.mem_cons_self)]
      simp only [bind, Except.bind, if_true]
      rw [first]
      dsimp only
      rw [later]
      rfl

theorem inList_restored {one : Step Node} {ns : List Node} (plain : ∀ n ∈ ns, Node.Plain levels n)
    (each : ∀ n ∈ ns, Restores fuel one n) (depth : Nat) (rest : List Char)
    (room : (chars depth (.list ns)).length < fuel) :
    ∃ cs, chars depth (.list ns) ++ rest = '[' :: cs ∧
      inList (listOf fuel one) cs = .ok (.list ns, rest) := by
  cases ns with
  | nil =>
      refine ⟨']' :: rest, rfl, ?_⟩
      obtain ⟨fuel, rfl⟩ : ∃ k, fuel = k + 1 := ⟨fuel - 1, by simp [chars] at room; omega⟩
      rfl
  | cons n ns =>
      refine ⟨newline (depth + 1) ++ (chars (depth + 1) n ++ (elementChars (depth + 1) ns ++
        (newline depth ++ ']' :: rest))), by simp [chars], ?_⟩
      simp only [chars, List.length_cons, List.length_append] at room
      have count : ns.length ≤ (elementChars (depth + 1) ns).length := by
        clear each plain room
        induction ns with
        | nil => exact Nat.le_refl _
        | cons m ms ih =>
            simp only [elementChars, List.length_cons, List.length_append]
            omega
      obtain ⟨fuel', fuel_eq⟩ : ∃ k, fuel = k + 1 := ⟨fuel - 1, by omega⟩
      have first := each n List.mem_cons_self (depth + 1)
        (chars (depth + 1) n ++ (elementChars (depth + 1) ns ++ (newline depth ++ ']' :: rest))) _
        (skip_chars (plain n List.mem_cons_self) ..) (by omega)
      have later := elements_rest (fun m member => plain m (.tail _ member))
        (fun m member => each m (.tail _ member)) (depth + 1) depth rest (by omega) fuel' (by omega)
      have all : elements one fuel true (newline (depth + 1) ++ (chars (depth + 1) n ++
          (elementChars (depth + 1) ns ++ (newline depth ++ ']' :: rest)))) =
          .ok (n :: ns, ']' :: rest) := by
        rw [fuel_eq, elements, nextElement_first (plain n List.mem_cons_self)]
        simp only [bind, Except.bind, if_true]
        rw [first]
        dsimp only
        rw [later]
        rfl
      unfold inList closed listOf
      rw [all]
      rfl

theorem nextField_first (depth : Nat) (rest : List Char) :
    nextField true (newline depth ++ '"' :: rest) = .ok (true, '"' :: rest) := by
  simp [nextField, skip_newline, skip_cons, isBlank]

theorem nextField_later (depth : Nat) (rest : List Char) :
    nextField false (',' :: (newline depth ++ '"' :: rest)) = .ok (true, '"' :: rest) := by
  simp [nextField, skip_newline, skip_cons, isBlank]

theorem nextField_end (first : Bool) (depth : Nat) (rest : List Char) :
    nextField first (newline depth ++ '\x7d' :: rest) = .ok (false, '\x7d' :: rest) := by
  unfold nextField
  rw [skip_newline, skip_cons rfl]
  rfl

def RestoresEntry (fuel : Nat) (one : List String → String → Step (Option Node)) (name : String)
    (n : Node) : Prop :=
  ∀ before depth rest, name ∉ before → (chars depth n).length < fuel →
    one before name (':' :: ' ' :: (chars depth n ++ rest)) = .ok (some n, rest)

theorem entry_restored {one : Step Node} (plain : Node.Plain levels n) (restores : Restores fuel one n)
    (depth : Nat) (rest : List Char) (room : (chars depth n).length < fuel) :
    entry one (':' :: ' ' :: (chars depth n ++ rest)) = .ok (some n, rest) := by
  have read : one (' ' :: (chars depth n ++ rest)) = .ok (n, rest) := by
    refine restores depth _ _ ?_ room
    exact (List.dropWhile_cons_of_pos rfl).trans (skip_chars plain depth rest)
  unfold entry colon
  rw [skip_cons rfl]
  simp only [bind, Except.bind]
  rw [read]
  rfl

theorem key_quoted (name : String) (rest : List Char) :
    key ('"' :: (name.toList.flatMap escaped ++ '"' :: rest)) = .ok (name, rest) := text_quoted name rest

theorem entries_rest {one : List String → String → Step (Option Node)} {es : List (String × Node)}
    (each : ∀ e ∈ es, RestoresEntry fuel one e.1 e.2) (indent outer : Nat) (rest : List Char)
    (room : (entryChars indent es).length < fuel) (budget : Nat) (enough : es.length < budget)
    (before : List String) (begun : before ≠ []) (distinct : (es.map Prod.fst).Nodup)
    (fresh : ∀ e ∈ es, e.1 ∉ before) :
    entries one budget before (entryChars indent es ++ (newline outer ++ '\x7d' :: rest)) =
      .ok (es, '\x7d' :: rest) := by
  have later : before.isEmpty = false := by simpa using begun
  induction es generalizing budget before with
  | nil =>
      obtain ⟨budget, rfl⟩ : ∃ k, budget = k + 1 := ⟨budget - 1, by simp at enough; omega⟩
      rw [entries, entryChars, List.nil_append, nextField_end]
      rfl
  | cons e es ih =>
      obtain ⟨name, n⟩ := e
      obtain ⟨budget, rfl⟩ : ∃ k, budget = k + 1 := ⟨budget - 1, by simp at enough; omega⟩
      obtain ⟨alone, others⟩ := List.nodup_cons.mp distinct
      simp only [entryChars, List.length_cons, List.length_append] at room enough
      have first := each (name, n) List.mem_cons_self before indent
        (entryChars indent es ++ (newline outer ++ '\x7d' :: rest)) (fresh _ List.mem_cons_self) (by dsimp only; omega)
      have next := ih (fun d member => each d (.tail _ member)) (by omega) budget (by omega) (name :: before)
        (List.cons_ne_nil _ _) others (fun d member => by
          rw [List.mem_cons, not_or]
          refine ⟨fun same => alone ?_, fresh d (.tail _ member)⟩
          exact same ▸ List.mem_map.mpr ⟨d, member, rfl⟩) rfl
      simp only [entryChars, List.cons_append, List.append_assoc, quoted_append, List.nil_append]
      rw [entries, later, nextField_later]
      simp only [bind, Except.bind, if_true]
      rw [key_quoted]
      dsimp only
      rw [first]
      dsimp only
      rw [next]
      rfl

theorem inTable_restored {inside : Step Node}
    (read : inside cs = .ok (n, '\x7d' :: rest)) : inTable inside cs = .ok (n, rest) := by
  unfold inTable closed
  rw [read]
  simp [Except.map, endTable, skip_cons, isBlank]

theorem tableOf_restored {one : List String → String → Step (Option Node)}
    (read : entries one fuel [] cs = .ok (es, rest)) : tableOf fuel one cs = .ok (.table es, rest) := by
  unfold tableOf
  rw [read]
  rfl

theorem entries_restored {one : List String → String → Step (Option Node)} {es : List (String × Node)}
    (each : ∀ e ∈ es, RestoresEntry fuel one e.1 e.2) (distinct : (es.map Prod.fst).Nodup) (depth : Nat)
    (rest : List Char) (room : (chars depth (.table es)).length < fuel) :
    ∃ cs, chars depth (.table es) ++ rest = '\x7b' :: cs ∧
      entries one fuel [] cs = .ok (es, '\x7d' :: rest) := by
  cases es with
  | nil =>
      refine ⟨'\x7d' :: rest, rfl, ?_⟩
      obtain ⟨fuel, rfl⟩ : ∃ k, fuel = k + 1 := ⟨fuel - 1, by simp [chars] at room; omega⟩
      rfl
  | cons e es =>
      obtain ⟨name, n⟩ := e
      obtain ⟨alone, others⟩ := List.nodup_cons.mp distinct
      refine ⟨newline (depth + 1) ++ (quoted name ++ (':' :: ' ' :: (chars (depth + 1) n ++
        (entryChars (depth + 1) es ++ (newline depth ++ '\x7d' :: rest))))), by simp [chars], ?_⟩
      simp only [chars, List.length_cons, List.length_append] at room
      have count : es.length ≤ (entryChars (depth + 1) es).length := by
        clear each distinct room alone others
        induction es with
        | nil => exact Nat.le_refl _
        | cons d ds ih =>
            simp only [entryChars, List.length_cons, List.length_append]
            omega
      obtain ⟨fuel', fuel_eq⟩ : ∃ k, fuel = k + 1 := ⟨fuel - 1, by omega⟩
      have first := each (name, n) List.mem_cons_self [] (depth + 1)
        (entryChars (depth + 1) es ++ (newline depth ++ '\x7d' :: rest)) List.not_mem_nil (by dsimp only; omega)
      have next := entries_rest (fun d member => each d (.tail _ member)) (depth + 1) depth rest (by omega)
        fuel' (by omega) [name] (List.cons_ne_nil _ _) others (fun d member => by
          rw [List.mem_singleton]
          exact fun same => alone (same ▸ List.mem_map.mpr ⟨d, member, rfl⟩))
      rw [quoted_append, fuel_eq, entries, List.isEmpty_nil, nextField_first]
      simp only [bind, Except.bind, if_true]
      rw [key_quoted]
      dsimp only
      rw [first]
      dsimp only
      rw [next]
      rfl

theorem scalar_truth (b : Bool) (depth : Nat) (rest : List Char) :
    scalar (chars depth (.truth b) ++ rest) = .ok (.truth b, rest) := by
  cases b <;> rfl

theorem scalar_text (s : String) (depth : Nat) (rest : List Char) :
    scalar (chars depth (.text s) ++ rest) = .ok (.text s, rest) := by
  rw [chars, quoted_append]
  change (text _).map (fun r => (Node.text r.1, r.2)) = _
  rw [text_quoted]
  rfl

theorem value_restored (plain : Node.Plain levels n) (fuel : Nat) :
    Restores fuel (value fuel levels) n := by
  induction plain with
  | null =>
      intro depth cs rest found _
      unfold value
      rw [found]
      rfl
  | truth b =>
      intro depth cs rest found _
      unfold value
      rw [found]
      cases b <;> rfl
  | text s =>
      intro depth cs rest found _
      have read := scalar_text s depth rest
      unfold value
      rw [found]
      rw [chars, quoted_append] at read ⊢
      exact read
  | list inner ih =>
      intro depth cs rest found room
      obtain ⟨inside, same, read⟩ := inList_restored inner ih depth rest room
      unfold value
      rw [found, same]
      exact read
  | @table es _ distinct inner ih =>
      intro depth cs rest found room
      have each : ∀ e ∈ es, RestoresEntry fuel (fun _ _ => entry (value fuel _)) e.1 e.2 :=
        fun e member before depth rest _ room => entry_restored (inner e member) (ih e member) depth rest room
      obtain ⟨inside, same, read⟩ := entries_restored each distinct depth rest room
      unfold value
      rw [found, same]
      exact inTable_restored (tableOf_restored read)

end Json
end ContainerProfiles
