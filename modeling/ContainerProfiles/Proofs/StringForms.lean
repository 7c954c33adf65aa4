import ContainerProfiles.Document.Toml.Printer
import ContainerProfiles.Document.Toml.Scalar
import Mathlib.Data.List.Basic

namespace ContainerProfiles.Toml
open Document

-- The forms of TOML strings. Whatever a text holds (quotes of both kinds in rows of any length, backslashes, line
-- ends, controls), the form that is taken for it is read back as that text, and what stands behind it is left.

-- A quote behind a string would be taken for a part of it.
def Ends (rest : List Char) : Prop := ∀ c ∈ rest.head?, c ≠ '"' ∧ c ≠ '\''

theorem visible_of_soft {c : Char} (soft : isControl c = false) : isVisible c := by
  simp only [isControl, Bool.or_eq_false_iff, decide_eq_false_iff_not] at soft
  simp only [isVisible, Bool.or_eq_true, Bool.and_eq_true, decide_eq_true_eq]
  exact .inr ⟨Nat.not_lt.mp soft.1, soft.2⟩

theorem charOfHex?_control : ∀ n, n < 0x80 →
    charOfHex? ['0', '0', hexDigit (n / 16), hexDigit (n % 16)] = some (Char.ofNat n) := by
  decide

theorem control_low {c : Char} (control : isControl c) : c.toNat < 0x80 := by
  simp only [isControl, Bool.or_eq_true, decide_eq_true_eq] at control
  omega

theorem basicBody_plain {c : Char} (quote : c ≠ '"') (slash : c ≠ '\\') (visible : isVisible c) (cs : List Char) :
    basicBody (c :: cs) = cons? (some c) (basicBody cs) := by
  rw [basicBody.eq_def]
  split
  case h_5 same =>
    cases same
    exact if_pos visible
  all_goals simp_all

theorem basicBody_control {c : Char} (control : isControl c) (cs : List Char) :
    basicBody (['\\', 'u', '0', '0', hexDigit (c.toNat / 16), hexDigit (c.toNat % 16)] ++ cs) =
      cons? (some c) (basicBody cs) := by
  simp only [List.cons_append, List.nil_append]
  rw [basicBody, charOfHex?_control _ (control_low control), Char.ofNat_toNat]

theorem basicBody_escaped (c : Char) (cs : List Char) :
    basicBody (escaped c ++ cs) = cons? (some c) (basicBody cs) := by
  unfold escaped
  split
  case h_8 quote slash =>
    split
    · rename_i control
      exact basicBody_control control cs
    · rename_i soft
      exact basicBody_plain quote slash (visible_of_soft (by simpa using soft)) cs
  all_goals rfl

theorem basicBody_flatMap (cs rest : List Char) : basicBody (cs.flatMap escaped ++ '"' :: rest) = some (cs, rest) := by
  induction cs with
  | nil => rfl
  | cons c cs ih =>
      rw [List.flatMap_cons, List.append_assoc, basicBody_escaped, ih]
      rfl

theorem escaped_head (c : Char) : ∃ d ds, escaped c = d :: ds ∧ d ≠ '"' ∧ isVisible d := by
  unfold escaped
  split
  case h_8 quote _ =>
    split
    · exact ⟨_, _, rfl, by decide, rfl⟩
    · rename_i soft
      exact ⟨_, _, rfl, quote, visible_of_soft (by simpa using soft)⟩
  all_goals exact ⟨_, _, rfl, by decide, rfl⟩

-- One quote opens the string unless two more follow.
theorem string?_basic (cs : List Char) {rest : List Char} (ends : Ends rest) :
    string? (basic cs ++ rest) = some (cs, rest) := by
  have body := basicBody_flatMap cs rest
  unfold basic
  rw [List.cons_append, List.append_assoc, List.singleton_append]
  unfold string?
  split
  · rename_i more same
    exfalso
    cases cs with
    | nil =>
        simp at same
        exact (ends _ (by simp [same])).1 rfl
    | cons c cs =>
        obtain ⟨d, ds, first, other, _⟩ := escaped_head c
        simp [first, other] at same
  · rename_i same
    cases same
    exact body
  all_goals simp_all

theorem literalBody_plain {c : Char} (quote : c ≠ '\'') (visible : isVisible c) (cs : List Char) :
    literalBody (c :: cs) = cons? (some c) (literalBody cs) := by
  rw [literalBody.eq_def]
  split
  case h_2 same =>
    cases same
    exact if_pos visible
  all_goals simp_all

theorem literalBody_append {cs : List Char} (quotes : '\'' ∉ cs) (visible : ∀ c ∈ cs, isVisible c) (rest : List Char) :
    literalBody (cs ++ '\'' :: rest) = some (cs, rest) := by
  induction cs with
  | nil => rfl
  | cons c cs ih =>
      rw [List.mem_cons, not_or] at quotes
      rw [List.forall_mem_cons] at visible
      rw [List.cons_append, literalBody_plain (Ne.symm quotes.1) visible.1, ih quotes.2 visible.2]
      rfl

theorem string?_literal {cs : List Char} (quotes : '\'' ∉ cs) (visible : ∀ c ∈ cs, isVisible c) {rest : List Char}
    (ends : Ends rest) : string? (literal cs ++ rest) = some (cs, rest) := by
  have body := literalBody_append quotes visible rest
  unfold literal
  rw [List.cons_append, List.append_assoc, List.singleton_append]
  unfold string?
  split
  · simp_all
  · simp_all
  · rename_i more same
    exfalso
    cases cs with
    | nil =>
        simp at same
        exact (ends _ (by simp [same])).2 rfl
    | cons c cs => simp_all
  · rename_i same
    cases same
    exact body
  · simp_all

theorem closing_none (quote : Char) {rest : List Char} (other : ∀ c ∈ rest.head?, c ≠ quote) :
    closing quote rest = ([], rest) := by
  rcases rest with _ | ⟨a, _ | ⟨b, rest⟩⟩ <;> simp_all [closing]

theorem closing_one (quote : Char) {rest : List Char} (other : ∀ c ∈ rest.head?, c ≠ quote) :
    closing quote (quote :: rest) = ([quote], rest) := by
  rcases rest with _ | ⟨b, rest⟩ <;> simp_all [closing]

theorem closing_two (quote : Char) (rest : List Char) :
    closing quote (quote :: quote :: rest) = ([quote, quote], rest) := by
  simp [closing]

theorem multiBasicBody_plain {c : Char} (quote : c ≠ '"') (slash : c ≠ '\\') (visible : isVisible c ∨ c = '\n')
    (cs : List Char) : multiBasicBody false (c :: cs) = cons? (some c) (multiBasicBody false cs) := by
  rw [multiBasicBody.eq_def]
  split
  case h_5 same =>
    cases same
    exact absurd visible (by decide)
  case h_6 same =>
    cases same
    simp [visible]
  all_goals simp_all

theorem multiBasicBody_escaped (c : Char) (cs : List Char) :
    multiBasicBody false (escaped c ++ cs) = cons? (some c) (multiBasicBody false cs) := by
  unfold escaped
  split
  case h_8 quote slash =>
    split
    · rename_i control
      simp only [List.cons_append, List.nil_append]
      rw [multiBasicBody, charOfHex?_control _ (control_low control), Char.ofNat_toNat]
    · rename_i soft
      exact multiBasicBody_plain quote slash (.inl (visible_of_soft (by simpa using soft))) cs
  all_goals rfl

-- Fewer than three quotes do not close the string.
theorem multiBasicBody_quotes {q : Nat} (few : q ≤ 2) {d : Char} (other : d ≠ '"') {ds cs rest : List Char}
    (body : multiBasicBody false (d :: ds) = some (cs, rest)) :
    multiBasicBody false (List.replicate q '"' ++ d :: ds) = some (List.replicate q '"' ++ cs, rest) := by
  have quoted : ∀ xs, xs.take 2 ≠ ['"', '"'] →
      multiBasicBody false ('"' :: xs) = cons? (some '"') (multiBasicBody false xs) := by
    intro xs open_
    rw [multiBasicBody.eq_def]
    split
    case h_6 same =>
      cases same
      rfl
    all_goals simp_all
  obtain rfl | rfl | rfl : q = 0 ∨ q = 1 ∨ q = 2 := by omega
  · exact body
  · show multiBasicBody false ('"' :: d :: ds) = _
    rw [quoted _ (by simp [other]), body]
    rfl
  · show multiBasicBody false ('"' :: '"' :: d :: ds) = _
    rw [quoted _ (by simp [other]), quoted _ (by cases ds <;> simp [other]), body]
    rfl

-- Along the text: the quotes that were passed last are taken back in front of what is left to read.
theorem multiBasicBody_escapedLines (cs : List Char) {rest : List Char} (ends : Ends rest) {q : Nat} (few : q ≤ 2) :
    multiBasicBody false (List.replicate q '"' ++ escapedLines q cs ++ "\"\"\"".toList ++ rest) =
      some (List.replicate q '"' ++ cs, rest) := by
  induction cs generalizing q with
  | nil =>
      have other : ∀ c ∈ rest.head?, c ≠ '"' := fun c first => (ends c first).1
      obtain rfl | rfl | rfl : q = 0 ∨ q = 1 ∨ q = 2 := by omega
      · exact congrArg some (closing_none '"' other)
      · exact congrArg some (closing_one '"' other)
      · exact congrArg some (closing_two '"' rest)
  | cons c cs ih =>
      have after : multiBasicBody false (escapedLines 0 cs ++ ("\"\"\"".toList ++ rest)) = some (cs, rest) := by
        simpa using ih (Nat.zero_le 2)
      unfold escapedLines
      split
      case h_1 same => cases same
      case h_2 same =>
        cases same
        rw [List.append_assoc, List.append_assoc, List.cons_append]
        refine multiBasicBody_quotes few (by decide) ?_
        rw [multiBasicBody_plain (by decide) (by decide) (.inr rfl), after]
        rfl
      case h_3 same =>
        cases same
        split
        case isTrue =>
          rw [List.append_assoc, List.append_assoc, List.cons_append]
          refine multiBasicBody_quotes few (by decide) ?_
          exact (multiBasicBody_escaped '"' _).trans (congrArg (cons? (some '"')) after)
        case isFalse more =>
          have longer := ih (q := q + 1) (by omega)
          simp only [List.replicate_succ', List.append_assoc] at longer ⊢
          exact longer
      case h_4 same =>
        cases same
        obtain ⟨d, ds, first, other, _⟩ := escaped_head c
        have read := multiBasicBody_escaped c (escapedLines 0 cs ++ ("\"\"\"".toList ++ rest))
        rw [after, first, List.cons_append] at read
        rw [List.append_assoc, List.append_assoc, List.append_assoc, first, List.cons_append]
        exact multiBasicBody_quotes few other read

theorem newline?_visible {cs : List Char} (visible : ∀ c ∈ cs.head?, isVisible c) : newline? cs = none := by
  unfold newline?
  split
  · exact absurd (visible _ rfl) (by decide)
  · exact absurd (visible _ rfl) (by decide)
  · rfl

-- After the opening quotes the text is read from its start: its own first line end follows another one.
theorem afterOpening_opening {cs body : List Char} (visible : '\n' ∉ cs → ∀ c ∈ body.head?, isVisible c) :
    afterOpening (opening cs ++ body) = body := by
  unfold opening
  split
  case isTrue => rfl
  case isFalse flat => simp [afterOpening, newline?_visible (visible flat)]

theorem escapedLines_head {cs : List Char} (flat : '\n' ∉ cs) : ∀ c ∈ (escapedLines 0 cs).head?, isVisible c := by
  intro c first
  unfold escapedLines at first
  split at first
  case h_1 => cases first
  case h_2 => simp at flat
  case h_3 =>
    cases first
    rfl
  case h_4 =>
    obtain ⟨d, ds, same, _, visible⟩ := escaped_head ‹Char›
    simp only [same, List.cons_append, List.head?_cons, Option.mem_some_iff] at first
    exact first ▸ visible

theorem string?_basicLines (cs : List Char) {rest : List Char} (ends : Ends rest) :
    string? (basicLines cs ++ rest) = some (cs, rest) := by
  have opened : afterOpening (opening cs ++ (escapedLines 0 cs ++ ("\"\"\"".toList ++ rest))) =
      escapedLines 0 cs ++ ("\"\"\"".toList ++ rest) := by
    refine afterOpening_opening fun flat c first => ?_
    rcases none_or_some : (escapedLines 0 cs).head? with _ | d
    · rw [List.head?_append, none_or_some] at first
      cases first
      rfl
    · rw [List.head?_append, none_or_some] at first
      cases first
      exact escapedLines_head flat _ none_or_some
  have read := multiBasicBody_escapedLines cs ends (Nat.zero_le 2)
  simp only [List.replicate_zero, List.nil_append, List.append_assoc] at read
  simp only [basicLines, List.append_assoc]
  exact (congrArg (multiBasicBody false) opened).trans read

theorem multiLiteralBody_plain {c : Char} (quote : c ≠ '\'') (visible : isVisible c ∨ c = '\n') (cs : List Char) :
    multiLiteralBody (c :: cs) = cons? (some c) (multiLiteralBody cs) := by
  rw [multiLiteralBody.eq_def]
  split
  case h_2 same =>
    cases same
    exact absurd visible (by decide)
  case h_3 same =>
    cases same
    simp [visible]
  all_goals simp_all

theorem multiLiteralBody_quotes {q : Nat} (few : q ≤ 2) {d : Char} (other : d ≠ '\'') {ds cs rest : List Char}
    (body : multiLiteralBody (d :: ds) = some (cs, rest)) :
    multiLiteralBody (List.replicate q '\'' ++ d :: ds) = some (List.replicate q '\'' ++ cs, rest) := by
  have quoted : ∀ xs, xs.take 2 ≠ ['\'', '\''] →
      multiLiteralBody ('\'' :: xs) = cons? (some '\'') (multiLiteralBody xs) := by
    intro xs open_
    rw [multiLiteralBody.eq_def]
    split
    case h_3 same =>
      cases same
      rfl
    all_goals simp_all
  obtain rfl | rfl | rfl : q = 0 ∨ q = 1 ∨ q = 2 := by omega
  · exact body
  · show multiLiteralBody ('\'' :: d :: ds) = _
    rw [quoted _ (by simp [other]), body]
    rfl
  · show multiLiteralBody ('\'' :: '\'' :: d :: ds) = _
    rw [quoted _ (by simp [other]), quoted _ (by cases ds <;> simp [other]), body]
    rfl

theorem le_longestRun (quote : Char) (run : Nat) (cs : List Char) : run ≤ longestRun quote run cs := by
  induction cs generalizing run with
  | nil => exact Nat.le_refl run
  | cons c cs ih =>
      unfold longestRun
      split
      · exact Nat.le_trans (Nat.le_succ run) (ih (run + 1))
      · exact Nat.le_max_left run _

theorem multiLiteralBody_append {cs : List Char} (visible : ∀ c ∈ cs, isVisible c ∨ c = '\n') {rest : List Char}
    (ends : Ends rest) {q : Nat} (few : longestRun '\'' q cs ≤ 2) :
    multiLiteralBody (List.replicate q '\'' ++ cs ++ "'''".toList ++ rest) =
      some (List.replicate q '\'' ++ cs, rest) := by
  induction cs generalizing q with
  | nil =>
      have other : ∀ c ∈ rest.head?, c ≠ '\'' := fun c first => (ends c first).2
      obtain rfl | rfl | rfl : q = 0 ∨ q = 1 ∨ q = 2 := by
        unfold longestRun at few
        omega
      · exact congrArg some (closing_none '\'' other)
      · exact congrArg some (closing_one '\'' other)
      · exact congrArg some (closing_two '\'' rest)
  | cons c cs ih =>
      rw [List.forall_mem_cons] at visible
      unfold longestRun at few
      split at few
      case isTrue same =>
        have longer := ih visible.2 few
        simp only [same, List.replicate_succ', List.append_assoc] at longer ⊢
        exact longer
      case isFalse quote =>
        have after : multiLiteralBody (cs ++ ("'''".toList ++ rest)) = some (cs, rest) := by
          simpa using ih (q := 0) visible.2 (Nat.le_trans (Nat.le_max_right q _) few)
        rw [List.append_assoc, List.append_assoc, List.cons_append]
        refine multiLiteralBody_quotes (Nat.le_trans (Nat.le_max_left q _) few) quote ?_
        rw [multiLiteralBody_plain quote visible.1, after]
        rfl

theorem string?_literalLines {cs : List Char} (visible : ∀ c ∈ cs, isVisible c ∨ c = '\n')
    (few : longestRun '\'' 0 cs ≤ 2) {rest : List Char} (ends : Ends rest) :
    string? (literalLines cs ++ rest) = some (cs, rest) := by
  have opened : afterOpening (opening cs ++ (cs ++ ("'''".toList ++ rest))) = cs ++ ("'''".toList ++ rest) := by
    refine afterOpening_opening fun flat c first => ?_
    cases cs with
    | nil =>
        cases first
        rfl
    | cons d cs =>
        cases first
        exact (visible c (List.mem_cons_self ..)).resolve_right fun same => flat (same ▸ List.mem_cons_self ..)
  have read := multiLiteralBody_append visible ends few
  simp only [List.replicate_zero, List.nil_append, List.append_assoc] at read
  simp only [literalLines, List.append_assoc]
  exact (congrArg multiLiteralBody opened).trans read

theorem mem_longestRun {quote : Char} {cs : List Char} (mem : quote ∈ cs) (run : Nat) :
    0 < longestRun quote run cs := by
  induction cs generalizing run with
  | nil => cases mem
  | cons c cs ih =>
      unfold longestRun
      split
      case isTrue => exact Nat.lt_of_lt_of_le (Nat.succ_pos run) (le_longestRun quote (run + 1) cs)
      case isFalse other =>
        exact Nat.lt_of_lt_of_le (ih (List.mem_of_ne_of_mem (Ne.symm other) mem) 0) (Nat.le_max_right ..)

theorem visible_of_easy {c : Char} (easy : isHardControl c = false) : isVisible c ∨ c = '\n' := by
  by_cases soft : isControl c = false
  · exact .inl (visible_of_soft soft)
  · have either : c = '\t' ∨ c = '\n' := by
      simp only [isHardControl, Bool.and_eq_false_iff, decide_eq_false_iff_not, ne_eq, not_not] at easy
      tauto
    exact either.imp (by rintro rfl; rfl) id

theorem string?_stringChars (cs : List Char) {rest : List Char} (ends : Ends rest) :
    string? (stringChars cs ++ rest) = some (cs, rest) := by
  have easy : ¬ cs.any isHardControl → ∀ c ∈ cs, isVisible c ∨ c = '\n' := fun soft c mem =>
    visible_of_easy (by simpa using fun hard => soft (List.any_eq_true.mpr ⟨c, mem, hard⟩))
  simp only [stringChars]
  split
  · exact string?_basic cs ends
  split
  · rename_i plain
    simp only [Bool.and_eq_true, Bool.not_eq_true', decide_eq_true_eq, List.contains_eq_mem,
      decide_eq_false_iff_not] at plain
    obtain ⟨⟨soft, none⟩, flat⟩ := plain
    refine string?_literal (fun mem => ?_) (fun c mem => ?_) ends
    · exact absurd (mem_longestRun mem 0) (by omega)
    · exact (easy (by simp [soft]) c mem).resolve_right fun same => flat (same ▸ mem)
  split
  · exact string?_basicLines cs ends
  split
  · rename_i lines
    simp only [Bool.and_eq_true, Bool.not_eq_true', decide_eq_true_eq] at lines
    exact string?_literalLines (easy (by simp [lines.1])) lines.2 ends
  split
  · exact string?_basicLines cs ends
  · exact string?_basic cs ends

end ContainerProfiles.Toml
