import ContainerProfiles.Document.Toml.Reader
import ContainerProfiles.Proofs.StringForms
import ContainerProfiles.Proofs.VersionSpellings

namespace ContainerProfiles.Toml
open Document

-- Documents of plain lines. A key without quotes, an equals sign and a value on each line: such a document is read
-- as the table of its lines, whatever the values are, as long as each of them is read as a whole where it stands.

theorem digitValue?_digit {c : Char} (digit : c.isDigit) : digitValue? c = some (c.toNat - '0'.toNat) := by
  simp only [Char.isDigit, Bool.and_eq_true, decide_eq_true_eq] at digit
  exact if_pos ⟨digit.1, digit.2⟩

theorem isDigitOf_digit {c : Char} (digit : c.isDigit) : isDigitOf 10 c := by
  have bounds := Segment.digit_bounds digit
  have zero : '0'.toNat = 48 := rfl
  unfold isDigitOf
  rw [digitValue?_digit digit]
  simp only [decide_eq_true_eq]
  omega

theorem ofDigits_digits {cs : List Char} (digits : ∀ c ∈ cs, c.isDigit) : ofDigits 10 cs = Segment.value cs := by
  have along : ∀ start, cs.foldl (fun n c => n * 10 + (digitValue? c).getD 0) start =
      cs.foldl (fun n c => n * 10 + (c.toNat - '0'.toNat)) start := by
    induction cs with
    | nil => exact fun _ => rfl
    | cons c cs ih =>
        rw [List.forall_mem_cons] at digits
        intro start
        rw [List.foldl_cons, List.foldl_cons, digitValue?_digit digits.1]
        exact ih digits.2 _
  exact along 0

theorem ofDigits_toDigits (n : Nat) : ofDigits 10 (Nat.toDigits 10 n) = n :=
  (ofDigits_digits fun _ => Nat.isDigit_of_mem_toDigits (by decide) (by decide)).trans (Version.value_toDigits n)

theorem underscored_digits {cs rest : List Char} (digits : ∀ c ∈ cs, c.isDigit) :
    underscored 10 (cs ++ '\n' :: rest) = (cs, '\n' :: rest) := by
  induction cs with
  | nil => rfl
  | cons c cs ih =>
      rw [List.forall_mem_cons] at digits
      rw [List.cons_append, underscored.eq_def]
      split
      case h_1 same =>
        rw [(List.cons.inj same).1] at digits
        exact absurd digits.1 (by decide)
      case h_2 same =>
        cases same
        rw [if_pos (isDigitOf_digit digits.1), ih digits.2]
      case h_3 same => cases same

theorem digitRun_digits {cs rest : List Char} (digits : ∀ c ∈ cs, c.isDigit) (filled : cs ≠ []) :
    digitRun 10 (cs ++ '\n' :: rest) = some (cs, '\n' :: rest) := by
  cases cs with
  | nil => exact absurd rfl filled
  | cons c cs =>
      rw [List.forall_mem_cons] at digits
      rw [List.cons_append, digitRun, if_pos (isDigitOf_digit digits.1), underscored_digits digits.2]

theorem decimalRun_toDigits (n : Nat) (rest : List Char) :
    decimalRun (Nat.toDigits 10 n ++ '\n' :: rest) = some (Nat.toDigits 10 n, '\n' :: rest) := by
  unfold decimalRun
  split
  · rename_i more same
    have zero : n = 0 := Version.zero_of_head (by
      rw [← List.head?_append_of_ne_nil _ Nat.toDigits_ne_nil, same]
      rfl)
    subst zero
    cases same
    rfl
  · exact digitRun_digits (fun _ => Nat.isDigit_of_mem_toDigits (by decide) (by decide)) Nat.toDigits_ne_nil

section Line
variable {cs rest : List Char} (digits : ∀ c ∈ cs, c.isDigit)
include digits

-- However many digits are taken, a digit or the end of the line follows.
theorem fixedDigits_expect (sign : Char) (other : sign.isDigit = false ∧ sign ≠ '\n') {count n : Nat}
    {after : List Char} (taken : fixedDigits count (cs ++ '\n' :: rest) = some (n, after)) :
    expect sign after = none := by
  unfold fixedDigits at taken
  dsimp only at taken
  split at taken
  case isFalse => cases taken
  case isTrue fixed =>
    simp only [Bool.and_eq_true, decide_eq_true_eq, List.all_eq_true] at fixed
    cases taken
    have inside : count ≤ cs.length := by
      by_contra beyond
      have mem : '\n' ∈ (cs ++ '\n' :: rest).take count := by
        rw [List.take_append]
        exact List.mem_append_right _ (by
          obtain ⟨more, same⟩ : ∃ more, count - cs.length = more + 1 := ⟨count - cs.length - 1, by omega⟩
          simp [same])
      exact absurd (fixed.2 _ mem) (by decide)
    rw [List.drop_append_of_le_length inside]
    rcases more : cs.drop count with _ | ⟨c, ds⟩
    · exact if_neg (Ne.symm other.2)
    · have digit := digits c (List.mem_of_mem_drop (more ▸ List.mem_cons_self))
      refine if_neg ?_
      rintro rfl
      exact absurd digit (by simp [other.1])

theorem date_digits : date (cs ++ '\n' :: rest) = none := by
  unfold date
  rcases year : fixedDigits 4 (cs ++ '\n' :: rest) with _ | ⟨n, after⟩
  · rfl
  · simp [fixedDigits_expect digits '-' (by decide) year]

theorem time_digits : time (cs ++ '\n' :: rest) = none := by
  unfold time
  rcases hour : fixedDigits 2 (cs ++ '\n' :: rest) with _ | ⟨n, after⟩
  · rfl
  · simp [fixedDigits_expect digits ':' (by decide) hour]

theorem moment_digits : moment (cs ++ '\n' :: rest) = none := by
  unfold moment dateTime
  rw [date_digits digits, time_digits digits]
  rfl

theorem head_digits : ∀ c ∈ (cs ++ '\n' :: rest).head?, c.isDigit ∨ c = '\n' := by
  intro c first
  rcases cs with _ | ⟨d, ds⟩
  · cases first
    exact .inr rfl
  · cases first
    exact .inl (digits c List.mem_cons_self)

theorem second_digits {a b : Char} {more : List Char} (same : cs ++ '\n' :: rest = a :: b :: more) (solid : a ≠ '\n') :
    b.isDigit ∨ b = '\n' := by
  rcases cs with _ | ⟨d, ds⟩
  · exact absurd (List.cons.inj same).1.symm solid
  · rw [List.forall_mem_cons] at digits
    have next : ds ++ '\n' :: rest = b :: more := (List.cons.inj same).2
    exact head_digits digits.2 b (by rw [next]; rfl)

theorem sign_digits : sign (cs ++ '\n' :: rest) = (false, cs ++ '\n' :: rest) := by
  have first : ∀ c ∈ (cs ++ '\n' :: rest).head?, c.isDigit ∨ c = '\n' := head_digits digits
  unfold sign
  split
  · rename_i same
    exact absurd (first '-' (by rw [same]; rfl)) (by decide)
  · rename_i same
    exact absurd (first '+' (by rw [same]; rfl)) (by decide)
  · rfl

theorem specialFloat_digits : specialFloat (cs ++ '\n' :: rest) = none := by
  have first : ∀ c ∈ (cs ++ '\n' :: rest).head?, c.isDigit ∨ c = '\n' := head_digits digits
  unfold specialFloat
  rw [sign_digits digits]
  refine if_neg ?_
  generalize cs ++ '\n' :: rest = line at first
  rcases line with _ | ⟨c, line⟩
  · decide
  · have other := first c rfl
    simp only [Bool.or_eq_true, List.isPrefixOf_iff_prefix]
    rintro (⟨more, same⟩ | ⟨more, same⟩)
    · rw [← (List.cons.inj same).1] at other
      exact absurd other (by decide)
    · rw [← (List.cons.inj same).1] at other
      exact absurd other (by decide)

end Line

theorem digits_toDigits (n : Nat) : ∀ c ∈ Nat.toDigits 10 n, c.isDigit := fun _ =>
  Nat.isDigit_of_mem_toDigits (by decide) (by decide)

theorem float_toDigits (n : Nat) (rest : List Char) : float (Nat.toDigits 10 n ++ '\n' :: rest) = none := by
  unfold float
  rw [sign_digits (digits_toDigits n)]
  simp [decimalRun_toDigits, fraction?, exponent?]

theorem whole_toDigits {n : Nat} (small : n < UInt64.size / 2) (rest : List Char) :
    whole (Nat.toDigits 10 n ++ '\n' :: rest) = some (.integer n, '\n' :: rest) := by
  have digits := digits_toDigits n
  unfold whole
  split
  · rename_i same
    exact absurd (second_digits digits same (by decide)) (by decide)
  · rename_i same
    exact absurd (second_digits digits same (by decide)) (by decide)
  · rename_i same
    exact absurd (second_digits digits same (by decide)) (by decide)
  · rw [sign_digits digits]
    simp [decimalRun_toDigits, ofDigits_toDigits, bounded, small]

theorem number_toDigits {n : Nat} (small : n < UInt64.size / 2) (rest : List Char) :
    number (Nat.toDigits 10 n ++ '\n' :: rest) = some (.integer n, '\n' :: rest) := by
  unfold number
  rw [moment_digits (digits_toDigits n), float_toDigits, specialFloat_digits (digits_toDigits n), whole_toDigits small]
  rfl

-- A spelling that is read as this value in front of a line end.
structure Spells (cs : List Char) (n : Node) : Prop where
  tight : ∀ c ∈ cs.head?, isSpace c = false
  read : ∀ fuel rest, value (fuel + 1) 0 (cs ++ '\n' :: rest) = some (n, '\n' :: rest)

theorem value_digit {c : Char} (digit : c.isDigit) (fuel depth : Nat) (cs : List Char) :
    value (fuel + 1) depth (c :: cs) = number (c :: cs) := by
  unfold value
  split
  case h_9 => rfl
  all_goals
    rename_i same
    rw [(List.cons.inj same).1] at digit
    exact absurd digit (by decide)

theorem spells_integer {n : Nat} (small : n < UInt64.size / 2) : Spells (Nat.toDigits 10 n) (.integer n) := by
  have digits := digits_toDigits n
  have numbers := number_toDigits small
  cases spelled : Nat.toDigits 10 n with
  | nil => exact absurd spelled Nat.toDigits_ne_nil
  | cons c cs =>
      rw [spelled] at digits numbers
      have digit := digits c List.mem_cons_self
      refine ⟨fun d first => ?_, fun fuel rest => ?_⟩
      · cases first
        apply Bool.eq_false_iff.mpr
        intro space
        simp only [isSpace, Bool.or_eq_true, decide_eq_true_eq] at space
        rcases space with rfl | rfl
        · exact absurd digit (by decide)
        · exact absurd digit (by decide)
      · exact (value_digit digit fuel 0 _).trans (numbers rest)

theorem stringChars_head (cs : List Char) : ∃ ds, stringChars cs = '"' :: ds ∨ stringChars cs = '\'' :: ds := by
  simp only [stringChars]
  split
  · exact ⟨_, .inl rfl⟩
  split
  · exact ⟨_, .inr rfl⟩
  split
  · exact ⟨_, .inl rfl⟩
  split
  · exact ⟨_, .inr rfl⟩
  split
  · exact ⟨_, .inl rfl⟩
  · exact ⟨_, .inl rfl⟩

theorem spells_text (s : String) : Spells (stringChars s.toList) (.text s) := by
  have reads : ∀ rest, string? (stringChars s.toList ++ '\n' :: rest) = some (s.toList, '\n' :: rest) := fun rest =>
    string?_stringChars s.toList fun c first => by
      cases first
      decide
  obtain ⟨ds, spelled | spelled⟩ := stringChars_head s.toList
  all_goals
    rw [spelled] at reads ⊢
    refine ⟨fun c first => ?_, fun fuel rest => ?_⟩
    · cases first
      rfl
    · rw [List.cons_append, value, ← List.cons_append, reads]
      simp

theorem visible_of_bare {c : Char} (bare : isBare c) : isVisible c := by
  change ((decide (65 ≤ c.val ∧ c.val ≤ 90) || decide (97 ≤ c.val) && decide (c.val ≤ 122) ||
    decide (48 ≤ c.val) && decide (c.val ≤ 57)) || decide (c = '-') || decide (c = '_')) = true at bare
  simp only [Bool.or_eq_true, Bool.and_eq_true, decide_eq_true_eq, UInt32.le_iff_toNat_le] at bare
  simp only [isVisible, Bool.or_eq_true, Bool.and_eq_true, decide_eq_true_eq]
  right
  rcases bare with (((⟨low, high⟩ | ⟨low, high⟩) | ⟨low, high⟩) | rfl) | rfl
  · exact ⟨Nat.le_trans (by decide) low, fun same => absurd (same ▸ high : 0x7F ≤ 90) (by decide)⟩
  · exact ⟨Nat.le_trans (by decide) low, fun same => absurd (same ▸ high : 0x7F ≤ 122) (by decide)⟩
  · exact ⟨Nat.le_trans (by decide) low, fun same => absurd (same ▸ high : 0x7F ≤ 57) (by decide)⟩
  · decide
  · decide

theorem ne_of_bare {c d : Char} (bare : isBare c) (other : isBare d = false) : c ≠ d := by
  rintro rfl
  cases bare.symm.trans other

theorem tight_of_bare {c : Char} (bare : isBare c) : isSpace c = false := by
  have blank := ne_of_bare bare (d := ' ') (by decide)
  have tab := ne_of_bare bare (d := '\t') (by decide)
  simp [isSpace, blank, tab]

theorem skipSpaces_tight {cs : List Char} (tight : ∀ c ∈ cs.head?, isSpace c = false) : skipSpaces cs = cs := by
  rcases cs with _ | ⟨c, cs⟩
  · rfl
  · exact List.dropWhile_cons_of_neg (by simp [tight c rfl])

-- At least one character, and all of them bare.
def BareKey (cs : List Char) : Prop := cs ≠ [] ∧ ∀ c ∈ cs, isBare c

section Key
variable {key : List Char} (bare : BareKey key) (rest : List Char)
include bare

theorem head_key : ∃ c cs, key = c :: cs ∧ isBare c := by
  obtain ⟨filled, all⟩ := bare
  rcases key with _ | ⟨c, cs⟩
  · exact absurd rfl filled
  · exact ⟨c, cs, rfl, all c List.mem_cons_self⟩

theorem simpleKey_bare : simpleKey (key ++ ' ' :: rest) = some (String.ofList key, ' ' :: rest) := by
  obtain ⟨c, cs, same, first⟩ := head_key bare
  have taken : (key ++ ' ' :: rest).takeWhile isBare = key := by
    rw [List.takeWhile_append_of_pos bare.2]
    exact List.append_nil key
  have left : (key ++ ' ' :: rest).dropWhile isBare = ' ' :: rest := List.dropWhile_append_of_pos bare.2
  unfold simpleKey
  split
  · rename_i quoted
    rw [same] at quoted
    exact absurd (List.cons.inj quoted).1 (ne_of_bare first (by decide))
  · rename_i quoted
    rw [same] at quoted
    exact absurd (List.cons.inj quoted).1 (ne_of_bare first (by decide))
  · dsimp only
    rw [taken, left, if_neg (by simpa using bare.1)]

theorem path_bare : path (key ++ ' ' :: '=' :: rest) = some ([String.ofList key], '=' :: rest) := by
  obtain ⟨c, cs, same, first⟩ := head_key bare
  have skipped : skipSpaces (key ++ ' ' :: '=' :: rest) = key ++ ' ' :: '=' :: rest :=
    skipSpaces_tight fun d head => by
      rw [same] at head
      cases head
      exact tight_of_bare first
  have keys : keyPath (key ++ ' ' :: '=' :: rest).length (key ++ ' ' :: '=' :: rest) =
      some ([String.ofList key], '=' :: rest) := by
    obtain ⟨fuel, some⟩ : ∃ fuel, (key ++ ' ' :: '=' :: rest).length = fuel + 1 := ⟨_, by simp [same]; rfl⟩
    rw [some, keyPath, skipped, simpleKey_bare bare]
    rfl
  unfold path
  rw [keys]
  rfl

end Key

structure Line where
  key : String
  spelling : List Char
  node : Node

namespace Line

def chars (l : Line) : List Char := l.key.toList ++ " = ".toList ++ l.spelling ++ ['\n']

structure Reads (l : Line) : Prop where
  bare : BareKey l.key.toList
  spells : Spells l.spelling l.node

def statement (l : Line) : Statement := .assignment [l.key] l.node

variable {l : Line}

theorem chars_append (l : Line) (rest : List Char) :
    l.chars ++ rest = l.key.toList ++ ' ' :: '=' :: ' ' :: (l.spelling ++ '\n' :: rest) := by
  simp [chars]

theorem Reads.assignment (reads : l.Reads) (rest : List Char) :
    Toml.assignment (l.chars ++ rest) = some (l.statement, '\n' :: rest) := by
  have tight : ∀ c ∈ (l.spelling ++ '\n' :: rest).head?, isSpace c = false := fun c first => by
    rcases spelling : l.spelling with _ | ⟨d, ds⟩
    · rw [spelling] at first
      cases first
      rfl
    · rw [spelling] at first
      cases first
      exact reads.spells.tight c (by rw [spelling]; rfl)
  have spelled : skipSpaces (' ' :: (l.spelling ++ '\n' :: rest)) = l.spelling ++ '\n' :: rest :=
    skipSpaces_tight tight
  unfold Toml.assignment
  rw [chars_append, path_bare reads.bare]
  simp [expect, spelled, reads.spells.read, statement]

-- The first character of a line is one of its key.
theorem Reads.head (reads : l.Reads) (rest : List Char) : ∃ c cs, l.chars ++ rest = c :: cs ∧ isBare c := by
  obtain ⟨c, cs, same, first⟩ := head_key reads.bare
  exact ⟨c, _, by rw [chars_append, same]; rfl, first⟩

theorem Reads.statements (reads : l.Reads) (fuel : Nat) (rest : List Char) :
    Toml.statements (fuel + 1) (l.chars ++ rest) = (Toml.statements fuel rest).map (l.statement :: ·) := by
  obtain ⟨c, cs, same, first⟩ := reads.head rest
  have skipped : skipSpaces (c :: cs) = c :: cs := skipSpaces_tight fun d head => by
    cases head
    exact tight_of_bare first
  have solid : lineEnd (c :: cs) = none := by
    unfold lineEnd
    rw [skipped]
    have whole : afterComment (c :: cs) = c :: cs := by
      unfold afterComment
      split
      · rename_i marked
        exact absurd (List.cons.inj marked).1 (ne_of_bare first (by decide))
      · rfl
    rw [whole]
    refine newline?_visible fun d head => ?_
    cases head
    exact visible_of_bare first
  have bracket : (c :: cs).head? ≠ some '[' := fun head =>
    ne_of_bare first (by decide) (Option.some.inj head)
  have assigned := reads.assignment rest
  rw [same] at assigned ⊢
  rw [Toml.statements, skipped]
  dsimp only
  rw [solid]
  dsimp only
  rw [if_neg bracket, assigned]
  have ended : lineEnd ('\n' :: rest) = some rest := rfl
  simp only [Option.bind_eq_bind, Option.bind_some, ended]
  cases Toml.statements fuel rest <;> rfl

end Line

def documentChars (ls : List Line) : List Char := ls.flatMap Line.chars

theorem statements_document {ls : List Line} (reads : ∀ l ∈ ls, l.Reads) {fuel : Nat} (enough : ls.length < fuel) :
    statements fuel (documentChars ls) = some (ls.map Line.statement) := by
  induction ls generalizing fuel with
  | nil =>
      obtain ⟨fuel, rfl⟩ : ∃ k, fuel = k + 1 := ⟨fuel - 1, by simp at enough; omega⟩
      rfl
  | cons l ls ih =>
      rw [List.forall_mem_cons] at reads
      rw [List.length_cons] at enough
      obtain ⟨fuel, rfl⟩ : ∃ k, fuel = k + 1 := ⟨fuel - 1, by omega⟩
      unfold documentChars at ih ⊢
      rw [List.flatMap_cons, reads.1.statements, ih reads.2 (by omega)]
      rfl

-- Every line has a character at least.
theorem length_document (ls : List Line) : ls.length ≤ (documentChars ls).length := by
  induction ls with
  | nil => exact Nat.zero_le _
  | cons l ls ih =>
      unfold documentChars at ih ⊢
      rw [List.flatMap_cons, List.length_append, List.length_cons, Nat.add_comm]
      have some : 1 ≤ l.chars.length := by
        simp only [Line.chars, List.length_append, List.length_singleton]
        omega
      exact Nat.add_le_add some ih

theorem readStatements_document {ls : List Line} (reads : ∀ l ∈ ls, l.Reads) :
    readStatements (String.ofList (documentChars ls)) = some (ls.map Line.statement) := by
  have whole := statements_document reads (Nat.lt_succ_of_le (length_document ls))
  unfold readStatements
  rw [String.toList_ofList]
  split
  · rename_i marked
    exfalso
    cases ls with
    | nil => cases marked
    | cons l ls =>
        obtain ⟨c, cs, same, first⟩ := (reads l List.mem_cons_self).head (documentChars ls)
        have begins : documentChars (l :: ls) = c :: cs := same
        rw [begins] at marked
        exact absurd (List.cons.inj marked).1 (ne_of_bare first (by decide))
  · exact whole

theorem Line.add {l : Line} {entries : List (String × Branch)} (fresh : value? l.key entries = none) :
    Outline.add ⟨.table false false entries, []⟩ l.statement =
      some ⟨.table false false (entries ++ [(l.key, .leaf l.node)]), []⟩ := by
  simp [Outline.add, Line.statement, Branch.within, Branch.assign, fresh]

theorem value?_append {key : String} {α : Type} {entries : List (String × α)} {other : String} (x : α)
    (fresh : value? key entries = none) (apart : key ≠ other) : value? key (entries ++ [(other, x)]) = none := by
  unfold value? at fresh ⊢
  rw [Option.map_eq_none_iff] at fresh ⊢
  rw [List.find?_append, fresh]
  simpa using Ne.symm apart

-- Each line adds its key at the end of the only table.
theorem add_document {ls : List Line} (apart : (ls.map Line.key).Nodup) {entries : List (String × Branch)}
    (fresh : ∀ l ∈ ls, value? l.key entries = none) :
    (ls.map Line.statement).foldlM Outline.add ⟨.table false false entries, []⟩ =
      some ⟨.table false false (entries ++ ls.map fun l => (l.key, .leaf l.node)), []⟩ := by
  induction ls generalizing entries with
  | nil => simp
  | cons l ls ih =>
      rw [List.map_cons, List.nodup_cons] at apart
      rw [List.forall_mem_cons] at fresh
      have later : ∀ k ∈ ls, value? k.key (entries ++ [(l.key, .leaf l.node)]) = none := fun k mem =>
        value?_append _ (fresh.2 k mem) fun same => apart.1 (same ▸ List.mem_map_of_mem mem)
      rw [List.map_cons, List.foldlM_cons, Line.add fresh.1]
      exact (ih apart.2 later).trans (by simp)

theorem entryNodes_leaves (ls : List Line) :
    Branch.entryNodes (ls.map fun l => (l.key, .leaf l.node)) = ls.map fun l => (l.key, l.node) := by
  induction ls with
  | nil => rfl
  | cons l ls ih => exact congrArg ((l.key, l.node) :: ·) ih

-- A document of plain lines with keys of their own is the table of its lines.
theorem read_document {ls : List Line} (reads : ∀ l ∈ ls, l.Reads) (apart : (ls.map Line.key).Nodup) :
    Toml.read (String.ofList (documentChars ls)) = some (.table (ls.map fun l => (l.key, l.node))) := by
  have added : (ls.map Line.statement).foldlM Outline.add {} = _ := add_document apart fun _ _ => rfl
  unfold Toml.read
  rw [readStatements_document reads]
  simp only [Option.bind_eq_bind, Option.bind_some, added, List.nil_append, Branch.toNode, entryNodes_leaves]
  rfl

end ContainerProfiles.Toml
