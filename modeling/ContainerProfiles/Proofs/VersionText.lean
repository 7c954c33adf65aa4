import ContainerProfiles.Profile.Error

namespace ContainerProfiles.Version

-- The text of a version reads as that version again, so versions with the same text are the same. It is made of
-- letters, digits and a few signs, and begins with a digit.

theorem digitChar_value : ∀ n, n < 10 → n.digitChar.isDigit ∧ n.digitChar.toNat - '0'.toNat = n := by
  decide

-- Each digit is taken behind the number that stands before it.
theorem number_toDigits (part : Part) (n : Nat) (small : n < UInt64.size) (rest : List Char) :
    number part (Nat.toDigits 10 n ++ rest) = moreDigits part n rest := by
  induction n using Nat.strongRecOn generalizing rest with
  | ind n ih =>
      rw [Nat.toDigits_eq_if (by decide)]
      split
      · rename_i single
        obtain ⟨digit, value⟩ := digitChar_value n single
        rw [List.singleton_append, number, if_pos digit, value]
      · rename_i several
        obtain ⟨digit, value⟩ := digitChar_value (n % 10) (Nat.mod_lt _ (by decide))
        have front : n / 10 ≠ 0 := by omega
        have whole : n / 10 * 10 + n % 10 = n := by omega
        rw [List.append_assoc, ih (n / 10) (by omega) (by omega), List.singleton_append, moreDigits,
          if_pos digit, if_neg front, value, whole]
        exact if_pos small

theorem number_of_toDigits (part : Part) (n : UInt64) {rest : List Char}
    (ends : ∀ c ∈ rest.head?, c.isDigit = false) :
    number part (Nat.toDigits 10 n.toNat ++ rest) = .ok (n, rest) := by
  rw [number_toDigits part n.toNat n.toNat_lt]
  cases rest with
  | nil => rw [moreDigits, UInt64.ofNat_toNat]
  | cons c rest =>
      have other : ¬ c.isDigit := by
        rw [ends c (by simp)]
        exact Bool.false_ne_true
      rw [moreDigits, if_neg other, UInt64.ofNat_toNat]

theorem segment_text (part : Part) (s : Segment) : segment part s.text = .ok s := by
  have plain : (!s.text.isEmpty && s.text.all isPlain) = true := by
    have some : s.text.isEmpty = false := by simpa using s.nonempty
    rw [some, List.all_eq_true.mpr s.plain]
    rfl
  unfold segment
  rw [dif_pos plain]

theorem preSegment_text (s : PreSegment) : preSegment s.toSegment.text = .ok s := by
  unfold preSegment
  rw [segment_text]
  simp only [bind, Except.bind]
  rw [dif_pos s.canonical]

theorem dot_not_plain : isPlain '.' = false := by decide

theorem mapM_ok {f : α → Except ε β} {g : β → α} (back : ∀ b, f (g b) = .ok b) (bs : List β) :
    (bs.map g).mapM f = .ok bs := by
  induction bs with
  | nil => rfl
  | cons b bs ih =>
      rw [List.map_cons, List.mapM_cons, back, ih]
      rfl

theorem mem_joinSegments {ss : List Segment} {c : Char} (member : c ∈ joinSegments ss) :
    isPlain c ∨ c = '.' := by
  unfold joinSegments at member
  induction ss with
  | nil => cases member
  | cons s ss ih =>
      cases ss with
      | nil =>
          rw [List.map_cons, List.map_nil, List.intercalate_singleton] at member
          exact .inl (s.plain c member)
      | cons t ss =>
          rw [List.map_cons, List.map_cons, List.intercalate_cons_cons, List.append_assoc,
            List.mem_append] at member
          rcases member with own | later
          · exact .inl (s.plain c own)
          · rcases List.mem_append.mp later with point | later
            · exact .inr (List.mem_singleton.mp point)
            · exact ih later

-- What opens no segment ends them.
theorem segments_join {one : List Char → Except Fault α} {text : α → Segment}
    (back : ∀ a, one (text a).text = .ok a) {as : List α} (filled : as ≠ []) {rest : List Char}
    (ends : ∀ c ∈ rest.head?, inSegments c = false) :
    segments one (joinSegments (as.map text) ++ rest) = .ok (as, rest) := by
  have inside : ∀ c ∈ joinSegments (as.map text), inSegments c := by
    intro c member
    rcases mem_joinSegments member with plain | rfl
    · simp [inSegments, plain]
    · rfl
  have behind : rest.takeWhile inSegments = [] ∧ rest.dropWhile inSegments = rest := by
    cases rest with
    | nil => exact ⟨rfl, rfl⟩
    | cons c rest =>
        have other := ends c (by simp)
        simp [other]
  have parts : (joinSegments (as.map text)).splitOn '.' = as.map (fun a => (text a).text) := by
    unfold joinSegments
    rw [List.splitOn_intercalate, List.map_map]
    · rfl
    · intro cs member point
      obtain ⟨s, _, rfl⟩ := List.mem_map.mp member
      have plain := s.plain '.' point
      rw [dot_not_plain] at plain
      cases plain
    · simpa using filled
  unfold segments
  rw [List.takeWhile_append_of_pos inside, List.dropWhile_append_of_pos inside, behind.1, behind.2,
    List.append_nil, parts, mapM_ok back]
  rfl

def preChars (v : Version) : List Char :=
  if v.pre.isEmpty then [] else '-' :: joinSegments (v.pre.map PreSegment.toSegment)

def buildChars (v : Version) : List Char :=
  if v.build.isEmpty then [] else '+' :: joinSegments v.build

theorem readPre_text (v : Version) :
    readPre (v.preChars ++ v.buildChars) =
      .ok { pre := v.pre, last := if v.pre.isEmpty then .patch else .pre, rest := v.buildChars } := by
  have ends : ∀ c ∈ v.buildChars.head?, inSegments c = false := by
    unfold buildChars
    split
    · simp
    · intro c first
      cases first
      rfl
  unfold preChars
  split
  · rename_i ended
    have empty : v.pre = [] := List.isEmpty_iff.mp ended
    rw [List.nil_append, empty]
    unfold readPre
    split
    · rename_i cs opened
      unfold buildChars at opened
      split at opened <;> cases opened
    · rfl
  · rename_i more
    have filled : v.pre ≠ [] := by simpa using more
    have read := segments_join preSegment_text filled ends
    change (segments preSegment (joinSegments (v.pre.map PreSegment.toSegment) ++ v.buildChars) >>= _) = _
    rw [read]
    rfl

theorem readBuild_text (v : Version) (tail : Tail) (next : tail.rest = v.buildChars)
    (first : tail.build = []) :
    ∃ last, readBuild tail = .ok { tail with build := v.build, last, rest := [] } := by
  by_cases vacant : v.build.isEmpty
  · have empty : v.build = [] := List.isEmpty_iff.mp vacant
    have ended : v.buildChars = [] := if_pos vacant
    obtain ⟨pre, build, last, rest⟩ := tail
    dsimp only at next first
    rw [ended] at next
    subst next first
    exact ⟨last, by rw [empty]; rfl⟩
  · have back : ∀ s : Segment, segment .build (id s).text = .ok s := segment_text .build
    have filled : v.build ≠ [] := by simpa using vacant
    have ends : ∀ c ∈ ([] : List Char).head?, inSegments c = false := nofun
    have read := segments_join back filled ends
    have more : v.buildChars = '+' :: joinSegments v.build := if_neg vacant
    rw [List.map_id, List.append_nil] at read
    refine ⟨.build, ?_⟩
    unfold readBuild
    rw [next, more]
    change (segments (segment .build) (joinSegments v.build) >>= _) = _
    rw [read]
    rfl

theorem toChars_eq (v : Version) : v.toChars = Nat.toDigits 10 v.major.toNat ++ '.' ::
    (Nat.toDigits 10 v.minor.toNat ++ '.' :: (Nat.toDigits 10 v.patch.toNat ++
      (v.preChars ++ v.buildChars))) := by
  simp [toChars, preChars, buildChars]

theorem tail_head (v : Version) : ∀ c ∈ (v.preChars ++ v.buildChars).head?, opensTail c := by
  unfold preChars buildChars
  split
  · split
    · simp
    · intro c first
      cases first
      rfl
  · intro c first
    cases first
    rfl

theorem readFull_text (v : Version) : readFull v.toChars = .ok v := by
  have ends : ∀ c ∈ (v.preChars ++ v.buildChars).head?, c.isDigit = false := by
    intro c first
    have opens := v.tail_head c first
    simp only [opensTail, Bool.or_eq_true, decide_eq_true_eq] at opens
    rcases opens with rfl | rfl <;> rfl
  have point : ∀ cs, ∀ c ∈ ('.' :: cs : List Char).head?, c.isDigit = false := by
    intro cs c first
    cases first
    rfl
  have some : v.toChars.isEmpty = false := by
    rw [toChars_eq]
    simp
  obtain ⟨last, built⟩ := readBuild_text v
    { pre := v.pre, last := if v.pre.isEmpty then .patch else .pre, rest := v.buildChars } rfl rfl
  unfold readFull
  rw [some, toChars_eq]
  simp only [bind, Except.bind, Bool.false_eq_true, if_false]
  rw [number_of_toDigits _ _ (point _)]
  simp only [dot, if_true]
  rw [number_of_toDigits _ _ (point _)]
  simp only [if_true]
  rw [number_of_toDigits _ _ ends]
  simp only
  rw [readPre_text]
  simp only
  rw [built]
  rfl

-- The characters a version is made of.
def isTextual (c : Char) : Bool := isPlain c || c = '.' || c = '+'

theorem digit_plain {c : Char} (digit : c.isDigit) : isPlain c := by
  simp [isPlain, Char.isAlphanum, digit]

theorem mem_toChars {v : Version} {c : Char} (member : c ∈ v.toChars) : isTextual c := by
  have digits : ∀ n, c ∈ Nat.toDigits 10 n → isTextual c := fun n inside => by
    simp [isTextual, digit_plain (Nat.isDigit_of_mem_toDigits (by decide) (by decide) inside)]
  have joined : ∀ ss, c ∈ joinSegments ss → isTextual c := fun ss inside => by
    rcases mem_joinSegments inside with plain | rfl
    · simp [isTextual, plain]
    · rfl
  rw [toChars_eq] at member
  simp only [List.mem_append, List.mem_cons] at member
  rcases member with inside | rfl | inside | rfl | inside | inside | inside
  · exact digits _ inside
  · rfl
  · exact digits _ inside
  · rfl
  · exact digits _ inside
  · unfold preChars at inside
    split at inside
    · cases inside
    · rcases List.mem_cons.mp inside with rfl | inside
      · rfl
      · exact joined _ inside
  · unfold buildChars at inside
    split at inside
    · cases inside
    · rcases List.mem_cons.mp inside with rfl | inside
      · rfl
      · exact joined _ inside

theorem digits_free {n : Nat} {p : Char → Bool} (free : ∀ c, c.isDigit → p c = false) :
    ∀ c ∈ Nat.toDigits 10 n, p c = false :=
  fun c member => free c (Nat.isDigit_of_mem_toDigits (by decide) (by decide) member)

-- A text is parted where its first sign stands.
theorem parted {core tail : List Char} (free : ∀ c ∈ core, opensTail c = false)
    (opens : ∀ c ∈ tail.head?, opensTail c) :
    (core ++ tail).takeWhile (fun c => !opensTail c) = core ∧
      (core ++ tail).dropWhile (fun c => !opensTail c) = tail := by
  have inside : ∀ c ∈ core, (!opensTail c) = true := fun c member => by simp [free c member]
  have stops : tail.takeWhile (fun c => !opensTail c) = [] ∧
      tail.dropWhile (fun c => !opensTail c) = tail := by
    cases tail with
    | nil => exact ⟨rfl, rfl⟩
    | cons c rest => simp [opens c (by simp)]
  rw [List.takeWhile_append_of_pos inside, List.dropWhile_append_of_pos inside, stops.1, stops.2]
  exact ⟨List.append_nil core, rfl⟩

-- The three numbers, with points between.
def numberChars (v : Version) : List Char := Nat.toDigits 10 v.major.toNat ++ '.' ::
  (Nat.toDigits 10 v.minor.toNat ++ '.' :: Nat.toDigits 10 v.patch.toNat)

theorem toChars_parts (v : Version) : v.toChars = v.numberChars ++ (v.preChars ++ v.buildChars) := by
  rw [toChars_eq]
  simp [numberChars]

theorem numberChars_free (v : Version) : ∀ c ∈ v.numberChars, opensTail c = false := by
  have before : ∀ n, ∀ c ∈ Nat.toDigits 10 n, opensTail c = false := fun n =>
    digits_free fun c digit => by
      unfold opensTail
      rw [Bool.or_eq_false_iff, decide_eq_false_iff_not, decide_eq_false_iff_not]
      constructor
      · rintro rfl
        cases digit
      · rintro rfl
        cases digit
  intro c member
  simp only [numberChars, List.mem_append, List.mem_cons] at member
  rcases member with inside | rfl | inside | rfl | inside
  · exact before _ c inside
  · rfl
  · exact before _ c inside
  · rfl
  · exact before _ c inside

theorem no_point (n : Nat) : '.' ∉ Nat.toDigits 10 n := fun point => by
  have digit := Nat.isDigit_of_mem_toDigits (by decide) (by decide) point
  cases digit

-- What is read in the place of the numbers that are written.
def completed (core : List Char) : List Char :=
  match core.count '.' with
  | 0 => core ++ ".0.0".toList
  | 1 => core ++ ".0".toList
  | _ => core

theorem padded_append {core tail : List Char} (free : ∀ c ∈ core, opensTail c = false)
    (opens : ∀ c ∈ tail.head?, opensTail c) : padded (core ++ tail) = completed core ++ tail := by
  obtain ⟨front, back⟩ := parted free opens
  unfold padded completed
  rw [front, back]
  dsimp only
  generalize core.count '.' = points
  rcases points with _ | _ | _ <;> rfl

-- Two points are there already, so nothing is added.
theorem padded_toChars (v : Version) : padded v.toChars = v.toChars := by
  have two : v.numberChars.count '.' = 2 := by
    simp [numberChars, List.count_eq_zero.mpr (no_point _)]
  have complete : completed v.numberChars = v.numberChars := by
    unfold completed
    rw [two]
    rfl
  rw [toChars_parts, padded_append v.numberChars_free v.tail_head, complete]

theorem textual_bounds {c : Char} (textual : isTextual c) : 43 ≤ c.toNat ∧ c.toNat ≤ 122 := by
  have within : ∀ lo hi : UInt32, lo ≤ c.val ∧ c.val ≤ hi → lo.toNat ≤ c.toNat ∧ c.toNat ≤ hi.toNat :=
    fun lo hi inside => ⟨UInt32.le_iff_toNat_le.mp inside.1, UInt32.le_iff_toNat_le.mp inside.2⟩
  have both : ∀ lo hi : UInt32, (decide (lo ≤ c.val) && decide (c.val ≤ hi)) = true → lo ≤ c.val ∧ c.val ≤ hi := by
    intro lo hi inside
    rw [Bool.and_eq_true, decide_eq_true_eq, decide_eq_true_eq] at inside
    exact inside
  change (c.isUpper || c.isLower || c.isDigit || decide (c = '-') || decide (c = '.') || decide (c = '+')) = true
    at textual
  simp only [Bool.or_eq_true, decide_eq_true_eq] at textual
  rcases textual with ((((upper | lower) | digit) | rfl) | rfl) | rfl
  · have bounds : 65 ≤ c.toNat ∧ c.toNat ≤ 90 := within 65 90 (of_decide_eq_true upper)
    omega
  · have bounds : 97 ≤ c.toNat ∧ c.toNat ≤ 122 := within 97 122 (both 97 122 lower)
    omega
  · have bounds : 48 ≤ c.toNat ∧ c.toNat ≤ 57 := within 48 57 (both 48 57 digit)
    omega
  · decide
  · decide
  · decide

theorem textual_solid {c : Char} (textual : isTextual c) : Text.isBlank c = false := by
  have bounds := textual_bounds textual
  simp only [Text.isBlank, Text.blankRanges, List.any_cons, List.any_nil, Bool.or_false,
    Bool.or_eq_false_iff, Bool.and_eq_false_iff, decide_eq_false_iff_not]
  omega

theorem trimChars_toChars (v : Version) : Text.trimChars v.toChars = v.toChars := by
  have solid : ∀ cs : List Char, (∀ c ∈ cs, isTextual c) → cs.dropWhile Text.isBlank = cs := by
    intro cs textual
    cases cs with
    | nil => rfl
    | cons c cs => simp [textual_solid (textual c List.mem_cons_self)]
  unfold Text.trimChars
  rw [solid _ fun c => mem_toChars, solid _ fun c member => mem_toChars (List.mem_reverse.mp member),
    List.reverse_reverse]

theorem parse_text (v : Version) : parse v.text = .ok v := by
  unfold parse text
  rw [String.toList_ofList, trimChars_toChars, padded_toChars, readFull_text]

theorem read_text (v : Version) : read v.text = .ok v := by
  unfold read
  rw [parse_text]
  rfl

theorem text_injective {v w : Version} (same : v.text = w.text) : v = w := by
  have read := v.parse_text
  rw [same, parse_text] at read
  exact (Except.ok.inj read).symm

theorem text_head (v : Version) : ∃ c cs, v.text.toList = c :: cs ∧ c.isDigit := by
  cases digits : Nat.toDigits 10 v.major.toNat with
  | nil => exact absurd digits Nat.toDigits_ne_nil
  | cons c cs =>
      refine ⟨c, cs ++ '.' :: (Nat.toDigits 10 v.minor.toNat ++ '.' :: (Nat.toDigits 10 v.patch.toNat ++
        (v.preChars ++ v.buildChars))), ?_, ?_⟩
      · unfold text
        rw [String.toList_ofList, toChars_eq, digits, List.cons_append]
      · refine Nat.isDigit_of_mem_toDigits (b := 10) (n := v.major.toNat) (by decide) (by decide) ?_
        rw [digits]
        exact List.mem_cons_self

theorem mem_text {v : Version} {c : Char} (member : c ∈ v.text.toList) : isTextual c := by
  unfold text at member
  rw [String.toList_ofList] at member
  exact mem_toChars member

end ContainerProfiles.Version
