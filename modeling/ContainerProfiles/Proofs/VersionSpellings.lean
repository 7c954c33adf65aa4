import ContainerProfiles.Proofs.Checks
import ContainerProfiles.Proofs.VersionText

namespace ContainerProfiles.Version

-- What may be written for a version. A text is read exactly if it is a spelling: one, two or three numbers with
-- points between, then a pre-release and build metadata where they are wanted, with any blanks around all of it.

-- Digits without a zero in front, for a number that 64 bits hold.
structure Numeral (cs : List Char) (n : UInt64) : Prop where
  filled : cs ≠ []
  digits : ∀ c ∈ cs, c.isDigit
  canonical : cs.head? = some '0' → cs = ['0']
  value : Segment.value cs = n.toNat

-- Numbers that are left out are zero.
inductive Numbers : List Char → UInt64 → UInt64 → UInt64 → Prop
  | major : Numeral x a → Numbers x a 0 0
  | minor : Numeral x a → Numeral y b → Numbers (x ++ '.' :: y) a b 0
  | patch : Numeral x a → Numeral y b → Numeral z c → Numbers (x ++ '.' :: (y ++ '.' :: z)) a b c

-- Nothing, or a sign and at least one segment. Segments are separated by points.
inductive Extension (sign : Char) : List Char → List Segment → Prop
  | absent : Extension sign [] []
  | present : ss ≠ [] → Extension sign (sign :: joinSegments ss) ss

def Spells (cs : List Char) (v : Version) : Prop :=
  ∃ numbers pre build, cs = numbers ++ (pre ++ build) ∧ Numbers numbers v.major v.minor v.patch ∧
    Extension '-' pre (v.pre.map PreSegment.toSegment) ∧ Extension '+' build v.build

-- With blanks around it.
def SpelledBy (v : Version) (s : String) : Prop :=
  ∃ before cs after, s.toList = before ++ (cs ++ after) ∧ (∀ c ∈ before, Text.isBlank c) ∧
    (∀ c ∈ after, Text.isBlank c) ∧ Spells cs v

theorem digitChar_rebuilt {c : Char} (digit : c.isDigit) : (c.toNat - '0'.toNat).digitChar = c := by
  have bounds := Segment.digit_bounds digit
  have zero : '0'.toNat = 48 := rfl
  apply Char.toNat_inj.mp
  rw [Nat.toNat_digitChar_of_lt_ten (by omega)]
  omega

theorem toDigits_digit {c : Char} (digit : c.isDigit) : Nat.toDigits 10 (c.toNat - '0'.toNat) = [c] := by
  have bounds := Segment.digit_bounds digit
  have zero : '0'.toNat = 48 := rfl
  rw [Nat.toDigits_of_lt_base (by omega), digitChar_rebuilt digit]

-- A digit behind a number that is not zero is the last digit of the next one.
theorem toDigits_next {n : Nat} {c : Char} (some : n ≠ 0) (digit : c.isDigit) :
    Nat.toDigits 10 (n * 10 + (c.toNat - '0'.toNat)) = Nat.toDigits 10 n ++ [c] := by
  have bounds := Segment.digit_bounds digit
  have zero : '0'.toNat = 48 := rfl
  rw [Nat.mul_comm, ← Nat.toDigits_append_toDigits (by decide) (by omega) (by omega), toDigits_digit digit]

theorem toDigits_foldl {n : Nat} {ds : List Char} (some : n ≠ 0) (digits : ∀ c ∈ ds, c.isDigit) :
    Nat.toDigits 10 (ds.foldl (fun n c => n * 10 + (c.toNat - '0'.toNat)) n) = Nat.toDigits 10 n ++ ds := by
  induction ds generalizing n with
  | nil => simp
  | cons c ds ih =>
      have digit := digits c List.mem_cons_self
      rw [List.foldl_cons, ih (by omega) (fun d later => digits d (.tail _ later)), toDigits_next some digit]
      simp

theorem value_toDigits (n : Nat) : Segment.value (Nat.toDigits 10 n) = n := by
  have swapped : Segment.value (Nat.toDigits 10 n) = Nat.ofDigitChars 10 (Nat.toDigits 10 n) 0 := by
    simp only [Segment.value, Nat.ofDigitChars, Nat.mul_comm]
  rw [swapped, Nat.ofDigitChars_ten_toDigits]

theorem zero_of_head {n : Nat} (first : (Nat.toDigits 10 n).head? = some '0') : n = 0 := by
  induction n using Nat.strongRecOn with
  | ind n ih =>
      rw [Nat.toDigits_eq_if (by decide)] at first
      split at first
      · rename_i single
        have digits : ∀ k, k < 10 → Nat.digitChar k = '0' → k = 0 := by decide
        exact digits n single (by simpa using first)
      · rename_i several
        have front := ih (n / 10) (by omega)
        rw [List.head?_append, Option.or_of_isSome (by simp [Nat.toDigits_ne_nil])] at first
        have none := front first
        omega

theorem numeral_iff {cs : List Char} {n : UInt64} : Numeral cs n ↔ cs = Nat.toDigits 10 n.toNat := by
  constructor
  · rintro ⟨filled, digits, canonical, value⟩
    cases cs with
    | nil => exact absurd rfl filled
    | cons c ds =>
        have digit := digits c List.mem_cons_self
        rw [← value]
        unfold Segment.value
        rw [List.foldl_cons, Nat.zero_mul, Nat.zero_add]
        by_cases zero : c = '0'
        · have alone : ds = [] := by simpa [zero] using canonical
          subst zero alone
          rfl
        · have some : c.toNat - '0'.toNat ≠ 0 := by
            intro none
            have rebuilt := digitChar_rebuilt digit
            rw [none] at rebuilt
            exact zero rebuilt.symm
          rw [toDigits_foldl some fun d later => digits d (.tail _ later), toDigits_digit digit]
          rfl
  · rintro rfl
    refine ⟨Nat.toDigits_ne_nil, fun c => Nat.isDigit_of_mem_toDigits (by decide) (by decide), fun first => ?_,
      value_toDigits _⟩
    rw [zero_of_head first]
    rfl

theorem moreDigits_written {value : Nat} (small : value < UInt64.size)
    (read : moreDigits part value cs = .ok (n, rest)) :
    Nat.toDigits 10 value ++ cs = Nat.toDigits 10 n.toNat ++ rest := by
  induction cs generalizing value with
  | nil =>
      simp only [moreDigits, Except.ok.injEq, Prod.mk.injEq] at read
      obtain ⟨rfl, rfl⟩ := read
      rw [UInt64.toNat_ofNat_of_lt' small]
  | cons c cs ih =>
      unfold moreDigits at read
      split at read
      · rename_i digit
        split at read
        · cases read
        · rename_i some
          dsimp only at read
          split at read
          · rename_i fits
            have next := ih fits read
            rw [toDigits_next some digit] at next
            simpa using next
          · cases read
      · simp only [Except.ok.injEq, Prod.mk.injEq] at read
        obtain ⟨rfl, rfl⟩ := read
        rw [UInt64.toNat_ofNat_of_lt' small]

theorem number_written (read : number part cs = .ok (n, rest)) : cs = Nat.toDigits 10 n.toNat ++ rest := by
  cases cs with
  | nil => cases read
  | cons c cs =>
      simp only [number] at read
      split at read
      · rename_i digit
        have bounds := Segment.digit_bounds digit
        have limit : UInt64.size = 18446744073709551616 := rfl
        have follows := moreDigits_written (by omega) read
        rwa [toDigits_digit digit, List.singleton_append] at follows
      · cases read

theorem dot_written (read : dot part cs = .ok rest) : cs = '.' :: rest := by
  cases cs with
  | nil => cases read
  | cons c cs =>
      simp only [dot] at read
      split at read
      · rename_i point
        cases read
        rw [point]
      · cases read

theorem segment_written {s : Segment} (read : segment part cs = .ok s) : s.text = cs := by
  unfold segment at read
  split at read
  · cases read
    rfl
  · cases read

theorem preSegment_written {s : PreSegment} (read : preSegment cs = .ok s) : s.toSegment.text = cs := by
  unfold preSegment at read
  obtain ⟨plain, one, rest⟩ := bind_eq_ok.mp read
  split at rest
  · cases rest
    exact segment_written one
  · cases rest

theorem texts_of_pieces {f : List Char → Except ε α} {text : α → List Char} {css : List (List Char)} {as : List α}
    (each : ∀ cs a, f cs = .ok a → text a = cs) (read : css.mapM f = .ok as) : as.map text = css := by
  have pairs := mapM_eq_ok.mp read
  clear read
  induction pairs with
  | nil => rfl
  | cons one _ ih => rw [List.map_cons, each _ _ one, ih]

theorem segments_written {α : Type} {one : List Char → Except Fault α} {text : α → Segment} {as : List α}
    (each : ∀ cs a, one cs = .ok a → (text a).text = cs) (read : segments one cs = .ok (as, rest)) :
    as ≠ [] ∧ cs = joinSegments (as.map text) ++ rest := by
  unfold segments at read
  obtain ⟨_, parts, same⟩ := bind_eq_ok.mp read
  cases same
  have texts : as.map (fun a => (text a).text) = (cs.takeWhile inSegments).splitOn '.' :=
    texts_of_pieces each parts
  constructor
  · rintro rfl
    exact List.splitOn_ne_nil _ _ texts.symm
  · have joined : joinSegments (as.map text) = cs.takeWhile inSegments := by
      unfold joinSegments
      rw [List.map_map]
      change List.intercalate ['.'] (as.map fun a => (text a).text) = _
      rw [texts, List.intercalate_splitOn]
    rw [joined, List.takeWhile_append_dropWhile]

theorem readPre_written {tail : Tail} (read : readPre cs = .ok tail) :
    tail.build = [] ∧ ∃ pre, cs = pre ++ tail.rest ∧ Extension '-' pre (tail.pre.map PreSegment.toSegment) := by
  unfold readPre at read
  split at read
  · obtain ⟨⟨pre, rest⟩, found, same⟩ := bind_eq_ok.mp read
    cases same
    obtain ⟨filled, written⟩ := segments_written (fun _ _ => preSegment_written) found
    exact ⟨rfl, '-' :: joinSegments (pre.map PreSegment.toSegment), by rw [written, List.cons_append],
      .present (by simpa using filled)⟩
  · cases read
    exact ⟨rfl, [], rfl, .absent⟩

theorem readBuild_written {tail ended : Tail} (first : tail.build = []) (read : readBuild tail = .ok ended) :
    ended.pre = tail.pre ∧ ∃ build, tail.rest = build ++ ended.rest ∧ Extension '+' build ended.build := by
  unfold readBuild at read
  split at read
  · rename_i cs opened
    obtain ⟨⟨build, rest⟩, found, same⟩ := bind_eq_ok.mp read
    cases same
    have each : ∀ ds s, segment .build ds = .ok s → (id s : Segment).text = ds := fun _ _ => segment_written
    obtain ⟨filled, written⟩ := segments_written each found
    rw [List.map_id] at written
    exact ⟨rfl, '+' :: joinSegments build, by rw [opened, written, List.cons_append], .present filled⟩
  · cases read
    exact ⟨rfl, [], rfl, first ▸ .absent⟩

theorem Extension.eq {cs : List Char} (written : Extension sign cs ss) :
    cs = if ss.isEmpty then [] else sign :: joinSegments ss := by
  cases written with
  | absent => rfl
  | present filled => simp [filled]

theorem extension_of (sign : Char) (ss : List Segment) :
    Extension sign (if ss.isEmpty then [] else sign :: joinSegments ss) ss := by
  cases ss with
  | nil => exact .absent
  | cons s ss => exact .present (List.cons_ne_nil _ _)

theorem extension_pre {v : Version} {cs : List Char} :
    Extension '-' cs (v.pre.map PreSegment.toSegment) ↔ cs = v.preChars := by
  have same : v.preChars = if (v.pre.map PreSegment.toSegment).isEmpty then []
      else '-' :: joinSegments (v.pre.map PreSegment.toSegment) := by
    simp [preChars]
  rw [same]
  exact ⟨Extension.eq, fun written => written ▸ extension_of _ _⟩

theorem extension_build {v : Version} {cs : List Char} : Extension '+' cs v.build ↔ cs = v.buildChars :=
  ⟨Extension.eq, fun written => written ▸ extension_of _ _⟩

theorem readFull_written {v : Version} (read : readFull cs = .ok v) : cs = v.toChars := by
  simp only [readFull, guard_eq_ok, bind_eq_ok, Prod.exists] at read
  obtain ⟨_, major, _, one, _, point, minor, _, two, _, second, patch, _, three, tail, pre, ended, build, last⟩ :=
    read
  obtain ⟨unbuilt, preText, rest, preWritten⟩ := readPre_written pre
  obtain ⟨same, buildText, more, buildWritten⟩ := readBuild_written unbuilt build
  split at last
  · rename_i nothing
    cases last
    rw [number_written one, dot_written point, number_written two, dot_written second, number_written three, rest,
      more, nothing, preWritten.eq, buildWritten.eq, ← same, toChars_eq]
    simp [preChars, buildChars]
  · cases last

theorem readFull_eq_ok {v : Version} {cs : List Char} : readFull cs = .ok v ↔ cs = v.toChars :=
  ⟨readFull_written, fun same => same ▸ readFull_text v⟩

theorem zero_of_digits {n : UInt64} (digits : ['0'] = Nat.toDigits 10 n.toNat) : n = 0 := by
  have none : n.toNat = 0 := zero_of_head (by rw [← digits]; rfl)
  exact UInt64.toNat_inj.mp none

-- The last of the three numbers, and then the one before it, stand behind the last point.
theorem numbers_of_completed {core : List Char} {v : Version} (complete : completed core = v.numberChars) :
    Numbers core v.major v.minor v.patch := by
  have zero : '.' ∉ ['0'] := by decide
  have last : v.numberChars = (Nat.toDigits 10 v.major.toNat ++ '.' :: Nat.toDigits 10 v.minor.toNat) ++
      '.' :: Nat.toDigits 10 v.patch.toNat := by
    simp [numberChars]
  unfold completed at complete
  split at complete
  · have parts : (core ++ '.' :: ['0']) ++ '.' :: ['0'] = v.numberChars := by simpa using complete
    obtain ⟨two, patch⟩ := Text.last_cut_unique zero (no_point _) (parts.trans last)
    obtain ⟨one, minor⟩ := Text.last_cut_unique zero (no_point _) two
    rw [zero_of_digits patch, zero_of_digits minor]
    exact .major (numeral_iff.mpr one)
  · have parts : core ++ '.' :: ['0'] = v.numberChars := complete
    obtain ⟨two, patch⟩ := Text.last_cut_unique zero (no_point _) (parts.trans last)
    rw [zero_of_digits patch, two]
    exact .minor (numeral_iff.mpr rfl) (numeral_iff.mpr rfl)
  · rw [complete]
    exact .patch (numeral_iff.mpr rfl) (numeral_iff.mpr rfl) (numeral_iff.mpr rfl)

theorem completed_of_numbers {core : List Char} {a b c : UInt64} (numbers : Numbers core a b c) :
    completed core = Nat.toDigits 10 a.toNat ++ '.' :: (Nat.toDigits 10 b.toNat ++ '.' :: Nat.toDigits 10 c.toNat) := by
  have none : ∀ n, (Nat.toDigits 10 n).count '.' = 0 := fun n => List.count_eq_zero.mpr (no_point n)
  have zero : Nat.toDigits 10 (0 : UInt64).toNat = ['0'] := rfl
  cases numbers with
  | major one =>
      rw [numeral_iff.mp one, zero]
      simp [completed, none]
  | minor one two =>
      rw [numeral_iff.mp one, numeral_iff.mp two, zero]
      simp [completed, none]
  | patch one two three =>
      rw [numeral_iff.mp one, numeral_iff.mp two, numeral_iff.mp three]
      simp [completed, none]

theorem mem_completed {core : List Char} {c : Char} (member : c ∈ core) : c ∈ completed core := by
  unfold completed
  split <;> simp [member]

theorem completed_free {core : List Char} (free : ∀ c ∈ core, opensTail c = false) :
    ∀ c ∈ completed core, opensTail c = false := by
  have added : ∀ c ∈ ".0.0".toList, opensTail c = false := by simp [opensTail]
  intro c member
  unfold completed at member
  split at member
  · exact (List.mem_append.mp member).elim (free c) (added c)
  · exact (List.mem_append.mp member).elim (free c) fun later => added c (.tail _ (.tail _ later))
  · exact free c member

-- What comes before the first sign is completed, the rest stays as it is.
theorem spells_of_padded {cs : List Char} {v : Version} (same : padded cs = v.toChars) : Spells cs v := by
  have whole := List.takeWhile_append_dropWhile (p := fun c => !opensTail c) (l := cs)
  have free : ∀ c ∈ cs.takeWhile (fun c => !opensTail c), opensTail c = false := by
    intro c member
    simpa using List.all_eq_true.mp List.all_takeWhile c member
  have opens : ∀ c ∈ (cs.dropWhile (fun c => !opensTail c)).head?, opensTail c := by
    intro c first
    have stopped := List.head?_dropWhile_not (fun c => !opensTail c) cs
    rw [first] at stopped
    simpa using stopped
  generalize cs.takeWhile (fun c => !opensTail c) = core at whole free
  generalize cs.dropWhile (fun c => !opensTail c) = tail at whole opens
  subst whole
  rw [padded_append free opens, toChars_parts] at same
  have left := parted (completed_free free) opens
  have right := parted v.numberChars_free v.tail_head
  rw [same] at left
  exact ⟨core, v.preChars, v.buildChars, by rw [← left.2, right.2], numbers_of_completed (left.1.symm.trans right.1),
    extension_pre.mpr rfl, extension_build.mpr rfl⟩

theorem padded_of_spells {cs : List Char} {v : Version} (spells : Spells cs v) : padded cs = v.toChars := by
  obtain ⟨core, pre, build, rfl, numbers, preWritten, buildWritten⟩ := spells
  have complete : completed core = v.numberChars := completed_of_numbers numbers
  have free : ∀ c ∈ core, opensTail c = false := by
    intro c member
    apply v.numberChars_free
    rw [← complete]
    exact mem_completed member
  rw [extension_pre.mp preWritten, extension_build.mp buildWritten, padded_append free v.tail_head, complete,
    toChars_parts]

theorem mem_of_spells {cs : List Char} {v : Version} {c : Char} (spells : Spells cs v) (member : c ∈ cs) :
    c ∈ v.toChars := by
  obtain ⟨core, pre, build, rfl, numbers, preWritten, buildWritten⟩ := spells
  rw [toChars_parts, ← extension_pre.mp preWritten, ← extension_build.mp buildWritten]
  have complete : completed core = v.numberChars := completed_of_numbers numbers
  rcases List.mem_append.mp member with inside | inside
  · exact List.mem_append.mpr (.inl (complete ▸ mem_completed inside))
  · exact List.mem_append.mpr (.inr inside)

theorem read_eq_ok {s : String} {v : Version} : read s = .ok v ↔ SpelledBy v s := by
  have through : read s = .ok v ↔ Spells (Text.trimChars s.toList) v := by
    unfold read parse
    rw [mapError_eq_ok, readFull_eq_ok]
    exact ⟨spells_of_padded, padded_of_spells⟩
  rw [through]
  constructor
  · intro spells
    obtain ⟨before, after, same, front, back⟩ := Text.trimChars_parts s.toList
    exact ⟨before, _, after, same, front, back, spells⟩
  · rintro ⟨before, cs, after, same, front, back, spells⟩
    have solid : ∀ c ∈ cs, Text.isBlank c = false := fun c member =>
      textual_solid (mem_toChars (mem_of_spells spells member))
    rw [same, Text.trimChars_around front back solid]
    exact spells

-- A version read and written again.
def respelled (s : String) : Except ProfileError String := (read s).map text

theorem respelled_twice (s : String) : respelled s >>= respelled = respelled s := by
  unfold respelled
  cases read s with
  | error e => rfl
  | ok v =>
      simp only [Except.map, bind, Except.bind]
      rw [read_text]

theorem read_canonical :
    (∀ s v, read s = .ok v ↔ SpelledBy v s) ∧ (∀ v : Version, read v.text = .ok v) ∧
    (∀ s, respelled s >>= respelled = respelled s) ∧
    ∀ s t v w, read s = .ok v → read t = .ok w → (v = w ↔ respelled s = respelled t) := by
  refine ⟨fun s v => read_eq_ok, read_text, respelled_twice, fun s t v w one two => ?_⟩
  have texts : respelled s = .ok v.text ∧ respelled t = .ok w.text := by
    unfold respelled
    rw [one, two]
    exact ⟨rfl, rfl⟩
  rw [texts.1, texts.2, Except.ok.injEq]
  exact ⟨congrArg text, text_injective⟩

-- Its build metadata begins with a zero, which is no number there.
def candidate : Version :=
  { major := 2, minor := 0, patch := 0
    pre := [⟨⟨['r', 'c'], by decide, List.all_eq_true.mp rfl⟩, rfl⟩, ⟨⟨['1'], by decide, List.all_eq_true.mp rfl⟩, rfl⟩]
    build := [⟨['0', '7'], by decide, List.all_eq_true.mp rfl⟩] }

theorem read_canonical_short :
    read " 2.0-rc.1+07\u3000" = .ok candidate ∧ read "2-rc.1+07" = .ok candidate ∧
      respelled " 2.0-rc.1+07\u3000" = respelled "2-rc.1+07" := by
  have wide : read " 2.0-rc.1+07\u3000" = .ok candidate := by rfl
  have short : read "2-rc.1+07" = .ok candidate := by rfl
  exact ⟨wide, short, (read_canonical.2.2.2 _ _ candidate candidate wide short).mp rfl⟩

end ContainerProfiles.Version
