namespace ContainerProfiles.Text

-- Blank characters (the Unicode property White_Space) and texts without them at either end.

-- First and last code point of each range, in ascending order.
def blankRanges : List (Nat × Nat) :=
  [(0x9, 0xD), (0x20, 0x20), (0x85, 0x85), (0xA0, 0xA0), (0x1680, 0x1680), (0x2000, 0x200A),
   (0x2028, 0x2029), (0x202F, 0x202F), (0x205F, 0x205F), (0x3000, 0x3000)]

def isBlank (c : Char) : Bool := blankRanges.any (fun r => r.1 ≤ c.toNat && c.toNat ≤ r.2)

def trimChars (cs : List Char) : List Char :=
  ((cs.dropWhile isBlank).reverse.dropWhile isBlank).reverse

def trim (s : String) : String := String.ofList (trimChars s.toList)

-- Nothing is left once the blanks at the ends are gone.
def blank (s : String) : Bool := s.toList.all isBlank

theorem isBlank_of_isWhitespace {c : Char} (h : c.isWhitespace) : isBlank c := by
  simp only [Char.isWhitespace, Bool.or_eq_true, decide_eq_true_eq] at h
  rcases h with ((rfl | rfl) | rfl) | rfl <;> decide

theorem trimChars_parts (cs : List Char) : ∃ before after, cs = before ++ (trimChars cs ++ after) ∧
    (∀ c ∈ before, isBlank c) ∧ ∀ c ∈ after, isBlank c := by
  let inner := (cs.dropWhile isBlank).reverse
  refine ⟨cs.takeWhile isBlank, (inner.takeWhile isBlank).reverse, ?_, ?_, ?_⟩
  · have back : trimChars cs ++ (inner.takeWhile isBlank).reverse = cs.dropWhile isBlank := by
      change (inner.dropWhile isBlank).reverse ++ _ = _
      rw [← List.reverse_append, List.takeWhile_append_dropWhile, List.reverse_reverse]
    rw [back, List.takeWhile_append_dropWhile]
  · exact List.all_eq_true.mp List.all_takeWhile
  · intro c member
    exact List.all_eq_true.mp List.all_takeWhile c (List.mem_reverse.mp member)

theorem dropWhile_blank {cs : List Char} (blank : ∀ c ∈ cs, isBlank c) : cs.dropWhile isBlank = [] := by
  have whole : (cs ++ []).dropWhile isBlank = [].dropWhile isBlank := List.dropWhile_append_of_pos blank
  simpa using whole

theorem dropWhile_solid {cs : List Char} (solid : ∀ c ∈ cs.head?, isBlank c = false) :
    cs.dropWhile isBlank = cs := by
  cases cs with
  | nil => rfl
  | cons c cs => simp [solid c (by simp)]

theorem trimChars_eq_nil {cs : List Char} : trimChars cs = [] ↔ ∀ c ∈ cs, isBlank c := by
  constructor
  · intro empty
    obtain ⟨before, after, same, front, back⟩ := trimChars_parts cs
    rw [empty, List.nil_append] at same
    intro c member
    rw [same] at member
    exact (List.mem_append.mp member).elim (front c) (back c)
  · intro blank
    unfold trimChars
    rw [dropWhile_blank blank]
    rfl

-- Blanks around a text without blanks are all that is dropped.
theorem trimChars_around {before cs after : List Char} (front : ∀ c ∈ before, isBlank c)
    (back : ∀ c ∈ after, isBlank c) (solid : ∀ c ∈ cs, isBlank c = false) :
    trimChars (before ++ (cs ++ after)) = cs := by
  cases cs with
  | nil =>
      apply trimChars_eq_nil.mpr
      intro c member
      exact (List.mem_append.mp member).elim (front c) (back c)
  | cons c rest =>
      have first : isBlank c = false := solid c List.mem_cons_self
      have last : ∀ d ∈ (c :: rest).reverse.head?, isBlank d = false := fun d member =>
        solid d (List.mem_reverse.mp (List.mem_of_mem_head? member))
      have forward : (before ++ (c :: rest ++ after)).dropWhile isBlank = c :: rest ++ after := by
        rw [List.dropWhile_append_of_pos front]
        exact dropWhile_solid (by simpa using first)
      have backward : (c :: rest ++ after).reverse.dropWhile isBlank = (c :: rest).reverse := by
        rw [List.reverse_append, List.dropWhile_append_of_pos (by simpa using back), dropWhile_solid last]
      unfold trimChars
      rw [forward, backward, List.reverse_reverse]

theorem trim_eq_empty {s : String} : trim s = "" ↔ blank s := by
  have empty : trim s = "" ↔ trimChars s.toList = [] := by
    unfold trim
    rw [← String.toList_inj, String.toList_ofList]
    rfl
  rw [empty, trimChars_eq_nil]
  unfold blank
  rw [List.all_eq_true]

theorem blank_trim (s : String) : blank (trim s) = blank s := by
  obtain ⟨before, after, parts, front, back⟩ := trimChars_parts s.toList
  unfold blank trim
  rw [String.toList_ofList, Bool.eq_iff_iff, List.all_eq_true, List.all_eq_true]
  constructor
  · intro inner c member
    rw [parts] at member
    simp only [List.mem_append] at member
    exact member.elim (front c) (Or.elim · (inner c) (back c))
  · intro whole c member
    apply whole
    rw [parts]
    exact List.mem_append_right _ (List.mem_append_left _ member)

end ContainerProfiles.Text
