namespace ContainerProfiles.Text

-- Cutting a text at a separating character: at its first place, at its last, or at every one. Joining the parts
-- again gives the text back (`cutFirst_eq_some`, `cutLast_eq_some`).

def cutFirst (sep : Char) : List Char → Option (List Char × List Char)
  | [] => none
  | c :: rest =>
      if c = sep then some ([], rest)
      else (cutFirst sep rest).map (fun halves => (c :: halves.1, halves.2))

def cutLast (sep : Char) (cs : List Char) : Option (List Char × List Char) :=
  (cutFirst sep cs.reverse).map (fun halves => (halves.2.reverse, halves.1.reverse))

-- What stands before and after the separator's first place.
def aroundFirst (sep : Char) (s : String) : Option (String × String) :=
  (cutFirst sep s.toList).map (fun halves => (String.ofList halves.1, String.ofList halves.2))

def aroundLast (sep : Char) (s : String) : Option (String × String) :=
  (cutLast sep s.toList).map (fun halves => (String.ofList halves.1, String.ofList halves.2))

-- A text without the separator is one piece; the empty text is one empty piece.
def pieces (sep : Char) (s : String) : List String := (s.toList.splitOn sep).map String.ofList

theorem cutFirst_eq_some {sep : Char} {cs before after : List Char} :
    cutFirst sep cs = some (before, after) ↔ sep ∉ before ∧ cs = before ++ sep :: after := by
  induction cs generalizing before with
  | nil => simp [cutFirst]
  | cons c rest ih =>
      by_cases same : c = sep
      · subst same
        simp only [cutFirst, if_true, Option.some.injEq, Prod.mk.injEq]
        constructor
        · rintro ⟨rfl, rfl⟩; simp
        · rintro ⟨absent, split⟩
          cases before with
          | nil => simp_all
          | cons b bs => simp_all
      · simp only [cutFirst, same, if_false, Option.map_eq_some_iff, Prod.exists, Prod.mk.injEq]
        constructor
        · rintro ⟨b, a, found, rfl, rfl⟩
          obtain ⟨absent, split⟩ := ih.mp found
          simp [absent, split, Ne.symm same]
        · rintro ⟨absent, split⟩
          cases before with
          | nil => simp_all
          | cons b bs =>
              simp only [List.cons_append, List.cons.injEq] at split
              obtain ⟨rfl, split⟩ := split
              exact ⟨bs, after, ih.mpr ⟨fun h => absent (.tail _ h), split⟩, rfl, rfl⟩

theorem cutLast_eq_some {sep : Char} {cs before after : List Char} :
    cutLast sep cs = some (before, after) ↔ sep ∉ after ∧ cs = before ++ sep :: after := by
  unfold cutLast
  rw [Option.map_eq_some_iff]
  constructor
  · rintro ⟨⟨last, front⟩, cut, same⟩
    obtain ⟨absent, reversed⟩ := cutFirst_eq_some.mp cut
    simp only [Prod.mk.injEq] at same
    obtain ⟨rfl, rfl⟩ := same
    refine ⟨by simpa using absent, ?_⟩
    simpa using congrArg List.reverse reversed
  · rintro ⟨absent, rfl⟩
    refine ⟨(after.reverse, before.reverse), cutFirst_eq_some.mpr ⟨by simpa using absent, ?_⟩, ?_⟩
    · simp
    · simp

-- The separator has one last place.
theorem last_cut_unique {sep : Char} {before front after rest : List Char} (absent : sep ∉ after)
    (lacking : sep ∉ rest) (same : before ++ sep :: after = front ++ sep :: rest) :
    before = front ∧ after = rest := by
  have one : cutLast sep (before ++ sep :: after) = some (before, after) :=
    cutLast_eq_some.mpr ⟨absent, rfl⟩
  have two : cutLast sep (before ++ sep :: after) = some (front, rest) :=
    cutLast_eq_some.mpr ⟨lacking, same⟩
  simpa using one.symm.trans two

theorem pieces_append_cons {sep : Char} {s : String} (before after : String)
    (joined : s.toList = before.toList ++ sep :: after.toList) :
    pieces sep s = pieces sep before ++ pieces sep after := by
  unfold pieces
  rw [joined, List.splitOn_append_cons_self, List.map_append]

-- Joined names have the pieces that the names have on their own.
theorem pieces_intercalate (sep : Char) {names : List String} (filled : names ≠ []) :
    pieces sep (String.intercalate (String.singleton sep) names) = names.flatMap (pieces sep) := by
  induction names with
  | nil => exact absurd rfl filled
  | cons name rest ih =>
      cases rest with
      | nil => simp
      | cons next rest =>
          rw [String.intercalate_cons_cons, List.flatMap_cons, ← ih (List.cons_ne_nil _ _)]
          exact pieces_append_cons _ _ (by simp)

end ContainerProfiles.Text
