import ContainerProfiles.Proofs.Checks
import ContainerProfiles.Store.Layout

namespace ContainerProfiles

-- Paths that are joined from a root and names. Below a folder that the root leads to, such a path leads down name
-- by name, so what the operations on files do can be said of the names alone.

open FileTree

-- A name that leads one folder down.
structure Solid (name : String) : Prop where
  single : '/' ∉ name.toList
  moves : isIdle name = false
  down : name ≠ ".."

theorem Solid.ne_empty (solid : Solid name) : name ≠ "" := by
  rintro rfl
  cases solid.moves

-- The names of a path without the empty one at its end.
def stem (path : String) : List String :=
  if path.toList.getLast? = some '/' then (Text.pieces '/' path).dropLast else Text.pieces '/' path

theorem pieces_snoc_slash (cs : List Char) : Text.pieces '/' (String.ofList (cs ++ ['/'])) =
    Text.pieces '/' (String.ofList cs) ++ [""] := by
  rw [Text.pieces_append_cons (String.ofList cs) "" (by simp)]
  rfl

theorem pieces_solid (solid : Solid name) : Text.pieces '/' name = [name] := by
  unfold Text.pieces
  rw [List.splitOn_eq_singleton solid.single]
  simp

section Joined

variable {name path : String} (solid : Solid name) (begun : path ≠ "")

include solid begun

theorem joinPath_solid :
    joinPath path name = if path.toList.getLast? = some '/' then path ++ name else path ++ "/" ++ name := by
  have relative : name.toList.head? ≠ some '/' := by
    intro first
    exact solid.single (List.mem_of_head? first)
  unfold joinPath
  rw [if_neg relative]
  simp [begun]

theorem pieces_joinPath :
    Text.pieces '/' (joinPath path name) = stem path ++ [name] := by
  rw [joinPath_solid solid begun]
  unfold stem
  split
  · rename_i slashed
    obtain ⟨cs, spelled⟩ : ∃ cs, path = String.ofList (cs ++ ['/']) := by
      obtain ⟨cs, same⟩ := List.getLast?_eq_some_iff.mp slashed
      exact ⟨cs, by rw [← same, String.ofList_toList]⟩
    subst spelled
    rw [pieces_snoc_slash, List.dropLast_concat]
    rw [Text.pieces_append_cons (String.ofList cs) name (by simp), pieces_solid solid]
  · rw [Text.pieces_append_cons path name (by simp), pieces_solid solid]

theorem joinPath_ne_empty :
    joinPath path name ≠ "" := by
  rw [joinPath_solid solid begun]
  intro empty
  have spelled := congrArg String.toList empty
  split at spelled
  · simp [String.toList_append, begun] at spelled
  · simp [String.toList_append] at spelled

theorem joinPath_last :
    (joinPath path name).toList.getLast? ≠ some '/' := by
  have last : name.toList.getLast? ≠ some '/' := fun ends =>
    solid.single (List.mem_of_getLast? ends)
  have spelled : name.toList ≠ [] := fun empty => solid.ne_empty (String.toList_inj.mp empty)
  have tail : ∀ cs : List Char, (cs ++ name.toList).getLast? = name.toList.getLast? := fun cs => by
    rw [List.getLast?_append, List.getLast?_eq_some_getLast spelled]
    rfl
  rw [joinPath_solid solid begun]
  split
  · rw [String.toList_append, tail]
    exact last
  · rw [String.toList_append, tail]
    exact last

theorem stem_joinPath :
    stem (joinPath path name) = stem path ++ [name] := by
  rw [← pieces_joinPath solid begun]
  exact if_neg (joinPath_last solid begun)

theorem joinPath_head :
    (joinPath path name).toList.head? = path.toList.head? := by
  have spelled : path.toList ≠ [] := fun empty => begun (String.toList_inj.mp empty)
  have front : ∀ cs, (path.toList ++ cs).head? = path.toList.head? := fun cs => by
    rw [List.head?_append, List.head?_eq_some_head spelled]
    rfl
  rw [joinPath_solid solid begun]
  split
  · rw [String.toList_append, front]
  · rw [String.toList_append, String.toList_append, List.append_assoc, front]

theorem size_joinPath_le :
    (joinPath path name).utf8ByteSize ≤ path.utf8ByteSize + 1 + name.utf8ByteSize := by
  have slash : "/".utf8ByteSize = 1 := rfl
  rw [joinPath_solid solid begun]
  split <;> simp only [String.utf8ByteSize_append, slash] <;> omega

theorem le_size_joinPath :
    path.utf8ByteSize + name.utf8ByteSize ≤ (joinPath path name).utf8ByteSize := by
  have slash : "/".utf8ByteSize = 1 := rfl
  rw [joinPath_solid solid begun]
  split <;> simp only [String.utf8ByteSize_append, slash] <;> omega

theorem mem_joinPath {c : Char}
    (member : c ∈ (joinPath path name).toList) : c ∈ path.toList ∨ c = '/' ∨ c ∈ name.toList := by
  rw [joinPath_solid solid begun] at member
  split at member
  · rw [String.toList_append, List.mem_append] at member
    exact member.imp_right .inr
  · rw [String.toList_append, String.toList_append, List.mem_append, List.mem_append] at member
    rcases member with (inside | slash) | inside
    · exact .inl inside
    · exact .inr (.inl (List.mem_singleton.mp slash))
    · exact .inr (.inr inside)

theorem mem_of_mem_path {c : Char}
    (member : c ∈ path.toList) : c ∈ (joinPath path name).toList := by
  rw [joinPath_solid solid begun]
  split
  · rw [String.toList_append]
    exact List.mem_append_left _ member
  · rw [String.toList_append, String.toList_append]
    exact List.mem_append_left _ (List.mem_append_left _ member)

theorem mem_of_mem_name {c : Char}
    (member : c ∈ name.toList) : c ∈ (joinPath path name).toList := by
  rw [joinPath_solid solid begun]
  split
  · rw [String.toList_append]
    exact List.mem_append_right _ member
  · rw [String.toList_append]
    exact List.mem_append_right _ member

end Joined
end ContainerProfiles
