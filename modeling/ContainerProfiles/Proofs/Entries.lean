import ContainerProfiles.Dict

namespace ContainerProfiles.Dict

-- The entries of a map as a list without repetitions: what an insertion and an erasure do to it, up to the order.
-- Counts over the values of a map follow from here.

section Entries

variable {κ : Type u} {α : Type v} [Ord κ]

theorem contains_iff {d : Dict κ α} {k : κ} : d.contains k ↔ ∃ x, d.get? k = some x :=
  Option.isSome_iff_exists

theorem contains_false {d : Dict κ α} {k : κ} : d.contains k = false ↔ d.get? k = none := by
  simp [contains]

theorem keys_sorted (d : Dict κ α) : d.keys.Pairwise (fun a b => compare a b = .lt) :=
  List.pairwise_map.mpr d.sorted

theorem mergeSort_sorted [Std.TransOrd κ] (ks : List κ) :
    (ks.mergeSort (fun a b => compare a b ≠ .gt)).Pairwise (fun a b => compare a b ≠ .gt) := by
  refine (List.pairwise_mergeSort (fun a b c one two => ?_) (fun a b => ?_) ks).imp of_decide_eq_true
  · rw [decide_eq_true_eq] at one two ⊢
    exact Ordering.isLE_iff_ne_gt.mp (Std.TransCmp.isLE_trans (Ordering.isLE_iff_ne_gt.mpr one)
      (Ordering.isLE_iff_ne_gt.mpr two))
  · cases order : compare a b with
    | gt => simp [Std.OrientedCmp.lt_of_gt order]
    | _ => rfl

variable [Std.LawfulEqOrd κ]

theorem entries_nodup (d : Dict κ α) : d.entries.Nodup := by
  refine d.sorted.imp fun {a b} less same => ?_
  subst same
  simp at less

theorem mem_entries {d : Dict κ α} {e : κ × α} : e ∈ d.entries ↔ d.get? e.1 = some e.2 := by
  rw [get?_eq_some]

theorem mem_values {d : Dict κ α} {x : α} : x ∈ d.values ↔ ∃ k, d.get? k = some x := by
  simp [values, get?_eq_some]

theorem isEmpty_iff {d : Dict κ α} : d.isEmpty ↔ ∀ k, d.get? k = none := by
  constructor
  · intro empty k
    have entries : d.entries = [] := by simpa [isEmpty] using empty
    simp [get?, entries, lookup]
  · intro none
    have entries : d.entries = [] := by
      refine List.eq_nil_iff_forall_not_mem.mpr fun e member => ?_
      rw [mem_entries, none] at member
      cases member
    simp [isEmpty, entries]

-- The keys of a map are the one list in their order with these members.
theorem keys_eq [Std.TransOrd κ] {d : Dict κ α} {ks : List κ} (sorted : ks.Pairwise (fun a b => compare a b ≠ .gt))
    (same : ks.Perm d.keys) : ks = d.keys := by
  have below := (keys_sorted d).imp fun {a b} (less : compare a b = .lt) => show compare a b ≠ .gt by
    rw [less]
    decide
  refine List.Perm.eq_of_pairwise (fun a b _ _ one two => ?_) sorted below same
  refine Std.LawfulEqOrd.compare_eq_iff_eq.mp ?_
  cases order : compare a b with
  | eq => rfl
  | gt => exact absurd order one
  | lt => exact absurd (Std.OrientedCmp.gt_of_lt order) two

theorem keys_congr [Std.TransOrd κ] {β : Type w} {d : Dict κ α} {e : Dict κ β} (same : ∀ k, d.contains k ↔ e.contains k) :
    d.keys = e.keys := by
  refine keys_eq ((keys_sorted d).imp fun {a b} (less : compare a b = .lt) => ?_) ?_
  · rw [less]
    decide
  · exact (List.perm_ext_iff_of_nodup (keys_nodup d) (keys_nodup e)).mpr fun k => by
      rw [mem_keys, mem_keys, same]

variable [DecidableEq κ]

theorem contains_erase {d : Dict κ α} {k k' : κ} :
    (d.erase k).contains k' ↔ k' ≠ k ∧ d.contains k' := by
  unfold contains
  rw [get?_erase]
  split <;> simp_all

theorem entries_erase {d : Dict κ α} {k : κ} {x : α} (found : d.get? k = some x) :
    d.entries.Perm ((k, x) :: (d.erase k).entries) := by
  have fresh : (k, x) ∉ (d.erase k).entries := by simp [mem_entries]
  refine (List.perm_ext_iff_of_nodup (entries_nodup _)
    (List.nodup_cons.mpr ⟨fresh, entries_nodup _⟩)).mpr fun e => ?_
  obtain ⟨k', y⟩ := e
  rw [List.mem_cons, mem_entries, mem_entries, get?_erase]
  by_cases same : k' = k
  · simp [same, found, eq_comm]
  · simp [same]

theorem values_erase {d : Dict κ α} {k : κ} {x : α} (found : d.get? k = some x) :
    d.values.Perm (x :: (d.erase k).values) :=
  (entries_erase found).map Prod.snd

variable [Std.TransOrd κ]

theorem contains_insert {d : Dict κ α} {k k' : κ} {x : α} :
    (d.insert k x).contains k' ↔ k' = k ∨ d.contains k' := by
  unfold contains
  rw [get?_insert]
  split <;> simp_all

theorem keys_insert {d : Dict κ α} {k : κ} {x : α} (present : d.contains k) : (d.insert k x).keys = d.keys := by
  refine keys_congr fun k' => contains_insert.trans ⟨?_, .inr⟩
  rintro (rfl | held)
  · exact present
  · exact held

theorem insert_insert (d : Dict κ α) (k : κ) (x y : α) : (d.insert k x).insert k y = d.insert k y := by
  apply ext_get?
  intro k'
  by_cases same : k' = k <;> simp [same]

theorem erase_insert (d : Dict κ α) (k : κ) (x : α) : (d.insert k x).erase k = d.erase k := by
  apply ext_get?
  intro k'
  by_cases same : k' = k <;> simp [same]

theorem entries_insert (d : Dict κ α) (k : κ) (x : α) :
    (d.insert k x).entries.Perm ((k, x) :: (d.erase k).entries) := by
  have found : (d.insert k x).get? k = some x := by simp
  simpa [erase_insert] using entries_erase found

theorem erase_of_absent {d : Dict κ α} {k : κ} (absent : d.get? k = none) : d.erase k = d := by
  apply ext_get?
  intro k'
  by_cases same : k' = k
  · subst same; simp [absent]
  · simp [same]

theorem size_insert {d : Dict κ α} {k : κ} {x : α} :
    (d.insert k x).size = if d.contains k then d.size else d.size + 1 := by
  have inserted := (entries_insert d k x).length_eq
  split
  next old =>
    obtain ⟨y, found⟩ := contains_iff.mp old
    have erased := (entries_erase found).length_eq
    simp only [size, List.length_cons] at inserted erased ⊢
    omega
  next new =>
    rw [erase_of_absent (contains_false.mp (by simpa using new))] at inserted
    simpa [size] using inserted

theorem values_insert (d : Dict κ α) (k : κ) (x : α) :
    (d.insert k x).values.Perm (x :: (d.erase k).values) :=
  (entries_insert d k x).map Prod.snd

theorem contains_ofList {ks : List κ} {k : κ} : (KeySet.ofList ks).contains k ↔ k ∈ ks := by
  have added : ∀ (ks : List κ) (s : KeySet κ), (ks.foldl KeySet.add s).contains k ↔ k ∈ ks ∨ s.contains k := by
    intro ks
    induction ks with
    | nil => simp
    | cons first rest ih =>
        intro s
        rw [List.foldl_cons, ih, KeySet.add, contains_insert, List.mem_cons]
        exact or_left_comm.trans or_assoc.symm
  rw [KeySet.ofList, added]
  exact or_iff_left (by simp [contains])

-- The only value of a set is no news.
omit [DecidableEq κ] in
theorem ext_contains {ks ls : KeySet κ} (same : ∀ k, ks.contains k = ls.contains k) : ks = ls := by
  apply ext_get?
  intro k
  have present := same k
  unfold contains at present
  cases one : ks.get? k <;> cases two : ls.get? k <;> simp_all

theorem mem_of_extend {d : Dict κ α} {pairs : List (κ × α)} {k : κ} {x : α}
    (found : (d.extend pairs).get? k = some x) : (k, x) ∈ pairs ∨ d.get? k = some x := by
  induction pairs generalizing d with
  | nil => exact .inr found
  | cons e rest ih =>
      rcases ih found with later | now
      · exact .inl (.tail _ later)
      · rw [get?_insert] at now
        split at now
        · rename_i same
          cases now
          exact .inl (by subst same; exact List.mem_cons_self)
        · exact .inr now

theorem get?_extend_of_not_mem {d : Dict κ α} {pairs : List (κ × α)} {k : κ}
    (absent : k ∉ pairs.map Prod.fst) : (d.extend pairs).get? k = d.get? k := by
  induction pairs generalizing d with
  | nil => rfl
  | cons e rest ih =>
      rw [List.map_cons, List.mem_cons, not_or] at absent
      change ((d.insert e.1 e.2).extend rest).get? k = _
      rw [ih absent.2, get?_insert, if_neg absent.1]

theorem get?_extend_of_mem {d : Dict κ α} {pairs : List (κ × α)} {k : κ} {x : α}
    (distinct : (pairs.map Prod.fst).Nodup) (member : (k, x) ∈ pairs) :
    (d.extend pairs).get? k = some x := by
  induction pairs generalizing d with
  | nil => cases member
  | cons e rest ih =>
      obtain ⟨new, others⟩ := List.nodup_cons.mp distinct
      change ((d.insert e.1 e.2).extend rest).get? k = _
      rcases List.mem_cons.mp member with rfl | later
      · rw [get?_extend_of_not_mem new, get?_insert, if_pos rfl]
      · exact ih others later

theorem ofList_entries (d : Dict κ α) : ofList d.entries = d := by
  apply ext_get?
  intro k
  cases found : d.get? k with
  | some x => exact get?_extend_of_mem (keys_nodup d) (get?_eq_some.mp found)
  | none =>
      refine get?_extend_of_not_mem fun member => ?_
      have present := mem_keys.mp member
      simp [contains, found] at present

theorem size_extend_le (d : Dict κ α) (pairs : List (κ × α)) :
    (d.extend pairs).size ≤ d.size + pairs.length := by
  induction pairs generalizing d with
  | nil => exact Nat.le_refl _
  | cons e rest ih =>
      have step := ih (d.insert e.1 e.2)
      rw [size_insert] at step
      change ((d.insert e.1 e.2).extend rest).size ≤ _
      simp only [List.length_cons]
      split at step <;> omega

-- As many entries as pairs: no key comes twice, and none was there before.
theorem fresh_of_size (d : Dict κ α) (pairs : List (κ × α))
    (full : (d.extend pairs).size = d.size + pairs.length) :
    (pairs.map Prod.fst).Nodup ∧ ∀ e ∈ pairs, d.contains e.1 = false := by
  induction pairs generalizing d with
  | nil => exact ⟨List.nodup_nil, fun _ none => by cases none⟩
  | cons e rest ih =>
      change ((d.insert e.1 e.2).extend rest).size = _ at full
      have bound := size_extend_le (d.insert e.1 e.2) rest
      simp only [List.length_cons] at full
      rw [size_insert] at bound
      have new : d.contains e.1 = false := by
        cases old : d.contains e.1 with
        | false => rfl
        | true => rw [old, if_pos rfl] at bound; omega
      have grown : (d.insert e.1 e.2).size = d.size + 1 := by rw [size_insert, new]; rfl
      obtain ⟨distinct, absent⟩ := ih (d.insert e.1 e.2) (by rw [full, grown]; omega)
      refine ⟨List.nodup_cons.mpr ⟨?_, distinct⟩, ?_⟩
      · intro again
        obtain ⟨e', member, same⟩ := List.mem_map.mp again
        have missing := absent e' member
        rw [same] at missing
        simp [contains] at missing
      · intro e' member
        rcases List.mem_cons.mp member with rfl | later
        · exact new
        · have missing := absent e' later
          have split := (not_congr contains_insert).mp (by simpa using missing)
          simpa using (not_or.mp split).2

end Entries
end ContainerProfiles.Dict
