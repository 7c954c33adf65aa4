import ContainerProfiles.Version.Basic

namespace ContainerProfiles

-- The order of versions is total, and only equal versions compare as equal: the rank of a version tells its
-- numbers and segments (`Version.rank_injective`).

namespace Segment

theorem digit_bounds {c : Char} (h : c.isDigit) : 48 ≤ c.toNat ∧ c.toNat ≤ 57 := by
  simp only [Char.isDigit, Bool.and_eq_true, decide_eq_true_eq] at h
  exact ⟨UInt32.le_iff_toNat_le.mp h.1, UInt32.le_iff_toNat_le.mp h.2⟩

theorem fold_injective {ds es : List Char} (dd : ∀ c ∈ ds, c.isDigit) (ed : ∀ c ∈ es, c.isDigit)
    (lengths : ds.length = es.length) (a b : Nat)
    (values : ds.foldl (fun n c => n * 10 + (c.toNat - '0'.toNat)) a =
      es.foldl (fun n c => n * 10 + (c.toNat - '0'.toNat)) b) : a = b ∧ ds = es := by
  induction ds generalizing es a b with
  | nil =>
      cases es with
      | nil => exact ⟨values, rfl⟩
      | cons e es => simp at lengths
  | cons d ds ih =>
      cases es with
      | nil => simp at lengths
      | cons e es =>
          obtain ⟨heads, rfl⟩ := ih (fun c h => dd c (.tail _ h)) (fun c h => ed c (.tail _ h))
            (by simpa using lengths) _ _ values
          have one := digit_bounds (dd d (.head _))
          have two := digit_bounds (ed e (.head _))
          have zero : '0'.toNat = 48 := rfl
          simp only [zero] at heads
          have same : d = e := Char.toNat_inj.mp (by omega)
          exact ⟨by omega, by rw [same]⟩

theorem rank_injective {s t : Segment} (h : s.rank = t.rank) : s = t := by
  have texts : s.text = t.text := by
    unfold rank at h
    split at h
    next sn =>
      split at h
      next tn =>
        simp only [List.cons.injEq, and_true, true_and] at h
        exact (fold_injective (by simpa [numeric] using sn) (by simpa [numeric] using tn) h.2 0 0 h.1).2
      next => simp at h
    next =>
      split at h
      next => simp at h
      next =>
        simp only [List.cons.injEq, true_and] at h
        exact (List.map_inj_right (fun _ _ => Char.toNat_inj.mp)).mp h
  cases s; cases t; simpa using texts

theorem rank_head_lt (s : Segment) : ∃ n rest, s.rank = n :: rest ∧ n < 2 := by
  unfold rank; split
  · exact ⟨0, _, rfl, by decide⟩
  · exact ⟨1, _, rfl, by decide⟩

end Segment

namespace Version

theorem pre_rank_injective {ps qs : List PreSegment}
    (h : (if ps.isEmpty then [[2]] else ps.map (fun s => s.toSegment.rank)) =
      (if qs.isEmpty then [[2]] else qs.map (fun s => s.toSegment.rank))) : ps = qs := by
  have apart : ∀ (r : PreSegment) (rs : List (List Nat)), [[2]] ≠ r.toSegment.rank :: rs := by
    intro r rs same
    obtain ⟨n, rest, shape, small⟩ := r.toSegment.rank_head_lt
    simp [shape] at same
    omega
  have one : ∀ p q : PreSegment, p.toSegment.rank = q.toSegment.rank → p = q := by
    intro p q same
    have := Segment.rank_injective same
    cases p; cases q; simpa using this
  cases ps with
  | nil =>
      cases qs with
      | nil => rfl
      | cons q qs => simp only [List.isEmpty, List.map_cons, if_true] at h; exact (apart _ _ h).elim
  | cons p ps =>
      cases qs with
      | nil => simp only [List.isEmpty, List.map_cons, if_true] at h; exact (apart _ _ h.symm).elim
      | cons q qs =>
          exact (List.map_inj_right (fun p q => one p q)).mp (by simpa using h)

theorem rank_injective {v w : Version} (h : v.rank = w.rank) : v = w := by
  simp only [rank, List.cons.injEq, and_true] at h
  obtain ⟨⟨major, minor, patch⟩, pre, build⟩ := h
  have pres := pre_rank_injective pre
  have builds : v.build = w.build :=
    (List.map_inj_right (fun _ _ => Segment.rank_injective)).mp build
  cases v; cases w
  simp_all [UInt64.toNat_inj]

theorem compare_eq_ranks (v w : Version) : compare v w = compare v.rank w.rank := rfl

instance : Std.TransOrd Version where
  eq_swap {v w} := by
    have swapped : compare v.rank w.rank = (compare w.rank v.rank).swap := Std.OrientedCmp.eq_swap
    exact swapped
  isLE_trans {u v w} one two := by
    have first : (compare u.rank v.rank).isLE := one
    have second : (compare v.rank w.rank).isLE := two
    have chained : (compare u.rank w.rank).isLE := Std.TransCmp.isLE_trans first second
    exact chained

instance : Std.LawfulEqOrd Version where
  compare_self {v} := by
    have same : compare v.rank v.rank = .eq := Std.ReflCmp.compare_self
    exact same
  eq_of_compare same := rank_injective (Std.LawfulEqOrd.compare_eq_iff_eq.mp same)

end Version
end ContainerProfiles
