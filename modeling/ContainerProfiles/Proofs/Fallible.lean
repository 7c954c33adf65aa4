import Mathlib.Data.List.Forall2

namespace ContainerProfiles

-- Computations that can end early: when a whole of several succeeds, and which errors it can end with.

theorem bind_eq_ok {x : Except ε α} {f : α → Except ε β} {b : β} :
    x >>= f = .ok b ↔ ∃ a, x = .ok a ∧ f a = .ok b := by
  cases x with
  | error e => simp [bind, Except.bind]
  | ok a => simp [bind, Except.bind]

theorem bind_eq_error {x : Except ε α} {f : α → Except ε β} {e : ε} :
    x >>= f = .error e ↔ x = .error e ∨ ∃ a, x = .ok a ∧ f a = .error e := by
  cases x with
  | error cause => simp [bind, Except.bind]
  | ok a => simp [bind, Except.bind]

theorem pure_eq_ok {a b : α} : (pure a : Except ε α) = .ok b ↔ a = b := by
  simp [pure, Except.pure]

theorem pure_eq_error {a : α} {e : ε} : (pure a : Except ε α) = .error e ↔ False := by
  simp [pure, Except.pure]

theorem throw_eq_ok {e : ε} {a : α} : (throw e : Except ε α) = .ok a ↔ False := by
  simp [throw, throwThe, MonadExceptOf.throw]

theorem guard_eq_ok {c : Prop} [Decidable c] {e : ε} {f : α → Except ε β} {x : Except ε β} {b : β} :
    (if c then throw e >>= f else x) = .ok b ↔ ¬ c ∧ x = .ok b := by
  split
  · simp_all [throw, throwThe, MonadExceptOf.throw, bind, Except.bind]
  · simp_all

theorem mapError_eq_ok {x : Except ε α} {f : ε → δ} {a : α} : x.mapError f = .ok a ↔ x = .ok a := by
  cases x with
  | error e => exact ⟨nofun, nofun⟩
  | ok b =>
      change (Except.ok b : Except δ α) = .ok a ↔ (Except.ok b : Except ε α) = .ok a
      rw [Except.ok.injEq, Except.ok.injEq]

theorem forM_eq_ok {f : α → Except ε Unit} {xs : List α} : xs.forM f = .ok () ↔ ∀ x ∈ xs, f x = .ok () := by
  induction xs with
  | nil => exact ⟨fun _ => List.forall_mem_nil _, fun _ => rfl⟩
  | cons x rest ih =>
      rw [List.forall_mem_cons, ← ih]
      exact bind_eq_ok.trans ⟨fun ⟨_, both⟩ => both, fun both => ⟨(), both⟩⟩

theorem mapM_eq_ok {f : α → Except ε β} {xs : List α} {ys : List β} :
    xs.mapM f = .ok ys ↔ List.Forall₂ (fun x y => f x = .ok y) xs ys := by
  induction xs generalizing ys with
  | nil => rw [List.mapM_nil, pure_eq_ok, List.forall₂_nil_left_iff, eq_comm]
  | cons x rest ih =>
      rw [List.mapM_cons]
      simp only [bind_eq_ok, pure_eq_ok, ih, List.forall₂_cons_left_iff]
      exact exists_congr fun y => by simp [eq_comm]

-- Whatever ends the computation early, it is nothing of this kind.
def Never (bad : ε → Prop) (x : Except ε α) : Prop := ∀ e, x = .error e → ¬ bad e

section Never

variable {bad : ε → Prop} {x : Except ε α}

@[simp] theorem never_ok (a : α) : Never bad (.ok a) := nofun

@[simp] theorem never_pure (a : α) : Never bad (pure a : Except ε α) := nofun

@[simp] theorem never_error (e : ε) : Never bad (.error e : Except ε α) ↔ ¬ bad e := by
  simp [Never]

@[simp] theorem never_throw (e : ε) : Never bad (throw e : Except ε α) ↔ ¬ bad e := never_error e

-- An error that is passed on to another answer.
theorem Never.failed (never : Never bad x) {e : ε} (failed : x = .error e) : Never bad (.error e : Except ε β) :=
  (never_error e).mpr (never e failed)

@[simp] theorem never_bind (f : α → Except ε β) :
    Never bad (x >>= f) ↔ Never bad x ∧ ∀ a, x = .ok a → Never bad (f a) := by
  cases x with
  | error e => simp [Never, bind, Except.bind]
  | ok a => simp [Never, bind, Except.bind]

@[simp] theorem never_ite (c : Prop) [Decidable c] (y : Except ε α) :
    Never bad (if c then x else y) ↔ (c → Never bad x) ∧ (¬ c → Never bad y) := by
  split <;> simp_all

@[simp] theorem never_map (f : α → β) : Never bad (x.map f) ↔ Never bad x := by
  cases x with
  | error e => simp [Never, Except.map]
  | ok a => simp [Never, Except.map]

@[simp] theorem never_fmap (f : α → β) : Never bad (f <$> x) ↔ Never bad x := never_map f

-- Errors of another kind under a constructor that is not meant.
theorem never_mapError {f : δ → ε} (x : Except δ α) (harmless : ∀ e, ¬ bad (f e)) :
    Never bad (x.mapError f) := by
  cases x with
  | error e => exact (never_error _).mpr (harmless e)
  | ok a => exact never_ok a

theorem never_forM {f : β → Except ε Unit} {xs : List β} (each : ∀ x ∈ xs, Never bad (f x)) :
    Never bad (forM xs f) := by
  induction xs with
  | nil => exact never_ok _
  | cons x rest ih =>
      have others := ih fun y later => each y (.tail _ later)
      exact (never_bind _).mpr ⟨each x List.mem_cons_self, fun _ _ => others⟩

end Never

end ContainerProfiles
