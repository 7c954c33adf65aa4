import ContainerProfiles.Lock.Table
import ContainerProfiles.Proofs.Entries

namespace ContainerProfiles

-- Locks and the handles given out for them. A lock only counts: who writes, how often, and how often each reader
-- reads.

namespace LockTable

variable (t : LockTable) {h : LockHandle} {u : LockTable} {me : Thread} {mode : LockMode}

theorem state_unused (key : String) : state { t with locks := ∅ } key = {} := rfl

theorem acquire_eq_ok {key : String} :
    t.acquire me key mode = .ok (h, u) ↔ (t.state key).permits me mode ∧ h = ⟨key, mode, me, t.generation⟩ ∧
      u = { t with
        locks := t.locks.insert key ((t.state key).enter me mode)
        held := t.held.insert me ((t.heldBy me).push key mode) } := by
  unfold acquire permit
  by_cases permitted : (t.state key).permits me mode
  · simp [permitted, bind, Except.bind, pure, Except.pure, eq_comm]
  · simp [permitted, bind, Except.bind]

theorem acquire_of_permits {key : String} (permitted : (t.state key).permits me mode) :
    ∃ u, t.acquire me key mode = .ok (⟨key, mode, me, t.generation⟩, u) :=
  ⟨_, t.acquire_eq_ok.mpr ⟨permitted, rfl, rfl⟩⟩

theorem state_acquired {key : String} (taken : t.acquire me key mode = .ok (h, u)) (other : String) :
    u.state other = if other = key then (t.state key).enter me mode else t.state other := by
  obtain ⟨_, _, rfl⟩ := t.acquire_eq_ok.mp taken
  unfold state
  rw [Dict.get?_insert]
  split <;> rfl

theorem state_released (own : h.generation = t.generation) (other : String) :
    (t.release h).state other =
      if other = h.key then (t.state h.key).leave h.owner h.mode else t.state other := by
  unfold release
  rw [if_pos own]
  unfold state
  dsimp only
  rw [Dict.get?_insert]
  split <;> rfl

theorem release_generation : (t.release h).generation = t.generation := by
  unfold release
  split <;> rfl

end LockTable

-- How often `me` holds the lock in one mode.
def holdsOf (live : List LockHandle) (key : String) (me : Thread) (mode : LockMode) : Nat :=
  live.countP (fun h => h.key = key ∧ h.owner = me ∧ h.mode = mode)

def writesOf (live : List LockHandle) (key : String) : Nat :=
  live.countP (fun h => h.key = key ∧ h.mode = .write)

section Counts

variable {live : List LockHandle} {key : String} {me : Thread} {mode : LockMode}

theorem holdsOf_cons (h : LockHandle) (live : List LockHandle) (key : String) (me : Thread)
    (mode : LockMode) : holdsOf (h :: live) key me mode =
      holdsOf live key me mode + if h.key = key ∧ h.owner = me ∧ h.mode = mode then 1 else 0 := by
  simp [holdsOf, List.countP_cons]

theorem writesOf_cons (h : LockHandle) (live : List LockHandle) (key : String) :
    writesOf (h :: live) key = writesOf live key + if h.key = key ∧ h.mode = .write then 1 else 0 := by
  simp [writesOf, List.countP_cons]

theorem holdsOf_cons_other {h : LockHandle} (apart : h.key ≠ key) (live : List LockHandle) (me : Thread)
    (mode : LockMode) : holdsOf (h :: live) key me mode = holdsOf live key me mode := by
  simp [holdsOf_cons, apart]

theorem writesOf_cons_other {h : LockHandle} (apart : h.key ≠ key) (live : List LockHandle) :
    writesOf (h :: live) key = writesOf live key := by
  simp [writesOf_cons, apart]

theorem holdsOf_pos : 0 < holdsOf live key me mode ↔ ∃ h ∈ live, h.key = key ∧ h.owner = me ∧ h.mode = mode := by
  simp [holdsOf, List.countP_pos_iff]

theorem holdsOf_self {h : LockHandle} (held : h ∈ live) : 0 < holdsOf live h.key h.owner h.mode :=
  holdsOf_pos.mpr ⟨h, held, rfl, rfl, rfl⟩

-- A thread that has the key to itself holds every write on it.
theorem writesOf_alone (alone : ∀ h ∈ live, h.key = key → h.owner = me) :
    writesOf live key = holdsOf live key me .write := by
  unfold writesOf holdsOf
  refine List.countP_congr fun h held => ?_
  have owner := alone h held
  simp only [decide_eq_true_eq]
  constructor
  · intro ⟨same, write⟩
    exact ⟨same, owner same, write⟩
  · intro ⟨same, _, write⟩
    exact ⟨same, write⟩

end Counts

structure Accounted (t : LockTable) (live : List LockHandle) : Prop where
  own : ∀ h ∈ live, h.generation = t.generation
  writer : ∀ key me, (t.state key).writer = some me ↔ 0 < holdsOf live key me .write
  writes : ∀ key, (t.state key).writeHolds = writesOf live key
  reads : ∀ key me, (t.state key).readers.get? me =
    if holdsOf live key me .read = 0 then none else some (holdsOf live key me .read)
  alone : ∀ key me, 0 < holdsOf live key me .write → ∀ h ∈ live, h.key = key → h.owner = me

namespace Accounted

variable {t u : LockTable} {live : List LockHandle} {key : String} {me : Thread} {mode : LockMode}

theorem unused (t : LockTable) : Accounted { t with locks := ∅ } [] := by
  refine ⟨?_, ?_, ?_, ?_, ?_⟩
  · intro h held
    cases held
  · intro key me
    simp [LockTable.state_unused, holdsOf]
  · intro key
    simp [LockTable.state_unused, writesOf]
  · intro key me
    simp [LockTable.state_unused, holdsOf]
  · intro key me _ h held
    cases held

theorem perm {other : List LockHandle} (accounted : Accounted t live) (same : live.Perm other) :
    Accounted t other := by
  have holds : ∀ key me mode, holdsOf other key me mode = holdsOf live key me mode :=
    fun _ _ _ => (same.countP_eq _).symm
  refine ⟨?_, ?_, ?_, ?_, ?_⟩
  · intro h held
    exact accounted.own h (same.mem_iff.mpr held)
  · intro key me
    rw [holds]
    exact accounted.writer key me
  · intro key
    exact (accounted.writes key).trans (same.countP_eq _)
  · intro key me
    rw [holds]
    exact accounted.reads key me
  · intro key me writing h held
    rw [holds] at writing
    exact accounted.alone key me writing h (same.mem_iff.mpr held)

theorem readHolds (accounted : Accounted t live) (key : String) (me : Thread) :
    (t.state key).readHolds me = holdsOf live key me .read := by
  unfold LockState.readHolds
  rw [accounted.reads]
  split
  · rename_i none
    exact none.symm
  · rfl

-- Nobody writes, so nobody holds the lock for writing.
theorem unwritten (accounted : Accounted t live) (free : (t.state key).writer = none) (me : Thread) :
    holdsOf live key me .write = 0 := by
  have idle : ¬ 0 < holdsOf live key me .write := by
    rw [← accounted.writer, free]
    simp
  omega

theorem unread (accounted : Accounted t live) (free : (t.state key).readers.isEmpty) (me : Thread) :
    holdsOf live key me .read = 0 := by
  have none := Dict.isEmpty_iff.mp free me
  rw [accounted.reads] at none
  split at none
  · assumption
  · cases none

theorem no_handle (accounted : Accounted t live) (unwritten : (t.state key).writer = none)
    (unread : (t.state key).readers.isEmpty) : ∀ h ∈ live, h.key ≠ key := by
  intro h held same
  have counted := holdsOf_self held
  rw [same] at counted
  cases mode : h.mode with
  | write =>
      rw [mode, accounted.unwritten unwritten] at counted
      cases counted
  | read =>
      rw [mode, accounted.unread unread] at counted
      cases counted

-- Whoever is let in for writing is alone with the lock, and whoever is let in finds no other writer.
theorem permitted_alone (accounted : Accounted t live) (permitted : (t.state key).permits me mode) :
    (mode = .write → ∀ h ∈ live, h.key = key → h.owner = me) ∧
      ∀ other, 0 < holdsOf live key other .write → other = me := by
  have writer : ∀ other, 0 < holdsOf live key other .write → (t.state key).writer = some other :=
    fun other => (accounted.writer key other).mpr
  cases mode with
  | write =>
      simp only [LockState.permits, Bool.or_eq_true, Bool.and_eq_true, decide_eq_true_eq,
        Option.isNone_iff_eq_none] at permitted
      rcases permitted with mine | ⟨unwritten, unread⟩
      · refine ⟨fun _ => accounted.alone key me ((accounted.writer key me).mp mine), ?_⟩
        intro other writing
        rw [writer other writing] at mine
        exact Option.some.inj mine
      · refine ⟨?_, ?_⟩
        · intro _ h held same
          exact absurd same (accounted.no_handle unwritten unread h held)
        · intro other writing
          rw [writer other writing] at unwritten
          cases unwritten
  | read =>
      simp only [LockState.permits, Bool.or_eq_true, decide_eq_true_eq,
        Option.isNone_iff_eq_none] at permitted
      refine ⟨nofun, ?_⟩
      intro other writing
      rw [writer other writing] at permitted
      rcases permitted with mine | unwritten
      · exact Option.some.inj mine
      · cases unwritten

theorem enter_writer {h : LockHandle} (accounted : Accounted t live)
    (sole : ∀ other, 0 < holdsOf live h.key other .write → other = h.owner) (who : Thread) :
    ((t.state h.key).enter h.owner h.mode).writer = some who ↔ 0 < holdsOf (h :: live) h.key who .write := by
  have before := accounted.writer h.key who
  rw [holdsOf_cons]
  cases mode : h.mode with
  | read => simpa [LockState.enter, mode] using before
  | write =>
      by_cases mine : h.owner = who
      · simp [LockState.enter, mine]
      · have idle : ¬ 0 < holdsOf live h.key who .write := fun writing => mine (sole who writing).symm
        simpa [LockState.enter, mine] using idle

theorem enter_reads (accounted : Accounted t live) (h : LockHandle) (who : Thread) :
    ((t.state h.key).enter h.owner h.mode).readers.get? who =
      if holdsOf (h :: live) h.key who .read = 0 then none else some (holdsOf (h :: live) h.key who .read) := by
  have before := accounted.reads h.key who
  rw [holdsOf_cons]
  cases mode : h.mode with
  | write => simpa [LockState.enter, mode] using before
  | read =>
      rw [LockState.enter, Dict.get?_insert, accounted.readHolds]
      by_cases mine : who = h.owner
      · simp [mine]
      · simpa [mine, Ne.symm mine] using before

-- With the new handle as well, whoever writes has the lock alone.
theorem acquired_alone {h : LockHandle} (accounted : Accounted t live)
    (permitted : (t.state h.key).permits h.owner h.mode) (who : Thread)
    (writing : 0 < holdsOf (h :: live) key who .write) : ∀ i ∈ h :: live, i.key = key → i.owner = who := by
  obtain ⟨alone, sole⟩ := accounted.permitted_alone permitted
  intro i held here
  rw [holdsOf_cons] at writing
  have once : 0 < holdsOf live key who .write ∨ (h.key = key ∧ h.owner = who ∧ h.mode = .write) := by
    split at writing
    · rename_i mine
      exact .inr mine
    · exact .inl writing
  rcases List.mem_cons.mp held with rfl | old
  · rcases once with before | ⟨_, mine, _⟩
    · exact (sole who (here ▸ before)).symm
    · exact mine
  · rcases once with before | ⟨rfl, rfl, write⟩
    · exact accounted.alone key who before i old here
    · exact alone write i old here

theorem acquired {h : LockHandle} (accounted : Accounted t live)
    (taken : t.acquire me key mode = .ok (h, u)) : Accounted u (h :: live) := by
  have state := t.state_acquired taken
  obtain ⟨permitted, rfl, same⟩ := t.acquire_eq_ok.mp taken
  obtain ⟨_, sole⟩ := accounted.permitted_alone permitted
  refine ⟨?_, ?_, ?_, ?_, ?_⟩
  · intro h held
    rw [same]
    rcases List.mem_cons.mp held with rfl | old
    · rfl
    · exact accounted.own h old
  · intro other who
    rw [state]
    by_cases here : other = key
    · subst here
      exact if_pos rfl ▸ accounted.enter_writer (h := ⟨other, mode, me, t.generation⟩) sole who
    · rw [if_neg here, holdsOf_cons_other (Ne.symm here)]
      exact accounted.writer other who
  · intro other
    rw [state]
    by_cases here : other = key
    · subst here
      rw [if_pos rfl, writesOf_cons, ← accounted.writes]
      cases mode <;> simp [LockState.enter]
    · rw [if_neg here, writesOf_cons_other (Ne.symm here)]
      exact accounted.writes other
  · intro other who
    rw [state]
    by_cases here : other = key
    · subst here
      exact if_pos rfl ▸ accounted.enter_reads ⟨other, mode, me, t.generation⟩ who
    · rw [if_neg here, holdsOf_cons_other (Ne.symm here)]
      exact accounted.reads other who
  · exact fun other who => accounted.acquired_alone (h := ⟨key, mode, me, t.generation⟩) permitted who

theorem alone_writing {h : LockHandle} (accounted : Accounted t (h :: live)) (write : h.mode = .write) :
    ∀ i ∈ live, i.key = h.key → i.owner = h.owner := by
  intro i held here
  have writing : 0 < holdsOf (h :: live) h.key h.owner .write := write ▸ holdsOf_self List.mem_cons_self
  exact accounted.alone h.key h.owner writing i (.tail _ held) here

-- The handle is one of those counted, so the count it takes away from is not zero.
theorem leave_write {h : LockHandle} (accounted : Accounted t (h :: live)) (write : h.mode = .write) :
    (t.state h.key).leave h.owner .write = { t.state h.key with
      writer := if holdsOf live h.key h.owner .write = 0 then none else some h.owner
      writeHolds := holdsOf live h.key h.owner .write } := by
  have writer : (t.state h.key).writer = some h.owner := by
    rw [accounted.writer]
    exact write ▸ holdsOf_self List.mem_cons_self
  have writes : (t.state h.key).writeHolds = holdsOf live h.key h.owner .write + 1 := by
    rw [accounted.writes, writesOf_cons, writesOf_alone (accounted.alone_writing write)]
    simp [write]
  unfold LockState.leave
  simp [writer, writes]

theorem leave_read {h : LockHandle} (accounted : Accounted t (h :: live)) (read : h.mode = .read) :
    (t.state h.key).leave h.owner .read = { t.state h.key with
      readers := if holdsOf live h.key h.owner .read = 0 then (t.state h.key).readers.erase h.owner
        else (t.state h.key).readers.insert h.owner (holdsOf live h.key h.owner .read) } := by
  have reads : (t.state h.key).readHolds h.owner = holdsOf live h.key h.owner .read + 1 := by
    rw [accounted.readHolds, holdsOf_cons]
    simp [read]
  unfold LockState.leave
  simp only [reads, Nat.add_one_ne_zero, if_false, Nat.add_eq_right, Nat.add_one_sub_one]
  split <;> rfl

theorem left_writer {h : LockHandle} (accounted : Accounted t (h :: live)) (who : Thread) :
    ((t.state h.key).leave h.owner h.mode).writer = some who ↔ 0 < holdsOf live h.key who .write := by
  have before := accounted.writer h.key who
  rw [holdsOf_cons] at before
  cases mode : h.mode with
  | read => simpa [accounted.leave_read mode, mode] using before
  | write =>
      rw [accounted.leave_write mode]
      by_cases mine : h.owner = who
      · subst mine
        by_cases last : holdsOf live h.key h.owner .write = 0
        · simp [last]
        · simp [last, Nat.pos_of_ne_zero last]
      · have idle : ¬ 0 < holdsOf live h.key who .write := by
          intro writing
          obtain ⟨i, held, here, owner, _⟩ := holdsOf_pos.mp writing
          exact mine ((accounted.alone_writing mode i held here).symm.trans owner)
        by_cases last : holdsOf live h.key h.owner .write = 0
        · simpa [last] using idle
        · simpa [last, mine] using idle

theorem left_reads {h : LockHandle} (accounted : Accounted t (h :: live)) (who : Thread) :
    ((t.state h.key).leave h.owner h.mode).readers.get? who =
      if holdsOf live h.key who .read = 0 then none else some (holdsOf live h.key who .read) := by
  have before := accounted.reads h.key who
  rw [holdsOf_cons] at before
  cases mode : h.mode with
  | write => simpa [accounted.leave_write mode, mode] using before
  | read =>
      rw [accounted.leave_read mode]
      dsimp only
      by_cases mine : who = h.owner
      · subst mine
        by_cases last : holdsOf live h.key h.owner .read = 0
        · simp [last]
        · simp [last]
      · by_cases last : holdsOf live h.key h.owner .read = 0
        · simpa [last, mine, Ne.symm mine] using before
        · simpa [last, mine, Ne.symm mine] using before

theorem released {h : LockHandle} (accounted : Accounted t (h :: live)) :
    Accounted (t.release h) live := by
  have own := accounted.own h List.mem_cons_self
  have state := t.state_released own
  refine ⟨?_, ?_, ?_, ?_, ?_⟩
  · intro i held
    rw [t.release_generation]
    exact accounted.own i (.tail _ held)
  · intro key me
    rw [state]
    by_cases here : key = h.key
    · subst here
      exact if_pos rfl ▸ accounted.left_writer me
    · rw [if_neg here, accounted.writer, holdsOf_cons_other (Ne.symm here)]
  · intro key
    rw [state]
    by_cases here : key = h.key
    · subst here
      have before := accounted.writes h.key
      rw [writesOf_cons] at before
      cases mode : h.mode with
      | read => simpa [accounted.leave_read mode, mode] using before
      | write => simp [accounted.leave_write mode, writesOf_alone (accounted.alone_writing mode)]
    · rw [if_neg here, accounted.writes, writesOf_cons_other (Ne.symm here)]
  · intro key me
    rw [state]
    by_cases here : key = h.key
    · subst here
      exact if_pos rfl ▸ accounted.left_reads me
    · rw [if_neg here, accounted.reads, holdsOf_cons_other (Ne.symm here)]
  · intro key me writing i held here
    refine accounted.alone key me ?_ i (.tail _ held) here
    rw [holdsOf_cons]
    omega

theorem permits_writer (accounted : Accounted t live) (writing : 0 < holdsOf live key me .write)
    (mode : LockMode) : (t.state key).permits me mode := by
  have writer := (accounted.writer key me).mpr writing
  cases mode <;> simp [LockState.permits, writer]

theorem permits_reader (accounted : Accounted t live) (reading : 0 < holdsOf live key me .read) :
    (t.state key).permits me .read := by
  cases writer : (t.state key).writer with
  | none => simp [LockState.permits, writer]
  | some other =>
      obtain ⟨h, held, here, owner, _⟩ := holdsOf_pos.mp reading
      have same := accounted.alone key other ((accounted.writer key other).mp writer) h held here
      simp [LockState.permits, writer, ← same, owner]

theorem refuses_upgrade (accounted : Accounted t live) (reading : 0 < holdsOf live key me .read)
    (unwritten : holdsOf live key me .write = 0) : (t.state key).permits me .write = false := by
  have notWriter : (t.state key).writer ≠ some me := by
    intro writer
    rw [accounted.writer, unwritten] at writer
    cases writer
  have notUnread : ¬ (t.state key).readers.isEmpty := by
    intro unread
    rw [accounted.unread unread] at reading
    cases reading
  simp [LockState.permits, notWriter, notUnread]

theorem state_emptied (accounted : Accounted t live) (dropped : ∀ h ∈ live, h.key ≠ key) :
    t.state key = {} := by
  have none : ∀ me mode, holdsOf live key me mode = 0 := by
    intro me mode
    refine Nat.eq_zero_of_not_pos fun held => ?_
    obtain ⟨h, member, here, _⟩ := holdsOf_pos.mp held
    exact dropped h member here
  have writer : (t.state key).writer = Option.none := by
    cases found : (t.state key).writer with
    | none => rfl
    | some me =>
        rw [accounted.writer, none] at found
        cases found
  have writes : (t.state key).writeHolds = 0 := by
    rw [accounted.writes]
    refine List.countP_eq_zero.mpr fun h member => ?_
    simp [dropped h member]
  have readers : (t.state key).readers = ∅ := by
    refine Dict.ext_get? fun me => ?_
    rw [accounted.reads, none, if_pos rfl]
    rfl
  calc t.state key
      = ⟨(t.state key).writer, (t.state key).writeHolds, (t.state key).readers⟩ := rfl
    _ = {} := by rw [writer, writes, readers]

end Accounted
end ContainerProfiles
