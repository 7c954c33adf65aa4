import ContainerProfiles.Proofs.LockHolders

namespace ContainerProfiles

-- Threads around the same locks. Each asks for locks, waits for them and gives handles back when it likes; what is
-- safe to rely on holds after every order of these events.

structure LockRequest where
  owner : Thread
  key : String
  mode : LockMode
deriving DecidableEq

-- The handles that were given out and not given back, and the acquisitions that still wait.
structure LockScene where
  table : LockTable
  live : List LockHandle := []
  waiting : List LockRequest := []

-- An acquisition looks at the lock once and then waits; a waiting one looks again whenever it is woken,
-- and gives up when its time is over and the lock is still not to be had.
inductive LockEvent where
  | ask (r : LockRequest)
  | wake (r : LockRequest)
  | giveUp (r : LockRequest)
  | drop (h : LockHandle)

namespace LockScene

def opened (timeout : UInt64) : LockScene := { table := { timeout } }

def look (s : LockScene) (r : LockRequest) : Option LockScene :=
  match s.table.acquire r.owner r.key r.mode with
  | .ok (h, table) => some { s with table, live := h :: s.live }
  | .error _ => none

def leaves (s : LockScene) (r : LockRequest) : LockScene := { s with waiting := s.waiting.erase r }

def step (s : LockScene) : LockEvent → LockScene
  | .ask r => (s.look r).getD { s with waiting := r :: s.waiting }
  | .wake r => if r ∈ s.waiting then ((s.look r).map (·.leaves r)).getD s else s
  | .giveUp r => if (s.look r).isNone then s.leaves r else s
  | .drop h => if h ∈ s.live then { s with table := s.table.release h, live := s.live.erase h } else s

def play (s : LockScene) (events : List LockEvent) : LockScene := events.foldl step s

variable {s : LockScene} {r : LockRequest}

-- A condition on the locks and the live handles that does not depend on the order of the handles, and that one
-- handle more or one less leaves true.
structure Kept (P : LockTable → List LockHandle → Prop) : Prop where
  perm : ∀ {t live other}, P t live → live.Perm other → P t other
  acquired : ∀ {t live me key mode h u}, P t live → t.acquire me key mode = .ok (h, u) → P u (h :: live)
  released : ∀ {t h live}, P t (h :: live) → P (t.release h) live

section Kept

variable {P : LockTable → List LockHandle → Prop}

theorem look_keeps (kept : Kept P) (before : P s.table s.live) {u : LockScene} (granted : s.look r = some u) :
    P u.table u.live := by
  unfold look at granted
  split at granted
  · rename_i taken
    cases granted
    exact kept.acquired before taken
  · cases granted

theorem step_keeps (kept : Kept P) (before : P s.table s.live) (e : LockEvent) :
    P (s.step e).table (s.step e).live := by
  cases e with
  | ask r =>
      cases granted : s.look r with
      | none => simpa [step, granted] using before
      | some u => simpa [step, granted] using look_keeps kept before granted
  | wake r =>
      simp only [step]
      split
      · cases granted : s.look r with
        | none => exact before
        | some u =>
            have after := look_keeps kept before granted
            exact after
      · exact before
  | giveUp r =>
      simp only [step]
      split <;> exact before
  | drop h =>
      simp only [step]
      split
      · rename_i held
        exact kept.released (kept.perm before (List.perm_cons_erase held))
      · exact before

theorem play_keeps (kept : Kept P) (before : P s.table s.live) (events : List LockEvent) :
    P (s.play events).table (s.play events).live := by
  induction events generalizing s with
  | nil => exact before
  | cons e rest ih => exact ih (step_keeps kept before e)

end Kept

theorem play_accounted (accounted : Accounted s.table s.live) (events : List LockEvent) :
    Accounted (s.play events).table (s.play events).live := by
  have kept : Kept Accounted := ⟨Accounted.perm, Accounted.acquired, Accounted.released⟩
  exact play_keeps kept accounted events

-- Locks, held keys and handles stay, whether the acquisition begins, looks again or ends there.
theorem step_refused (refused : s.look r = none) {e : LockEvent} (attempt : e ∈ [.ask r, .wake r, .giveUp r]) :
    (s.step e).table = s.table ∧ (s.step e).live = s.live := by
  simp only [List.mem_cons, List.not_mem_nil, or_false] at attempt
  rcases attempt with rfl | rfl | rfl
  · simp [step, refused]
  · simp [step, refused]
  · simp [step, refused, leaves]

end LockScene

-- What holds of the lock under a key, told by the handles that threads have on it.
structure LockScene.Safe (s : LockScene) (key : String) : Prop where
  writer : ∀ me, (s.table.state key).writer = some me ↔ 0 < holdsOf s.live key me .write
  writes : (s.table.state key).writeHolds = writesOf s.live key
  reads : ∀ me, (s.table.state key).readers.get? me =
    if holdsOf s.live key me .read = 0 then none else some (holdsOf s.live key me .read)
  alone : ∀ me, 0 < holdsOf s.live key me .write → ∀ h ∈ s.live, h.key = key → h.owner = me
  rewriting : ∀ me mode, 0 < holdsOf s.live key me .write → ∃ h t, s.table.acquire me key mode = .ok (h, t)
  rereading : ∀ me, 0 < holdsOf s.live key me .read → ∃ h t, s.table.acquire me key .read = .ok (h, t)
  upgrading : ∀ me, 0 < holdsOf s.live key me .read → holdsOf s.live key me .write = 0 →
    s.table.acquire me key .write = .error (.timeout key .write s.table.timeout)
  refused : ∀ r : LockRequest, r.key = key → s.look r = none → ∀ e ∈ [.ask r, .wake r, .giveUp r],
    (s.step e).table = s.table ∧ (s.step e).live = s.live
  -- what a handle takes away when it is dropped was counted before
  counted : ∀ h ∈ s.live, h.key = key → match h.mode with
    | .write => (s.table.state key).writer = some h.owner ∧ 0 < (s.table.state key).writeHolds
    | .read => 0 < (s.table.state key).readHolds h.owner
  emptied : (∀ h ∈ s.live, h.key ≠ key) → s.table.state key = {}

theorem Accounted.safe {s : LockScene} (accounted : Accounted s.table s.live) (key : String) : s.Safe key := by
  refine ⟨accounted.writer key, accounted.writes key, accounted.reads key, accounted.alone key,
    ?_, ?_, ?_, ?_, ?_, accounted.state_emptied⟩
  · intro me mode writing
    obtain ⟨t, taken⟩ := s.table.acquire_of_permits (accounted.permits_writer writing mode)
    exact ⟨_, t, taken⟩
  · intro me reading
    obtain ⟨t, taken⟩ := s.table.acquire_of_permits (accounted.permits_reader reading)
    exact ⟨_, t, taken⟩
  · intro me reading unwritten
    unfold LockTable.acquire LockTable.permit
    simp [accounted.refuses_upgrade reading unwritten, bind, Except.bind]
  · intro r _ refused e attempt
    exact LockScene.step_refused refused attempt
  · intro h held here
    subst here
    have counted := holdsOf_self held
    cases mode : h.mode with
    | read =>
        dsimp only
        rw [accounted.readHolds, ← mode]
        exact counted
    | write =>
        rw [mode] at counted
        refine ⟨(accounted.writer _ _).mpr counted, ?_⟩
        rw [accounted.writes, writesOf_alone (accounted.alone _ _ counted)]
        exact counted

namespace LockScene

theorem play_safe (timeout : UInt64) (events : List LockEvent) (key : String) :
    ((opened timeout).play events).Safe key :=
  (play_accounted (Accounted.unused { timeout }) events).safe key

-- A writer that gives the write back first goes on reading, and nobody may write beside it.
example : ((opened 50).play [.ask ⟨"t", "a", .write⟩, .ask ⟨"t", "a", .read⟩, .drop ⟨"a", .write, "t", 0⟩,
    .ask ⟨"u", "a", .write⟩]).live = [⟨"a", .read, "t", 0⟩] := by decide

end LockScene
end ContainerProfiles
