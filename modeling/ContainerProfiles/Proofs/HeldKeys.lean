import ContainerProfiles.Proofs.LockScenes
import ContainerProfiles.Proofs.VersionText
import Mathlib.Logic.Function.Basic

namespace ContainerProfiles

-- What the threads write down of their locks. Every thread has one stack of keys for reading and one for writing:
-- an acquisition puts its key on top, and a handle that is dropped takes an equal key away, wherever this one
-- lies.

namespace HeldKeys

def stack (held : HeldKeys) : LockMode → List String
  | .read => held.read
  | .write => held.write

theorem stack_push (held : HeldKeys) (key : String) (mode other : LockMode) :
    (held.push key mode).stack other = if other = mode then key :: held.stack other else held.stack other := by
  cases mode <;> cases other <;> rfl

theorem stack_drop (held : HeldKeys) (key : String) (mode other : LockMode) :
    (held.drop key mode).stack other = if other = mode then (held.stack other).erase key else held.stack other := by
  cases mode <;> cases other <;> rfl

theorem grants_write {held : HeldKeys} {key : String} : held.grants key .write ↔ key ∈ held.stack .write := by
  simp [grants, stack]

-- Who may write may read.
theorem grants_read {held : HeldKeys} {key : String} : held.grants key .read ↔ ∃ mode, key ∈ held.stack mode := by
  simp only [grants, Bool.or_eq_true, decide_eq_true_eq]
  constructor
  · rintro (write | read)
    · exact ⟨.write, write⟩
    · exact ⟨.read, read⟩
  · rintro ⟨_ | _, there⟩
    · exact .inr there
    · exact .inl there

end HeldKeys

namespace LockTable

variable {t u : LockTable} {h : LockHandle} {me : Thread} {key : String} {mode : LockMode}

theorem heldBy_acquired (taken : t.acquire me key mode = .ok (h, u)) (who : Thread) :
    u.heldBy who = if who = me then (t.heldBy me).push key mode else t.heldBy who := by
  obtain ⟨_, _, rfl⟩ := t.acquire_eq_ok.mp taken
  unfold heldBy
  rw [Dict.get?_insert]
  split <;> rfl

theorem heldBy_released (t : LockTable) (h : LockHandle) (who : Thread) :
    (t.release h).heldBy who = if who = h.owner then (t.heldBy h.owner).drop h.key h.mode else t.heldBy who := by
  have held : (t.release h).held = t.held.insert h.owner ((t.heldBy h.owner).drop h.key h.mode) := by
    unfold release
    split <;> rfl
  unfold heldBy at held ⊢
  rw [held, Dict.get?_insert]
  split <;> rfl

end LockTable

def Recorded (t : LockTable) (live : List LockHandle) : Prop :=
  ∀ me mode key, ((t.heldBy me).stack mode).count key = holdsOf live key me mode

namespace Recorded

variable {t u : LockTable} {live : List LockHandle} {h : LockHandle} {me : Thread} {key : String} {mode : LockMode}

theorem perm {other : List LockHandle} (recorded : Recorded t live) (same : live.Perm other) : Recorded t other := by
  intro me mode key
  rw [recorded]
  exact same.countP_eq _

theorem acquired (recorded : Recorded t live) (taken : t.acquire me key mode = .ok (h, u)) :
    Recorded u (h :: live) := by
  obtain ⟨_, rfl, _⟩ := t.acquire_eq_ok.mp taken
  intro who kind other
  rw [LockTable.heldBy_acquired taken, holdsOf_cons, ← recorded]
  by_cases mine : who = me
  · subst mine
    rw [if_pos rfl, HeldKeys.stack_push]
    by_cases same : kind = mode
    · subst same
      simp [List.count_cons]
    · simp [same, Ne.symm same]
  · simp [mine, Ne.symm mine]

-- An equal key is there to be taken, because the handle was counted.
theorem released (recorded : Recorded t (h :: live)) : Recorded (t.release h) live := by
  intro who kind other
  have before := recorded who kind other
  rw [holdsOf_cons] at before
  rw [LockTable.heldBy_released]
  by_cases mine : who = h.owner
  · subst mine
    rw [if_pos rfl, HeldKeys.stack_drop]
    by_cases same : kind = h.mode
    · subst same
      rw [if_pos rfl, List.count_erase, before]
      by_cases here : h.key = other <;> simp [here]
    · simpa [same, Ne.symm same] using before
  · simpa [mine, Ne.symm mine] using before

theorem unused (timeout : UInt64) : Recorded { timeout } [] := fun me mode key => by
  cases mode <;> rfl

-- The stack of a thread, entry for entry.
theorem perm_keys (recorded : Recorded t live) (me : Thread) (mode : LockMode) : ((t.heldBy me).stack mode).Perm
    ((live.filter (fun h => h.owner = me ∧ h.mode = mode)).map (·.key)) := by
  refine List.perm_iff_count.mpr fun key => ?_
  rw [recorded, List.count, List.countP_map, List.countP_filter]
  refine List.countP_congr fun h _ => ?_
  simp

theorem mem_stack (recorded : Recorded t live) : key ∈ (t.heldBy me).stack mode ↔
    ∃ h ∈ live, h.key = key ∧ h.owner = me ∧ h.mode = mode := by
  rw [← List.count_pos_iff, recorded, holdsOf_pos]

end Recorded

theorem lockKey_injective {scope id other : String} (same : lockKey scope id = lockKey scope other) : id = other := by
  unfold lockKey at same
  simpa [← String.toList_inj] using same

theorem LockTable.checkHeld_eq_ok {t : LockTable} {me : Thread} {key : String} {mode : LockMode} :
    t.checkHeld me key mode = .ok () ↔ (t.heldBy me).grants key mode := by
  unfold checkHeld holds
  split <;> simp_all

theorem LockHandle.check_eq_ok {h : LockHandle} {key : String} {mode : LockMode} :
    h.check key mode = .ok () ↔ h.key = key ∧ (h.mode = .write ∨ mode = .read) := by
  have granted : h.mode.grants mode ↔ h.mode = .write ∨ mode = .read := by
    cases h.mode <;> cases mode <;> decide
  unfold check covers
  rw [← granted]
  split <;> simp_all

-- What `me` asks of the manager of one scope, whose identities have names of their own.
def LockRequest.on (scope : String) (name : K → String) (me : Thread) (id : K) (mode : LockMode) : LockRequest :=
  ⟨me, lockKey scope (name id), mode⟩

namespace LockEvent

def request? : LockEvent → Option LockRequest
  | .ask r | .wake r | .giveUp r => some r
  | .drop _ => none

-- Whatever is asked for is asked of this manager.
def Within (scope : String) (name : K → String) (e : LockEvent) : Prop :=
  ∀ r ∈ e.request?, ∃ id, r = .on scope name r.owner id r.mode

end LockEvent

namespace LockScene

variable {s u : LockScene} {r : LockRequest} {h : LockHandle} {e : LockEvent}

theorem look_live (granted : s.look r = some u) (there : h ∈ u.live) :
    h ∈ s.live ∨ r = ⟨h.owner, h.key, h.mode⟩ := by
  unfold look at granted
  split at granted
  · rename_i taken
    cases granted
    obtain ⟨_, rfl, _⟩ := s.table.acquire_eq_ok.mp taken
    rcases List.mem_cons.mp there with rfl | old
    · exact .inr rfl
    · exact .inl old
  · cases granted

-- Nobody has a handle that no event asked for.
theorem step_live (there : h ∈ (s.step e).live) : h ∈ s.live ∨ e.request? = some ⟨h.owner, h.key, h.mode⟩ := by
  cases e with
  | ask r =>
      cases granted : s.look r with
      | none => exact .inl (by simpa [step, granted] using there)
      | some u =>
          rw [step, granted] at there
          exact (look_live granted there).imp_right (congrArg some)
  | wake r =>
      simp only [step] at there
      split at there
      · cases granted : s.look r with
        | none => exact .inl (by simpa [granted] using there)
        | some u =>
            rw [granted] at there
            exact (look_live granted there).imp_right (congrArg some)
      · exact .inl there
  | giveUp r =>
      simp only [step] at there
      split at there <;> exact .inl there
  | drop other =>
      simp only [step] at there
      split at there
      · exact .inl (List.mem_of_mem_erase there)
      · exact .inl there

theorem play_live {events : List LockEvent} (there : h ∈ (s.play events).live) :
    h ∈ s.live ∨ ∃ e ∈ events, e.request? = some ⟨h.owner, h.key, h.mode⟩ := by
  induction events generalizing s with
  | nil => exact .inl there
  | cons e rest ih =>
      rcases ih there with old | ⟨later, member, asked⟩
      · exact (step_live old).imp_right fun asked => ⟨e, List.mem_cons_self, asked⟩
      · exact .inr ⟨later, .tail _ member, asked⟩

-- What is true of the stacks of `me` after `events`, and of the checks that look at stacks and handles.
structure Mirrored (s : LockScene) (events : List LockEvent) (scope : String) (name : K → String) (me : Thread) :
    Prop where
  reads : (s.table.heldBy me).read.Perm ((s.live.filter (fun h => h.owner = me ∧ h.mode = .read)).map (·.key))
  writes : (s.table.heldBy me).write.Perm ((s.live.filter (fun h => h.owner = me ∧ h.mode = .write)).map (·.key))
  writing : ∀ id, s.table.checkHeld me (lockKey scope (name id)) .write = .ok () ↔
    ∃ h ∈ s.live, h.key = lockKey scope (name id) ∧ h.owner = me ∧ h.mode = .write
  reading : ∀ id, s.table.checkHeld me (lockKey scope (name id)) .read = .ok () ↔
    ∃ h ∈ s.live, h.key = lockKey scope (name id) ∧ h.owner = me
  -- a handle was acquired for one identity, and is proof of the lock on this one alone
  checking : ∀ h ∈ s.live, ∃ id, (∃ e ∈ events, e.request? = some (.on scope name h.owner id h.mode)) ∧
    h.key = lockKey scope (name id) ∧ ∀ other mode, h.check (lockKey scope (name other)) mode = .ok () ↔
      other = id ∧ (h.mode = .write ∨ mode = .read)

theorem play_mirrored {name : K → String} (distinct : Function.Injective name) (scope : String) (timeout : UInt64)
    {events : List LockEvent} (within : ∀ e ∈ events, e.Within scope name) (me : Thread) :
    ((opened timeout).play events).Mirrored events scope name me := by
  have kept : Kept Recorded := ⟨Recorded.perm, Recorded.acquired, Recorded.released⟩
  have recorded : Recorded ((opened timeout).play events).table ((opened timeout).play events).live :=
    play_keeps kept (Recorded.unused timeout) events
  refine ⟨recorded.perm_keys me .read, recorded.perm_keys me .write, fun id => ?_, fun id => ?_, fun h there => ?_⟩
  · rw [LockTable.checkHeld_eq_ok, HeldKeys.grants_write, recorded.mem_stack]
  · rw [LockTable.checkHeld_eq_ok, HeldKeys.grants_read]
    simp only [recorded.mem_stack]
    constructor
    · rintro ⟨_, h, there, key, owner, _⟩
      exact ⟨h, there, key, owner⟩
    · rintro ⟨h, there, key, owner⟩
      exact ⟨h.mode, h, there, key, owner, rfl⟩
  · rcases play_live there with none | ⟨e, member, asked⟩
    · cases none
    obtain ⟨id, on⟩ := within e member _ asked
    have key : h.key = lockKey scope (name id) := congrArg LockRequest.key on
    refine ⟨id, ⟨e, member, asked.trans (congrArg some on)⟩, key, fun other mode => ?_⟩
    rw [LockHandle.check_eq_ok, key]
    refine and_congr_left fun _ => ⟨fun same => (distinct (lockKey_injective same)).symm, ?_⟩
    rintro rfl
    rfl

-- A version is written twice and read; another thread waits for it in vain, and reads another version.
def nested : List LockEvent :=
  let first (me : Thread) := LockRequest.on "version" Version.text me { major := 1, minor := 0, patch := 0 }
  [.ask (first "t" .write), .ask (first "t" .read), .ask (first "t" .write), .ask (first "u" .read),
    .drop ⟨"version/1.0.0", .write, "t", 0⟩, .giveUp (first "u" .read),
    .ask (.on "version" Version.text "u" { major := 2, minor := 0, patch := 0 } .read)]

theorem play_mirrored_nested :
    ((opened 50).play nested).live = [⟨"version/2.0.0", .read, "u", 0⟩, ⟨"version/1.0.0", .read, "t", 0⟩,
      ⟨"version/1.0.0", .write, "t", 0⟩] ∧
    (∀ e ∈ nested, e.Within "version" Version.text) ∧
    ((opened 50).play nested).Mirrored nested "version" Version.text "t" := by
  have within : ∀ e ∈ nested, e.Within "version" Version.text := by
    intro e member r asked
    simp only [nested, List.mem_cons, List.not_mem_nil, or_false] at member
    rcases member with rfl | rfl | rfl | rfl | rfl | rfl | rfl <;> cases asked <;> exact ⟨_, rfl⟩
  exact ⟨by decide +kernel, within, play_mirrored (fun _ _ => Version.text_injective) "version" 50 within "t"⟩

end LockScene
end ContainerProfiles
