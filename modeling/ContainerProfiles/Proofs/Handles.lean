import ContainerProfiles.Proofs.Checks
import ContainerProfiles.Provision.Pass

namespace ContainerProfiles

-- Live installs. A repository tracks a list of handles when its journal has as many more installs than uninstalls
-- of every identity as the list has handles of it.

namespace Repository

structure Tracks (repo : Repository) (live : List Handle) : Prop where
  journal : ∀ id, repo.installs.count id =
    repo.uninstalls.count id + live.countP (fun h => h.resource.identity = id)
  distinct : (live.map (·.number)).Nodup
  issued : ∀ h ∈ live, h.number < repo.issued
  unspent : ∀ h ∈ live, h.number ∉ repo.spent
  spent : ∀ n ∈ repo.spent, n < repo.issued
  once : repo.spent.Nodup

variable {repo : Repository} {live : List Handle}

theorem tracks_empty (environment : Environment) (failing : List ResourceId) :
    Tracks { environment, failing } [] := by
  refine ⟨fun id => rfl, List.nodup_nil, nofun, nofun, nofun, List.nodup_nil⟩

theorem Tracks.perm (tracks : repo.Tracks live) (same : live.Perm other) : repo.Tracks other := by
  refine ⟨fun id => ?_, (same.map _).nodup tracks.distinct, fun h member => ?_, fun h member => ?_,
    tracks.spent, tracks.once⟩
  · rw [← same.countP_eq]
    exact tracks.journal id
  · exact tracks.issued h (same.mem_iff.mpr member)
  · exact tracks.unspent h (same.mem_iff.mpr member)

-- Resources that are added or start to fail change nothing of what is live.
theorem Tracks.frame (tracks : repo.Tracks live) (environment : Environment) (failing : List ResourceId) :
    Tracks { repo with environment, failing } live :=
  ⟨tracks.journal, tracks.distinct, tracks.issued, tracks.unspent, tracks.spent, tracks.once⟩

theorem installs_append (repo : Repository) (r : InstallRecord) (issued : Nat) (spent : List Nat) :
    installs { repo with journal := repo.journal ++ [r], issued, spent } =
      repo.installs ++ if r.action = .install then [r.identity] else [] := by
  unfold installs
  rw [List.filter_append, List.map_append]
  cases action : r.action <;> simp [action]

theorem uninstalls_append (repo : Repository) (r : InstallRecord) (issued : Nat) (spent : List Nat) :
    uninstalls { repo with journal := repo.journal ++ [r], issued, spent } =
      repo.uninstalls ++ if r.action = .uninstall then [r.identity] else [] := by
  unfold uninstalls
  rw [List.filter_append, List.map_append]
  cases action : r.action <;> simp [action]

theorem install_eq_ok : repo.install r = .ok (handle, next) ↔ r.identity ∉ repo.failing ∧ handle = ⟨repo.issued, r⟩ ∧
    next = { repo with journal := repo.journal ++ [⟨.install, r.identity⟩], issued := repo.issued + 1 } := by
  unfold install
  split
  · simp [*]
  · simp [*, eq_comm]

theorem uninstall_eq_ok : repo.uninstall handle = .ok next ↔ handle.number ∉ repo.spent ∧
    next = { repo with
      journal := repo.journal ++ [⟨.uninstall, handle.resource.identity⟩], spent := handle.number :: repo.spent } := by
  unfold uninstall
  split
  · simp [*]
  · simp [*, eq_comm]

theorem install_tracks (tracks : repo.Tracks live) (installed : repo.install r = .ok (handle, next)) :
    handle.resource = r ∧ next.Tracks (handle :: live) := by
  obtain ⟨_, rfl, rfl⟩ := install_eq_ok.mp installed
  refine ⟨rfl, fun id => ?_, ?_, ?_, ?_, ?_, tracks.once⟩
  · have before := tracks.journal id
    rw [installs_append repo ⟨.install, r.identity⟩ _ repo.spent,
      uninstalls_append repo ⟨.install, r.identity⟩ _ repo.spent]
    simp only [if_true, List.count_append, List.countP_cons, reduceCtorEq, if_false, List.append_nil,
      List.count_singleton]
    by_cases same : r.identity = id <;> simp [same] <;> omega
  · refine List.nodup_cons.mpr ⟨fun member => ?_, tracks.distinct⟩
    obtain ⟨h, old, same⟩ := List.mem_map.mp member
    have bound := tracks.issued h old
    rw [same] at bound
    exact Nat.lt_irrefl _ bound
  · intro h member
    rcases List.mem_cons.mp member with rfl | old
    · exact Nat.lt_succ_self _
    · exact Nat.lt_succ_of_lt (tracks.issued h old)
  · intro h member
    rcases List.mem_cons.mp member with rfl | old
    · exact fun gone => Nat.lt_irrefl _ (tracks.spent _ gone)
    · exact tracks.unspent h old
  · exact fun n gone => Nat.lt_succ_of_lt (tracks.spent n gone)

-- A live handle can be uninstalled.
theorem uninstall_tracks (tracks : repo.Tracks (handle :: live)) :
    ∃ next, repo.uninstall handle = .ok next ∧ next.Tracks live := by
  obtain ⟨fresh, distinct⟩ := List.nodup_cons.mp tracks.distinct
  refine ⟨_, if_neg (tracks.unspent handle List.mem_cons_self), fun id => ?_, distinct,
    fun h member => tracks.issued h (.tail _ member), fun h member => ?_, ?_,
    List.nodup_cons.mpr ⟨tracks.unspent handle List.mem_cons_self, tracks.once⟩⟩
  · have before := tracks.journal id
    rw [installs_append repo ⟨.uninstall, handle.resource.identity⟩ repo.issued,
      uninstalls_append repo ⟨.uninstall, handle.resource.identity⟩ repo.issued]
    simp only [if_true, List.count_append, List.countP_cons, reduceCtorEq, if_false, List.append_nil,
      List.count_singleton] at before ⊢
    by_cases same : handle.resource.identity = id <;> simp [same] at before ⊢ <;> omega
  · intro gone
    rcases List.mem_cons.mp gone with same | old
    · exact fresh (List.mem_map.mpr ⟨h, member, same⟩)
    · exact tracks.unspent h (.tail _ member) old
  · intro n gone
    rcases List.mem_cons.mp gone with rfl | old
    · exact tracks.issued handle List.mem_cons_self
    · exact tracks.spent n old

end Repository

namespace Provisioner

-- One handle for everything held alone, and one for everything shared.
def liveHandles (p : Provisioner) (held : List Installed) : List Handle :=
  (held.filter (fun i => !i.shared)).map (·.handle) ++ p.shared.values.map (·.handle)

structure Balanced (p : Provisioner) (held : List Installed) : Prop where
  willing : p.refusals.uninstalls = ∅
  tracks : p.repository.Tracks (p.liveHandles held)
  alone : ∀ i ∈ held, i.shared = false → i.handle.resource.identity = i.identity
  common : ∀ id use, p.shared.get? id = some use → use.handle.resource.identity = id ∧ 0 < use.users
  users : ∀ id, p.sharedUsers id = held.countP (fun i => i.identity = id && i.shared)

variable {p q : Provisioner} {held other : List Installed}

theorem Balanced.perm (balanced : p.Balanced held) (same : held.Perm other) : p.Balanced other := by
  refine ⟨balanced.willing, balanced.tracks.perm ?_, fun i member => ?_, balanced.common, fun id => ?_⟩
  · exact ((same.filter _).map _).append_right _
  · exact balanced.alone i (same.mem_iff.mpr member)
  · rw [← same.countP_eq]
    exact balanced.users id

theorem liveHandles_cons_alone (p : Provisioner) {i : Installed} (alone : i.shared = false)
    (held : List Installed) : p.liveHandles (i :: held) = i.handle :: p.liveHandles held := by
  simp [liveHandles, alone]

theorem liveHandles_cons_shared (p : Provisioner) {i : Installed} (shared : i.shared = true)
    (held : List Installed) : p.liveHandles (i :: held) = p.liveHandles held := by
  simp [liveHandles, shared]

-- A shared resource that is counted anew keeps its handle.
theorem liveHandles_recount {id : ResourceId} {use : SharedResource} (found : p.shared.get? id = some use)
    (users : Nat) (held : List Installed) : (p.liveHandles held).Perm
      ({ p with shared := p.shared.insert id { use with users } }.liveHandles held) := by
  refine List.Perm.append_left _ ?_
  have before := (Dict.values_erase found).map (·.handle)
  have now := (Dict.values_insert p.shared id { use with users }).map (·.handle)
  rw [List.map_cons] at before now
  exact before.trans now.symm

theorem sharedUsers_insert {id : ResourceId} {use : SharedResource}
    (slot : q.shared = p.shared.insert id use) (other : ResourceId) :
    q.sharedUsers other = if other = id then use.users else p.sharedUsers other := by
  unfold sharedUsers
  rw [slot, Dict.get?_insert]
  split <;> rfl

theorem sharedUsers_erase {id : ResourceId} (slot : q.shared = p.shared.erase id) (other : ResourceId) :
    q.sharedUsers other = if other = id then 0 else p.sharedUsers other := by
  unfold sharedUsers
  rw [slot, Dict.get?_erase]
  split <;> rfl

theorem sharedUsers_of_found {id : ResourceId} (found : p.shared.get? id = some use) :
    p.sharedUsers id = use.users := by simp [sharedUsers, found]

theorem install_balanced (balanced : p.Balanced held) (installed : p.install r = .ok (handle, q)) :
    handle.resource = r ∧ q.repository.Tracks (handle :: p.liveHandles held) ∧ q.shared = p.shared ∧
      q.refusals = p.refusals := by
  simp only [install, bind_eq_ok, pure_eq_ok, Prod.mk.injEq] at installed
  obtain ⟨⟨_, next⟩, done, rfl, rfl⟩ := installed
  obtain ⟨same, tracks⟩ := Repository.install_tracks balanced.tracks done
  exact ⟨same, tracks, rfl, rfl⟩

theorem put_alone_balanced (balanced : p.Balanced held) (installed : p.install r = .ok (handle, q)) :
    q.Balanced (⟨r.identity, handle, false⟩ :: held) := by
  obtain ⟨same, tracks, shared, refusals⟩ := install_balanced balanced installed
  refine ⟨refusals ▸ balanced.willing, ?_, ?_, ?_, ?_⟩
  · rw [liveHandles_cons_alone q rfl, liveHandles, shared]
    exact tracks
  · intro i member alone
    rcases List.mem_cons.mp member with rfl | old
    · exact congrArg Resource.identity same
    · exact balanced.alone i old alone
  · rw [shared]
    exact balanced.common
  · intro id
    have before := balanced.users id
    simpa [sharedUsers, shared] using before

-- One more user of a shared resource, be it the first.
theorem slot_balanced (balanced : p.Balanced held) {id : ResourceId} (use : SharedResource)
    (refusals : q.refusals = p.refusals) (slot : q.shared = p.shared.insert id use)
    (tracks : q.repository.Tracks (q.liveHandles held)) (own : use.handle.resource.identity = id)
    (more : use.users = p.sharedUsers id + 1) (handle : Handle) :
    q.Balanced (⟨id, handle, true⟩ :: held) := by
  refine ⟨refusals ▸ balanced.willing, ?_, ?_, ?_, ?_⟩
  · rw [liveHandles_cons_shared q rfl]
    exact tracks
  · intro i member alone
    rcases List.mem_cons.mp member with rfl | old
    · cases alone
    · exact balanced.alone i old alone
  · intro other after held
    rw [slot, Dict.get?_insert] at held
    split at held
    · rename_i same
      cases held
      exact ⟨own.trans same.symm, more ▸ Nat.succ_pos _⟩
    · exact balanced.common other after held
  · intro other
    rw [sharedUsers_insert slot, List.countP_cons, ← balanced.users other]
    by_cases same : other = id
    · simp [same, more]
    · simp [same, Ne.symm same]

theorem put_shared_balanced (balanced : p.Balanced held)
    (installed : p.installShared r = .ok (handle, q)) :
    q.Balanced (⟨r.identity, handle, true⟩ :: held) := by
  unfold installShared at installed
  cases found : p.shared.get? r.identity with
  | some use =>
      simp only [found, Except.ok.injEq, Prod.mk.injEq] at installed
      obtain ⟨rfl, rfl⟩ := installed
      refine slot_balanced balanced { use with users := use.users + 1 } ?_ ?_ ?_ ?_ ?_ use.handle
      · rfl
      · rfl
      · exact balanced.tracks.perm (liveHandles_recount found _ held)
      · exact (balanced.common _ _ found).1
      · rw [sharedUsers_of_found found]
  | none =>
      simp only [found, bind_eq_ok, pure_eq_ok, Prod.mk.injEq] at installed
      obtain ⟨⟨fresh, next⟩, done, rfl, rfl⟩ := installed
      obtain ⟨same, tracks, shared, refusals⟩ := install_balanced balanced done
      refine slot_balanced balanced ⟨fresh, 1⟩ ?_ ?_ ?_ ?_ ?_ fresh
      · exact refusals
      · exact congrArg (Dict.insert · r.identity ⟨fresh, 1⟩) shared
      · refine tracks.perm ?_
        have now := (Dict.values_insert p.shared r.identity ⟨fresh, 1⟩).map (·.handle)
        rw [List.map_cons, Dict.erase_of_absent found] at now
        unfold liveHandles
        rw [shared]
        exact List.perm_middle.symm.trans (List.Perm.append_left _ now.symm)
      · exact congrArg Resource.identity same
      · simp [sharedUsers, found]

theorem put_eq (p : Provisioner) (r : Resource) (common : Bool) :
    p.put r common = (if common then p.installShared r else p.install r) >>=
      fun done => .ok (⟨r.identity, done.1, common⟩, done.2) := by
  cases common <;> rfl

theorem put_balanced (balanced : p.Balanced held) (done : p.put r common = .ok (i, q)) :
    i.identity = r.identity ∧ q.Balanced (i :: held) := by
  simp only [put_eq, bind_eq_ok, Except.ok.injEq, Prod.mk.injEq] at done
  obtain ⟨⟨handle, next⟩, installed, rfl, rfl⟩ := done
  refine ⟨rfl, ?_⟩
  cases common with
  | false => exact put_alone_balanced balanced installed
  | true => exact put_shared_balanced balanced installed

theorem install_error (refused : p.install r = .error e) : e = .installRejected r.identity := by
  simp only [install, bind_eq_error, pure_eq_error, and_false, exists_false, or_false] at refused
  unfold Repository.install at refused
  split at refused
  · cases refused
    rfl
  · cases refused

theorem put_error (refused : p.put r common = .error e) : e = .installRejected r.identity := by
  simp only [put_eq, bind_eq_error, reduceCtorEq, and_false, exists_false, or_false] at refused
  split at refused
  · unfold installShared at refused
    split at refused
    · cases refused
    · simp only [bind_eq_error, pure_eq_error, and_false, exists_false, or_false] at refused
      exact install_error refused
  · exact install_error refused

theorem uninstall_balanced (willing : p.refusals.uninstalls = ∅)
    (tracks : p.repository.Tracks (handle :: live)) :
    ∃ next, p.uninstall handle = .ok { p with repository := next } ∧ next.Tracks live := by
  obtain ⟨next, done, after⟩ := Repository.uninstall_tracks tracks
  refine ⟨next, ?_, after⟩
  simp only [uninstall, guard_eq_ok, bind_eq_ok, pure_eq_ok]
  exact ⟨by simp [willing, Dict.contains], next, done, rfl⟩

theorem release_alone_balanced (balanced : p.Balanced (i :: held)) (alone : i.shared = false) :
    ∃ q, p.release i = .ok q ∧ q.Balanced held := by
  have tracks := balanced.tracks
  rw [liveHandles_cons_alone p alone] at tracks
  obtain ⟨next, done, after⟩ := uninstall_balanced balanced.willing tracks
  refine ⟨{ p with repository := next }, ?_, balanced.willing, after,
    fun j member => balanced.alone j (.tail _ member), balanced.common, fun id => ?_⟩
  · rw [release, if_neg (by simp [alone])]
    exact done
  · change p.sharedUsers id = _
    rw [balanced.users id, List.countP_cons]
    simp [alone]

-- One user less of a shared resource that others still use.
theorem recount_balanced (balanced : p.Balanced (i :: held)) (shared : i.shared = true)
    (found : p.shared.get? i.identity = some use) (several : use.users > 1) :
    Balanced { p with shared := p.shared.insert i.identity { use with users := use.users - 1 } } held := by
  have tracks := balanced.tracks
  rw [liveHandles_cons_shared p shared] at tracks
  refine ⟨balanced.willing, tracks.perm (liveHandles_recount found _ held),
    fun j member => balanced.alone j (.tail _ member), ?_, ?_⟩
  · intro id after held
    rw [Dict.get?_insert] at held
    split at held
    · rename_i same
      cases held
      exact ⟨same ▸ (balanced.common _ _ found).1, Nat.sub_pos_of_lt several⟩
    · exact balanced.common id after held
  · intro id
    have before := balanced.users id
    rw [List.countP_cons] at before
    rw [sharedUsers_insert rfl]
    by_cases same : id = i.identity
    · subst same
      simp [sharedUsers_of_found found, shared] at before ⊢
      omega
    · simpa [same, Ne.symm same] using before

-- With the last user the handle leaves, and the slot with it.
theorem release_last_balanced (balanced : p.Balanced (i :: held)) (shared : i.shared = true)
    (found : p.shared.get? i.identity = some use) (single : use.users = 1) :
    ∃ next, p.uninstall use.handle = .ok { p with repository := next } ∧
      Balanced { p with repository := next, shared := p.shared.erase i.identity } held := by
  have tracks := balanced.tracks
  rw [liveHandles_cons_shared p shared] at tracks
  have parted := (Dict.values_erase found).map (·.handle)
  rw [List.map_cons] at parted
  have first : (p.liveHandles held).Perm
      (use.handle :: { p with shared := p.shared.erase i.identity }.liveHandles held) :=
    (List.Perm.append_left _ parted).trans List.perm_middle
  obtain ⟨next, done, after⟩ := uninstall_balanced balanced.willing (tracks.perm first)
  refine ⟨next, done, balanced.willing, after, fun j member => balanced.alone j (.tail _ member), ?_, ?_⟩
  · intro id after held
    rw [Dict.get?_erase] at held
    split at held
    · cases held
    · exact balanced.common id after held
  · intro id
    have before := balanced.users id
    rw [List.countP_cons] at before
    rw [sharedUsers_erase rfl]
    by_cases same : id = i.identity
    · subst same
      rw [sharedUsers_of_found found, single, if_pos (by simp [shared])] at before
      rw [if_pos rfl]
      omega
    · simpa [same, Ne.symm same] using before

theorem release_balanced (balanced : p.Balanced (i :: held)) :
    ∃ q, p.release i = .ok q ∧ q.Balanced held := by
  cases shared : i.shared with
  | false => exact release_alone_balanced balanced shared
  | true =>
      cases found : p.shared.get? i.identity with
      | none =>
          have users := balanced.users i.identity
          simp [sharedUsers, found, shared] at users
      | some use =>
          unfold release releaseShared
          rw [if_pos shared, found]
          by_cases several : use.users > 1
          · exact ⟨_, if_pos several, recount_balanced balanced shared found several⟩
          · have single : use.users = 1 := by
              have positive := (balanced.common _ _ found).2
              omega
            obtain ⟨next, done, after⟩ := release_last_balanced balanced shared found single
            refine ⟨_, ?_, after⟩
            simp only [if_neg several, bind_eq_ok, pure_eq_ok]
            exact ⟨_, done, rfl⟩

end Provisioner
end ContainerProfiles
