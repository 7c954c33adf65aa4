import ContainerProfiles.Proofs.Entries
import ContainerProfiles.Proofs.Handles
import Mathlib.Data.List.Nodup

namespace ContainerProfiles

-- What a journal of installs and uninstalls says about the handles that were given out. The installs beyond the
-- uninstalls of an identity are its live handles, and every handle can be uninstalled once.

-- What came of one call on a repository or on a handle.
inductive Dealing where
  | given (h : Handle)
  | rejected (id : ResourceId)
  | undone (h : Handle)
  | refused (h : Handle)
deriving DecidableEq

namespace Dealing

def handed? : Dealing → Option Handle
  | given h => some h
  | _ => none

def concerns (id : ResourceId) : Dealing → Bool
  | given h | undone h => h.resource.identity = id
  | rejected _ | refused _ => false

def handedOut (ds : List Dealing) : List Handle := ds.filterMap handed?

-- Handed out and not uninstalled so far.
def live (ds : List Dealing) : List Handle := (handedOut ds).filter fun h => undone h ∉ ds

-- What was last installed or uninstalled of the identity.
def latest? (id : ResourceId) (ds : List Dealing) : Option Dealing := (ds.filter (concerns id)).getLast?

-- No handle of the identity was given out while there was a live one.
def Alone (id : ResourceId) (ds : List Dealing) : Prop :=
  ∀ before h after, ds = before ++ given h :: after → h.resource.identity = id →
    ∀ g ∈ live before, g.resource.identity ≠ id

variable {ds : List Dealing} {d : Dealing} {h g : Handle} {id : ResourceId}

theorem mem_handedOut : h ∈ handedOut ds ↔ given h ∈ ds := by
  unfold handedOut
  rw [List.mem_filterMap]
  constructor
  · rintro ⟨d, member, same⟩
    cases d <;> cases same
    exact member
  · intro member
    exact ⟨_, member, rfl⟩

theorem mem_live : h ∈ live ds ↔ given h ∈ ds ∧ undone h ∉ ds := by
  rw [live, List.mem_filter, mem_handedOut, decide_eq_true_eq]

theorem handedOut_given (ds : List Dealing) (h : Handle) : handedOut (ds ++ [given h]) = handedOut ds ++ [h] :=
  List.filterMap_append ..

theorem handedOut_other (none : d.handed? = none) : handedOut (ds ++ [d]) = handedOut ds := by
  simp [handedOut, List.filterMap_append, none]

-- A call that concerns no identity is one without effect.
theorem handed?_aside (aside : ∀ id, d.concerns id = false) : d.handed? = none := by
  cases d with
  | given h => simpa [concerns] using aside h.resource.identity
  | _ => rfl

theorem ne_undone (aside : ∀ id, d.concerns id = false) (h : Handle) : undone h ≠ d := by
  rintro rfl
  simpa [concerns] using aside h.resource.identity

theorem live_aside (aside : ∀ id, d.concerns id = false) : live (ds ++ [d]) = live ds := by
  unfold live
  rw [handedOut_other (handed?_aside aside)]
  apply List.filter_congr
  intro h _
  simp [ne_undone aside h]

theorem live_given (new : undone h ∉ ds) : live (ds ++ [given h]) = live ds ++ [h] := by
  unfold live
  rw [handedOut_given, List.filter_append]
  simp [new]

theorem live_undone (nodup : (live ds).Nodup) (h : Handle) : live (ds ++ [undone h]) = (live ds).erase h := by
  rw [nodup.erase_eq_filter]
  unfold live
  rw [handedOut_other rfl, List.filter_filter]
  apply List.filter_congr
  intro g _
  simp only [List.mem_append, List.mem_singleton, Dealing.undone.injEq, not_or, decide_not]
  grind

theorem latest?_other (aside : d.concerns id = false) : latest? id (ds ++ [d]) = latest? id ds := by
  simp [latest?, aside]

theorem latest?_self (about : d.concerns id = true) : latest? id (ds ++ [d]) = some d := by
  simp [latest?, about]

theorem mem_of_latest? (last : latest? id ds = some d) : d ∈ ds ∧ d.concerns id :=
  List.mem_filter.mp (List.mem_of_getLast? last)

theorem Alone.front (alone : Alone id (ds ++ [d])) : Alone id ds := by
  intro before h after parted
  apply alone before h (after ++ [d])
  rw [parted, List.append_assoc, List.cons_append]

end Dealing

namespace Repository

open Dealing

-- A repository in use. Its handles come from its installs, and resources may be added or begin to fail meanwhile.
inductive Dealings : Repository → List Dealing → Prop
  | opened (environment : Environment) (failing : List ResourceId) : Dealings { environment, failing } []
  | offered (r : Resource) : Dealings repo ds → Dealings (repo.addResource r) ds
  | marked (id : ResourceId) : Dealings repo ds → Dealings (repo.failInstall id) ds
  | given : Dealings repo ds → repo.install r = .ok (h, next) → Dealings next (ds ++ [.given h])
  | rejected : Dealings repo ds → repo.install r = .error e → Dealings repo (ds ++ [.rejected r.identity])
  | undone : Dealings repo ds → .given h ∈ ds → repo.uninstall h = .ok next → Dealings next (ds ++ [.undone h])
  | refused : Dealings repo ds → .given h ∈ ds → repo.uninstall h = .error e → Dealings repo (ds ++ [.refused h])

variable {repo next : Repository} {r : Resource} {h : Handle} {d : Dealing} {id : ResourceId} {ds : List Dealing}

theorem mem_installed_install (repo : Repository) (x : ResourceId) (issued : Nat) (spent : List Nat) :
    id ∈ installed { repo with journal := repo.journal ++ [⟨.install, x⟩], issued, spent } ↔
      id = x ∨ id ∈ repo.installed := by
  unfold installed
  rw [List.foldl_append, Dict.mem_keys, Dict.mem_keys]
  exact Dict.contains_insert

theorem mem_installed_uninstall (repo : Repository) (x : ResourceId) (issued : Nat) (spent : List Nat) :
    id ∈ installed { repo with journal := repo.journal ++ [⟨.uninstall, x⟩], issued, spent } ↔
      id ≠ x ∧ id ∈ repo.installed := by
  unfold installed
  rw [List.foldl_append, Dict.mem_keys, Dict.mem_keys]
  exact Dict.contains_erase

-- The numbers of the handles tell them apart, and the spent ones are those of the handles that were uninstalled.
structure Numbered (repo : Repository) (ds : List Dealing) : Prop where
  distinct : ((handedOut ds).map (·.number)).Nodup
  issued : ∀ h ∈ handedOut ds, h.number < repo.issued
  bounded : ∀ n ∈ repo.spent, n < repo.issued
  spent : ∀ h ∈ handedOut ds, h.number ∈ repo.spent ↔ .undone h ∈ ds
  undone : ∀ h, .undone h ∈ ds → .given h ∈ ds
  refused : ∀ h, .refused h ∈ ds → .undone h ∈ ds
  once : ∀ h, ds.count (.undone h) ≤ 1

namespace Numbered

variable (numbered : Numbered repo ds)

include numbered

theorem unspent (member : .given h ∈ ds) (fresh : h.number ∉ repo.spent) : h ∈ live ds :=
  mem_live.mpr ⟨member, fun gone => fresh ((numbered.spent h (mem_handedOut.mpr member)).mpr gone)⟩

theorem new (r : Resource) : .undone ⟨repo.issued, r⟩ ∉ ds := by
  intro gone
  have bound := numbered.issued _ (mem_handedOut.mpr (numbered.undone _ gone))
  exact Nat.lt_irrefl _ bound

theorem live_nodup : (live ds).Nodup := numbered.distinct.of_map.filter _

theorem given (done : repo.install r = .ok (h, next)) : Numbered next (ds ++ [.given h]) := by
  obtain ⟨_, rfl, rfl⟩ := install_eq_ok.mp done
  have earlier : ∀ g ∈ handedOut ds, g.number ≠ repo.issued := fun g there => Nat.ne_of_lt (numbered.issued g there)
  refine ⟨?_, ?_, fun n gone => Nat.lt_succ_of_lt (numbered.bounded n gone), ?_, ?_, ?_, ?_⟩
  · rw [handedOut_given, List.map_append]
    apply numbered.distinct.append (List.nodup_singleton _)
    simpa using earlier
  · simp only [handedOut_given, List.mem_append, List.mem_singleton]
    rintro g (old | rfl)
    · exact Nat.lt_succ_of_lt (numbered.issued g old)
    · exact Nat.lt_succ_self _
  · simp only [handedOut_given, List.mem_append, List.mem_singleton, reduceCtorEq, or_false]
    rintro g (old | rfl)
    · exact numbered.spent g old
    · apply iff_of_false _ (numbered.new r)
      exact fun gone => Nat.lt_irrefl _ (numbered.bounded _ gone)
  · simpa using fun g gone => .inl (numbered.undone g gone)
  · simpa using numbered.refused
  · simpa using numbered.once

theorem undo (member : .given h ∈ ds) (done : repo.uninstall h = .ok next) : Numbered next (ds ++ [.undone h]) := by
  obtain ⟨fresh, rfl⟩ := uninstall_eq_ok.mp done
  have there := mem_handedOut.mpr member
  have new : .undone h ∉ ds := fun gone => fresh ((numbered.spent h there).mpr gone)
  refine ⟨?_, ?_, ?_, ?_, ?_, ?_, ?_⟩
  · rw [handedOut_other rfl]
    exact numbered.distinct
  · rw [handedOut_other rfl]
    exact numbered.issued
  · simpa using ⟨numbered.issued h there, numbered.bounded⟩
  · rw [handedOut_other rfl]
    intro g listed
    have same : g.number = h.number ↔ g = h := by
      constructor
      · exact fun same => List.inj_on_of_nodup_map numbered.distinct listed there same
      · exact fun same => same ▸ rfl
    simp [numbered.spent g listed, same, or_comm]
  · simp only [List.mem_append, List.mem_singleton, Dealing.undone.injEq, reduceCtorEq, or_false]
    rintro g (old | rfl)
    · exact numbered.undone g old
    · exact member
  · simpa using fun g again => .inl (numbered.refused g again)
  · intro g
    rw [List.count_append, List.count_singleton]
    have before := numbered.once g
    by_cases same : g = h
    · subst same
      rw [List.count_eq_zero_of_not_mem new]
      simp
    · simpa [Ne.symm same] using before

-- A call without effect, which is refused to handles that were uninstalled before.
theorem aside (aside : ∀ id, d.concerns id = false) (known : ∀ h, d = .refused h → .undone h ∈ ds) :
    Numbered repo (ds ++ [d]) := by
  have none := handed?_aside aside
  have same : ∀ h, .undone h ∈ ds ++ [d] ↔ .undone h ∈ ds := fun h => by simp [ne_undone aside h]
  refine ⟨?_, ?_, numbered.bounded, ?_, ?_, ?_, ?_⟩
  · rw [handedOut_other none]
    exact numbered.distinct
  · rw [handedOut_other none]
    exact numbered.issued
  · rw [handedOut_other none]
    intro g there
    rw [same, numbered.spent g there]
  · intro g gone
    exact List.mem_append_left _ (numbered.undone g ((same g).mp gone))
  · intro g again
    rw [same]
    rcases List.mem_append.mp again with old | new
    · exact numbered.refused g old
    · exact known g (List.mem_singleton.mp new).symm
  · intro g
    rw [List.count_append, List.count_singleton, if_neg (by simpa using (ne_undone aside g).symm)]
    exact numbered.once g

theorem refused_undone (member : .given h ∈ ds) (failed : repo.uninstall h = .error e) : .undone h ∈ ds := by
  apply (numbered.spent h (mem_handedOut.mpr member)).mp
  by_contra fresh
  rw [uninstall, if_neg fresh] at failed
  cases failed

end Numbered

theorem Dealings.numbered (dealings : Dealings repo ds) : Numbered repo ds := by
  induction dealings with
  | opened => exact ⟨List.nodup_nil, nofun, nofun, nofun, nofun, nofun, fun _ => Nat.zero_le _⟩
  | offered _ _ ih => exact ⟨ih.distinct, ih.issued, ih.bounded, ih.spent, ih.undone, ih.refused, ih.once⟩
  | marked _ _ ih => exact ⟨ih.distinct, ih.issued, ih.bounded, ih.spent, ih.undone, ih.refused, ih.once⟩
  | given _ done ih => exact ih.given done
  | rejected _ _ ih =>
      apply ih.aside fun _ => rfl
      intro h same
      cases same
  | undone _ member done ih => exact ih.undo member done
  | refused _ member failed ih =>
      apply ih.aside fun _ => rfl
      intro g same
      cases same
      exact ih.refused_undone member failed

-- The live handles are those that the journal has installs for.
theorem Dealings.tracks (dealings : Dealings repo ds) : repo.Tracks (live ds) := by
  induction dealings with
  | opened environment failing => exact tracks_empty environment failing
  | offered r _ ih => exact ih.frame _ _
  | marked id _ ih => exact ih.frame _ _
  | @given repo ds r h next before done ih =>
      have numbered := before.numbered
      obtain ⟨_, same, _⟩ := install_eq_ok.mp done
      rw [live_given (same ▸ numbered.new r)]
      exact (install_tracks ih done).2.perm (List.perm_append_singleton _ _).symm
  | rejected _ _ ih =>
      rw [live_aside fun _ => rfl]
      exact ih
  | @undone repo ds h next before member done ih =>
      have numbered := before.numbered
      have here := numbered.unspent member (uninstall_eq_ok.mp done).1
      obtain ⟨last, again, tracks⟩ := uninstall_tracks (ih.perm (List.perm_cons_erase here))
      cases done.symm.trans again
      rw [live_undone numbered.live_nodup]
      exact tracks
  | refused _ _ _ ih =>
      rw [live_aside fun _ => rfl]
      exact ih

theorem Dealings.replayed (dealings : Dealings repo ds) (id : ResourceId) :
    id ∈ repo.installed ↔ ∃ h, latest? id ds = some (.given h) := by
  induction dealings with
  | opened => exact iff_of_false List.not_mem_nil (by simp [latest?])
  | offered _ _ ih => exact ih
  | marked _ _ ih => exact ih
  | rejected _ _ ih =>
      rw [latest?_other rfl]
      exact ih
  | refused _ _ _ ih =>
      rw [latest?_other rfl]
      exact ih
  | @given repo ds r h next _ done ih =>
      obtain ⟨_, rfl, rfl⟩ := install_eq_ok.mp done
      rw [mem_installed_install, ih]
      by_cases same : r.identity = id
      · rw [latest?_self (by simpa [concerns] using same)]
        simp [same]
      · rw [latest?_other (by simpa [concerns] using same)]
        simp [Ne.symm same]
  | @undone repo ds h next _ _ done ih =>
      obtain ⟨_, rfl⟩ := uninstall_eq_ok.mp done
      rw [mem_installed_uninstall, ih]
      by_cases same : h.resource.identity = id
      · rw [latest?_self (by simpa [concerns] using same)]
        simp [same]
      · rw [latest?_other (by simpa [concerns] using same)]
        simp [Ne.symm same]

-- Only a later uninstall of its own makes an end to a handle.
theorem Dealings.latest_live (dealings : Dealings repo ds) (last : latest? id ds = some (.given h)) : h ∈ live ds := by
  induction dealings with
  | opened => cases last
  | offered _ _ ih => exact ih last
  | marked _ _ ih => exact ih last
  | rejected _ _ ih =>
      rw [latest?_other rfl] at last
      rw [live_aside fun _ => rfl]
      exact ih last
  | refused _ _ _ ih =>
      rw [latest?_other rfl] at last
      rw [live_aside fun _ => rfl]
      exact ih last
  | @given repo ds r g next before done ih =>
      obtain ⟨_, same, _⟩ := install_eq_ok.mp done
      rw [live_given (same ▸ before.numbered.new r)]
      cases about : (Dealing.given g).concerns id with
      | true =>
          rw [latest?_self about] at last
          cases last
          exact List.mem_append_right _ (List.mem_singleton_self h)
      | false =>
          rw [latest?_other about] at last
          exact List.mem_append_left _ (ih last)
  | @undone repo ds g next before _ _ ih =>
      cases about : (Dealing.undone g).concerns id with
      | true =>
          rw [latest?_self about] at last
          cases last
      | false =>
          rw [latest?_other about] at last
          rw [live_undone before.numbered.live_nodup]
          apply (List.mem_erase_of_ne _).mpr (ih last)
          rintro rfl
          exact Bool.false_ne_true (about.symm.trans (mem_of_latest? last).2)

-- A handle that was alone of its identity for all its life is the last of it.
theorem Dealings.latest_alone (dealings : Dealings repo ds) (alone : Alone id ds) (here : h ∈ live ds)
    (about : h.resource.identity = id) : latest? id ds = some (.given h) := by
  induction dealings generalizing h with
  | opened => cases here
  | offered _ _ ih => exact ih alone here about
  | marked _ _ ih => exact ih alone here about
  | rejected _ _ ih =>
      rw [live_aside fun _ => rfl] at here
      rw [latest?_other rfl]
      exact ih alone.front here about
  | refused _ _ _ ih =>
      rw [live_aside fun _ => rfl] at here
      rw [latest?_other rfl]
      exact ih alone.front here about
  | @given repo ds r g next before done ih =>
      obtain ⟨_, same, _⟩ := install_eq_ok.mp done
      rw [live_given (same ▸ before.numbered.new r)] at here
      rcases List.mem_append.mp here with old | new
      · have other : g.resource.identity ≠ id := fun same => alone ds g [] rfl same h old about
        rw [latest?_other (by simpa [concerns] using other)]
        exact ih alone.front old about
      · cases List.mem_singleton.mp new
        exact latest?_self (by simpa [concerns] using about)
  | @undone repo ds g next before member done ih =>
      have nodup := before.numbered.live_nodup
      rw [live_undone nodup] at here
      obtain ⟨different, old⟩ := nodup.mem_erase_iff.mp here
      have last := ih alone.front old about
      -- Both would be the last.
      have other : g.resource.identity ≠ id := by
        intro same
        have there := before.numbered.unspent member (uninstall_eq_ok.mp done).1
        cases last.symm.trans (ih alone.front there same)
        exact different rfl
      rw [latest?_other (by simpa [concerns] using other)]
      exact last

structure Accounts (repo : Repository) (ds : List Dealing) : Prop where
  balance : ∀ id, repo.installs.count id =
    repo.uninstalls.count id + (live ds).countP (fun h => h.resource.identity = id)
  replayed : ∀ id, id ∈ repo.installed ↔ ∃ h, latest? id ds = some (.given h)
  held : ∀ id ∈ repo.installed, ∃ h ∈ live ds, h.resource.identity = id
  alone : ∀ id, Alone id ds → (id ∈ repo.installed ↔ ∃ h ∈ live ds, h.resource.identity = id)
  -- One uninstall of a handle that was ever tried succeeded,
  once : ∀ h, ds.count (.undone h) = if .undone h ∈ ds ∨ .refused h ∈ ds then 1 else 0
  -- and the next one succeeds exactly if none was tried.
  spent : ∀ h, .undone h ∈ ds → repo.uninstall h = .error (.alreadyUninstalled h.resource.identity)
  unspent : ∀ h ∈ live ds, ∃ next, repo.uninstall h = .ok next

theorem Dealings.held (dealings : Dealings repo ds) (listed : id ∈ repo.installed) :
    ∃ h ∈ live ds, h.resource.identity = id := by
  obtain ⟨h, last⟩ := (dealings.replayed id).mp listed
  have about := (mem_of_latest? last).2
  exact ⟨h, dealings.latest_live last, of_decide_eq_true about⟩

theorem Numbered.count_undone (numbered : Numbered repo ds) (h : Handle) :
    ds.count (.undone h) = if .undone h ∈ ds ∨ .refused h ∈ ds then 1 else 0 := by
  split
  next tried =>
    have gone := tried.elim id (numbered.refused h)
    exact Nat.le_antisymm (numbered.once h) (List.count_pos_iff.mpr gone)
  next untried => exact List.count_eq_zero_of_not_mem fun gone => untried (.inl gone)

theorem Numbered.uninstall_undone (numbered : Numbered repo ds) (gone : .undone h ∈ ds) :
    repo.uninstall h = .error (.alreadyUninstalled h.resource.identity) := by
  have there := mem_handedOut.mpr (numbered.undone h gone)
  exact if_pos ((numbered.spent h there).mpr gone)

theorem Numbered.uninstall_live (numbered : Numbered repo ds) (here : h ∈ live ds) :
    ∃ next, repo.uninstall h = .ok next := by
  obtain ⟨member, kept⟩ := mem_live.mp here
  have there := mem_handedOut.mpr member
  exact ⟨_, uninstall_eq_ok.mpr ⟨fun gone => kept ((numbered.spent h there).mp gone), rfl⟩⟩

theorem dealings_accounted (dealings : Dealings repo ds) : Accounts repo ds where
  balance := dealings.tracks.journal
  replayed := dealings.replayed
  held _ listed := dealings.held listed
  alone id alone := by
    constructor
    · exact dealings.held
    · rintro ⟨h, here, about⟩
      exact (dealings.replayed id).mpr ⟨h, dealings.latest_alone alone here about⟩
  once := dealings.numbered.count_undone
  spent _ gone := dealings.numbered.uninstall_undone gone
  unspent _ here := dealings.numbered.uninstall_live here

def overlapped (environment : Environment) : Repository :=
  { environment
    journal := [⟨.install, "r:1.0.0"⟩, ⟨.install, "r:1.0.0"⟩, ⟨.uninstall, "r:1.0.0"⟩]
    issued := 2
    spent := [0] }

def overlap : List Dealing :=
  [.given ⟨0, { identity := "r:1.0.0" }⟩, .given ⟨1, { identity := "r:1.0.0" }⟩,
    .undone ⟨0, { identity := "r:1.0.0" }⟩, .refused ⟨0, { identity := "r:1.0.0" }⟩]

theorem dealings_overlap (environment : Environment) : Dealings (overlapped environment) overlap := by
  have first := Dealings.given (r := { identity := "r:1.0.0" }) (.opened environment []) rfl
  have second := Dealings.given (r := { identity := "r:1.0.0" }) first rfl
  have gone := Dealings.undone second (.head _) rfl
  exact .refused gone (.head _) rfl

theorem dealings_accounted_overlap : Dealings (overlapped { name := "repository" }) overlap ∧
    Accounts (overlapped { name := "repository" }) overlap :=
  ⟨dealings_overlap _, dealings_accounted (dealings_overlap _)⟩

-- The second install is live, and the replay of the journal has forgotten it.
theorem overlap_forgotten : ¬ ∀ repo ds, Dealings repo ds → ∀ id,
    id ∈ repo.installed ↔ ∃ h ∈ live ds, h.resource.identity = id := by
  intro claimed
  have replayed := claimed _ _ (dealings_overlap { name := "repository" }) "r:1.0.0"
  have listed := replayed.mpr ⟨⟨1, { identity := "r:1.0.0" }⟩, by decide, rfl⟩
  revert listed
  decide

end Repository
end ContainerProfiles
