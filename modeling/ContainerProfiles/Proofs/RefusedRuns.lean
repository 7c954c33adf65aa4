import ContainerProfiles.Proofs.OpenedStores
import ContainerProfiles.Proofs.Refusals

namespace ContainerProfiles

-- Refused operations at any time. A store that runs have left behind takes whatever exchange of a profile was
-- found in order, so a refusal that no listener hears of has changed nothing at all.

variable {admits : Version → Prop} {m : MemoryStore}

theorem Store.Reflects.updateProfile {store : Store} (reflects : store.Reflects admits m) {p : Profile}
    (stored : m.versions.get? p.version = some entry) (present : entry.profiles.contains p.identity)
    (now : String) : (store.updateProfile now p).1 = .ok () := by
  have accepted := MemoryStore.updateProfile_ok stored present
  cases reflects with
  | memory =>
      unfold Store.updateProfile
      dsimp only
      rw [accepted]
      rfl
  | files _ mirrors =>
      obtain ⟨q, got⟩ := Dict.contains_iff.mp present
      have named := ((mirrors.held _ _ stored).written _ q got).1
      have ended := (mirrors.updateProfile named.checked now).answer
      rw [accepted] at ended
      exact ended

namespace Deployment

variable {s : Deployment} {me : Thread} {caller : Option String}

theorem load_reflects (reflects : s.store.Reflects admits m) (keyed : m.Keyed) {state : VersionState}
    (loaded : s.load v = .ok state) :
    ∃ entry, m.versions.get? v = some entry ∧ state.profiles = entry.profiles := by
  simp only [load, storedVersion, bind_eq_ok, mapError_eq_ok, pure_eq_ok] at loaded
  obtain ⟨listed, ⟨read, looked, found⟩, profiles, listing, rfl⟩ := loaded
  rw [reflects.version?] at looked
  cases looked
  cases stored : m.versions.get? v with
  | none =>
      unfold MemoryStore.version? at found
      rw [stored] at found
      cases throw_eq_ok.mp found
  | some entry =>
      rw [reflects.profiles, MemoryStore.profiles_eq stored] at listing
      cases listing
      exact ⟨entry, rfl, Catalog.ofProfiles_values (keyed v entry stored)⟩

-- The profile that is exchanged is there, so only the collaborator that guards updates can refuse.
theorem storeReplacement_refused (backed : s.store.Backed admits) {p : Profile}
    (prepared : s.prepareReplacement me p = .ok ()) {written : Store}
    (refused : s.storeReplacement p = (.error e, written)) : written = s.store := by
  obtain ⟨m, reflects, keyed⟩ := backed
  simp only [prepareReplacement, bind_eq_ok] at prepared
  obtain ⟨_, _, state, loaded, q, required, _⟩ := prepared
  obtain ⟨entry, stored, same⟩ := load_reflects reflects keyed loaded
  have present := VersionState.contains_of_require required
  rw [same] at present
  unfold storeReplacement at refused
  split at refused
  · cases refused
    rfl
  · have accepted := reflects.updateProfile stored present s.clock
    rw [refused] at accepted
    cases accepted

theorem attended_alike (s : Deployment) : Alike s s.attended := ⟨_, _, rfl⟩

theorem refused_unchanged (backed : s.store.Backed admits) {op : Operation} (onContainers : op.OnContainers)
    (refused : (s.perform me caller op).1 = .error e) (silent : s.dispatched me caller op = []) :
    Alike s (s.perform me caller op).2 := by
  have both := s.attended_alike.perform me caller op
  have listened : s.attended.Listened := ⟨"listener", List.mem_singleton_self _⟩
  suffices still : Alike s.attended (s.attended.perform me caller op).2 from
    (s.attended_alike.trans still).trans both.next.symm
  rcases perform_refused listened onContainers (both.result.symm.trans refused) with
    told | same | ⟨p, _, prepared, cause, written, failed, alike⟩
  · exact absurd silent told
  · rw [same]
    exact Alike.refl _
  · have kept : written = s.attended.store := storeReplacement_refused (s := s.attended) backed prepared failed
    subst kept
    exact alike

-- Whatever refuses an operation on containers that sent nothing out, the deployment is as it was.
theorem turns_refused (opened : s.store.Opened admits) {ts : List Turn} (admitted : s.Admitted admits ts)
    {op : Operation} (onContainers : op.OnContainers)
    (refused : ((s.turns ts).perform me caller op).1 = .error e)
    (silent : (s.turns ts).dispatched me caller op = []) :
    ((s.turns ts).perform me caller op).2.containers = (s.turns ts).containers ∧
      ((s.turns ts).perform me caller op).2.store = (s.turns ts).store ∧
      ((s.turns ts).perform me caller op).2.provisioner = (s.turns ts).provisioner := by
  have alike := refused_unchanged (turns_backed opened admitted) onContainers refused silent
  exact ⟨alike.same (·.containers) fun _ _ => rfl, alike.same (·.store) fun _ _ => rfl,
    alike.same (·.provisioner) fun _ _ => rfl⟩

def lockedOut : List Turn := launching.map .action ++ [.action (.lockVersion "other" siteVersion .write)]

-- A provisioned container gets no further profile while another thread holds the lock of its version.
theorem turns_refused_locked :
    ∃ s c e, build {} (.memory {}) { repository := { environment := loggers, failing := [] } } {} "" = .ok s ∧
      let t := s.turns lockedOut
      t.containers.live.get? "a" = some c ∧ c.installedIds = ["log:1.0.0", "lib:1.0.0", "app:1.0.0"] ∧
        (t.perform "main" none (.addProfiles "a" ["core"])).1 = .error (.lock e) ∧
        (t.perform "main" none (.addProfiles "a" ["core"])).2.containers = t.containers ∧
        (t.perform "main" none (.addProfiles "a" ["core"])).2.store = t.store ∧
        (t.perform "main" none (.addProfiles "a" ["core"])).2.provisioner = t.provisioner := by
  have ends : (unstarted [logger]).turns lockedOut =
      bothStarted.act (.lockVersion "other" siteVersion .write) := by
    rw [lockedOut, turns_append, turns_actions, run_launching]
    rfl
  have opened : (unstarted [logger]).store.Opened fun _ => True := .memory
  have admitted : (unstarted [logger]).Admitted (fun _ => True) lockedOut := fun _ _ _ _ _ _ => trivial
  have refused : (((unstarted [logger]).turns lockedOut).perform "main" none (.addProfiles "a" ["core"])).1 =
      .error (.lock (.timeout (versionKey siteVersion) .read 10000)) := by
    rw [ends]
    rfl
  have silent : ((unstarted [logger]).turns lockedOut).dispatched "main" none (.addProfiles "a" ["core"]) = [] := by
    rw [ends]
    rfl
  refine ⟨unstarted [logger], onSite "a" .started (siteInstalled 0 2), _, build_unstarted [logger], ?_, rfl, refused,
    turns_refused opened admitted trivial refused silent⟩
  rw [ends]
  rfl

end Deployment
end ContainerProfiles
