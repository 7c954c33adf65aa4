import ContainerProfiles.Proofs.Assignments
import ContainerProfiles.Proofs.Reconciling

namespace ContainerProfiles

-- What a started container ought to have installed follows from its assignment and from what is stored.

namespace Catalog

theorem linearize_erase {c : Catalog} {roots : List ProfileId} (walked : c.linearize roots = .ok order)
    (apart : ¬ c.Ancestral roots k) : linearize (c.erase k) roots = .ok order := by
  refine linearize_transfer walked fun id ancestral => ?_
  have other : id ≠ k := fun same => apart (same ▸ ancestral)
  rw [Dict.get?_erase, if_neg other]

end Catalog

namespace Container

-- The profile is assigned to the container, or is an ancestor of one that is.
def Heir (written : Store) (p : Profile) (c : Container) : Prop :=
  ∃ m entry, written = .memory m ∧ c.version = some p.version ∧
    m.versions.get? p.version = some entry ∧ entry.profiles.Ancestral c.profiles p.identity

-- What is installed is what the effective profile of the assignment, as it is stored now, asks for.
def InSync (written : Store) (env : Environment) (c : Container) : Prop :=
  ∃ m v entry listed, written = .memory m ∧ c.version = some v ∧ m.versions.get? v = some entry ∧
    entry.profiles.linearize c.profiles = .ok listed ∧
    ∀ id, id ∈ c.installedIds ↔
      id ∈ (Profile.merge (Profile.effectiveIdentityFor v c.profiles) v listed).desired env

-- The same container, as far as provisioning is concerned.
structure Carried (c d : Container) : Prop where
  state : d.state = c.state
  version : d.version = c.version
  profiles : d.profiles = c.profiles
  installed : d.installed = c.installed

theorem Carried.refl (c : Container) : c.Carried c := ⟨rfl, rfl, rfl, rfl⟩

theorem InSync.carry {c d : Container} (inSync : c.InSync written env) (carried : c.Carried d) :
    d.InSync written env := by
  unfold InSync installedIds at inSync ⊢
  rwa [carried.version, carried.profiles, carried.installed]

theorem InSync.agree {c d : Container} (one : c.InSync written env) (two : d.InSync written env)
    (version : d.version = c.version) (profiles : d.profiles = c.profiles) (r : ResourceId) :
    r ∈ c.installedIds ↔ r ∈ d.installedIds := by
  obtain ⟨_, v, _, _, memory, here, found, walked, same⟩ := one
  obtain ⟨_, _, _, _, memory', here', found', walked', same'⟩ := two
  cases memory.symm.trans memory'
  cases (version.trans here).symm.trans here'
  cases found.symm.trans found'
  rw [profiles] at walked' same'
  cases walked.symm.trans walked'
  exact (same r).trans (same' r).symm

theorem InSync.restore {c : Container} (inSync : c.InSync (.memory m) env)
    (kept : ∀ v entry listed, c.version = some v → m.versions.get? v = some entry →
      entry.profiles.linearize c.profiles = .ok listed → ∃ after, n.versions.get? v = some after ∧
        after.profiles.linearize c.profiles = .ok listed) : c.InSync (.memory n) env := by
  obtain ⟨_, v, entry, listed, ⟨⟩, version, found, walked, same⟩ := inSync
  obtain ⟨after, found', walked'⟩ := kept v entry listed version found walked
  exact ⟨n, v, after, listed, rfl, version, found', walked', same⟩

theorem InSync.edit {r : ContainerRegistry} {c : Container} (inSync : c.InSync (.memory m) env)
    (sound : m.Sound) (edit : m.Edit r n) (live : c ∈ r.list) (holds : Assigned m c) :
    c.InSync (.memory n) env := by
  refine inSync.restore fun v entry listed version found walked => ?_
  obtain ⟨entry', found', present⟩ := holds.stored v version
  cases found.symm.trans found'
  cases edit with
  | same => exact ⟨entry, found, walked⟩
  | versionAdded absent _ =>
      rw [MemoryStore.get?_put, if_neg fun same => by rw [same, absent] at found; cases found]
      exact ⟨entry, found, walked⟩
  | @versionRemoved w unused =>
      have other : v ≠ w := fun same => unused c live holds.alive (same ▸ version)
      exact ⟨entry, by rw [Dict.get?_erase, if_neg other]; exact found, walked⟩
  | @profileAdded p before stored absent _ =>
      rw [MemoryStore.get?_put]
      split
      · rename_i same
        subst same
        cases found.symm.trans stored
        refine ⟨_, rfl, (Catalog.linearize_apart fun ancestral => ?_).trans walked⟩
        have known := Catalog.contains_of_ancestral (sound _ _ found).closed present ancestral
        rw [Dict.contains_false.mpr absent] at known
        cases known
      · exact ⟨entry, found, walked⟩
  | @profileRemoved w before id stored leaf unused =>
      rw [MemoryStore.get?_put]
      split
      · rename_i same
        subst same
        cases found.symm.trans stored
        refine ⟨_, rfl, Catalog.linearize_erase walked ?_⟩
        rintro ⟨root, assigned, path⟩
        rcases path.cases_tail with rfl | ⟨child, _, edge⟩
        · exact unused c live version assigned
        · exact leaf child edge
      · exact ⟨entry, found, walked⟩

theorem InSync.replace {c : Container} (inSync : c.InSync (.memory m) env) (replaces : m.Replaces p n)
    (apart : ¬ c.Heir (.memory n) p) : c.InSync (.memory n) env := by
  refine inSync.restore fun v entry listed version found walked => ?_
  obtain ⟨stored, _, _⟩ := replaces
  rw [MemoryStore.get?_put]
  split
  · rename_i same
    subst same
    cases found.symm.trans stored
    refine ⟨_, rfl, (Catalog.linearize_apart fun ancestral => ?_).trans walked⟩
    refine apart ⟨_, _, rfl, version, by rw [MemoryStore.get?_put, if_pos rfl], ?_⟩
    exact Catalog.ancestral_exchanged.mpr ancestral
  · exact ⟨entry, found, walked⟩

end Container

namespace Deployment

variable {s : Deployment} {me : Thread} {env : Environment}

-- The effective profile anyone is given is merged from what is stored.
theorem effectiveFor_listed {c : Container} (memory : s.store = .memory m) (sound : m.Sound)
    (holds : Container.Assigned m c) (version : c.version = some v)
    (computed : s.effectiveFor me v c.profiles = .ok merged) :
    ∃ entry listed, m.versions.get? v = some entry ∧ entry.profiles.linearize c.profiles = .ok listed ∧
      merged = Profile.merge (Profile.effectiveIdentityFor v c.profiles) v listed := by
  obtain ⟨entry, found, present⟩ := holds.stored v version
  have fitting := sound v entry found
  obtain ⟨listed, walked⟩ := Catalog.linearize_succeeds fitting.closed fitting.acyclic present
  refine ⟨entry, listed, found, walked, ?_⟩
  have answer := (answers_of_stored memory sound found walked me).2.1
  rw [computed] at answer
  cases granted : s.permitVersion me v .read with
  | error e => rw [granted] at answer; cases answer
  | ok _ => rw [granted] at answer; exact Except.ok.inj answer

theorem desired_of_inSync {c : Container} (holds : s.Grounded) {id : ContainerId}
    (live : s.containers.live.get? id = some c) (inSync : c.InSync s.store env) (version : c.version = some v)
    (computed : s.effectiveFor me v c.profiles = .ok merged) (r : ResourceId) :
    r ∈ c.installedIds ↔ r ∈ merged.desired env := by
  obtain ⟨m, memory, sound, assigned⟩ := holds
  obtain ⟨entry, listed, found, walked, rfl⟩ :=
    effectiveFor_listed memory sound (assigned id c live).2 version computed
  obtain ⟨_, _, _, _, memory', version', found', walked', same⟩ := inSync
  cases memory.symm.trans memory'
  cases version.symm.trans version'
  cases found.symm.trans found'
  cases walked.symm.trans walked'
  exact same r

-- What a pass that went through leaves on the container is in step.
theorem reconcile_inSync {c : Container} (holds : s.Grounded)
    (live : s.containers.live.get? c.identity = some c) (version : c.version = some v)
    (computed : s.effectiveFor me v c.profiles = .ok merged) (done : (s.passOf c merged).outcome = .ok ()) :
    Container.InSync s.store s.provisioner.repository.environment
      { c with installed := (s.passOf c merged).installed } := by
  obtain ⟨m, memory, sound, assigned⟩ := holds
  obtain ⟨entry, listed, found, walked, rfl⟩ :=
    effectiveFor_listed memory sound (assigned _ c live).2 version computed
  exact ⟨m, v, entry, listed, memory, version, found, walked, fun _ => Provisioner.reconcile_ids done⟩

end Deployment
end ContainerProfiles
