import ContainerProfiles.Proofs.Departures
import ContainerProfiles.Proofs.SharingModes

namespace ContainerProfiles

-- What a container leaves behind when it is destroyed. Its resources are released one after another, the newest
-- first, whatever passes put them there: each is uninstalled unless another container shares it still.

namespace Provisioner

variable {p : Provisioner} {installed others : List Installed}

-- What is uninstalled, where some of the shared resources stay in use.
def uninstalled (inUse : ResourceId → Bool) (installed : List Installed) : List InstallRecord :=
  (installed.reverse.filter fun i => !(i.shared && inUse i.identity)).map fun i => ⟨.uninstall, i.identity⟩

theorem filterMap_record? (inUse : ResourceId → Bool) (released : List Installed) :
    (released.map PassStep.release).filterMap (PassStep.record? inUse) =
      (released.filter fun i => !(i.shared && inUse i.identity)).map fun i => ⟨.uninstall, i.identity⟩ := by
  rw [List.filterMap_map, ← List.filterMap_eq_map, List.filterMap_filter]
  refine List.filterMap_congr fun i _ => ?_
  cases stays : i.shared && inUse i.identity <;> simp [PassStep.record?, stays]

-- To release everything is to follow an agenda that wants nothing.
theorem releaseAll_follows (once : (resourceIds installed).Nodup) :
    p.releaseAll installed = p.follow installed (agenda installed []) := by
  rw [agenda, List.filter_nil, List.map_nil, List.append_nil]
  exact releaseUnwanted_follows once []

theorem agenda_unwanted (installed : List Installed) :
    agenda installed [] = installed.reverse.map .release := by
  simp [agenda]

-- Everything is released, and only the repository and the shared resources have changed.
structure ReleasedAll (p : Provisioner) (installed others : List Installed) (q : Provisioner) : Prop where
  acted : Acts p q
  journal : q.repository.journal = p.repository.journal ++ uninstalled (inUse others) installed
  balanced : q.forgiving.Balanced others

theorem releaseAll_released (once : (resourceIds installed).Nodup)
    (balanced : p.forgiving.Balanced (installed ++ others)) (done : (p.releaseAll installed).outcome = .ok ()) :
    ReleasedAll p installed others (p.releaseAll installed).provisioner := by
  have after : (p.releaseAll installed).provisioner.forgiving.Balanced
      ((p.releaseAll installed).installed ++ others) := releaseUnwanted_forgiving _ balanced
  rw [releaseAll_installed done, List.nil_append] at after
  obtain ⟨performed, rest, parted, takes, whole⟩ := follow_progress p installed (agenda installed [])
  rw [← releaseAll_follows once] at takes whole
  rw [whole.mp done, List.append_nil] at parted
  subst parted
  refine ⟨p.releaseFrom_acts _ [] installed.reverse, ?_, after⟩
  rw [takes.journal (agenda_fits once List.nodup_nil) once balanced, agenda_unwanted, filterMap_record?, uninstalled]

end Provisioner

namespace Deployment

variable {s : Deployment} {me : Thread} {caller : Option String} {id : ContainerId} {left : Container}

-- A container that can be destroyed is live, and all it tracks is released.
theorem destroy_ok (done : (s.destroy me id caller).1 = .ok left) :
    ∃ c, s.containers.live.get? id = some c ∧ (s.provisioner.releaseAll c.installed).outcome = .ok () ∧
      left = { c with state := .destroyed, installed := [] } ∧
      (s.destroy me id caller).2 = s.removed caller c id := by
  unfold destroy at done ⊢
  cases prepared : s.prepareDestruction me id with
  | error e =>
      rw [prepared] at done
      cases done
  | ok changed =>
      obtain ⟨c, live, same⟩ := prepareDestruction_ok prepared
      have installed : changed.installed = c.installed := by rw [same]; split <;> rfl
      have parent : changed.parent = c.parent := by rw [same]; split <;> rfl
      have last : { changed with state := .destroyed, installed := [] } =
          { c with state := .destroyed, installed := [] } := by rw [same]; split <;> rfl
      rw [prepared] at done
      dsimp only at done ⊢
      rw [installed] at done ⊢
      cases released : (s.provisioner.releaseAll c.installed).outcome with
      | error e =>
          rw [released] at done
          cases done
      | ok _ =>
          rw [released] at done
          dsimp only at done ⊢
          rw [Provisioner.releaseAll_installed released, last] at done
          cases done
          refine ⟨c, live, released, rfl, ?_⟩
          rw [removed, parent]

-- The container goes with all it tracks, its parent forgets it, and that is all.
structure TornDown (s : Deployment) (id : ContainerId) (c : Container) (after : Deployment) : Prop where
  live : s.containers.live.get? id = some c
  journal : after.provisioner.repository.journal =
    s.provisioner.repository.journal ++ Provisioner.uninstalled (s.sharedElsewhere id) c.installed
  users : ∀ r, s.provisioner.sharedUsers r = after.provisioner.sharedUsers r + if c.tracks r true then 1 else 0
  gone : after.containers.live.get? id = none ∧ after.containers.isDestroyed id
  others : ∀ other, other ≠ id → after.containers.live.get? other = (s.containers.live.get? other).map fun d =>
    { d with children := if c.parent = some other then d.children.erase id else d.children }
  marks : ∀ other, other ≠ id → (after.containers.isDestroyed other ↔ s.containers.isDestroyed other)
  store : after.store = s.store
  targets : after.provisioner.targets = s.provisioner.targets

theorem removed_tornDown (ledger : s.forgiving.Ledger) {c : Container} (live : s.containers.live.get? id = some c)
    (done : (s.provisioner.releaseAll c.installed).outcome = .ok ()) (caller : Option String) :
    TornDown s id c (s.removed caller c id) := by
  have once : c.installedIds.Nodup := ledger.once id c live
  have balanced : s.provisioner.forgiving.Balanced (c.installed ++ s.containers.heldByOthers id) := ledger.split live
  obtain ⟨⟨_, _, _, _, acted⟩, journal, after⟩ := Provisioner.releaseAll_released once balanced done
  have provisioner : (s.removed caller c id).provisioner = (s.provisioner.releaseAll c.installed).provisioner := rfl
  refine ⟨live, ?_, fun r => ?_, ⟨?_, ?_⟩, fun other apart => ?_, fun other apart => ?_, rfl, ?_⟩
  · rw [provisioner, journal, inUse_heldByOthers]
  · -- Both counts are of what containers hold, and the container held the resource once at most.
    have before : s.provisioner.sharedUsers r = _ := balanced.users r
    have rest : (s.provisioner.releaseAll c.installed).provisioner.sharedUsers r = _ := after.users r
    have own := Container.countP_tracks once r true
    rw [List.countP_append, ← rest] at before
    simp only [Bool.decide_eq_true] at own
    rw [provisioner, before, own, Nat.add_comm]
  · rw [get?_removed, if_pos rfl]
  · exact (removed_marks live caller c id).mpr (.inl rfl)
  · rw [get?_removed, if_neg apart]
  · rw [removed_marks live caller c other, or_iff_right apart]
  · rw [provisioner, acted]

theorem destroy_tornDown {supplied : Environment} {failing : List ResourceId}
    (built : build chosen stored { repository := { environment := supplied, failing } } heard time = .ok s)
    (ts : List Turn) (done : ((s.turns ts).destroy me id caller).1 = .ok left) :
    ∃ c, left = { c with state := .destroyed, installed := [] } ∧
      TornDown (s.turns ts) id c ((s.turns ts).destroy me id caller).2 := by
  have ledger : (s.turns ts).forgiving.Ledger :=
    turns_keep (P := fun t => t.forgiving.Ledger) (build_forgiving built) fun t x _ ledger => turn_forgiving ledger x
  obtain ⟨c, live, released, last, after⟩ := destroy_ok done
  exact ⟨c, last, after ▸ removed_tornDown ledger live released caller⟩

theorem destroy_tornDown_provisioned :
    ∃ s ts left c, build {} (staged mixed { name := "repository" }).store
        { repository := { environment := { name := "repository" }, failing := [] } } {} "" = .ok s ∧
      ((s.turns ts).destroy "main" "a" none).1 = .ok left ∧
      left = { c with state := .destroyed, installed := [] } ∧
      TornDown (s.turns ts) "a" c ((s.turns ts).destroy "main" "a" none).2 ∧ c.installed = [alone] := by
  let ts := staging ++ [.action (.perform "main" none (.startContainer "a"))]
  have done : (((staged mixed { name := "repository" }).turns ts).destroy "main" "a" none).1 =
      .ok { createdStarted with state := .destroyed } := by
    rw [turns_provisionedMixed]
    rfl
  obtain ⟨c, last, torn⟩ := destroy_tornDown (build_staged mixed _) ts done
  have live := torn.live
  rw [turns_provisionedMixed] at live
  refine ⟨_, ts, _, c, build_staged mixed _, done, last, torn, ?_⟩
  cases live
  rfl

end Deployment
end ContainerProfiles
