import ContainerProfiles.Proofs.Passes

namespace ContainerProfiles

-- What a listener that stays hears of a container. The last thing it heard is the last thing that was told about
-- the container at all, so the outcome of the most recent pass can be read off it.

-- Events about one container that reached one listener.
def heardOf (name : String) (id : ContainerId) (log : List Notice) : List ProvisionEvent :=
  log.filterMap fun
    | .heard listener (.provision e) => if listener = name ∧ e.container = id then some e else none
    | _ => none

theorem heardOf_append (name : String) (id : ContainerId) (log more : List Notice) :
    heardOf name id (log ++ more) = heardOf name id log ++ heardOf name id more := List.filterMap_append

namespace Audience

variable {a : Audience} {seen : Sight} {caller : Option String} {e other : ProvisionEvent}
  {name : String} {id : ContainerId}

theorem heardOf_notices (heard : other ∈ heardOf name id (a.provisionNotices seen caller e)) :
    other = e ∧ e.container = id := by
  obtain ⟨notice, told, picked⟩ := List.mem_filterMap.mp heard
  obtain ⟨listener, _, said⟩ := List.mem_flatMap.mp told
  cases listener with
  | recorder who =>
      rw [List.mem_singleton.mp said] at picked
      simp only [Option.ite_none_right_eq_some, Option.some.injEq] at picked
      exact ⟨picked.2.symm, picked.1.2⟩
  | observer =>
      cases notice with
      | observed _ _ => cases picked
      | heard _ _ =>
          simp only [noticeOf] at said
          split at said <;> simp at said
  | latch _ => cases said

theorem heardOf_notices_listening (listening : .recorder name ∈ a.provision) (seen : Sight)
    (caller : Option String) (e : ProvisionEvent) :
    heardOf name e.container (a.provisionNotices seen caller e) ≠ [] := by
  have told : Notice.heard name (.provision e) ∈ a.provisionNotices seen caller e :=
    List.mem_flatMap.mpr ⟨.recorder name, List.mem_append_right _ listening, List.mem_singleton_self _⟩
  have heard : e ∈ heardOf name e.container (a.provisionNotices seen caller e) :=
    List.mem_filterMap.mpr ⟨_, told, if_pos ⟨rfl, rfl⟩⟩
  exact List.ne_nil_of_mem heard

end Audience

namespace Deployment

variable {s : Deployment} {caller : Option String} {name : String} {id : ContainerId} {e : ProvisionEvent}

def LastPassed (s : Deployment) (name : String) (id : ContainerId) : Prop :=
  ∃ e, (heardOf name id s.log).getLast? = some e ∧ e.stage = .provisioned

theorem announce_heard (s : Deployment) (caller : Option String) (e : ProvisionEvent) (name : String)
    (id : ContainerId) : heardOf name id (s.announce caller e).log = heardOf name id s.log ++
      heardOf name id (s.audience.provisionNotices (s.sight e.container) caller e) := heardOf_append ..

theorem lastPassed_announce_other (other : e.container ≠ id) :
    (s.announce caller e).LastPassed name id ↔ s.LastPassed name id := by
  have silent : heardOf name id (s.audience.provisionNotices (s.sight e.container) caller e) = [] :=
    List.eq_nil_iff_forall_not_mem.mpr fun _ heard => other (Audience.heardOf_notices heard).2
  unfold LastPassed
  rw [announce_heard, silent, List.append_nil]

theorem lastPassed_announce_self (listening : .recorder name ∈ s.audience.provision)
    (about : e.container = id) : (s.announce caller e).LastPassed name id ↔ e.stage = .provisioned := by
  subst about
  have last : (heardOf name e.container (s.announce caller e).log).getLast? = some e := by
    have told := Audience.heardOf_notices_listening listening (s.sight e.container) caller e
    rw [announce_heard, List.getLast?_append]
    cases latest : (heardOf name e.container
        (s.audience.provisionNotices (s.sight e.container) caller e)).getLast? with
    | none => exact absurd (List.getLast?_eq_none_iff.mp latest) told
    | some other =>
        rw [(Audience.heardOf_notices (List.mem_of_getLast? latest)).1]
        rfl
  unfold LastPassed
  rw [last]
  constructor
  · rintro ⟨other, same, stage⟩
    cases same
    exact stage
  · exact fun stage => ⟨e, rfl, stage⟩

theorem lastPassed_announceProfile (s : Deployment) (caller : Option String) (told : ProfileEvent)
    (name : String) (id : ContainerId) :
    (s.announceProfile caller told).LastPassed name id ↔ s.LastPassed name id := by
  have silent : heardOf name id (s.audience.profileNotices caller told) = [] := by
    refine List.filterMap_eq_nil_iff.mpr fun notice member => ?_
    obtain ⟨_, _, rfl⟩ := List.mem_map.mp member
    rfl
  unfold LastPassed announceProfile
  rw [heardOf_append, silent, List.append_nil]

theorem lastPassed_reconcile_other (s : Deployment) (caller : Option String) (c : Container)
    (merged : Profile) (name : String) (other : c.identity ≠ id) :
    (s.reconcile caller c merged).2.LastPassed name id ↔ s.LastPassed name id := by
  unfold reconcile
  dsimp only
  split
  · exact (lastPassed_announce_other other).trans (lastPassed_announce_other other)
  · exact (lastPassed_announce_other other).trans (lastPassed_announce_other other)

theorem lastPassed_reconcile_self (listening : .recorder name ∈ s.audience.provision)
    (caller : Option String) (c : Container) (merged : Profile) :
    (s.reconcile caller c merged).2.LastPassed name c.identity ↔ (s.passOf c merged).outcome = .ok () := by
  unfold reconcile passOf
  dsimp only
  split
  · rename_i done
    refine Iff.trans (lastPassed_announce_self listening rfl) ?_
    exact ⟨fun _ => done, fun _ => rfl⟩
  · rename_i e failed
    refine Iff.trans (lastPassed_announce_self listening rfl) ?_
    refine ⟨nofun, fun done => ?_⟩
    cases failed.symm.trans done

-- Over a started container, a pass was the last to go through exactly if this one did.
theorem lastPassed_provision (listening : .recorder name ∈ s.audience.provision) (me : Thread)
    (caller : Option String) {c : Container} (live : s.containers.live.get? c.identity = some c)
    (running : c.state = .started) (version : c.version = some v) :
    (s.provision me caller c.identity).2.LastPassed name c.identity ↔
      (s.provision me caller c.identity).1 = .ok () := by
  refine s.provision_elim me caller
    (P := fun out => out.2.LastPassed name c.identity ↔ out.1 = .ok ()) c.identity ?_ ?_ ?_
  · intro idle
    rw [idle c live running] at version
    cases version
  · intro d w e _ _ _ _
    refine Iff.trans (lastPassed_announce_self listening rfl) ⟨nofun, nofun⟩
  · intro d w merged live' _ _ _
    cases live.symm.trans live'
    refine Iff.trans (lastPassed_reconcile_self listening caller c merged) ?_
    rw [reconcile_outcome]
    cases (s.passOf c merged).outcome with
    | error e => exact ⟨nofun, nofun⟩
    | ok _ => exact ⟨fun _ => rfl, fun _ => rfl⟩

end Deployment
end ContainerProfiles
