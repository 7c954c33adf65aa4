import ContainerProfiles.Proofs.Blocks

namespace ContainerProfiles

-- The protocol of provision events. Over any run, what a listener that stays hears of a container is one block for
-- every operation on it, or none, and the answers of the operations agree with the blocks.

namespace Operation

-- Provisions the container and answers for it.
def Provisions : Operation → ContainerId → Prop
  | .startContainer id, other | .assignVersion id _, other | .addProfiles id _, other
  | .removeProfiles id _, other => other = id
  | _, _ => False

-- Changes what the container is provisioned with.
def Reassigns : Operation → ContainerId → Prop
  | .assignVersion id _, other | .addProfiles id _, other | .removeProfiles id _, other => other = id
  | .updateProfile _, _ => True
  | _, _ => False

-- A start of the deployment is an operation on its current container.
def Concerns (s : Deployment) : Operation → ContainerId → Prop
  | .startContainer id, other | .assignVersion id _, other | .addProfiles id _, other
  | .removeProfiles id _, other | .destroy id, other => other = id
  | .updateProfile _, _ => True
  | .start, other => other = s.settings.currentContainer
  | _, _ => False

-- The listener of the call, where the operation takes one.
def listener (caller : Option String) : Operation → Option String
  | .startContainer _ | .assignVersion .. | .addProfiles .. | .removeProfiles .. | .destroy _
  | .updateProfile _ => caller
  | _ => none

end Operation

namespace Deployment

variable {s t : Deployment} {me : Thread} {caller : Option String} {events : List ProvisionEvent}

-- What an operation tells of one container, with its answer.
structure Spoken (s : Deployment) (op : Operation) (id : ContainerId) (x : Except OperationError Reply)
    (block : List ProvisionEvent) : Prop where
  form : block = [] ∨ Block id block
  about : block ≠ [] → op.Concerns s id
  answered : op.Provisions id → Reported id x block
  removed : op = .destroy id → ((∃ r, x = .ok r) ↔ block = [.removed id])
  idle : op.Reassigns id → s.Idle id → block = []

theorem Spoken.silent {op : Operation} {id : ContainerId} (x : Except OperationError Reply)
    (kept : op ≠ .destroy id) : Spoken s op id x [] :=
  ⟨.inl rfl, fun some => absurd rfl some, fun _ => .silent x, fun gone => absurd gone kept, fun _ _ => rfl⟩

-- An operation on one container is silent about all others.
theorem Spoken.only {op : Operation} {id : ContainerId} {x : Except OperationError Reply}
    (own : Spoken s op id x events) (kept : ∀ other, other ≠ id → op ≠ .destroy other) (other : ContainerId) :
    Spoken s op other x (of other events) := by
  have about := about_of_block own.form
  by_cases here : other = id
  · subst here
    rw [of_self about]
    exact own
  · rw [of_other about here]
    exact .silent x (kept other here)

-- Only the store is another one.
theorem Tells.stored (stored : ∃ written, t = { s with store := written } ∧ s.StoreChange written) :
    Tells s caller [] t := by
  obtain ⟨_, rfl, _⟩ := stored
  exact .quiet rfl rfl

-- Of an exchanged profile only the listeners of profiles hear.
theorem replaceProfile_quiet (s : Deployment) (me : Thread) (caller who : Option String) (p : Profile) :
    Tells s caller [] (s.replaceProfile me p who).2 := by
  unfold replaceProfile
  cases s.prepareReplacement me p with
  | error e => exact .quiet rfl rfl
  | ok _ =>
      rcases s.storeReplacement p with ⟨outcome, written⟩
      cases outcome with
      | error e => exact (announceProfile_tells _ caller who _).before rfl rfl
      | ok _ => exact (announceProfile_tells _ caller who _).before rfl rfl

theorem Touches.quiet {id : ContainerId} {how : Container → Container → Prop} {out : Outcome Container}
    (touches : s.Touches id how out) : Tells s caller [] out.2 := by
  cases touches <;> exact .quiet rfl rfl

theorem ContainerRegistry.list_identities {r : ContainerRegistry} (forest : r.Forest) :
    r.list.map (·.identity) = r.live.keys := by
  unfold ContainerRegistry.list Dict.values Dict.keys
  rw [List.map_map]
  refine List.map_congr_left fun e member => ?_
  exact forest.keyed e.1 e.2 (Dict.mem_entries.mp member)

theorem usersOf_nodup (forest : s.containers.Forest) (v : Version) (test : Container → Bool) :
    (s.usersOf v test).Nodup := by
  have distinct := s.containers.live.keys_nodup
  rw [← ContainerRegistry.list_identities forest] at distinct
  exact distinct.sublist (List.filter_sublist.map _)

theorem ensureVersion_eq (s : Deployment) (me : Thread) :
    ∃ store, (s.ensureVersion me).2 = { s with store } := by
  unfold ensureVersion
  cases s.versions with
  | error e => exact ⟨s.store, rfl⟩
  | ok versions =>
      dsimp only
      split
      · exact ⟨s.store, rfl⟩
      · obtain ⟨store, same, _⟩ := s.addVersion_change me
          { version := s.defaultVersion, profiles := [], attributes := ∅ } []
        rcases added : s.addVersion me { version := s.defaultVersion, profiles := [], attributes := ∅ } []
          with ⟨outcome, t⟩
        rw [added] at same
        cases outcome <;> exact ⟨store, same⟩

theorem ensureProfile_eq (s : Deployment) (me : Thread) :
    ∃ store, (s.ensureProfile me).2 = { s with store } := by
  unfold ensureProfile
  cases s.getVersion me s.defaultVersion with
  | error e => exact ⟨s.store, rfl⟩
  | ok listed =>
      dsimp only
      split
      · exact ⟨s.store, rfl⟩
      · cases ((Profile.start s.settings.defaultProfile).withVersion s.defaultVersion).build with
        | error e => exact ⟨s.store, rfl⟩
        | ok p =>
            obtain ⟨store, same, _⟩ := s.addProfile_change me p
            dsimp only
            rcases added : s.addProfile me p with ⟨outcome, t⟩
            rw [added] at same
            cases outcome <;> exact ⟨store, same⟩

-- A start ends where the version or the profile is not to be had, or it comes to the current container.
theorem start_elim {P : Outcome Container → Prop} (s : Deployment) (me : Thread)
    (unversioned : ∀ e store, (s.opened s.store).ensureVersion me = (.error e, s.opened store) →
      P (.error e, s.opened store))
    (unprofiled : ∀ one e store, (s.opened s.store).ensureVersion me = (.ok (), s.opened one) →
      (s.opened one).ensureProfile me = (.error e, s.opened store) → P (.error e, s.opened store))
    (filled : ∀ one store, (s.opened s.store).ensureVersion me = (.ok (), s.opened one) →
      (s.opened one).ensureProfile me = (.ok (), s.opened store) →
      P (andThen ((s.opened store).ensureContainer me)
        fun c t => (.ok c, { t with current := some t.settings.currentContainer }))) :
    P (s.start me) := by
  rw [start_eq]
  obtain ⟨one, versioned⟩ := (s.opened s.store).ensureVersion_eq me
  rcases first : (s.opened s.store).ensureVersion me with ⟨outcome, t⟩
  rw [first] at versioned
  cases versioned
  cases outcome with
  | error e => exact unversioned e one first
  | ok _ =>
      change P (andThen ((s.opened one).ensureProfile me) _)
      obtain ⟨two, profiled⟩ := (s.opened one).ensureProfile_eq me
      rcases second : (s.opened one).ensureProfile me with ⟨outcome, t⟩
      rw [second] at profiled
      cases profiled
      cases outcome with
      | error e => exact unprofiled one e two first second
      | ok _ => exact filled one two first second

-- As far as the container a start only fills the store.
theorem start_filled (s : Deployment) (me : Thread) :
    ∃ store, (∃ e, s.start me = (.error e, s.opened store)) ∨
      s.start me = andThen ((s.opened store).ensureContainer me)
        fun c t => (.ok c, { t with current := some t.settings.currentContainer }) := by
  refine s.start_elim me (P := fun out => ∃ store, (∃ e, out = (.error e, s.opened store)) ∨
    out = andThen ((s.opened store).ensureContainer me)
      fun c t => (.ok c, { t with current := some t.settings.currentContainer })) ?_ ?_ ?_
  · exact fun e store _ => ⟨store, .inl ⟨e, rfl⟩⟩
  · exact fun _ e store _ _ => ⟨store, .inl ⟨e, rfl⟩⟩
  · exact fun _ store _ _ => ⟨store, .inr rfl⟩

-- The listener of a call hears what everyone hears, and nothing else.
structure Speaks (s : Deployment) (me : Thread) (caller : Option String) (op : Operation)
    (events : List ProvisionEvent) : Prop where
  tells : Tells s (op.listener caller) events (s.perform me caller op).2
  heard : ∀ who, op.listener caller = some who → .recorder who ∉ s.audience.provision →
    heardBy who ((s.perform me caller op).2.log.drop s.log.length) = events
  spoken : ∀ id, Spoken s op id (s.perform me caller op).1 (of id events)

theorem Tells.heard (tells : Tells s caller events t) (name : String) :
    heardBy name (t.log.drop s.log.length) =
      events.flatMap (List.replicate ((s.audience.hearers caller).count (.recorder name))) := by
  obtain ⟨told, log, heard⟩ := tells.said
  rw [log, List.drop_left, heard name]

theorem flatMap_replicate_one (events : List ProvisionEvent) : events.flatMap (List.replicate 1) = events :=
  List.flatMap_singleton' events

end Deployment
end ContainerProfiles
