import ContainerProfiles.Proofs.Changes
import ContainerProfiles.Proofs.Listening

namespace ContainerProfiles

-- What an operation tells, whoever listens. The events it sends out are one list: a listener hears that list once
-- for every time it listens, and a latch that listens counts along it.

-- The provision events that reached one listener.
def heardBy (name : String) (log : List Notice) : List ProvisionEvent :=
  log.filterMap fun
    | .heard listener (.provision e) => if listener = name then some e else none
    | _ => none

theorem heardBy_append (name : String) (log more : List Notice) :
    heardBy name (log ++ more) = heardBy name log ++ heardBy name more := List.filterMap_append

theorem heardOf_eq (name : String) (id : ContainerId) (log : List Notice) :
    heardOf name id log = (heardBy name log).filter (fun e => e.container = id) := by
  unfold heardOf heardBy
  rw [List.filter_filterMap]
  refine congrArg (List.filterMap · log) (funext fun notice => ?_)
  cases notice with
  | observed _ _ => rfl
  | heard listener event =>
      cases event with
      | profile _ => rfl
      | provision e =>
          by_cases same : listener = name
          · by_cases about : e.container = id <;> simp [Option.filter, same, about]
          · simp [same]

namespace Audience

variable (a : Audience) {e : ProvisionEvent} {name : String}

-- The listener of the call, and everyone who was registered.
def hearers (caller : Option String) : List Listener := caller.toList.map .recorder ++ a.provision

theorem heardBy_notices (seen : Sight) (caller : Option String) (e : ProvisionEvent) (name : String) :
    heardBy name (a.provisionNotices seen caller e) =
      List.replicate ((a.hearers caller).count (.recorder name)) e := by
  unfold provisionNotices hearers
  generalize caller.toList.map Listener.recorder ++ a.provision = listeners
  induction listeners with
  | nil => rfl
  | cons l rest ih =>
      rw [List.flatMap_cons, heardBy_append, ih, List.count_cons]
      cases l with
      | recorder who =>
          by_cases same : who = name
          · simp [noticeOf, heardBy, same, List.replicate_succ]
          · simp [noticeOf, heardBy, same]
      | observer =>
          have deaf : heardBy name (noticeOf seen e .observer) = [] := by
            unfold noticeOf
            dsimp only
            split <;> rfl
          simp [deaf]
      | latch who => simp [noticeOf, heardBy]

theorem heardBy_profileNotices (caller : Option String) (e : ProfileEvent) (name : String) :
    heardBy name (a.profileNotices caller e) = [] := by
  refine List.filterMap_eq_nil_iff.mpr fun notice told => ?_
  obtain ⟨_, _, rfl⟩ := List.mem_map.mp told
  rfl

theorem counts_provision (events : List ProvisionEvent) : (events.foldl count a).provision = a.provision := by
  induction events generalizing a with
  | nil => rfl
  | cons e rest ih => exact ih (a.count e)

end Audience

namespace Deployment

variable {s t u : Deployment} {caller : Option String} {events more : List ProvisionEvent}

-- `t` comes after `s`, and `events` were sent out in between to everyone who listened.
structure Tells (s : Deployment) (caller : Option String) (events : List ProvisionEvent) (t : Deployment) : Prop where
  said : ∃ told, t.log = s.log ++ told ∧ ∀ name, heardBy name told =
    events.flatMap (List.replicate ((s.audience.hearers caller).count (.recorder name)))
  counted : t.audience = events.foldl Audience.count s.audience

theorem Tells.quiet (log : t.log = s.log) (audience : t.audience = s.audience) : Tells s caller [] t :=
  ⟨⟨[], by rw [log, List.append_nil], fun _ => rfl⟩, audience⟩

theorem Tells.trans (one : Tells s caller events t) (two : Tells t caller more u) :
    Tells s caller (events ++ more) u := by
  obtain ⟨⟨told, log, heard⟩, counted⟩ := one
  obtain ⟨⟨later, log', heard'⟩, counted'⟩ := two
  refine ⟨⟨told ++ later, by rw [log', log, List.append_assoc], fun name => ?_⟩, ?_⟩
  · have hearers : t.audience.hearers caller = s.audience.hearers caller := by
      rw [counted, Audience.hearers, Audience.counts_provision, Audience.hearers]
    rw [heardBy_append, heard, heard', hearers, List.flatMap_append]
  · rw [counted', counted, List.foldl_append]

-- What comes before or after and tells nothing is of no account.
theorem Tells.after (tells : Tells s caller events t) (log : u.log = t.log) (audience : u.audience = t.audience) :
    Tells s caller events u := by
  have quiet : Tells t caller [] u := .quiet log audience
  have whole := tells.trans quiet
  rwa [List.append_nil] at whole

theorem Tells.before (tells : Tells t caller events u) (log : t.log = s.log) (audience : t.audience = s.audience) :
    Tells s caller events u := (Tells.quiet log audience).trans tells

theorem announce_tells (s : Deployment) (caller : Option String) (e : ProvisionEvent) :
    Tells s caller [e] (s.announce caller e) := by
  refine ⟨⟨_, rfl, fun name => ?_⟩, rfl⟩
  rw [Audience.heardBy_notices]
  simp

theorem announceProfile_tells (s : Deployment) (caller who : Option String) (e : ProfileEvent) :
    Tells s caller [] (s.announceProfile who e) :=
  ⟨⟨_, rfl, fun name => Audience.heardBy_profileNotices _ who e name⟩, rfl⟩

end Deployment
end ContainerProfiles
