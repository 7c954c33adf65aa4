import Mathlib.Logic.Function.Iterate
import ContainerProfiles.Proofs.EventProtocol

namespace ContainerProfiles

-- What a whole run tells. A transcript has the events of every turn; whoever listens from the beginning hears
-- exactly these, and a latch that listens from the beginning has counted the passes that went well.

-- The turn neither registers this listener once more nor brings it along as the listener of a call.
def Turn.Spares (l : Listener) : Turn → Prop
  | .action (.perform _ (some name) _) => .recorder name ≠ l
  | .action (.listen other) => other ≠ l
  | .action (.listenLatch name _) => .latch name ≠ l
  | _ => True

namespace Audience

variable (a : Audience) {name : String} {id : ContainerId} {n : Nat}

end Audience

namespace Deployment

variable {s : Deployment} {ts : List Turn} {name : String}

-- The events of every turn, in order. Only operations tell any.
inductive Transcript : Deployment → List Turn → List (List ProvisionEvent) → Prop
  | nil (s : Deployment) : Transcript s [] []
  | spoken {s : Deployment} {me : Thread} {caller : Option String} {op : Operation}
      {events : List ProvisionEvent} {ts : List Turn} {sent : List (List ProvisionEvent)}
      (speaks : Speaks s me caller op events) (rest : Transcript (s.perform me caller op).2 ts sent) :
      Transcript s (.action (.perform me caller op) :: ts) (events :: sent)
  | aside {s : Deployment} {x : Turn} {ts : List Turn} {sent : List (List ProvisionEvent)}
      (aside : ∀ me caller op, x ≠ .action (.perform me caller op)) (rest : Transcript (s.turn x) ts sent) :
      Transcript s (x :: ts) ([] :: sent)

-- What is no operation tells nothing, and leaves alone whoever it spares.
theorem turn_aside (s : Deployment) {x : Turn} {l : Listener}
    (aside : ∀ me caller op, x ≠ .action (.perform me caller op)) (spared : x.Spares l) :
    (s.turn x).log = s.log ∧ (s.turn x).audience.provision.count l = s.audience.provision.count l ∧
      ∀ name, l = .latch name → (s.turn x).audience.latches.get? name = s.audience.latches.get? name := by
  cases x with
  | switch profiles containers => exact ⟨rfl, rfl, fun _ _ => rfl⟩
  | action a =>
      change (s.act a).log = s.log ∧ (s.act a).audience.provision.count l = _ ∧
        ∀ name, _ → (s.act a).audience.latches.get? name = _
      cases a with
      | perform me caller op => exact absurd rfl (aside me caller op)
      | lockContainer me id mode =>
          obtain ⟨locks, same⟩ := s.lockContainer_eq me id mode
          exact same ▸ ⟨rfl, rfl, fun _ _ => rfl⟩
      | lockVersion me v mode =>
          obtain ⟨locks, same⟩ := s.lockVersion_eq me v mode
          exact same ▸ ⟨rfl, rfl, fun _ _ => rfl⟩
      | listen other =>
          refine ⟨rfl, ?_, fun _ _ => rfl⟩
          change (s.audience.provision ++ [other]).count l = _
          rw [List.count_append, List.count_singleton, beq_false_of_ne spared]
          rfl
      | listenLatch who latch =>
          have apart : l ≠ .latch who := Ne.symm spared
          refine ⟨rfl, ?_, fun name same => ?_⟩
          · change ((s.audience.provision.filter (· ≠ Listener.latch who)) ++ [Listener.latch who]).count l = _
            rw [List.count_append, List.count_singleton, beq_false_of_ne spared, List.count_filter]
            · rfl
            · exact decide_eq_true apart
          · change (s.audience.latches.insert who latch).get? name = _
            rw [Dict.get?_insert, if_neg fun again => apart (same.trans (congrArg Listener.latch again))]
      | _ => exact ⟨rfl, rfl, fun _ _ => rfl⟩

-- Once in the list of listeners, and not the listener of the call, is to hear everything once.
theorem Speaks.heardOf {me : Thread} {caller : Option String} {op : Operation} {events : List ProvisionEvent}
    (speaks : Speaks s me caller op events) (once : s.audience.provision.count (.recorder name) = 1)
    (spared : Turn.Spares (.recorder name) (.action (.perform me caller op))) (id : ContainerId) :
    heardOf name id (s.perform me caller op).2.log = heardOf name id s.log ++ of id events := by
  have apart : ∀ who, op.listener caller = some who → who ≠ name := by
    intro who listening same
    cases caller with
    | none => cases op <;> cases listening
    | some other =>
        have brought : other = who := by
          cases op <;> first | exact Option.some.inj listening | cases listening
        exact spared (congrArg Listener.recorder (brought.trans same))
  have hearers : (s.audience.hearers (op.listener caller)).count (.recorder name) = 1 := by
    unfold Audience.hearers
    cases listening : op.listener caller with
    | none => exact once
    | some who => simp [apart who listening, once]
  obtain ⟨told, log, heard⟩ := speaks.tells.said
  rw [log, heardOf_append, heardOf_eq name id told, heard name, hearers, flatMap_replicate_one]
  rfl

theorem Transcript.heard {sent : List (List ProvisionEvent)} (transcript : s.Transcript ts sent)
    (once : s.audience.provision.count (.recorder name) = 1) (spared : ∀ x ∈ ts, x.Spares (.recorder name))
    (id : ContainerId) :
    heardOf name id (s.turns ts).log = heardOf name id s.log ++ (sent.map (of id)).flatten := by
  induction transcript with
  | nil s => exact (List.append_nil _).symm
  | @spoken s me caller op events ts sent speaks _ ih =>
      have counted : (s.perform me caller op).2.audience.provision.count (.recorder name) = 1 := by
        rw [speaks.tells.counted, Audience.counts_provision]
        exact once
      have later := ih counted fun x member => spared x (.tail _ member)
      rw [speaks.heardOf once (spared _ List.mem_cons_self)] at later
      rw [List.map_cons, List.flatten_cons, ← List.append_assoc]
      exact later
  | @aside s x ts sent aside _ ih =>
      obtain ⟨log, counted, _⟩ := s.turn_aside aside (spared x List.mem_cons_self)
      have later := ih (counted.trans once) fun y member => spared y (.tail _ member)
      rw [log] at later
      exact later

end Deployment
end ContainerProfiles
