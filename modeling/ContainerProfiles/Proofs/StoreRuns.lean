import ContainerProfiles.Proofs.StoredProfiles
import ContainerProfiles.Store.Operation

namespace ContainerProfiles

-- What a run asks of the store, whatever kind of store it is. Operations on containers leave it alone, and every
-- other one comes to single writes, of which a new version is either named by the operation or the default one.

-- The versions an operation may add.
def Operation.Adds (default : Version) : Operation → Version → Prop
  | .start, v => v = default
  | .addVersion listed _, v => v = listed.version
  | _, _ => False

-- Whatever holds of a store holds after every write, if new versions are admitted.
def Store.Kept (admits : Version → Prop) (P : Store → Prop) : Prop :=
  ∀ store now op, (∀ v attributes, op = .addVersion v attributes → admits v) → P store →
    P (store.perform now op).2

namespace Deployment

variable {s t : Deployment} {me : Thread} {caller : Option String}

theorem turn_defaultVersion (s : Deployment) (x : Turn) : (s.turn x).defaultVersion = s.defaultVersion := by
  cases x with
  | switch profiles containers => rfl
  | action a =>
      cases a with
      | perform me caller op =>
          exact (s.perform_fixed me caller op).defaultVersion
      | lockContainer me id mode =>
          obtain ⟨locks, same⟩ := s.lockContainer_eq me id mode
          change (s.act _).defaultVersion = _
          rw [same]
      | lockVersion me v mode =>
          obtain ⟨locks, same⟩ := s.lockVersion_eq me v mode
          change (s.act _).defaultVersion = _
          rw [same]
      | _ => rfl

section Writes

variable {admits : Version → Prop} {P : Store → Prop} (kept : Store.Kept admits P) (holds : P s.store)

include kept

theorem storeProfiles_keeps (clock : String) (profiles : List Profile) {written : Except StoreError Unit × Store}
    (begins : P written.2) : P (storeProfiles clock profiles written).2 := by
  induction profiles generalizing written with
  | nil => exact begins
  | cons p rest ih =>
      obtain ⟨outcome, store⟩ := written
      cases outcome with
      | error e => exact begins
      | ok _ => exact ih (kept store clock (.addProfile p) nofun begins)

include holds

theorem addVersion_keeps {listed : ProfileVersion} (admitted : admits listed.version) (me : Thread)
    (profiles : List Profile) : P (s.addVersion me listed profiles).2.store := by
  unfold addVersion
  cases s.prepareVersion me listed profiles with
  | error e => exact holds
  | ok state =>
      dsimp only
      rw [ofStore_snd]
      refine storeProfiles_keeps kept s.clock profiles ?_
      refine kept s.store s.clock (.addVersion listed.version listed.attributes) ?_ holds
      rintro v attributes same
      cases same
      exact admitted

theorem removeVersion_keeps (me : Thread) (v : Version) : P (s.removeVersion me v).2.store := by
  unfold removeVersion
  cases s.prepareVersionRemoval me v with
  | error e => exact holds
  | ok listed =>
      dsimp only
      rw [ofStore_snd]
      exact kept s.store s.clock (.removeVersion v) nofun holds

theorem addProfile_keeps (me : Thread) (p : Profile) : P (s.addProfile me p).2.store := by
  unfold addProfile
  cases s.prepareProfile me p with
  | error e => exact holds
  | ok _ =>
      dsimp only
      rw [ofStore_snd]
      exact kept s.store s.clock (.addProfile p) nofun holds

theorem storeReplacement_keeps (p : Profile) : P (s.storeReplacement p).2 := by
  unfold storeReplacement
  split
  · exact holds
  · exact kept s.store s.clock (.updateProfile p) nofun holds

theorem replaceProfile_keeps (me : Thread) (p : Profile) (caller : Option String) :
    P (s.replaceProfile me p caller).2.store := by
  have replaced := storeReplacement_keeps kept holds p
  unfold replaceProfile
  cases s.prepareReplacement me p with
  | error e => exact holds
  | ok _ =>
      dsimp only
      rcases stored : s.storeReplacement p with ⟨outcome, written⟩
      rw [stored] at replaced
      cases outcome <;> exact replaced

theorem removeProfile_keeps (me : Thread) (v : Version) (id : ProfileId) :
    P (s.removeProfile me v id).2.store := by
  unfold removeProfile
  cases s.prepareProfileRemoval me v id with
  | error e => exact holds
  | ok _ =>
      dsimp only
      rw [ofStore_snd]
      exact kept s.store s.clock (.removeProfile v id) nofun holds

theorem updateProfile_keeps (me : Thread) (p : Profile) (caller : Option String) :
    P (s.updateProfile me p caller).2.store := by
  have replaced := replaceProfile_keeps kept holds me p none
  unfold updateProfile
  cases s.containerService.check with
  | error e => exact holds
  | ok _ =>
      dsimp only
      rcases result : s.replaceProfile me p none with ⟨outcome, next⟩
      rw [result] at replaced
      cases outcome with
      | error e => exact replaced
      | ok q =>
          dsimp only
          rw [(reprovisions_beside ..).store]
          exact replaced

theorem ensureVersion_keeps (admitted : admits s.defaultVersion) (me : Thread) :
    P (s.ensureVersion me).2.store := by
  unfold ensureVersion
  split
  · exact holds
  · split
    · exact holds
    · exact andThen_keeps (P := fun t => P t.store) (addVersion_keeps kept holds (by exact admitted) me [])
        fun _ _ still => still

theorem ensureProfile_keeps (me : Thread) : P (s.ensureProfile me).2.store := by
  unfold ensureProfile
  split
  · exact holds
  · split
    · exact holds
    · split
      · exact holds
      · exact andThen_keeps (P := fun t => P t.store) (addProfile_keeps kept holds me _) fun _ _ still => still

theorem start_keeps (admitted : admits s.defaultVersion) (me : Thread) : P (s.start me).2.store := by
  have begins := ensureVersion_keeps (s := { s with
    profileService := s.profileService.activate
    containerService := s.containerService.activate }) kept holds admitted me
  refine andThen_keeps (P := fun t => P t.store) begins fun _ t still => ?_
  refine andThen_keeps (P := fun t => P t.store) (ensureProfile_keeps kept still me) fun _ t still => ?_
  exact andThen_keeps (P := fun t => P t.store) ((t.ensureContainer_beside me).store.symm ▸ still) fun _ _ still => still

theorem perform_keeps_store {op : Operation} (admitted : ∀ v, op.Adds s.defaultVersion v → admits v)
    (me : Thread) (caller : Option String) : P (s.perform me caller op).2.store := by
  cases op with
  | start => exact start_keeps kept holds (admitted _ rfl) me
  | addVersion listed profiles => exact addVersion_keeps kept holds (admitted _ rfl) me profiles
  | removeVersion v => exact removeVersion_keeps kept holds me v
  | addProfile p => exact addProfile_keeps kept holds me p
  | replaceProfile p => exact replaceProfile_keeps kept holds me p caller
  | removeProfile v id => exact removeProfile_keeps kept holds me v id
  | updateProfile p => exact updateProfile_keeps kept holds me p caller
  | create r => exact (s.create_beside me r).store.symm ▸ holds
  | startContainer id => exact (s.startContainer_assigns me id caller).beside.store.symm ▸ holds
  | stopContainer id => exact (s.stopContainer_touches me id).beside.store.symm ▸ holds
  | destroy id => exact (s.destroy_beside me id caller).store.symm ▸ holds
  | assignVersion id v => exact (s.assignVersion_assigns me id v caller).beside.store.symm ▸ holds
  | addProfiles id ids => exact (s.addProfiles_assigns me id ids caller).beside.store.symm ▸ holds
  | removeProfiles id ids => exact (s.removeProfiles_assigns me id ids caller).beside.store.symm ▸ holds
  | addEndpoint id endpoint => exact (s.addEndpoint_touches me id endpoint).beside.store.symm ▸ holds
  | setAttribute id key value => exact (s.setAttribute_touches me id key value).beside.store.symm ▸ holds
  | _ => exact holds

end Writes

-- Every version that the run may add is admitted.
def Admitted (admits : Version → Prop) (s : Deployment) (ts : List Turn) : Prop :=
  ∀ me caller op, .action (.perform me caller op) ∈ ts → ∀ v, op.Adds s.defaultVersion v → admits v

theorem turns_keep_store {admits : Version → Prop} {P : Store → Prop} (kept : Store.Kept admits P)
    (holds : P s.store) {ts : List Turn} (admitted : s.Admitted admits ts) : P (s.turns ts).store := by
  have whole : (s.turns ts).defaultVersion = s.defaultVersion ∧ P (s.turns ts).store := by
    refine turns_keep (P := fun t => t.defaultVersion = s.defaultVersion ∧ P t.store) ⟨rfl, holds⟩ ?_
    rintro t x member ⟨same, still⟩
    refine ⟨(t.turn_defaultVersion x).trans same, ?_⟩
    cases x with
    | switch profiles containers => exact still
    | action a =>
        by_cases operation : ∃ me caller op, a = .perform me caller op
        · obtain ⟨me, caller, op, rfl⟩ := operation
          exact perform_keeps_store kept still (fun v adds => admitted me caller op member v (same ▸ adds)) me caller
        · have aside := t.act_aside (a := a) fun me caller op same => operation ⟨me, caller, op, same⟩
          exact aside.1.symm ▸ still
  exact whole.2

end Deployment
end ContainerProfiles
