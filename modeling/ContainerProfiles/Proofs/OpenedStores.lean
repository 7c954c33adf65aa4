import ContainerProfiles.Proofs.MirroredRuns
import ContainerProfiles.Proofs.StoreRuns

namespace ContainerProfiles

-- Stores of either kind, from their beginning on. Any such store holds what some memory holds, reads as that
-- memory does, and after a write that fails still holds the same.

open FileTree StoreLayout

variable {admits : Version → Prop} {s : Store} {m n : MemoryStore}

namespace MemoryStore

def Keyed (m : MemoryStore) : Prop := ∀ v entry, m.versions.get? v = some entry → entry.profiles.Keyed

-- What an operation makes of the memory.
def written (m : MemoryStore) : StoreOperation → Except StoreError MemoryStore
  | .addVersion v attributes => m.addVersion v attributes
  | .removeVersion v => m.removeVersion v
  | .addProfile p => m.addProfile p
  | .updateProfile p => m.updateProfile p
  | .removeProfile v id => m.removeProfile v id
  | .versions | .version _ | .profile _ _ | .profiles _ => .ok m

theorem Keyed.put (keyed : m.Keyed) {entry : StoredVersion} (own : entry.profiles.Keyed) : (m.put v entry).Keyed := by
  intro w other found
  rw [get?_put] at found
  split at found
  · cases found
    exact own
  · exact keyed w other found

theorem amend_ok {v : Version} {check : StoredVersion → Except StoreError Unit}
    {change : StoredVersion → MemoryStore} (done : m.amend v check change = .ok n) :
    ∃ entry, m.versions.get? v = some entry ∧ n = change entry := by
  simp only [amend, bind_eq_ok] at done
  obtain ⟨entry, stored, _, _, same⟩ := done
  exact ⟨entry, stored_eq_ok.mp stored, (Except.ok.inj same).symm⟩

theorem Keyed.written (keyed : m.Keyed) {op : StoreOperation} (done : m.written op = .ok n) : n.Keyed := by
  cases op with
  | addVersion v attributes =>
      change m.addVersion v attributes = _ at done
      unfold addVersion at done
      split at done
      · cases done
      · cases done
        exact keyed.put nofun
  | removeVersion v =>
      change m.removeVersion v = _ at done
      rw [removeVersion_eq] at done
      obtain ⟨_, _, rfl⟩ := amend_ok done
      intro w entry found
      rw [Dict.get?_erase] at found
      split at found
      · cases found
      · exact keyed w entry found
  | addProfile p =>
      change m.addProfile p = _ at done
      rw [addProfile_eq] at done
      obtain ⟨entry, stored, rfl⟩ := amend_ok done
      exact keyed.put ((keyed _ entry stored).insert p)
  | updateProfile p =>
      change m.updateProfile p = _ at done
      rw [updateProfile_eq] at done
      obtain ⟨entry, stored, rfl⟩ := amend_ok done
      exact keyed.put ((keyed _ entry stored).insert p)
  | removeProfile v id =>
      change m.removeProfile v id = _ at done
      rw [removeProfile_eq] at done
      obtain ⟨entry, stored, rfl⟩ := amend_ok done
      exact keyed.put ((keyed v entry stored).erase id)
  | _ =>
      cases done
      exact keyed

end MemoryStore

namespace Store

-- A store at its beginning, and the versions there is room for in it.
inductive Opened : Store → (Version → Prop) → Prop
  | memory : Opened (.memory {}) fun _ => True
  | files {l : StoreLayout} : t.locate l.root = .ok (base, .folder) →
      (∀ name rest, t.entries.get? (base ++ name :: rest) = none) →
      l.versionsFolder.utf8ByteSize ≤ longestPath → FileStore.prepare ⟨l, t⟩ = (.ok (), f) →
      Opened (.files f) l.Admits

-- What the store holds, as memory would.
inductive Reflects (admits : Version → Prop) : Store → MemoryStore → Prop
  | memory (m : MemoryStore) : Reflects admits (.memory m) m
  | files {m : MemoryStore} : (∀ v, admits v → l.Admits v) → Mirrors l t base m →
      Reflects admits (.files ⟨l, t⟩) m

theorem Opened.reflects (opened : s.Opened admits) : s.Reflects admits {} := by
  cases opened with
  | memory => exact .memory {}
  | files found empty room prepared =>
      obtain ⟨u, same, mirrors⟩ := mirrors_opened found empty room
      cases same.symm.trans prepared
      exact .files (fun _ admitted => admitted) mirrors

theorem Reflects.versions (reflects : s.Reflects admits m) : s.versions = .ok m.versions.keys := by
  cases reflects with
  | memory => rfl
  | files _ mirrors => exact mirrors.versions

theorem Reflects.version? (reflects : s.Reflects admits m) (v : Version) : s.version? v = .ok (m.version? v) := by
  cases reflects with
  | memory => rfl
  | files _ mirrors => exact mirrors.version? v

theorem Reflects.profiles (reflects : s.Reflects admits m) (v : Version) :
    s.profiles v = (Store.memory m).profiles v := by
  cases reflects with
  | memory => rfl
  | files _ mirrors => exact mirrors.profiles v

-- What an operation leaves of a store that holds what `m` does: what it makes of `m`, or `m` if it was refused.
def Settles (holds : Store → MemoryStore → Prop) (m : MemoryStore) (op : StoreOperation)
    (w : Except StoreError StoreReply × Store) : Prop :=
  ∃ n, holds w.2 n ∧ (∀ x, w.1 = .ok x → m.written op = .ok n) ∧ ∀ e, w.1 = .error e → n = m

section Settles

variable {holds others : Store → MemoryStore → Prop} {op : StoreOperation} {w : Except StoreError StoreReply × Store}

theorem Settles.mono (settles : Settles holds m op w) (implied : ∀ s n, holds s n → others s n) :
    Settles others m op w := by
  obtain ⟨n, kept, accepted, refused⟩ := settles
  exact ⟨n, implied _ n kept, accepted, refused⟩

theorem settles_refused (kept : holds s m) (e : StoreError) (op : StoreOperation) :
    Settles holds m op (.error e, s) := ⟨m, kept, nofun, fun _ _ => rfl⟩

theorem settles_read (kept : holds s m) (read : m.written op = .ok m) (r : Except StoreError StoreReply) :
    Settles holds m op (r, s) := ⟨m, kept, fun _ _ => read, fun _ _ => rfl⟩

end Settles

theorem settles_memory (m : MemoryStore) (op : StoreOperation) :
    Settles (Reflects admits) m op (writing (onMemory m (m.written op))) := by
  cases done : m.written op with
  | error e => exact settles_refused (.memory m) e op
  | ok n => exact ⟨n, .memory n, fun _ _ => done, nofun⟩

-- Files that hold what the memory does.
abbrev MirrorOf (l : StoreLayout) (base : Path) (s : Store) (m : MemoryStore) : Prop := Mirrored l base s (.memory m)

theorem settles_matches (op : StoreOperation) {w : Except StoreError Unit × FileStore}
    (ended : Matches l base m (m.written op) w) : Settles (MirrorOf l base) m op (writing (onFiles w)) := by
  obtain ⟨outcome, layout, tree⟩ := w
  obtain ⟨answer, same, mirrors⟩ := ended
  dsimp only at answer same mirrors
  subst answer same
  cases done : m.written op with
  | error e =>
      rw [done] at mirrors
      exact settles_refused (.intro mirrors) e op
  | ok n =>
      rw [done] at mirrors
      exact ⟨n, .intro mirrors, fun _ _ => done, nofun⟩

theorem settles_unnamed {id : ProfileId} {t : FileTree} (mirrors : Mirrors l t base m)
    (checked : checkProfileName id = .error fault) (step : Except StoreError Unit × FileStore) (op : StoreOperation) :
    Settles (MirrorOf l base) m op (writing (onFiles (FileStore.named ⟨l, t⟩ id step))) := by
  rw [FileStore.named_error checked]
  exact settles_refused (.intro mirrors) _ op

theorem Mirrored.settles {t : FileTree} (mirrors : Mirrors l t base m) (now : String) {op : StoreOperation}
    (admitted : ∀ v attributes, op = .addVersion v attributes → l.Admits v) :
    Settles (MirrorOf l base) m op ((files ⟨l, t⟩).perform now op) := by
  have whole : MirrorOf l base (files ⟨l, t⟩) m := .intro mirrors
  cases op with
  | versions | version v | profile v id | profiles v => exact settles_read whole rfl _
  | addVersion v attributes =>
      exact settles_matches (.addVersion v attributes) (mirrors.addVersion (admitted v attributes rfl) now attributes)
  | removeVersion v => exact settles_matches (.removeVersion v) (mirrors.removeVersion v)
  | addProfile p =>
      cases checked : checkProfileName p.identity with
      | error fault => exact settles_unnamed mirrors checked _ _
      | ok _ =>
          by_cases nul : '\x00' ∈ p.identity.toList
          · obtain ⟨e, u, same, still⟩ := mirrors.addProfile_unfit checked nul now
            change Settles _ m _ (writing (onFiles (FileStore.addProfile _ now p)))
            rw [same]
            exact settles_refused (.intro still) e _
          · exact settles_matches (.addProfile p) (mirrors.addProfile ⟨checked, nul⟩ now)
  | updateProfile p =>
      cases checked : checkProfileName p.identity with
      | error fault => exact settles_unnamed mirrors checked _ _
      | ok _ => exact settles_matches (.updateProfile p) (mirrors.updateProfile checked now)
  | removeProfile v id =>
      cases checked : checkProfileName id with
      | error fault => exact settles_unnamed mirrors checked _ _
      | ok _ => exact settles_matches (.removeProfile v id) (mirrors.removeProfile checked v)

theorem MirrorOf.reflects (fits : ∀ v, admits v → l.Admits v) (mirrored : MirrorOf l base s m) :
    s.Reflects admits m := by
  obtain ⟨mirrors⟩ := mirrored
  exact .files fits mirrors

theorem Reflects.perform (reflects : s.Reflects admits m) (now : String) {op : StoreOperation}
    (admitted : ∀ v attributes, op = .addVersion v attributes → admits v) :
    Settles (Reflects admits) m op (s.perform now op) := by
  cases reflects with
  | memory m =>
      cases op with
      | versions | version v | profile v id | profiles v => exact settles_read (.memory m) rfl _
      | addVersion v attributes => exact settles_memory m (.addVersion v attributes)
      | removeVersion v => exact settles_memory m (.removeVersion v)
      | addProfile p => exact settles_memory m (.addProfile p)
      | updateProfile p => exact settles_memory m (.updateProfile p)
      | removeProfile v id => exact settles_memory m (.removeProfile v id)
  | files fits mirrors =>
      refine (Mirrored.settles mirrors now fun v attributes same => ?_).mono fun _ _ => MirrorOf.reflects fits
      exact fits v (admitted v attributes same)

-- The store of a run always reflects some memory.
def Backed (admits : Version → Prop) (s : Store) : Prop := ∃ m : MemoryStore, s.Reflects admits m ∧ m.Keyed

theorem Opened.backed (opened : s.Opened admits) : s.Backed admits := ⟨{}, opened.reflects, nofun⟩

theorem Settles.backed {op : StoreOperation} {w : Except StoreError StoreReply × Store} (keyed : m.Keyed)
    (settles : Settles (Reflects admits) m op w) : Backed admits w.2 := by
  obtain ⟨n, reflects, accepted, refused⟩ := settles
  cases outcome : w.1 with
  | error e => exact ⟨n, reflects, refused e outcome ▸ keyed⟩
  | ok x => exact ⟨n, reflects, keyed.written (accepted x outcome)⟩

theorem backed_kept : Kept admits (Backed admits) := by
  rintro store now op admitted ⟨m, reflects, keyed⟩
  exact (reflects.perform now admitted).backed keyed

end Store

namespace Deployment

theorem turns_backed {s : Deployment} (opened : s.store.Opened admits) {ts : List Turn}
    (admitted : s.Admitted admits ts) : (s.turns ts).store.Backed admits :=
  turns_keep_store Store.backed_kept opened.backed admitted

end Deployment
end ContainerProfiles
