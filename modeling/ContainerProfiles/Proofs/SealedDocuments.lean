import ContainerProfiles.Proofs.Litter
import ContainerProfiles.Proofs.StoredDocuments

namespace ContainerProfiles

-- The seals of stored documents. What a store writes for a profile it reads back as that profile; and who changes
-- what a document says but not its seal is found out, unless the two texts that are sealed have one digest.

namespace FileTree

variable {t u : FileTree} {path content : String} {place : Path}

-- The last name of the path, and the folder that the names before it lead to.
structure Aims (t : FileTree) (path : String) (start folder : Path) (names : List String) (name : String) : Prop where
  begins : t.begin? path = .ok (start, names ++ [name])
  walked : names.foldlM t.step start = .ok folder
  isFolder : t.entry? folder = some .folder
  moves : isIdle name = false ∧ name ≠ ".."
  fits : nameFits name
  file : t.entries.get? (folder ++ [name]) ≠ some .folder

theorem trimmed_whole {names : List String}
    (slashless : ¬ (names.reverse.dropWhile (· = "")).reverse.length < names.length) :
    (names.reverse.dropWhile (· = "")).reverse = names := by
  have suffix : names.reverse.dropWhile (· = "") <:+ names.reverse := List.dropWhile_suffix _
  rw [suffix.eq_of_length_le (by simpa using slashless), List.reverse_reverse]

theorem aims_of_target (aimed : t.target path = .ok place) :
    ∃ start folder names name, t.Aims path start folder names name ∧ place = folder ++ [name] := by
  obtain ⟨spot, spotted, ⟨moves, slashless⟩, fits, file, rfl⟩ := target_eq_ok.mp aimed
  obtain ⟨⟨start, all⟩, begins, rest⟩ := bind_eq_ok.mp spotted
  obtain ⟨folder, walked, found⟩ := bind_eq_ok.mp rest
  split at found
  · rename_i isFolder
    cases pure_eq_ok.mp found
    have whole := trimmed_whole (of_decide_eq_false slashless)
    simp only [Spot.stays, Bool.or_eq_false_iff, decide_eq_false_iff_not, whole] at moves walked fits
    rcases List.eq_nil_or_concat' all with rfl | ⟨names, name, rfl⟩
    · cases moves.1
    · unfold Spot.path at file ⊢
      simp only [whole, List.dropLast_concat, List.getLastD_concat] at walked moves fits file ⊢
      exact ⟨start, folder, names, name, ⟨begins, walked, isFolder, moves, fits, file⟩, rfl⟩
  · cases throw_eq_ok.mp found

-- While the folders stand, whatever file is there is the one that the path leads to.
theorem Aims.read {start folder : Path} {names : List String} {name : String}
    (aims : t.Aims path start folder names name) (standing : t.Standing u)
    (here : u.entries.get? (folder ++ [name]) = some (.file content)) : u.read path = .ok content := by
  have begins : u.begin? path = .ok (start, names ++ [name]) := standing.begin? path ▸ aims.begins
  have stepped : u.step folder name = .ok (folder ++ [name]) := by
    unfold step
    rw [standing.entry? aims.isFolder, aims.moves.1]
    simp [aims.moves.2, aims.fits, Dict.contains_iff.mpr ⟨_, here⟩]
  have walked : (names ++ [name]).foldlM u.step start = .ok (folder ++ [name]) := by
    rw [List.foldlM_append, bind_eq_ok]
    exact ⟨folder, standing.steps aims.walked aims.isFolder, by simp [stepped]⟩
  have there : u.entry? (folder ++ [name]) = some (.file content) := by
    unfold entry?
    simpa using here
  unfold FileTree.read locate
  simp [bind, Except.bind, pure, Except.pure, begins, walked, there]

theorem read_put (aimed : t.target path = .ok place) : (t.put place (.file content)).read path = .ok content := by
  obtain ⟨start, folder, names, name, aims, rfl⟩ := aims_of_target aimed
  apply aims.read (standing_put aims.file _)
  unfold put
  rw [Dict.get?_insert, if_pos rfl]

theorem read_replace (replaced : t.replace path content = .ok u) : u.read path = .ok content := by
  obtain ⟨place, aimed, rfl⟩ := put_of_replace replaced
  exact read_put aimed

end FileTree

-- The two texts do not collide.
def Digest.TellsApart (one two : String) : Prop := ofText one = ofText two → one = two

namespace ProfileDocument

-- The text that the digest is taken of.
def covered (d : ProfileDocument) : String := Json.print (toNode { d with checksum := none })

theorem digest_covered (d : ProfileDocument) : d.digest = Digest.ofText d.covered := rfl

-- It says all there is to the document, since it can be read again.
theorem covered_injective {d e : ProfileDocument} (same : d.covered = e.covered) :
    d.profile = e.profile ∧ d.updatedAt = e.updatedAt := by
  have one : readDocument schema ofNode? d.covered = .ok { d with checksum := none } := read_print _
  have two : readDocument schema ofNode? e.covered = .ok { e with checksum := none } := read_print _
  rw [same, two, Except.ok.injEq] at one
  exact ⟨(congrArg profile one).symm, (congrArg updatedAt one).symm⟩

theorem open?_broken {d : ProfileDocument} {sum : String} (carried : d.checksum = some sum) (broken : d.digest ≠ sum)
    (path : String) : d.open? path = .error (.integrity path sum d.digest) := by
  unfold open?
  rw [carried]
  exact if_neg broken

-- Another document under the seal of this one.
theorem open?_forged {p : Profile} {now : String} {d : ProfileDocument} (kept : d.checksum = (sealed p now).checksum)
    (apart : Digest.TellsApart d.covered (sealed p now).covered) (changed : d.profile ≠ p ∨ d.updatedAt ≠ now)
    (path : String) : d.open? path = .error (.integrity path (sealed p now).digest d.digest) := by
  apply open?_broken (kept.trans (sealed_intact p now))
  intro same
  obtain ⟨profile, updatedAt⟩ := covered_injective (apart same)
  exact changed.elim (· profile) (· updatedAt)

end ProfileDocument

namespace FileStore

variable {s t : FileStore} {path now : String} {p : Profile}

-- The profile in a document, if the seal of the document is whole.
def readProfile (s : FileStore) (path : String) : Except StoreError Profile := do
  let d ← readDocument ProfileDocument.schema ProfileDocument.ofNode? (← s.read path)
  d.open? path

-- This is how a profile that is asked for is read.
theorem profile?_eq (s : FileStore) (v : Version) (id : ProfileId) : s.profile? v id = do
    s.requireVersion v
    checkName id
    if s.contains (s.profilePath v id) then return some (← s.readProfile (s.profilePath v id)) else return none := by
  unfold profile? readProfile
  simp only [bind_assoc]

theorem readProfile_eq {text : String} {d : ProfileDocument} (there : s.read path = .ok text)
    (decoded : readDocument ProfileDocument.schema ProfileDocument.ofNode? text = .ok d) :
    s.readProfile path = d.open? path := by
  unfold readProfile
  rw [there]
  simp only [bind, Except.bind, decoded]

theorem readProfile_sealed (there : s.read path = .ok (Json.print (ProfileDocument.sealed p now).toNode)) :
    s.readProfile path = .ok p := by
  rw [readProfile_eq there (ProfileDocument.sealed_read p now)]
  exact ProfileDocument.sealed_open? p now path

theorem read_writeProfile (written : s.writeProfile now p = (.ok (), t)) :
    t.read (s.profilePath p.version p.identity) = .ok (Json.print (ProfileDocument.sealed p now).toNode) := by
  obtain ⟨l, tree⟩ := s
  have ends : Ends l (fun u w => u.replace (l.profileFile p.version.text p.identity)
      (Json.print (ProfileDocument.sealed p now).toNode) = .ok w) tree (writeProfile ⟨l, tree⟩ now p) :=
    (ends_makeFolders _).andThen fun _ => ends_commit fun _ replaced => replaced
  rw [written] at ends
  cases ends with
  | done _ replaced =>
      unfold read profilePath
      dsimp only
      rw [FileTree.read_replace replaced]
      rfl

-- What was written is read, and nothing else can be read under the seal of what was written.
theorem seals_hold (now : String) (p : Profile) :
    (∀ (s : FileStore) (path : String), s.read path = .ok (Json.print (ProfileDocument.sealed p now).toNode) →
      s.readProfile path = .ok p) ∧
    (∀ s t : FileStore, s.writeProfile now p = (.ok (), t) →
      t.readProfile (s.profilePath p.version p.identity) = .ok p) ∧
    ∀ (s : FileStore) (path text : String) (d : ProfileDocument), s.read path = .ok text →
      readDocument ProfileDocument.schema ProfileDocument.ofNode? text = .ok d →
      d.checksum = (ProfileDocument.sealed p now).checksum →
      Digest.TellsApart d.covered (ProfileDocument.sealed p now).covered → d.profile ≠ p ∨ d.updatedAt ≠ now →
      s.readProfile path = .error (.integrity path (ProfileDocument.sealed p now).digest d.digest) := by
  refine ⟨fun _ _ => readProfile_sealed, fun _ _ written => readProfile_sealed (read_writeProfile written), ?_⟩
  intro s path text d there decoded kept apart changed
  rw [readProfile_eq there decoded]
  exact ProfileDocument.open?_forged kept apart changed path

def plainProfile : Profile := { identity := "web", version := .first }

-- The seal is the one of the document as it was written.
def redated : ProfileDocument :=
  { ProfileDocument.sealed plainProfile "monday" with updatedAt := "sunday" }

def emptyStore : FileStore := ⟨⟨""⟩, {}⟩

def storeOf (text : String) : FileStore := ⟨⟨""⟩, ({} : FileTree).put ["web.json"] (.file text)⟩

theorem redated_apart : redated.digest ≠ (ProfileDocument.sealed plainProfile "monday").digest := by
  decide +kernel

theorem plain_written : ∃ t, emptyStore.writeProfile "monday" plainProfile = (.ok (), t) := by
  have accepted : (emptyStore.writeProfile "monday" plainProfile).1.toBool := by decide +kernel
  generalize emptyStore.writeProfile "monday" plainProfile = out at accepted ⊢
  obtain ⟨answer, t⟩ := out
  cases answer with
  | error e => cases accepted
  | ok _ => exact ⟨t, rfl⟩

theorem seals_hold_redated :
    (∃ t, emptyStore.writeProfile "monday" plainProfile = (.ok (), t) ∧
      t.readProfile (emptyStore.profilePath .first "web") = .ok plainProfile) ∧
    (storeOf (Json.print redated.toNode)).readProfile "web.json" = .error (.integrity "web.json"
      (ProfileDocument.sealed plainProfile "monday").digest redated.digest) := by
  have hold := seals_hold "monday" plainProfile
  obtain ⟨t, written⟩ := plain_written
  have there : ∀ text, (storeOf text).read "web.json" = .ok text := fun _ => by rfl
  exact ⟨⟨t, written, hold.2.1 emptyStore t written⟩, hold.2.2 _ "web.json" _ redated (there _)
    (ProfileDocument.read_print redated) rfl (fun same => absurd same redated_apart) (.inr (by decide))⟩

end FileStore
end ContainerProfiles
