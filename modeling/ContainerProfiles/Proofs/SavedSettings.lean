import ContainerProfiles.CommandLine.Run
import ContainerProfiles.Proofs.PlainDocuments
import ContainerProfiles.Proofs.SealedDocuments
import ContainerProfiles.Settings.Document

namespace ContainerProfiles

-- Saved settings load again. The document that is written for settings is read as the same settings, whatever
-- their texts hold, and so is the file it is put into. Where the timeout cannot be written there is no file.

open Toml

namespace Settings

def keys : List String :=
  ["lock_timeout_ms", "default_version", "default_profile", "current_container", "runtime_type"]

def lines (s : Settings) : List Line :=
  [⟨"lock_timeout_ms", Nat.toDigits 10 s.lockTimeout.toNat, .integer s.lockTimeout.toNat⟩,
    ⟨"default_version", stringChars s.defaultVersion.toList, .text s.defaultVersion⟩,
    ⟨"default_profile", stringChars s.defaultProfile.toList, .text s.defaultProfile⟩,
    ⟨"current_container", stringChars s.currentContainer.toList, .text s.currentContainer⟩,
    ⟨"runtime_type", stringChars s.runtime.text.toList, .text s.runtime.text⟩]

def document (s : Settings) : String := String.ofList (documentChars s.lines)

variable {s : Settings}

-- The names of the settings need no quotes.
theorem keys_bare : ∀ key ∈ keys, BareKey key.toList := by
  have all : ∀ key ∈ keys, key.toList ≠ [] ∧ key.toList.all isBare := by decide +kernel
  exact fun key known => ⟨(all key known).1, List.all_eq_true.mp (all key known).2⟩

theorem lines_read (small : s.lockTimeout.toNat < UInt64.size / 2) : ∀ l ∈ s.lines, l.Reads := by
  intro l mem
  refine ⟨keys_bare l.key (List.mem_map_of_mem mem : l.key ∈ s.lines.map Line.key), ?_⟩
  simp only [lines, List.mem_cons, List.not_mem_nil, or_false] at mem
  rcases mem with rfl | rfl | rfl | rfl | rfl
  · exact spells_integer small
  all_goals exact spells_text _

theorem save_eq (s : Settings) :
    s.save = if UInt64.size / 2 ≤ s.lockTimeout.toNat then .error .timeoutTooLarge else .ok s.document := by
  unfold save
  split
  · rfl
  · have number : (toString s.lockTimeout).toList = Nat.toDigits 10 s.lockTimeout.toNat := Nat.toList_repr
    rw [Except.ok.injEq]
    apply String.toList_inj.mp
    simp [document, documentChars, lines, Line.chars, Toml.string, number]

theorem read_document (small : s.lockTimeout.toNat < UInt64.size / 2) : Toml.read s.document = some s.toNode :=
  Toml.read_document (lines_read small) (by decide : keys.Nodup)

theorem ofText?_text (t : RuntimeType) : RuntimeType.ofText? t.text = some t := by
  cases t <;> rfl

theorem natural?_timeout (n : UInt64) : (Node.integer n.toNat).natural? UInt64.size = some n.toNat := by
  have bound : n.toNat < UInt64.size := n.toNat_lt
  rw [Node.natural?, if_pos ⟨Int.natCast_nonneg _, Int.ofNat_lt.mpr bound⟩, Int.toNat_natCast]

theorem optional_found {r : Node.Record} {name : String} {n : Node} {one : Node → Option α} {a : α}
    (found : r.find? name = some n) (read : one n = some a) (missing : α) : r.optional name one missing = some a := by
  unfold Node.Record.optional
  rw [found]
  exact read

-- Over any record: in the one of the document the large bound of the timeout would be computed with.
theorem ofNode?_fields {n : Node} {r : Node.Record} (record : n.record? .toml keys .ignored = some r)
    (timeout : ∀ missing, r.optional "lock_timeout_ms" (fun n => (n.natural? UInt64.size).map UInt64.ofNat) missing =
      some s.lockTimeout)
    (version : ∀ missing, r.optional "default_version" Node.text? missing = some s.defaultVersion)
    (profile : ∀ missing, r.optional "default_profile" Node.text? missing = some s.defaultProfile)
    (container : ∀ missing, r.optional "current_container" Node.text? missing = some s.currentContainer)
    (runtime : ∀ missing, r.optional "runtime_type" (fun n => (n.choice? .toml).bind RuntimeType.ofText?) missing =
      some s.runtime) : ofNode? .toml n = some s := by
  unfold keys at record
  unfold ofNode?
  rw [record]
  simp only [Option.bind_eq_bind, Option.bind_some, timeout, version, profile, container, runtime]
  rfl

theorem ofNode?_toNode (s : Settings) : ofNode? .toml s.toNode = some s := by
  have record : s.toNode.record? .toml keys .ignored = some ⟨s.lines.map fun l => (l.key, l.node)⟩ := by
    simp [toNode, Node.record?, keys, lines]
  refine ofNode?_fields record (optional_found rfl ?_) (optional_found rfl rfl) (optional_found rfl rfl)
    (optional_found rfl rfl) (optional_found rfl (ofText?_text s.runtime))
  rw [natural?_timeout, Option.map_some, UInt64.ofNat_toNat]

theorem load_document (valid : s.check = .ok ()) (small : s.lockTimeout.toNat < UInt64.size / 2) (path : String) :
    load path s.document = .ok s := by
  unfold load
  rw [read_document small, Option.bind_some, ofNode?_toNode]
  simp only [valid]
  rfl

variable {t u : FileTree} {path : String} {place : Path}

theorem saveTo_ok (small : s.lockTimeout.toNat < UInt64.size / 2)
    (made : t.makeFolders (FileTree.parent path) = (.ok (), u)) (aimed : u.target path = .ok place) :
    s.saveTo t path = (.ok (), u.put place (.file s.document)) := by
  unfold saveTo
  rw [made, save_eq, if_neg (Nat.not_le.mpr small)]
  dsimp only
  unfold FileTree.write
  rw [aimed]
  rfl

theorem loadSettings_document (valid : s.check = .ok ()) (small : s.lockTimeout.toNat < UInt64.size / 2)
    (written : t.read path = .ok s.document) : CommandLine.loadSettings t path = .ok s := by
  refine bind_eq_ok.mpr ⟨s.document, mapError_eq_ok.mpr written, ?_⟩
  rw [load_document valid small]
  rfl

theorem saveTo_large (large : UInt64.size / 2 ≤ s.lockTimeout.toNat) (t : FileTree) (path : String) :
    (s.saveTo t path).2 = (t.makeFolders (FileTree.parent path)).2 ∧
      ((t.makeFolders (FileTree.parent path)).1 = .ok () →
        (s.saveTo t path).1 = .error (.settings .timeoutTooLarge)) := by
  unfold saveTo
  rw [save_eq, if_pos large]
  generalize t.makeFolders (FileTree.parent path) = made
  obtain ⟨outcome, u⟩ := made
  cases outcome with
  | error fault => exact ⟨rfl, fun none => nomatch none⟩
  | ok _ => exact ⟨rfl, fun _ => rfl⟩

-- The largest timeout that a document can hold, 2 ^ 63 - 1.
def largestTimeout : Nat := 9223372036854775807

-- Settings that pass their check are the same after they were saved and loaded, as a text and in any place for a file.
-- Where the timeout is too large for the document the settings are refused, and the files stay what they were.
theorem saved_settings_load (valid : s.check = .ok ()) :
    (s.lockTimeout.toNat ≤ largestTimeout →
      (∃ text, s.save = .ok text ∧ ∀ path, load path text = .ok s) ∧
      ∀ t path u place, t.makeFolders (FileTree.parent path) = (.ok (), u) → u.target path = .ok place →
        ∃ w, s.saveTo t path = (.ok (), w) ∧ CommandLine.loadSettings w path = .ok s) ∧
    (largestTimeout < s.lockTimeout.toNat →
      s.save = .error .timeoutTooLarge ∧
      ∀ t path, t.SameFiles (s.saveTo t path).2 ∧
        ((t.makeFolders (FileTree.parent path)).1 = .ok () →
          (s.saveTo t path).1 = .error (.settings .timeoutTooLarge))) := by
  have half : UInt64.size / 2 = largestTimeout + 1 := rfl
  constructor
  · intro small
    have fits : s.lockTimeout.toNat < UInt64.size / 2 := by omega
    constructor
    · exact ⟨s.document, by rw [save_eq, if_neg (Nat.not_le.mpr fits)], load_document valid fits⟩
    · intro t path u place made aimed
      have written : (u.put place (.file s.document)).read path = .ok s.document := FileTree.read_put aimed
      exact ⟨_, saveTo_ok fits made aimed, loadSettings_document valid fits written⟩
  · intro large
    have exceeds : UInt64.size / 2 ≤ s.lockTimeout.toNat := by omega
    constructor
    · rw [save_eq, if_pos exceeds]
    · intro t path
      obtain ⟨made, refused⟩ := saveTo_large exceeds t path
      refine ⟨?_, refused⟩
      rw [made]
      exact FileTree.sameFiles_makeFolders t (FileTree.parent path)

-- Both kinds of quotes in rows, a backslash, line ends and a control.
def knotted : Settings :=
  { defaultProfile := "\"\"\"'''\\\n\r\x01\"", currentContainer := "\n'\"\"" }

theorem knotted_settings_load :
    knotted.check = .ok () ∧ (∃ text, knotted.save = .ok text ∧ load "fabric.toml" text = .ok knotted) ∧
      (∃ w, knotted.saveTo {} "etc/fabric.toml" = (.ok (), w) ∧
        CommandLine.loadSettings w "etc/fabric.toml" = .ok knotted) ∧
      ({ knotted with lockTimeout := 9223372036854775808 } : Settings).save = .error .timeoutTooLarge := by
  have valid : knotted.check = .ok () := by decide
  have slow : ({ knotted with lockTimeout := 9223372036854775808 } : Settings).check = .ok () := by decide
  obtain ⟨⟨text, saved, loads⟩, stores⟩ := (saved_settings_load valid).1 (by decide)
  refine ⟨valid, ⟨text, saved, loads _⟩, ?_, ((saved_settings_load slow).2 (by decide)).1⟩
  exact stores {} "etc/fabric.toml" (({} : FileTree).put ["etc"] .folder) ["etc", "fabric.toml"] (by rfl) (by decide)

end Settings
end ContainerProfiles
