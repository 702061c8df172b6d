import QueryLint.Project.Apply
import QueryLint.Proofs.Files.Writing
import QueryLint.Proofs.Project.Names
import QueryLint.Proofs.Text.Boundary

/-!
# Rewriting files

The copy that is kept of a file is in no known language, so it is none of a project's files, and different
files have different copies. So if no folder stands where a copy is to be made, files can be rewritten one
after the other without getting in each other's way.
-/
namespace QueryLint.Files.FilePath

variable {p q : FilePath}

theorem IsProper.parts_eq (h : p.IsProper) : p.parts = p.parts.dropLast ++ [p.name] := by
  rw [name, List.getLast?_eq_some_getLast h.parts_ne_nil, Option.getD_some,
    List.dropLast_concat_getLast]

theorem dropLast_extendName (p : FilePath) (extra : String) :
    (p.extendName extra).parts.dropLast = p.parts.dropLast :=
  List.dropLast_concat

theorem IsProper.parts_eq_of_extendName (hp : p.IsProper) (hq : q.IsProper) {extra : String}
    (h : (p.extendName extra).parts = (q.extendName extra).parts) : p.parts = q.parts := by
  obtain ⟨hfront, hlast⟩ := List.append_inj' h rfl
  have hname : p.name = q.name := (String.append_left_inj extra).mp (List.singleton_inj.mp hlast)
  rw [hp.parts_eq, hq.parts_eq, hfront, hname]

end QueryLint.Files.FilePath

namespace QueryLint.Project

open QueryLint.Code QueryLint.Files QueryLint.Finding QueryLint.Text

theorem isProperName_backup {name : String} (h : '/' ∉ name.toList) :
    IsProperName (name ++ backupSuffix) := by
  have hlength : 4 ≤ (name ++ backupSuffix).length := by
    rw [String.length_append]
    exact Nat.le_add_left _ _
  have hother : ∀ s : String, s.length < 4 → name ++ backupSuffix ≠ s := by
    rintro s hs rfl
    omega
  refine ⟨hother _ (by decide), hother _ (by decide), hother _ (by decide), ?_⟩
  rw [String.toList_append, List.mem_append, not_or]
  exact ⟨h, by decide⟩

/-- What the name of a copy ends in is no suffix of a known language. -/
theorem not_isSupported_backup (p : FilePath) : isSupported (p.extendName backupSuffix) = false := by
  have hname : (p.extendName backupSuffix).name = p.name ++ backupSuffix := by
    rw [FilePath.name, FilePath.extendName, List.getLast?_concat, Option.getD_some]
  have hreverse : (p.name ++ backupSuffix).toList.reverse =
      ['k', 'a', 'b'] ++ '.' :: p.name.toList.reverse := by
    rw [String.toList_append, List.reverse_append]
    rfl
  have hsuffix : (p.extendName backupSuffix).suffix = "" ∨
      (p.extendName backupSuffix).suffix = ".bak" := by
    rw [FilePath.suffix, FilePath.suffixOf, hname, hreverse, List.takeWhile_append_of_pos (by simp),
      List.dropWhile_append_of_pos (by simp)]
    cases p.name.toList.reverse with
    | nil => exact .inl rfl
    | cons c cs => exact .inr rfl
  rw [isSupported]
  rcases hsuffix with h | h <;> rw [h] <;> decide

/-- A file to which suggestions are applied: its path, its text, and what comes of the text. -/
structure Rewrite where
  path : FilePath
  text : String
  outcome : Edit.Outcome

namespace Rewrite

/-- The names of the copy that is kept. -/
def backup (r : Rewrite) : List String := (r.path.extendName backupSuffix).parts

/-- The disk with the copy made and the file written. -/
def perform (disk : Disk) (r : Rewrite) : Disk :=
  (disk.put r.backup (.file (utf8 r.text))).put r.path.parts (.file (utf8 r.outcome.text))

/-- A file of a project that is there with its text, where no folder stands in the place of the copy. -/
structure IsReady (disk : Disk) (r : Rewrite) : Prop where
  anchor : r.path.anchor = .root
  supported : isSupported r.path
  file : disk.entryAt r.path.parts = some (.file (utf8 r.text))
  noFolder : disk.entryAt r.backup ≠ some .folder

variable {disk : Disk} {r s : Rewrite} {names : List String}

theorem IsReady.isListed (h : r.IsReady disk) : IsListed disk r.path :=
  ⟨h.anchor, ⟨_, h.file⟩, h.supported⟩

/-- No copy is one of the files. -/
theorem backup_ne_path (r : Rewrite) (h : s.IsReady disk) : r.backup ≠ s.path.parts := by
  intro heq
  have hname : (r.path.extendName backupSuffix).name = s.path.name := by
    rw [FilePath.name, FilePath.name, ← heq, backup]
  have hsuffix : isSupported (r.path.extendName backupSuffix) = isSupported s.path := by
    rw [isSupported, isSupported, FilePath.suffix, FilePath.suffix, hname]
  rw [not_isSupported_backup, h.supported] at hsuffix
  cases hsuffix

theorem backup_ne_nil (r : Rewrite) : r.backup ≠ [] := by
  simp [backup, FilePath.extendName]

section Plain

variable (plain : disk.IsPlain)

include plain

theorem IsReady.backup_ne_backup (hr : r.IsReady disk) (hs : s.IsReady disk)
    (hne : r.path.parts ≠ s.path.parts) : r.backup ≠ s.backup := fun h =>
  hne ((hr.isListed.isProper plain).parts_eq_of_extendName (hs.isListed.isProper plain) h)

theorem IsReady.path_ne_nil (h : r.IsReady disk) : r.path.parts ≠ [] :=
  (h.isListed.isProper plain).parts_ne_nil

/-- What is on the disk after a file is rewritten. -/
theorem IsReady.entryAt_perform (h : r.IsReady disk) (names : List String) :
    (perform disk r).entryAt names =
      if names = r.path.parts then some (.file (utf8 r.outcome.text))
      else if names = r.backup then some (.file (utf8 r.text)) else disk.entryAt names := by
  rw [perform, Disk.entryAt_put _ _ _ _ (h.path_ne_nil plain),
    Disk.entryAt_put _ _ _ _ (backup_ne_nil r)]

theorem IsReady.parent_folder (h : r.IsReady disk) :
    disk.entryAt r.backup.dropLast = some .folder := by
  rw [backup, FilePath.dropLast_extendName]
  exact plain.entryAt_dropLast h.file

theorem IsReady.proper_backup (h : r.IsReady disk) : ∀ name ∈ r.backup, IsProperName name := by
  have hproper := h.isListed.isProper plain
  rw [backup, FilePath.extendName, List.forall_mem_append]
  refine ⟨fun name hname => hproper.names name (List.dropLast_subset _ hname), ?_⟩
  refine List.forall_mem_singleton.mpr (isProperName_backup (hproper.names _ ?_).noSlash)
  rw [hproper.parts_eq]
  simp

/-- After a copy is made, the disk is still without links, and the file is as it was. -/
theorem IsReady.isPlain_copied (h : r.IsReady disk) :
    (disk.put r.backup (.file (utf8 r.text))).IsPlain ∧
      (disk.put r.backup (.file (utf8 r.text))).entryAt r.path.parts =
        some (.file (utf8 r.text)) := by
  refine ⟨plain.put (backup_ne_nil r) (h.proper_backup plain) (h.parent_folder plain) h.noFolder, ?_⟩
  rw [Disk.entryAt_put _ _ _ _ (backup_ne_nil r), if_neg (backup_ne_path r h).symm, h.file]

theorem IsReady.isPlain_perform (h : r.IsReady disk) : (perform disk r).IsPlain := by
  obtain ⟨hcopied, hfile⟩ := h.isPlain_copied plain
  refine hcopied.put (h.path_ne_nil plain) (h.isListed.isProper plain).names
    (hcopied.entryAt_dropLast hfile) ?_
  rw [hfile]
  simp

/-- A file stays ready when another is rewritten. -/
theorem IsReady.stays (hr : r.IsReady disk) (hs : s.IsReady disk)
    (hne : s.path.parts ≠ r.path.parts) : s.IsReady (perform disk r) := by
  refine ⟨hs.anchor, hs.supported, ?_, ?_⟩
  · rw [hr.entryAt_perform plain, if_neg hne, if_neg (backup_ne_path r hs).symm, hs.file]
  · rw [hr.entryAt_perform plain, if_neg (backup_ne_path s hr),
      if_neg (hs.backup_ne_backup plain hr hne)]
    exact hs.noFolder

/-- What has become of a disk on which files were rewritten. -/
theorem entryAt_foldl_perform {rs : List Rewrite} (hready : ∀ r ∈ rs, r.IsReady disk)
    (hpaths : (rs.map fun r => r.path.parts).Nodup) :
    (∀ r ∈ rs,
        (rs.foldl Rewrite.perform disk).entryAt r.path.parts = some (.file (utf8 r.outcome.text)) ∧
        (rs.foldl Rewrite.perform disk).entryAt r.backup = some (.file (utf8 r.text))) ∧
      ∀ names, (∀ r ∈ rs, names ≠ r.path.parts ∧ names ≠ r.backup) →
        (rs.foldl Rewrite.perform disk).entryAt names = disk.entryAt names := by
  induction rs generalizing disk with
  | nil => exact ⟨by simp, fun _ _ => rfl⟩
  | cons r rs ih =>
    obtain ⟨hr, hrs⟩ := List.forall_mem_cons.mp hready
    obtain ⟨hfirst, hpaths⟩ := List.nodup_cons.mp hpaths
    have hne : ∀ s ∈ rs, s.path.parts ≠ r.path.parts := fun s hs heq =>
      hfirst (List.mem_map.mpr ⟨s, hs, heq⟩)
    have hentry := hr.entryAt_perform plain
    obtain ⟨hrest, hframe⟩ := ih (hr.isPlain_perform plain)
      (fun s hs => hr.stays plain (hrs s hs) (hne s hs)) hpaths
    rw [List.foldl_cons, List.forall_mem_cons]
    refine ⟨⟨⟨?_, ?_⟩, hrest⟩, fun names hnames => ?_⟩
    · rw [hframe _ fun s hs => ⟨(hne s hs).symm, (backup_ne_path s hr).symm⟩, hentry, if_pos rfl]
    · rw [hframe _ fun s hs => ⟨backup_ne_path r (hrs s hs),
          hr.backup_ne_backup plain (hrs s hs) (hne s hs).symm⟩,
        hentry, if_neg (backup_ne_path r hr), if_pos rfl]
    · obtain ⟨⟨hpath, hbackup⟩, hnames⟩ := List.forall_mem_cons.mp hnames
      rw [hframe names hnames, hentry, if_neg hpath, if_neg hbackup]

end Plain

end Rewrite

section Apply

variable {disk : Disk} {r : Rewrite} {findings : List Finding}

theorem entryAt_folder_writeContent {names : List String} (h : disk.entryAt names = some .folder)
    (p : FilePath) (content : Bytes) (a : Applied) :
    (writeContent diskAccess disk p content a).2.entryAt names = some .folder := by
  simp only [writeContent, diskAccess]
  cases hwrite : disk.write p content with
  | ok disk' => exact Disk.entryAt_folder_of_write hwrite h
  | error e => exact h

theorem entryAt_folder_replaceContent {names : List String} (h : disk.entryAt names = some .folder)
    (p : FilePath) (content : Bytes) (createBackup : Bool) (a : Applied) :
    (replaceContent diskAccess disk p content createBackup a).2.entryAt names = some .folder := by
  unfold replaceContent
  split
  · simp only [diskAccess]
    cases hcopy : disk.copy p (p.extendName backupSuffix) with
    | ok disk' => exact entryAt_folder_writeContent (Disk.entryAt_folder_of_copy hcopy h) _ _ _
    | error e => exact h
  · exact entryAt_folder_writeContent h _ _ _

/-- Whatever is on the disk, folders stay folders when suggestions are applied. -/
theorem entryAt_folder_applySuggestions {names : List String} {disk' : Disk} {p : FilePath}
    {createBackup dryRun : Bool} {a : Applied} (hfolder : disk.entryAt names = some .folder)
    (h : applySuggestions diskAccess disk p findings createBackup dryRun = .ok (a, disk')) :
    disk'.entryAt names = some .folder := by
  unfold applySuggestions at h
  simp only at h
  split at h
  · split at h
    · cases h
      exact hfolder
    · split at h
      · cases h
        exact hfolder
      · next text _ =>
        cases hedits : Edit.applyAll text (firstEdits findings) with
        | error fault =>
          rw [hedits] at h
          cases h
        | ok outcome =>
          simp only [hedits, Except.map, Except.ok.injEq] at h
          split at h
          · cases h
            exact hfolder
          · have hstays := @entryAt_folder_replaceContent _ _ hfolder p (utf8 outcome.text) createBackup
              ⟨outcome.applied, outcome.skipped, none, []⟩
            rwa [h] at hstays
  · cases h
    exact hfolder

/-- However files are reached, a dry run changes nothing. -/
theorem applySuggestions_dryRun {σ : Type} {access : FileAccess σ} {state state' : σ} {p : FilePath}
    {createBackup : Bool} {a : Applied}
    (h : applySuggestions access state p findings createBackup true = .ok (a, state')) :
    state' = state := by
  unfold applySuggestions at h
  simp only at h
  split at h
  · split at h
    · cases h
      rfl
    · split at h
      · cases h
        rfl
      · next text _ =>
        cases hedits : Edit.applyAll text (firstEdits findings) with
        | error fault =>
          rw [hedits] at h
          cases h
        | ok outcome =>
          rw [hedits] at h
          cases h
          rfl
  · cases h
    rfl

variable (plain : disk.IsPlain)

include plain

/-- A file that is ready is rewritten, except in a dry run, which says the same. -/
theorem applySuggestions_eq (hready : r.IsReady disk) (happlied : r.outcome.applied ≠ 0)
    (hedits : Edit.applyAll r.text (firstEdits findings) = .ok r.outcome) (dryRun : Bool) :
    ∃ a : Applied, a.applied = r.outcome.applied ∧ a.errors = [] ∧
      applySuggestions diskAccess disk r.path findings true dryRun =
        .ok (a, if dryRun then disk else r.perform disk) := by
  obtain ⟨⟨anchor, names⟩, text, outcome⟩ := r
  cases hready.anchor
  have hdots := plain.notMem_of_entryAt hready.file
  have hstat := plain.stat_of_entryAt hready.file
  have hread := plain.read_of_entryAt hready.file
  have hentry : disk.hasEntry ⟨.root, names⟩ = true := by
    rw [Disk.hasEntry, hstat]
    rfl
  simp only at hedits happlied
  simp only [applySuggestions, diskAccess, hentry, hread, Except.mapError, decode_utf8, hedits,
    Except.map, if_true]
  cases dryRun with
  | true => exact ⟨_, rfl, rfl, rfl⟩
  | false =>
    obtain ⟨hcopied, hfile⟩ := hready.isPlain_copied plain
    have hcopy := plain.copy_eq hready.file
      (fun hmem => (hready.proper_backup plain _ hmem).notAbove rfl) (hready.parent_folder plain)
      hready.noFolder (Rewrite.backup_ne_path _ hready).symm
    have hwrite : Disk.write _ ⟨.root, names⟩ (utf8 outcome.text) = .ok _ :=
      hcopied.write_eq hdots (hcopied.entryAt_dropLast hfile) (by rw [hfile]; simp)
    have hbackup : FilePath.extendName ⟨.root, names⟩ backupSuffix =
        ⟨.root, Rewrite.backup ⟨⟨.root, names⟩, text, outcome⟩⟩ := rfl
    simp only [happlied, or_false, Bool.false_eq_true, if_false, if_true, replaceContent, hbackup,
      hcopy, writeContent, hwrite]
    exact ⟨_, rfl, rfl, rfl⟩

end Apply

end QueryLint.Project
