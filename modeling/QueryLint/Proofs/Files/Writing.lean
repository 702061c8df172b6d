import QueryLint.Proofs.Files.Plain

/-!
# Writing to a disk

A file is written over a file or where there was nothing, so that folders stay folders, whatever is on
the disk. On a disk without links a file is written at the names of its path, and the disk is still
without links.
-/
namespace QueryLint.Files.Disk

open QueryLint.Text

variable {disk disk' : Disk} {names : List String} {content : Bytes}

/-- What is found at the end of a path is what stands at the names it leads to. -/
theorem entry_of_follow {links : Nat} {here names : List String} {spot : Spot}
    (h : disk.follow links here names = .ok spot) : spot.entry = disk.entryAt spot.names := by
  fun_induction follow disk links here names with
  | case1 => cases h; rfl
  | case2 _ _ _ ih => exact ih h
  | case3 _ _ _ _ _ _ ih => exact ih h
  | case4 => cases h; exact Eq.symm ‹_›
  | case5 => cases h
  | case6 => cases h; exact Eq.symm ‹_›
  | case7 => cases h
  | case8 => cases h
  | case9 _ _ _ _ _ _ _ ih => exact ih h

/-- Folders stay folders when a file is written. -/
theorem entryAt_folder_of_write {p : FilePath} (h : disk.write p content = .ok disk')
    (hfolder : disk.entryAt names = some .folder) : disk'.entryAt names = some .folder := by
  unfold write at h
  split at h
  · cases h
  · next reached entry hnot hspot =>
    cases h
    have hentry : entry = disk.entryAt reached := entry_of_follow hspot
    have hreached : disk.entryAt reached ≠ some .folder := fun heq => hnot (hentry.trans heq)
    have hne : reached ≠ [] := by
      rintro rfl
      exact hreached entryAt_nil
    rw [entryAt_put _ _ _ _ hne, if_neg, hfolder]
    rintro rfl
    exact hreached hfolder
  · cases h

theorem entryAt_folder_of_copy {p q : FilePath} (h : disk.copy p q = .ok disk')
    (hfolder : disk.entryAt names = some .folder) : disk'.entryAt names = some .folder := by
  unfold copy at h
  simp only at h
  generalize (if disk.isFolder q then q.child p.name else q) = target at h
  split_ifs at h
  split at h
  · cases h
  · split at h
    · next hwritten =>
      cases h
      exact entryAt_folder_of_write hwritten hfolder
    · cases h

namespace IsPlain

variable (plain : disk.IsPlain)

include plain

/-- The disk with a file more, or with another content in a file. -/
theorem put (hne : names ≠ []) (hproper : ∀ name ∈ names, IsProperName name)
    (hparent : disk.entryAt names.dropLast = some .folder)
    (hnot : disk.entryAt names ≠ some .folder) : (disk.put names (.file content)).IsPlain := by
  have hstays : ∀ others, disk.entryAt others = some .folder →
      (disk.put names (.file content)).entryAt others = some .folder := by
    intro others hothers
    rw [entryAt_put _ _ _ _ hne, if_neg, hothers]
    rintro rfl
    exact hnot hothers
  have hentries : ∀ e ∈ (disk.put names (.file content)).entries,
      e = (names, .file content) ∨ e ∈ disk.entries := by
    intro e he
    rcases List.mem_cons.mp he with he | he
    · exact .inl he
    · exact .inr (List.mem_filter.mp he).1
  refine ⟨fun e he target => ?_, fun e he => ?_, fun e he => ?_, hstays _ plain.current⟩
  · rcases hentries e he with rfl | he
    · simp
    · exact plain.noLinks e he target
  · rcases hentries e he with rfl | he
    · exact hproper
    · exact plain.names e he
  · rcases hentries e he with rfl | he
    · exact hstays _ hparent
    · exact hstays _ (plain.folders e he)

theorem write_eq (hdots : ".." ∉ names) (hparent : disk.entryAt names.dropLast = some .folder)
    (hnot : disk.entryAt names ≠ some .folder) :
    disk.write ⟨.root, names⟩ content = .ok (disk.put names (.file content)) := by
  rw [write, plain.locate_root hdots hparent]
  split
  · next hspot => exact absurd (congrArg Spot.entry (Except.ok.inj hspot)) hnot
  · next hspot =>
    cases hspot
    rfl
  · next hspot => cases hspot

/-- A file is copied to where there is no folder. -/
theorem copy_eq {target : List String} (hfile : disk.entryAt names = some (.file content))
    (hdots : ".." ∉ target) (hparent : disk.entryAt target.dropLast = some .folder)
    (hnot : disk.entryAt target ≠ some .folder) (hne : names ≠ target) :
    disk.copy ⟨.root, names⟩ ⟨.root, target⟩ = .ok (disk.put target (.file content)) := by
  have hfolder : disk.isFolder ⟨.root, target⟩ = false := by
    rw [isFolder]
    split
    · next hstat => exact absurd ((plain.stat_eq_ok_iff hdots).mp hstat) hnot
    · rfl
  have hsource := plain.notMem_of_entryAt hfile
  have hsame : disk.sameEntry ⟨.root, names⟩ ⟨.root, target⟩ = false := by
    rw [sameEntry, plain.locate_root hsource (plain.entryAt_dropLast hfile),
      plain.locate_root hdots hparent]
    split
    · next hspot hspot' =>
      have hfrom := congrArg Spot.names (Except.ok.inj hspot)
      have hto := congrArg Spot.names (Except.ok.inj hspot')
      simp only at hfrom hto
      rw [← hfrom, ← hto]
      exact beq_eq_false_iff_ne.mpr hne
    · rfl
  have hread := (plain.read_eq_ok_iff hsource).mpr hfile
  simp only [copy, hfolder, hsame, hread, plain.write_eq hdots hparent hnot, Bool.false_eq_true,
    if_false]

end IsPlain

end QueryLint.Files.Disk
