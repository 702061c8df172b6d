import QueryLint.Proofs.Files.Writing

/-!
# Disks with links

Links make several paths lead to one place, so whether writing to one path is seen at another is not told
by the paths. It is told by the names that they lead to: a walk goes through folders and links, and where a
file is written there was neither. So a walk leads to the same names as before, whatever is written, and
meets the new content only if it ends where the file is.

What is asked of a disk is no more than that the folder relative paths start from is there, with the
folders above it.
-/
namespace QueryLint.Files.Disk

open QueryLint.Text

variable {disk disk' : Disk} {p q : FilePath} {content : Bytes}

/-- Whether there is a folder at the end of some names, and at every place on the way there. -/
def IsRooted (disk : Disk) (here : List String) : Prop :=
  ∀ above, above <+: here → disk.entryAt above = some .folder

/-- A disk where the folder that relative paths start from is there. -/
def IsGrounded (disk : Disk) : Prop := disk.IsRooted disk.current

section Rooted

variable {here : List String} {name : String}

theorem isRooted_nil : disk.IsRooted [] := by
  intro above h
  rw [List.prefix_nil.mp h]
  rfl

theorem IsRooted.dropLast (h : disk.IsRooted here) : disk.IsRooted here.dropLast :=
  fun above habove => h above (habove.trans (List.dropLast_prefix here))

theorem IsRooted.child (h : disk.IsRooted here)
    (hfolder : disk.entryAt (here ++ [name]) = some .folder) : disk.IsRooted (here ++ [name]) := by
  intro above habove
  cases List.prefix_concat_iff.mp habove with
  | inl heq => rwa [heq]
  | inr hin => exact h above hin

/-- Where a link leads to is looked for from a folder that is there. -/
theorem IsRooted.target (h : disk.IsRooted here) (absolute : Bool) :
    disk.IsRooted (if absolute then [] else here) := by
  cases absolute with
  | true => exact isRooted_nil
  | false => exact h

theorem IsGrounded.origin (h : disk.IsGrounded) (p : FilePath) : disk.IsRooted (disk.origin p) :=
  h.target p.isAbsolute

end Rooted

/-- A walk does not end at a link. -/
theorem entry_ne_link_of_follow {links : Nat} {here names : List String} {spot : Spot}
    (hrooted : disk.IsRooted here) (h : disk.follow links here names = .ok spot)
    (target : FilePath) : spot.entry ≠ some (.link target) := by
  fun_induction follow disk links here names with
  | case1 =>
    cases h
    rw [hrooted _ List.prefix_rfl]
    intro hlink
    cases hlink
  | case2 _ _ _ ih => exact ih hrooted.dropLast h
  | case3 _ _ _ _ _ hfolder ih => exact ih (hrooted.child hfolder) h
  | case4 =>
    cases h
    intro hlink
    cases hlink
  | case5 => cases h
  | case6 =>
    cases h
    intro hlink
    cases hlink
  | case7 => cases h
  | case8 => cases h
  | case9 _ _ _ _ _ _ _ ih => exact ih (hrooted.target _) h

/-- A walk ends at the last name, if there is a file or nothing. -/
theorem follow_last {links : Nat} {here rest : List String} {name : String} (hdots : name ≠ "..")
    (hrest : rest.isEmpty)
    (hend : ∀ entry, disk.entryAt (here ++ [name]) = some entry → ∃ content, entry = .file content) :
    disk.follow links here (name :: rest) =
      .ok ⟨here ++ [name], disk.entryAt (here ++ [name])⟩ := by
  rw [follow, if_neg hdots]
  cases hentry : disk.entryAt (here ++ [name]) with
  | none => simp only [hrest, if_true]
  | some entry =>
    obtain ⟨content, rfl⟩ := hend entry hentry
    simp only [hrest, if_true]

theorem follow_to_file {links : Nat} {here : List String} {name : String} {content : Bytes}
    (hdots : name ≠ "..") (hfile : disk.entryAt (here ++ [name]) = some (.file content)) :
    disk.follow links here [name] = .ok ⟨here ++ [name], some (.file content)⟩ := by
  rw [follow_last hdots rfl fun entry h => ⟨content, Option.some.inj (h.symm.trans hfile)⟩, hfile]

/-- A walk goes on where a link leads to, as long as links are followed. -/
theorem follow_link {links : Nat} {here rest : List String} {name : String} {target : FilePath}
    (hdots : name ≠ "..") (hlink : disk.entryAt (here ++ [name]) = some (.link target)) :
    disk.follow (links + 1) here (name :: rest) =
      disk.follow links (if target.isAbsolute then [] else here) (target.parts ++ rest) := by
  rw [follow, if_neg hdots, hlink]

/-- A walk fails before the last name, if there is nothing. -/
theorem follow_missing {links : Nat} {here rest : List String} {name : String} (hdots : name ≠ "..")
    (hrest : rest.isEmpty = false) (hmissing : disk.entryAt (here ++ [name]) = none) :
    disk.follow links here (name :: rest) = .error .notFound := by
  rw [follow, if_neg hdots, hmissing, hrest]
  rfl

/-- The disk with a content where there is neither a folder nor a link leads to the same names as before.
The content is met by the walks that end there. -/
theorem follow_put {links : Nat} {here names file : List String} {spot : Spot}
    (hrooted : disk.IsRooted here) (hfolder : disk.entryAt file ≠ some .folder)
    (hlink : ∀ target, disk.entryAt file ≠ some (.link target))
    (h : disk.follow links here names = .ok spot) :
    (disk.put file (.file content)).follow links here names =
      .ok ⟨spot.names, if spot.names = file then some (.file content) else spot.entry⟩ := by
  have hne : file ≠ [] := by
    intro heq
    rw [heq] at hfolder
    exact hfolder entryAt_nil
  have hput := fun others => entryAt_put disk file others (.file content) hne
  fun_induction follow disk links here names with
  | case1 _ here =>
    cases h
    rw [follow, hput]
  | case2 _ _ _ ih =>
    rw [follow, if_pos rfl]
    exact ih hrooted.dropLast h
  | case3 _ here name rest hdots hentry ih =>
    have hother : here ++ [name] ≠ file := by
      intro heq
      rw [heq] at hentry
      exact hfolder hentry
    rw [follow, if_neg hdots, hput, if_neg hother, hentry]
    exact ih (hrooted.child hentry) h
  | case4 _ here name rest hdots old hentry hrest =>
    cases h
    have hend : ∀ entry, (disk.put file (.file content)).entryAt (here ++ [name]) = some entry →
        ∃ content, entry = .file content := by
      rw [hput, hentry]
      split_ifs <;> simp
    rw [follow_last hdots hrest hend, hput, hentry]
  | case5 => cases h
  | case6 _ here name rest hdots hentry hrest =>
    cases h
    have hend : ∀ entry, (disk.put file (.file content)).entryAt (here ++ [name]) = some entry →
        ∃ content, entry = .file content := by
      rw [hput, hentry]
      split_ifs <;> simp
    rw [follow_last hdots hrest hend, hput, hentry]
  | case7 => cases h
  | case8 => cases h
  | case9 here name rest hdots target hentry links ih =>
    have hother : here ++ [name] ≠ file := by
      intro heq
      rw [heq] at hentry
      exact hlink target hentry
    rw [follow, if_neg hdots, hput, if_neg hother, hentry]
    exact ih (hrooted.target _) h

/-! ### Reading what was written -/

theorem read_eq_ok_iff : disk.read p = .ok content ↔
    ∃ names, disk.locate p = .ok ⟨names, some (.file content)⟩ := by
  unfold read stat
  constructor
  · intro h
    split at h
    · next hstat =>
      cases h
      split at hstat
      · next hspot =>
        cases hstat
        exact ⟨_, hspot⟩
      · cases hstat
      · cases hstat
    · cases h
    · cases h
  · intro h
    obtain ⟨names, hspot⟩ := h
    rw [hspot]

/-- Where a file was written, there was no folder, and the content is there now. -/
theorem exists_of_write (h : disk.write p content = .ok disk') :
    ∃ spot, disk.locate p = .ok spot ∧ spot.entry ≠ some .folder ∧
      disk' = disk.put spot.names (.file content) := by
  unfold write at h
  split at h
  · cases h
  · next names entry hnot hspot =>
    cases h
    exact ⟨⟨names, entry⟩, hspot, hnot, rfl⟩
  · cases h

section Grounded

variable (grounded : disk.IsGrounded)

include grounded

/-- After a file is written every path leads to the same names, and to the content if these are the names
of the file. -/
theorem locate_of_write (h : disk.write p content = .ok disk') {written spot : Spot}
    (hwritten : disk.locate p = .ok written) (hspot : disk.locate q = .ok spot) :
    disk'.locate q = .ok ⟨spot.names,
      if spot.names = written.names then some (.file content) else spot.entry⟩ := by
  obtain ⟨other, hother, hnot, rfl⟩ := exists_of_write h
  cases hwritten.symm.trans hother
  have hentry : written.entry = disk.entryAt written.names := entry_of_follow hwritten
  rw [hentry] at hnot
  have hlink : ∀ target, disk.entryAt written.names ≠ some (.link target) := by
    intro target
    rw [← hentry]
    exact entry_ne_link_of_follow (grounded.origin p) hwritten target
  exact follow_put (grounded.origin q) hnot hlink hspot

theorem isGrounded_of_write (h : disk.write p content = .ok disk') : disk'.IsGrounded := by
  have hcurrent : disk'.current = disk.current := by
    obtain ⟨_, _, _, rfl⟩ := exists_of_write h
    rfl
  intro above habove
  rw [hcurrent] at habove
  exact entryAt_folder_of_write h (grounded above habove)

/-- What is written to a path is read from it. -/
theorem read_of_write (h : disk.write p content = .ok disk') : disk'.read p = .ok content := by
  obtain ⟨spot, hspot, _, _⟩ := exists_of_write h
  have hlocate := locate_of_write grounded h hspot hspot
  rw [if_pos rfl] at hlocate
  exact read_eq_ok_iff.mpr ⟨spot.names, hlocate⟩

/-- A file that stands elsewhere is read as before. -/
theorem locate_file_of_write (h : disk.write p content = .ok disk') {written : Spot}
    {names : List String} {old : Bytes} (hwritten : disk.locate p = .ok written)
    (hfile : disk.locate q = .ok ⟨names, some (.file old)⟩) (hne : names ≠ written.names) :
    disk'.locate q = .ok ⟨names, some (.file old)⟩ := by
  have hlocate := locate_of_write grounded h hwritten hfile
  rwa [if_neg hne] at hlocate

end Grounded

/-! ### Copies -/

/-- The path that a file is copied to: another one, or its own name in a folder. -/
def IsCopyPath (p q kept : FilePath) : Prop := kept = q ∨ kept = q.child p.name

/-- A copy is written under other names than those of the file. -/
theorem exists_of_copy (h : disk.copy p q = .ok disk') :
    ∃ content kept names, ∃ spot : Spot, IsCopyPath p q kept ∧
      disk.locate p = .ok ⟨names, some (.file content)⟩ ∧ disk.locate kept = .ok spot ∧
      names ≠ spot.names ∧ disk.write kept content = .ok disk' := by
  unfold copy at h
  simp only at h
  have hpath : IsCopyPath p q (if disk.isFolder q then q.child p.name else q) := by
    split
    · exact .inr rfl
    · exact .inl rfl
  generalize (if disk.isFolder q then q.child p.name else q) = kept at h hpath
  split_ifs at h with hsame
  cases hread : disk.read p with
  | error e =>
    rw [hread] at h
    cases h
  | ok content =>
    cases hwrite : disk.write kept content with
    | error e =>
      simp only [hread, hwrite] at h
      cases h
    | ok copied =>
      simp only [hread, hwrite] at h
      cases h
      obtain ⟨names, hfile⟩ := read_eq_ok_iff.mp hread
      obtain ⟨spot, hspot, _, _⟩ := exists_of_write hwrite
      refine ⟨content, kept, names, spot, hpath, hfile, hspot, ?_, hwrite⟩
      intro heq
      -- something stands under the names of the file, so the copy would be the file itself
      have hentry : spot.entry = some (.file content) :=
        (entry_of_follow hspot).trans (heq ▸ (entry_of_follow hfile).symm)
      obtain ⟨reached, entry⟩ := spot
      cases hentry
      cases heq
      apply hsame
      rw [sameEntry, hfile, hspot]
      exact beq_self_eq_true _

/-- A file is copied to where there is nothing. -/
theorem copy_to_missing {names others : List String}
    (hfile : disk.locate p = .ok ⟨names, some (.file content)⟩)
    (hmissing : disk.locate q = .ok ⟨others, none⟩) :
    disk.copy p q = .ok (disk.put others (.file content)) := by
  have hfolder : disk.isFolder q = false := by rw [isFolder, stat, hmissing]
  have hsame : disk.sameEntry p q = false := by rw [sameEntry, hfile, hmissing]
  have hread : disk.read p = .ok content := read_eq_ok_iff.mpr ⟨_, hfile⟩
  have hwrite : disk.write q content = .ok (disk.put others (.file content)) := by
    rw [write, hmissing]
  simp only [copy, hfolder, hsame, hread, hwrite, Bool.false_eq_true, if_false]

/-- A copy holds what the file holds, leaves the file as it is, and stays as it is when the file is written
afterwards. -/
theorem read_of_copy (grounded : disk.IsGrounded) (h : disk.copy p q = .ok disk') :
    disk'.IsGrounded ∧ ∃ content kept, IsCopyPath p q kept ∧ disk.read p = .ok content ∧
      disk'.read p = .ok content ∧ disk'.read kept = .ok content ∧
      ∀ later final, disk'.write p later = .ok final → final.read kept = .ok content := by
  obtain ⟨content, kept, names, spot, hpath, hfile, hspot, hne, hwrite⟩ := exists_of_copy h
  have grounded' := isGrounded_of_write grounded hwrite
  have hfile' := locate_file_of_write grounded hwrite hspot hfile hne
  have hkept := locate_of_write grounded hwrite hspot hspot
  rw [if_pos rfl] at hkept
  refine ⟨grounded', content, kept, hpath, read_eq_ok_iff.mpr ⟨_, hfile⟩,
    read_eq_ok_iff.mpr ⟨_, hfile'⟩, read_eq_ok_iff.mpr ⟨_, hkept⟩, fun later final hlater => ?_⟩
  have hstays := locate_file_of_write grounded' hlater hfile' hkept (Ne.symm hne)
  exact read_eq_ok_iff.mpr ⟨_, hstays⟩

end QueryLint.Files.Disk
