import Mathlib.Data.List.Induction
import QueryLint.Files.Disk
import QueryLint.Proofs.Files.FilePath
import QueryLint.Proofs.Related

/-!
# Disks without links

On a disk that holds no links a path leads to one place only: its names from the root, where each double
dot takes back the name before it. What is found there, and where something is put, is told by these
names alone.
-/
namespace QueryLint.Files.Disk

/-- A disk without links, where everything has a proper name and lies in a folder, and where the
folder that relative paths start from is there. -/
structure IsPlain (disk : Disk) : Prop where
  noLinks : ∀ e ∈ disk.entries, ∀ target, e.2 ≠ .link target
  names : ∀ e ∈ disk.entries, ∀ name ∈ e.1, IsProperName name
  folders : ∀ e ∈ disk.entries, disk.entryAt e.1.dropLast = some .folder
  current : disk.entryAt disk.current = some .folder

/-- The folder or file that names lead to from a folder, where nothing is a link. -/
def reach (here names : List String) : List String :=
  names.foldl (fun kept name => if name = ".." then kept.dropLast else kept ++ [name]) here

section Reach

variable {here names : List String}

theorem reach_eq_append (h : ".." ∉ names) : reach here names = here ++ names := by
  induction names generalizing here with
  | nil => rw [List.append_nil]; rfl
  | cons name names ih =>
    rw [List.mem_cons, not_or] at h
    rw [reach, List.foldl_cons, if_neg (Ne.symm h.1), ← reach, ih h.2, List.append_assoc,
      List.singleton_append]

theorem notMem_reach (hhere : ".." ∉ here) : ".." ∉ reach here names := by
  induction names generalizing here with
  | nil => exact hhere
  | cons name names ih =>
    rw [reach, List.foldl_cons, ← reach]
    refine ih ?_
    split
    · exact fun h => hhere (List.dropLast_subset _ h)
    · next hname => simp [hhere, Ne.symm hname]

theorem normalize_eq (h : ".." ∉ names) : normalize names = names :=
  (reach_eq_append h : reach [] names = [] ++ names)

end Reach

variable {disk : Disk}

theorem mem_of_entryAt {names : List String} {entry : Entry} (hne : names ≠ [])
    (h : disk.entryAt names = some entry) : (names, entry) ∈ disk.entries := by
  rw [entryAt, if_neg (by simpa using hne)] at h
  exact mem_of_lookup_eq_some h

theorem entryAt_nil : disk.entryAt [] = some .folder := rfl

namespace IsPlain

variable (plain : disk.IsPlain)

include plain

theorem entryAt_ne_link {names : List String} {target : FilePath} :
    disk.entryAt names ≠ some (.link target) := by
  intro h
  by_cases hne : names = []
  · rw [hne, entryAt_nil] at h
    cases h
  · exact plain.noLinks _ (mem_of_entryAt hne h) target rfl

theorem proper_of_entryAt {names : List String} {entry : Entry}
    (h : disk.entryAt names = some entry) : ∀ name ∈ names, IsProperName name := by
  by_cases hne : names = []
  · simp [hne]
  · exact plain.names _ (mem_of_entryAt hne h)

theorem notMem_of_entryAt {names : List String} {entry : Entry}
    (h : disk.entryAt names = some entry) : ".." ∉ names :=
  fun hdots => (plain.proper_of_entryAt h _ hdots).notAbove rfl

theorem entryAt_dropLast {names : List String} {entry : Entry}
    (h : disk.entryAt names = some entry) : disk.entryAt names.dropLast = some .folder := by
  by_cases hne : names = []
  · rw [hne]
    rfl
  · exact plain.folders _ (mem_of_entryAt hne h)

/-- Whatever is there lies in folders. -/
theorem entryAt_of_append {front back : List String} {entry : Entry} (hback : back ≠ [])
    (h : disk.entryAt (front ++ back) = some entry) : disk.entryAt front = some .folder := by
  induction back using List.reverseRecOn generalizing entry with
  | nil => exact absurd rfl hback
  | append_singleton back name ih =>
    have hparent := plain.entryAt_dropLast h
    rw [← List.append_assoc, List.dropLast_concat] at hparent
    by_cases hnil : back = []
    · rwa [hnil, List.append_nil] at hparent
    · exact ih hnil hparent

/-- Where a path leads, it leads to what stands at its names. -/
theorem eq_of_follow {links : Nat} {here names : List String} {spot : Spot}
    (h : disk.follow links here names = .ok spot) :
    spot = ⟨reach here names, disk.entryAt (reach here names)⟩ := by
  induction names generalizing here with
  | nil =>
    rw [follow] at h
    cases h
    rfl
  | cons name names ih =>
    rw [follow] at h
    rw [reach, List.foldl_cons, ← reach]
    by_cases hdots : name = ".."
    · rw [if_pos hdots] at h ⊢
      exact ih h
    · rw [if_neg hdots] at h ⊢
      cases hentry : disk.entryAt (here ++ [name]) with
      | none =>
        simp only [hentry] at h
        split_ifs at h with hrest
        cases h
        rw [List.isEmpty_iff.mp hrest]
        exact congrArg _ hentry.symm
      | some entry =>
        cases entry with
        | folder =>
          simp only [hentry] at h
          exact ih h
        | file content =>
          simp only [hentry] at h
          split_ifs at h with hrest
          cases h
          rw [List.isEmpty_iff.mp hrest]
          exact congrArg _ hentry.symm
        | link target => exact absurd hentry plain.entryAt_ne_link

theorem follow_ne_tooManyLinks (links : Nat) (here names : List String) :
    disk.follow links here names ≠ .error .tooManyLinks := by
  induction names generalizing here with
  | nil =>
    rw [follow]
    simp
  | cons name names ih =>
    rw [follow]
    by_cases hdots : name = ".."
    · rw [if_pos hdots]
      exact ih _
    · rw [if_neg hdots]
      split
      · exact ih _
      · split_ifs <;> simp
      · split_ifs <;> simp
      · next target hentry => exact absurd hentry plain.entryAt_ne_link

/-- In a folder that is there, a name leads to what stands there, or to where it is missing. -/
theorem follow_eq {links : Nat} {here names : List String} (hdots : ".." ∉ names)
    (hfolder : names ≠ [] → disk.entryAt (here ++ names.dropLast) = some .folder) :
    disk.follow links here names = .ok ⟨here ++ names, disk.entryAt (here ++ names)⟩ := by
  induction names generalizing here with
  | nil => rw [follow, List.append_nil]
  | cons name names ih =>
    rw [List.mem_cons, not_or] at hdots
    rw [follow, if_neg (Ne.symm hdots.1)]
    by_cases hrest : names = []
    · subst hrest
      cases hentry : disk.entryAt (here ++ [name]) with
      | none => rfl
      | some entry =>
        cases entry with
        | folder => simp only [follow, hentry]
        | file content => rfl
        | link target => exact absurd hentry plain.entryAt_ne_link
    · have hlast : here ++ (name :: names).dropLast = here ++ [name] ++ names.dropLast := by
        rw [List.dropLast_cons_of_ne_nil hrest, List.append_assoc, List.singleton_append]
      have hparent := hlast ▸ hfolder (List.cons_ne_nil _ _)
      have hhere : disk.entryAt (here ++ [name]) = some .folder := by
        by_cases hdrop : names.dropLast = []
        · rwa [hdrop, List.append_nil] at hparent
        · exact plain.entryAt_of_append hdrop hparent
      simp only [hhere]
      rw [ih hdots.2 fun _ => hparent, List.append_assoc, List.singleton_append]

theorem unlink_eq {depth : Nat} {active : List (List String)} {here names : List String} :
    disk.unlink depth active here names = (reach here names, true) := by
  induction names generalizing here with
  | nil =>
    rw [unlink]
    rfl
  | cons name names ih =>
    rw [unlink, reach, List.foldl_cons, ← reach]
    split_ifs with hdots
    · exact ih
    · simp only
      split
      · next target hentry => exact absurd hentry plain.entryAt_ne_link
      · exact ih

theorem locate_root {names : List String} (hdots : ".." ∉ names)
    (hfolder : disk.entryAt names.dropLast = some .folder) :
    disk.locate ⟨.root, names⟩ = .ok ⟨names, disk.entryAt names⟩ := by
  have hfollow : disk.follow linkLimit [] names = .ok ⟨[] ++ names, disk.entryAt ([] ++ names)⟩ :=
    plain.follow_eq hdots fun _ => hfolder
  exact hfollow

theorem stat_eq_ok_iff {names : List String} (hdots : ".." ∉ names) {entry : Entry} :
    disk.stat ⟨.root, names⟩ = .ok entry ↔ disk.entryAt names = some entry := by
  constructor
  · intro h
    unfold stat at h
    split at h
    · next reached found hspot =>
      have hwhere := plain.eq_of_follow hspot
      rw [reach_eq_append hdots, Spot.mk.injEq] at hwhere
      rw [Except.ok.injEq] at h
      rw [← h]
      exact hwhere.2.symm
    · cases h
    · cases h
  · intro h
    rw [stat, plain.locate_root hdots (plain.entryAt_dropLast h), h]

theorem stat_of_entryAt {names : List String} {entry : Entry} (h : disk.entryAt names = some entry) :
    disk.stat ⟨.root, names⟩ = .ok entry :=
  (plain.stat_eq_ok_iff (plain.notMem_of_entryAt h)).mpr h

/-- What is listed of a folder are the names directly below it. -/
theorem list_eq {names : List String} (h : disk.entryAt names = some .folder) :
    disk.list ⟨.root, names⟩ = disk.namesIn names := by
  rw [list, plain.locate_root (plain.notMem_of_entryAt h) (plain.entryAt_dropLast h), h]

theorem origin_eq_folder (p : FilePath) : disk.entryAt (disk.origin p) = some .folder := by
  unfold origin
  split
  · rfl
  · exact plain.current

/-- A double dot leads to a folder. -/
theorem entry_of_follow_dots {links : Nat} {here names : List String} {spot : Spot}
    (hhere : disk.entryAt here = some .folder)
    (h : disk.follow links here (names ++ [".."]) = .ok spot) : spot.entry = some .folder := by
  induction names generalizing here with
  | nil =>
    rw [List.nil_append, follow, if_pos rfl, follow] at h
    cases h
    exact plain.entryAt_dropLast hhere
  | cons name names ih =>
    rw [List.cons_append, follow] at h
    by_cases hdots : name = ".."
    · rw [if_pos hdots] at h
      exact ih (plain.entryAt_dropLast hhere) h
    · rw [if_neg hdots] at h
      split at h
      · next hfolder => exact ih hfolder h
      · simp at h
      · simp at h
      · next hlink => exact absurd hlink plain.entryAt_ne_link

theorem stat_ne_tooManyLinks {p : FilePath} : disk.stat p ≠ .error .tooManyLinks := by
  have hfollow := plain.follow_ne_tooManyLinks linkLimit (disk.origin p) p.parts
  unfold stat locate
  split
  · simp
  · simp
  · next herror => exact fun h => hfollow (herror.trans (congrArg _ (Except.error.inj h)))

/-- Every path resolves to the names it leads to. -/
theorem resolve_eq (p : FilePath) : disk.resolve p = .ok ⟨.root, reach (disk.origin p) p.parts⟩ := by
  have hdots : ".." ∉ reach (disk.origin p) p.parts :=
    notMem_reach (plain.notMem_of_entryAt (plain.origin_eq_folder p))
  simp only [resolve, plain.unlink_eq, normalize_eq hdots]
  split
  · next hloop => exact absurd hloop plain.stat_ne_tooManyLinks
  · rfl

theorem resolve_root {names : List String} (hdots : ".." ∉ names) :
    disk.resolve ⟨.root, names⟩ = .ok ⟨.root, names⟩ := by
  rw [plain.resolve_eq, reach_eq_append hdots]
  rfl

/-- Where there is a file, its path resolves to the names of the file, the last of which is the
name of the path. -/
theorem resolve_of_file {p : FilePath} {content : Text.Bytes}
    (h : disk.stat p = .ok (.file content)) :
    ∃ names, disk.resolve p = .ok ⟨.root, names⟩ ∧ disk.entryAt names = some (.file content) ∧
      (p.parts ≠ [] → names.getLast? = p.parts.getLast?) := by
  obtain ⟨spot, hspot, hentry⟩ :
      ∃ spot, disk.locate p = .ok spot ∧ spot.entry = some (.file content) := by
    unfold stat at h
    split at h
    · next hspot => exact ⟨_, hspot, congrArg some (Except.ok.inj h)⟩
    · cases h
    · cases h
  refine ⟨reach (disk.origin p) p.parts, plain.resolve_eq p, ?_, fun hparts => ?_⟩
  · rw [plain.eq_of_follow hspot] at hentry
    exact hentry
  · have hlast : p.parts.getLast hparts ≠ ".." := by
      intro hdots
      rw [locate, ← List.dropLast_concat_getLast hparts, hdots] at hspot
      rw [plain.entry_of_follow_dots (plain.origin_eq_folder p) hspot] at hentry
      cases hentry
    rw [reach, ← List.dropLast_concat_getLast hparts, List.foldl_append, List.foldl_cons,
      List.foldl_nil, if_neg hlast, List.getLast?_concat, List.getLast?_concat]

theorem read_eq_ok_iff {names : List String} (hdots : ".." ∉ names) {content : Text.Bytes} :
    disk.read ⟨.root, names⟩ = .ok content ↔ disk.entryAt names = some (.file content) := by
  rw [← plain.stat_eq_ok_iff hdots, read]
  constructor
  · intro h
    split at h
    · next hstat => rw [hstat, Except.ok.inj h]
    · cases h
    · cases h
  · intro h
    rw [h]

theorem read_of_entryAt {names : List String} {content : Text.Bytes}
    (h : disk.entryAt names = some (.file content)) : disk.read ⟨.root, names⟩ = .ok content :=
  (plain.read_eq_ok_iff (plain.notMem_of_entryAt h)).mpr h

end IsPlain

end QueryLint.Files.Disk
