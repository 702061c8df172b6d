import QueryLint.Project.Run
import QueryLint.Proofs.Project.Discovery

/-!
# The names of a project's files

A file below the base goes by its path from there, any other by its whole path. Read as a path, the name
of a file ends as the file's path does, and no two files go by the same name.
-/
namespace QueryLint.Project

open QueryLint.Code QueryLint.Files

/-- The path whose text is the name of a file: from the base if the file lies there. -/
def seenFrom (base p : FilePath) : FilePath :=
  match p.below? base with
  | some parts => ⟨.current, parts⟩
  | none => p

theorem nameIn_eq (base p : FilePath) : nameIn base p = (seenFrom base p).toString := by
  unfold nameIn seenFrom
  cases p.below? base <;> rfl

/-- The language of a source depends on the last name of its path only. -/
theorem detect_congr {p q : FilePath} (h : p.name = q.name) :
    Language.detect p = Language.detect q := by
  unfold Language.detect FilePath.suffix
  rw [h]

theorem exists_detect_eq_ok {p : FilePath} (h : isSupported p) :
    ∃ language, Language.detect p = .ok language := by
  rw [isSupported, Language.isSupported] at h
  rw [Language.detect]
  generalize Text.lower p.suffix = suffix at h ⊢
  obtain ⟨language, hlanguage⟩ := Option.isSome_iff_exists.mp h
  exact ⟨language, by rw [hlanguage]⟩

section Listed

variable {disk : Disk} (plain : disk.IsPlain) {base p q : FilePath}

theorem below?_eq_some {parts : List String} (h : p.below? base = some parts) :
    p.anchor = base.anchor ∧ p.parts = base.parts ++ parts := by
  unfold FilePath.below? at h
  split_ifs at h with hcond
  obtain ⟨rest, hrest⟩ := List.isPrefixOf_iff_prefix.mp hcond.2
  cases h
  rw [← hrest, List.drop_left]
  exact ⟨hcond.1, rfl⟩

include plain

theorem IsListed.isProper (h : IsListed disk p) : p.IsProper := by
  obtain ⟨content, hentry⟩ := h.file
  refine ⟨fun hnil => ?_, plain.proper_of_entryAt hentry⟩
  rw [hnil, Disk.entryAt_nil] at hentry
  cases hentry

/-- Seen from a folder, the path of a file is still a path through proper names, with the same end. -/
theorem IsListed.isProper_seenFrom (h : IsListed disk p)
    (hbase : disk.entryAt base.parts = some .folder) :
    (seenFrom base p).IsProper ∧ (seenFrom base p).name = p.name := by
  have hproper := h.isProper plain
  unfold seenFrom
  cases hbelow : p.below? base with
  | none => exact ⟨hproper, rfl⟩
  | some parts =>
    obtain ⟨_, hparts⟩ := below?_eq_some hbelow
    have hne : parts ≠ [] := by
      rintro rfl
      obtain ⟨content, hentry⟩ := h.file
      rw [hparts, List.append_nil, hbase] at hentry
      cases hentry
    refine ⟨⟨hne, fun name hname => hproper.names name ?_⟩, ?_⟩
    · rw [hparts]
      exact List.mem_append_right _ hname
    · simp only [FilePath.name, hparts, List.getLast?_append_of_ne_nil _ hne]

/-- A name leads to the language of the file. -/
theorem IsListed.detect_nameIn (h : IsListed disk p)
    (hbase : disk.entryAt base.parts = some .folder) :
    Language.detect (.ofString (nameIn base p)) = Language.detect p := by
  obtain ⟨hproper, hname⟩ := h.isProper_seenFrom plain hbase
  rw [nameIn_eq, hproper.ofString_toString]
  exact detect_congr hname

/-- A name leads from the base to the file. -/
theorem IsListed.join_nameIn (h : IsListed disk p) (hanchor : base.anchor = .root)
    (hbase : disk.entryAt base.parts = some .folder) : base.join (.ofString (nameIn base p)) = p := by
  rw [nameIn_eq, (h.isProper_seenFrom plain hbase).1.ofString_toString]
  unfold seenFrom
  cases hbelow : p.below? base with
  | none =>
    have habsolute : p.isAbsolute = true := by
      rw [FilePath.isAbsolute, h.anchor]
      rfl
    rw [FilePath.join, if_pos habsolute]
  | some parts =>
    obtain ⟨panchor, pparts⟩ := p
    obtain ⟨banchor, bparts⟩ := base
    cases h.anchor
    cases hanchor
    exact congrArg (FilePath.mk .root) (below?_eq_some hbelow).2.symm

/-- Different files go by different names. -/
theorem IsListed.eq_of_nameIn_eq (hp : IsListed disk p) (hq : IsListed disk q)
    (hbase : disk.entryAt base.parts = some .folder)
    (h : nameIn base p = nameIn base q) : p = q := by
  have hseen : seenFrom base p = seenFrom base q := by
    rw [nameIn_eq, nameIn_eq] at h
    exact (hp.isProper_seenFrom plain hbase).1.eq_of_toString_eq
      (hq.isProper_seenFrom plain hbase).1 h
  obtain ⟨panchor, pparts⟩ := p
  obtain ⟨qanchor, qparts⟩ := q
  cases hp.anchor
  cases hq.anchor
  unfold seenFrom at hseen
  cases hpbelow : FilePath.below? ⟨.root, pparts⟩ base with
  | none =>
    cases hqbelow : FilePath.below? ⟨.root, qparts⟩ base with
    | none =>
      rw [hpbelow, hqbelow] at hseen
      exact hseen
    | some parts =>
      rw [hpbelow, hqbelow] at hseen
      cases hseen
  | some parts =>
    cases hqbelow : FilePath.below? ⟨.root, qparts⟩ base with
    | none =>
      rw [hpbelow, hqbelow] at hseen
      cases hseen
    | some parts' =>
      rw [hpbelow, hqbelow] at hseen
      cases hseen
      rw [FilePath.mk.injEq]
      exact ⟨rfl, (below?_eq_some hpbelow).2.trans (below?_eq_some hqbelow).2.symm⟩

end Listed

end QueryLint.Project
