import Mathlib.Data.List.Nodup
import QueryLint.Lint.Config
import QueryLint.Project.Discovery
import QueryLint.Proofs.Files.Plain
import QueryLint.Proofs.Related

/-!
# The files of a project

On a disk without links each file that is listed is given by its own names from the root of the disk, it
is there and in a known language, and it is listed once.
-/
namespace QueryLint.Project

open QueryLint.Code QueryLint.Data QueryLint.Files QueryLint.Lint

/-- A path by which a file is listed. -/
structure IsListed (disk : Disk) (p : FilePath) : Prop where
  anchor : p.anchor = .root
  file : ∃ content, disk.entryAt p.parts = some (.file content)
  supported : isSupported p

/-- A size limit, if there is one, as data. -/
def limitValue : Option Int → Value
  | none => .null
  | some n => .int n

theorem isTooLarge_limitValue (limit : Option Int) (size : Nat) :
    isTooLarge (limitValue limit) size = .ok (limit.any (· < (size : Int))) := by
  cases limit <;> simp [limitValue, isTooLarge, Value.quantity?, Quantity.lt]

/-- Only the name of a path tells whether its language is known. -/
theorem isSupported_congr {p q : FilePath} (h : p.name = q.name) : isSupported p = isSupported q := by
  rw [isSupported, isSupported, FilePath.suffix, FilePath.suffix, h]

section Listing

variable {disk : Disk} {paths : Value → Except DiscoveryError (List FilePath)} {root p q : FilePath}
  {excluded : List String} {limit : Value} {patterns : List Value} {listed : List FilePath}

theorem exists_file_of_isFile (h : disk.isFile p) :
    ∃ content, disk.stat p = .ok (.file content) := by
  unfold Disk.isFile at h
  split at h
  · next content hstat => exact ⟨content, hstat⟩
  · cases h

/-- A path is listed, as what it resolves to, if nothing on the way to it is excluded and it leads to a
file in a known language that is not too large. -/
theorem candidate?_eq_some_iff :
    candidate? disk root excluded limit p = .ok (some q) ↔
      (∀ part ∈ (p.below? root).getD [], part ∉ excluded) ∧ isSupported p ∧
        (∃ content, disk.stat p = .ok (.file content) ∧
          isTooLarge limit content.length = .ok false) ∧
        disk.resolve p = .ok q := by
  have hclear : ((p.below? root).getD []).any excluded.contains = true ↔
      ¬ ∀ part ∈ (p.below? root).getD [], part ∉ excluded := by
    simp
  unfold candidate?
  split
  · next hexcluded => simp [hclear.mp hexcluded]
  · next hexcluded =>
    rw [and_iff_right (not_not.mp (mt hclear.mpr hexcluded))]
    split
    · next content hstat =>
      cases hsupported : isSupported p with
      | false => simp
      | true =>
        simp only [Bool.not_true, Bool.false_eq_true, if_false, bind_eq_ok_iff, hstat,
          Except.ok.injEq, Entry.file.injEq, true_and, exists_eq_left']
        constructor
        · rintro ⟨large, hlarge, hresult⟩
          cases large with
          | true => cases hresult
          | false =>
            obtain ⟨resolved, hresolved, hsame⟩ := bind_eq_ok_iff.mp hresult
            cases hsame
            exact ⟨hlarge, mapError_eq_ok_iff.mp hresolved⟩
        · rintro ⟨hlarge, hresolve⟩
          exact ⟨false, hlarge, by rw [hresolve]; rfl⟩
    · next hfile =>
      refine iff_of_false (by simp) ?_
      rintro ⟨_, ⟨content, hstat, _⟩, _⟩
      exact hfile content hstat

theorem mem_candidates_iff (h : candidates paths disk root excluded limit patterns = .ok listed) :
    q ∈ listed ↔ ∃ pattern ∈ patterns, ∃ found, paths pattern = .ok found ∧ ∃ p ∈ found,
      candidate? disk root excluded limit p = .ok (some q) := by
  induction patterns generalizing listed with
  | nil =>
    cases h
    simp
  | cons pattern patterns ih =>
    simp only [candidates, bind_eq_ok_iff] at h
    obtain ⟨found, hfound, options, hoptions, rest, hrest, hlisted⟩ := h
    cases hlisted
    have hmem : some q ∈ options ↔
        ∃ p ∈ found, candidate? disk root excluded limit p = .ok (some q) := by
      have hrel := mapM_eq_ok_iff.mp hoptions
      constructor
      · exact exists_of_forall₂ hrel
      · rintro ⟨p, hp, hq⟩
        obtain ⟨option, hoption, hcandidate⟩ := exists_of_forall₂ hrel.flip hp
        cases hq.symm.trans hcandidate
        exact hoption
    simp [ih hrest, hmem, hfound]

/-- The files cannot be listed if a pattern stands for nothing, or a path cannot be looked at. -/
theorem exists_of_candidates_eq_error {e : DiscoveryError}
    (h : candidates paths disk root excluded limit patterns = .error e) :
    ∃ pattern ∈ patterns, paths pattern = .error e ∨
      ∃ found, paths pattern = .ok found ∧ ∃ p ∈ found,
        candidate? disk root excluded limit p = .error e := by
  induction patterns with
  | nil => cases h
  | cons pattern patterns ih =>
    rw [candidates, bind_eq_error_iff] at h
    rcases h with h | ⟨found, hfound, h⟩
    · exact ⟨pattern, List.mem_cons_self, .inl h⟩
    · rcases bind_eq_error_iff.mp h with h | ⟨options, _, h⟩
      · exact ⟨pattern, List.mem_cons_self, .inr ⟨found, hfound, exists_of_mapM_eq_error h⟩⟩
      · rcases bind_eq_error_iff.mp h with h | ⟨rest, _, h⟩
        · obtain ⟨pattern', hpattern', hfails⟩ := ih h
          exact ⟨pattern', List.mem_cons_of_mem _ hpattern', hfails⟩
        · cases h

theorem exists_candidates (h : ∀ pattern ∈ patterns, ∃ found, paths pattern = .ok found ∧
      ∀ p ∈ found, ∃ option, candidate? disk root excluded limit p = .ok option) :
    ∃ listed, candidates paths disk root excluded limit patterns = .ok listed := by
  cases hlisted : candidates paths disk root excluded limit patterns with
  | ok listed => exact ⟨listed, rfl⟩
  | error e =>
    obtain ⟨pattern, hpattern, hfails⟩ := exists_of_candidates_eq_error hlisted
    obtain ⟨found, hfound, hpaths⟩ := h pattern hpattern
    rcases hfails with hfails | ⟨found', hfound', p, hp, hfails⟩
    · cases hfound.symm.trans hfails
    · cases hfound.symm.trans hfound'
      obtain ⟨option, hoption⟩ := hpaths p hp
      cases hoption.symm.trans hfails

/-- What becomes of a folder. -/
theorem discoverBy_eq_ok_iff {included excluded : Value} {files : List FilePath}
    (hroot : disk.isFile root = false) :
    discoverBy paths disk root included excluded limit = .ok files ↔
      ∃ names, excludedNames excluded = .ok names ∧ ∃ patterns, patternsOf included = .ok patterns ∧
        ∃ listed, candidates paths disk root names limit patterns = .ok listed ∧
          listed.eraseDups.mergeSort FilePath.le = files := by
  simp only [discoverBy, hroot, Bool.false_eq_true, if_false, bind_eq_ok_iff, pure, Except.pure,
    Except.ok.injEq]

end Listing

section Plain

variable {disk : Disk} (plain : disk.IsPlain)

include plain

/-- What the path of a file resolves to leads to the same file, under the same name. -/
theorem entryAt_of_resolve {p q : FilePath} {content : Text.Bytes}
    (hfile : disk.stat p = .ok (.file content)) (h : disk.resolve p = .ok q) :
    q.anchor = .root ∧ disk.entryAt q.parts = some (.file content) ∧ q.name = p.name := by
  obtain ⟨names, hresolve, hentry, hlast⟩ := plain.resolve_of_file hfile
  rw [hresolve] at h
  cases h
  have hparts : p.parts ≠ [] := by
    intro hnil
    have hfolder : disk.stat p = .ok .folder := by
      simp only [Disk.stat, Disk.locate, hnil, Disk.follow, plain.origin_eq_folder]
    rw [hfolder] at hfile
    cases hfile
  exact ⟨rfl, hentry, by rw [FilePath.name, FilePath.name, hlast hparts]⟩

theorem isListed_of_resolve {p q : FilePath} {content : Text.Bytes}
    (hfile : disk.stat p = .ok (.file content)) (hsupported : isSupported p)
    (h : disk.resolve p = .ok q) : IsListed disk q := by
  obtain ⟨hanchor, hentry, hname⟩ := entryAt_of_resolve plain hfile h
  exact ⟨hanchor, ⟨content, hentry⟩, (isSupported_congr hname).trans hsupported⟩

/-- The files of a project are listed once each. -/
theorem isListed_of_discover {root : FilePath} {included excluded limit : Value}
    {files : List FilePath} (h : discover disk root included excluded limit = .ok files) :
    files.Nodup ∧ ∀ p ∈ files, IsListed disk p := by
  cases hroot : disk.isFile root with
  | true =>
    obtain ⟨content, hstat⟩ := exists_file_of_isFile hroot
    rw [discover, discoverBy, if_pos hroot] at h
    split at h
    · next hsupported =>
      obtain ⟨names, hresolve, _⟩ := plain.resolve_of_file hstat
      rw [hresolve] at h
      cases h
      exact ⟨List.nodup_singleton _, List.forall_mem_singleton.mpr
        (isListed_of_resolve plain hstat hsupported hresolve)⟩
    · cases h
      exact ⟨.nil, by simp⟩
  | false =>
    obtain ⟨names, _, patterns, _, listed, hlisted, rfl⟩ := (discoverBy_eq_ok_iff hroot).mp h
    refine ⟨(List.mergeSort_perm _ _).nodup_iff.mpr (nodup_eraseDups _), fun q hq => ?_⟩
    rw [List.mem_mergeSort, List.mem_eraseDups, mem_candidates_iff hlisted] at hq
    obtain ⟨pattern, _, found, _, p, _, hcandidate⟩ := hq
    obtain ⟨_, hsupported, ⟨content, hstat, _⟩, hresolve⟩ := candidate?_eq_some_iff.mp hcandidate
    exact isListed_of_resolve plain hstat hsupported hresolve

/-- A file in the folder of a project is listed if it is in a known language and not too large. -/
theorem candidate?_child {folder : List String} {name : String} {content : Text.Bytes} {limit : Nat}
    (hfile : disk.entryAt (folder ++ [name]) = some (.file content))
    (hexcluded : name ∉ alwaysExcluded) (hsupported : isSupported ⟨.root, folder ++ [name]⟩)
    (hsize : content.length ≤ limit) :
    candidate? disk ⟨.root, folder⟩ alwaysExcluded (.int limit) ⟨.root, folder ++ [name]⟩ =
      .ok (some ⟨.root, folder ++ [name]⟩) := by
  have hdots := plain.notMem_of_entryAt hfile
  have hbelow : FilePath.below? ⟨.root, folder ++ [name]⟩ ⟨.root, folder⟩ = some [name] := by
    simp [FilePath.below?]
  have hlimit : isTooLarge (.int limit) content.length = .ok false := by
    simp [isTooLarge, Value.quantity?, Quantity.lt, hsize]
  refine candidate?_eq_some_iff.mpr
    ⟨?_, hsupported, ⟨content, plain.stat_of_entryAt hfile, hlimit⟩,
      plain.resolve_root hdots⟩
  simpa [hbelow] using hexcluded

/-- A pattern that is a name stands for what has that name in the folder itself. -/
theorem paths_name {folder : List String} {name : String} {entry : Entry}
    (hfolder : disk.entryAt folder = some .folder)
    (hentry : disk.entryAt (folder ++ [name]) = some entry) :
    Glob.paths disk ⟨.root, folder⟩ ⟨[.name name], false⟩ = [⟨.root, folder ++ [name]⟩] := by
  have hstat := plain.stat_of_entryAt hentry
  have hroot := plain.stat_of_entryAt hfolder
  simp [Glob.paths, Glob.expand, Disk.isFolder, Disk.hasEntry, hroot, FilePath.child, hstat,
    Except.isOk, Except.toBool]

/-- A pattern that is the name of a file in the folder of a project stands for the file, and lists it
if it is in a known language and not too large. -/
theorem candidates_name {folder : List String} {name : String} {content : Text.Bytes} {limit : Nat}
    (hglob : globOf (.text name) = .ok ⟨[.name name], false⟩)
    (hfolder : disk.entryAt folder = some .folder)
    (hfile : disk.entryAt (folder ++ [name]) = some (.file content))
    (hexcluded : name ∉ alwaysExcluded) (hsupported : isSupported ⟨.root, folder ++ [name]⟩)
    (hsize : content.length ≤ limit) (patterns : List Value) :
    candidates (globPaths disk ⟨.root, folder⟩) disk ⟨.root, folder⟩ alwaysExcluded (.int limit)
        (.text name :: patterns) =
      (candidates (globPaths disk ⟨.root, folder⟩) disk ⟨.root, folder⟩ alwaysExcluded (.int limit)
        patterns).map (⟨.root, folder ++ [name]⟩ :: ·) := by
  have hcandidate := candidate?_child plain hfile hexcluded hsupported hsize
  rw [candidates, globPaths, hglob]
  simp only [bind, Except.bind, paths_name plain hfolder hfile, List.mapM_cons, hcandidate,
    List.mapM_nil, pure, Except.pure]
  cases candidates (globPaths disk ⟨.root, folder⟩) disk ⟨.root, folder⟩ alwaysExcluded (.int limit)
    patterns <;> rfl

/-- Behind two stars, a pattern for names stands for what is in the folder itself, too. -/
theorem mem_paths_child {folder : List String} {name pattern : String} {entry : Entry}
    (hfolder : disk.entryAt folder = some .folder)
    (hentry : disk.entryAt (folder ++ [name]) = some entry) (hmatches : nameMatches pattern name) :
    (⟨.root, folder ++ [name]⟩ : FilePath) ∈
      Glob.paths disk ⟨.root, folder⟩ ⟨[.folders, .wildcard pattern], false⟩ := by
  have hdots := plain.notMem_of_entryAt hfolder
  have hroot := plain.stat_of_entryAt hfolder
  have hlocate := plain.locate_root hdots (plain.entryAt_dropLast hfolder)
  have hname : name ∈ disk.list ⟨.root, folder⟩ := by
    rw [plain.list_eq hfolder]
    refine List.mem_filterMap.mpr ⟨_, Disk.mem_of_entryAt (by simp) hentry, ?_⟩
    simp
  have hself : (⟨.root, folder⟩ : FilePath) ∈ Glob.allFolders disk ⟨.root, folder⟩ := by
    rw [Glob.allFolders, hlocate]
    exact List.mem_cons_self
  rw [Glob.paths, Disk.isFolder, hroot]
  refine List.mem_flatMap.mpr ⟨_, hself, List.mem_flatMap.mpr ⟨name, ?_, List.mem_cons_self⟩⟩
  exact List.mem_filter.mpr ⟨hname, by simp [hmatches]⟩

theorem exists_candidate? {root p : FilePath} {excluded : List String} {limit : Option Int} :
    ∃ option, candidate? disk root excluded (limitValue limit) p = .ok option := by
  unfold candidate?
  rw [plain.resolve_eq]
  split
  · exact ⟨none, rfl⟩
  · split
    · next content _ =>
      rw [isTooLarge_limitValue]
      cases isSupported p with
      | false => exact ⟨none, rfl⟩
      | true => cases limit.any (· < (content.length : Int)) <;> exact ⟨_, rfl⟩
    · exact ⟨none, rfl⟩

/-- By default the files of a folder can always be listed. Among them are those in the folder itself
with the usual ending. -/
theorem exists_discover_default {folder : List String}
    (hfolder : disk.entryAt folder = some .folder) :
    ∃ files, discover disk ⟨.root, folder⟩ Config.default.included Config.default.excluded
        Config.default.maxFileBytes = .ok files ∧
      ∀ name content, disk.entryAt (folder ++ [name]) = some (.file content) →
        nameMatches "*.test.js" name → name ∉ alwaysExcluded →
        isSupported ⟨.root, folder ++ [name]⟩ → content.length ≤ 2000000 →
        ⟨.root, folder ++ [name]⟩ ∈ files := by
  have hroot := plain.stat_of_entryAt hfolder
  have hfile : disk.isFile ⟨.root, folder⟩ = false := by rw [Disk.isFile, hroot]
  have hglobs : ∀ pattern ∈ defaultPatterns.map Value.text, ∃ glob, globOf pattern = .ok glob := by
    have hall : ∀ s ∈ defaultPatterns, (globOf (.text s)).toOption.isSome := by decide
    intro pattern hpattern
    obtain ⟨s, hs, rfl⟩ := List.mem_map.mp hpattern
    cases hglob : globOf (.text s) with
    | ok glob => exact ⟨glob, rfl⟩
    | error e =>
      have hsome := hall s hs
      rw [hglob] at hsome
      cases hsome
  have hpaths : ∀ pattern ∈ defaultPatterns.map Value.text,
      ∃ found, globPaths disk ⟨.root, folder⟩ pattern = .ok found ∧ ∀ p ∈ found,
        ∃ option, candidate? disk ⟨.root, folder⟩ alwaysExcluded (.int 2000000) p = .ok option := by
    intro pattern hpattern
    obtain ⟨glob, hglob⟩ := hglobs pattern hpattern
    exact ⟨glob.paths disk ⟨.root, folder⟩, by rw [globPaths, hglob]; rfl,
      fun p _ => @exists_candidate? _ plain _ _ _ (some 2000000)⟩
  have hfirst : globPaths disk ⟨.root, folder⟩ (.text "**/*.test.js") =
      .ok (Glob.paths disk ⟨.root, folder⟩ ⟨[.folders, .wildcard "*.test.js"], false⟩) := rfl
  obtain ⟨listed, hlisted⟩ := exists_candidates hpaths
  refine ⟨_, (discoverBy_eq_ok_iff hfile).mpr ⟨_, rfl, _, rfl, listed, hlisted, rfl⟩, ?_⟩
  intro name content hentry hmatches hname hsupported hsize
  rw [List.mem_mergeSort, List.mem_eraseDups, mem_candidates_iff hlisted]
  exact ⟨_, List.mem_cons_self, _, hfirst, _, mem_paths_child plain hfolder hentry hmatches,
    @candidate?_child _ plain _ _ _ 2000000 hentry hname hsupported hsize⟩

end Plain

end QueryLint.Project
