import Mathlib.Data.List.Lex
import Mathlib.Data.String.Basic
import QueryLint.Proofs.Files.Glob
import QueryLint.Proofs.Project.Discovery

/-!
# The list of a project's files

Of a folder without links those files are listed that some pattern leads to by a way without excluded
names, that are in a known language, and that are not too large. They are listed in strictly increasing
order, so that the list depends on nothing but which paths the patterns stand for together: neither on
the order and number of the patterns, nor on the order in which their paths are found, nor on how often.
-/
namespace QueryLint.Files.FilePath

theorem le_iff (p q : FilePath) : p.le q ↔ p.orderKey ≤ q.orderKey := by
  rw [le, Bool.not_eq_true', decide_eq_false_iff_not, not_lt]

theorem eq_of_orderKey_eq {p q : FilePath} (hp : p.anchor = .root) (hq : q.anchor = .root)
    (h : p.orderKey = q.orderKey) : p = q := by
  obtain ⟨_, pparts⟩ := p
  obtain ⟨_, qparts⟩ := q
  cases hp
  cases hq
  simpa [orderKey] using h

/-- Sorted paths from the root are in strictly increasing order if there are no two of the same. -/
theorem pairwise_mergeSort_le {files : List FilePath} (hanchor : ∀ p ∈ files, p.anchor = .root)
    (hnodup : files.Nodup) :
    (files.mergeSort le).Pairwise fun p q => p.orderKey < q.orderKey := by
  have hsorted : (files.mergeSort le).Pairwise (fun p q => p.le q) := List.pairwise_mergeSort
    (fun p q r hpq hqr => by
      rw [le_iff] at hpq hqr ⊢
      exact hpq.trans hqr)
    (fun p q => by
      rw [Bool.or_eq_true, le_iff, le_iff]
      exact le_total _ _) files
  have hdistinct : (files.mergeSort le).Pairwise (· ≠ ·) :=
    (List.mergeSort_perm _ _).nodup_iff.mpr hnodup
  refine (hsorted.and hdistinct).imp_of_mem fun {p q} hp hq h => ?_
  refine lt_of_le_of_ne ((le_iff p q).mp h.1) fun hkeys => h.2 ?_
  exact eq_of_orderKey_eq (hanchor p (List.mem_mergeSort.mp hp)) (hanchor q (List.mem_mergeSort.mp hq))
    hkeys

theorem nodup_of_pairwise_orderKey {files : List FilePath}
    (h : files.Pairwise fun p q => p.orderKey < q.orderKey) : files.Nodup := by
  refine h.imp fun {p q} hlt => ?_
  rintro rfl
  exact lt_irrefl _ hlt

/-- Paths in strictly increasing order are told by which they are. -/
theorem eq_of_pairwise_orderKey {files files' : List FilePath}
    (h : files.Pairwise fun p q => p.orderKey < q.orderKey)
    (h' : files'.Pairwise fun p q => p.orderKey < q.orderKey)
    (hmem : ∀ p, p ∈ files ↔ p ∈ files') : files = files' := by
  have hperm : files.Perm files' := (List.perm_ext_iff_of_nodup (nodup_of_pairwise_orderKey h)
    (nodup_of_pairwise_orderKey h')).mpr hmem
  exact hperm.eq_of_pairwise (fun p q _ _ hpq hqp => absurd hqp (lt_asymm hpq)) h h'

end QueryLint.Files.FilePath

namespace QueryLint.Project

open QueryLint.Data QueryLint.Files

theorem patternsOf_texts {patterns : List String} (hne : patterns ≠ []) :
    patternsOf (.texts patterns) = .ok (patterns.map .text) := by
  rw [patternsOf, if_pos (by simpa [Value.texts, Value.isTruthy] using hne)]
  rfl

theorem namesAmong_texts (names : List String) : namesAmong (names.map .text) = .ok names := by
  induction names with
  | nil => rfl
  | cons name names ih =>
    rw [List.map_cons, namesAmong, ih]
    rfl

theorem excludedNames_texts (names : List String) :
    excludedNames (.texts names) = .ok (alwaysExcluded ++ names) := by
  cases names with
  | nil => rfl
  | cons name names =>
    have htruthy : (Value.texts (name :: names)).isTruthy = true := rfl
    have hitems : (Value.texts (name :: names)).items = .ok ((name :: names).map .text) := rfl
    simp only [excludedNames, htruthy, if_true, hitems, namesAmong_texts, Except.map]

/-- A file that may be listed. -/
structure IsWanted (disk : Disk) (limit : Option Int) (q : FilePath) : Prop
    extends IsListed disk q where
  size : ∀ content, disk.entryAt q.parts = some (.file content) →
    ∀ n ∈ limit, (content.length : Int) ≤ n

/-- A path that leads from a root to a file, by a way without excluded names. -/
structure LeadsTo (disk : Disk) (root : FilePath) (excluded : List String) (p q : FilePath) :
    Prop where
  file : disk.isFile p
  resolved : disk.resolve p = .ok q
  clear : ∃ parts, p.below? root = some parts ∧
    ∀ part ∈ parts, part ∉ alwaysExcluded ∧ part ∉ excluded

theorem globPaths_text {disk : Disk} {root : FilePath} {s : String} {glob : Glob}
    (h : Glob.ofString s = .ok glob) :
    globPaths disk root (.text s) = .ok (glob.paths disk root) := by
  have hne : (Value.text s).isTruthy = true := by
    rw [Value.isTruthy, bne_iff_ne]
    rintro rfl
    cases h
  simp only [globPaths, globOf, hne, h, Bool.not_true, Bool.false_eq_true, if_false, Except.mapError,
    bind, Except.bind, pure, Except.pure]

theorem exists_below?_of_globPaths {disk : Disk} {root p : FilePath} {pattern : Value}
    {found : List FilePath} (h : globPaths disk root pattern = .ok found) (hp : p ∈ found) :
    ∃ parts, p.below? root = some parts := by
  obtain ⟨glob, _, hfound⟩ := bind_eq_ok_iff.mp h
  cases hfound
  exact Glob.exists_below?_of_mem_paths hp

section Plain

variable {disk : Disk} (plain : disk.IsPlain) {root p q : FilePath} {patterns excluded : List String}
  {limit : Option Int} {paths : Value → Except DiscoveryError (List FilePath)}
  {found : String → List FilePath}

include plain

theorem candidate?_eq_some_iff_leadsTo (hbelow : ∃ parts, p.below? root = some parts) :
    candidate? disk root (alwaysExcluded ++ excluded) (limitValue limit) p = .ok (some q) ↔
      IsWanted disk limit q ∧ LeadsTo disk root excluded p q := by
  obtain ⟨parts, hparts⟩ := hbelow
  have hlimit : ∀ size : Nat, isTooLarge (limitValue limit) size = .ok false ↔
      ∀ n ∈ limit, (size : Int) ≤ n := by
    intro size
    rw [isTooLarge_limitValue]
    cases limit <;> simp
  rw [candidate?_eq_some_iff, hparts, Option.getD_some]
  simp only [List.mem_append, not_or, hlimit]
  constructor
  · rintro ⟨hclear, hsupported, ⟨content, hstat, hsize⟩, hresolve⟩
    have hentry := (entryAt_of_resolve plain hstat hresolve).2.1
    refine ⟨⟨isListed_of_resolve plain hstat hsupported hresolve, fun content' hentry' => ?_⟩,
      ⟨by rw [Disk.isFile, hstat], hresolve, parts, hparts, hclear⟩⟩
    cases hentry.symm.trans hentry'
    exact hsize
  · rintro ⟨hwanted, hfile, hresolve, parts', hparts', hclear⟩
    cases hparts.symm.trans hparts'
    obtain ⟨content, hstat⟩ := exists_file_of_isFile hfile
    obtain ⟨_, hentry, hname⟩ := entryAt_of_resolve plain hstat hresolve
    exact ⟨hclear, (isSupported_congr hname).symm.trans hwanted.supported,
      ⟨content, hstat, hwanted.size content hentry⟩, hresolve⟩

/-- What is listed of a folder. -/
theorem exists_discoverBy (hroot : disk.isFile root = false) (hne : patterns ≠ [])
    (hpaths : ∀ s ∈ patterns, paths (.text s) = .ok (found s))
    (hbelow : ∀ s ∈ patterns, ∀ p ∈ found s, ∃ parts, p.below? root = some parts) :
    ∃ files, discoverBy paths disk root (.texts patterns) (.texts excluded) (limitValue limit) =
        .ok files ∧
      (files.Pairwise fun p q => p.orderKey < q.orderKey) ∧
      ∀ q, q ∈ files ↔ IsWanted disk limit q ∧
        ∃ s ∈ patterns, ∃ p ∈ found s, LeadsTo disk root excluded p q := by
  have hfound : ∀ pattern ∈ patterns.map Value.text, ∃ found, paths pattern = .ok found ∧
      ∀ p ∈ found, ∃ option,
        candidate? disk root (alwaysExcluded ++ excluded) (limitValue limit) p = .ok option := by
    intro pattern hpattern
    obtain ⟨s, hs, rfl⟩ := List.mem_map.mp hpattern
    exact ⟨found s, hpaths s hs, fun p _ => exists_candidate? plain⟩
  obtain ⟨listed, hlisted⟩ := exists_candidates hfound
  have hmem : ∀ q, q ∈ listed.eraseDups.mergeSort FilePath.le ↔ IsWanted disk limit q ∧
      ∃ s ∈ patterns, ∃ p ∈ found s, LeadsTo disk root excluded p q := by
    intro q
    rw [List.mem_mergeSort, List.mem_eraseDups, mem_candidates_iff hlisted]
    constructor
    · rintro ⟨pattern, hpattern, found', hfound', p, hp, hcandidate⟩
      obtain ⟨s, hs, rfl⟩ := List.mem_map.mp hpattern
      cases (hpaths s hs).symm.trans hfound'
      obtain ⟨hwanted, hleads⟩ :=
        (candidate?_eq_some_iff_leadsTo plain (hbelow s hs p hp)).mp hcandidate
      exact ⟨hwanted, s, hs, p, hp, hleads⟩
    · rintro ⟨hwanted, s, hs, p, hp, hleads⟩
      exact ⟨_, List.mem_map_of_mem hs, _, hpaths s hs, p, hp,
        (candidate?_eq_some_iff_leadsTo plain (hbelow s hs p hp)).mpr ⟨hwanted, hleads⟩⟩
  refine ⟨_, (discoverBy_eq_ok_iff hroot).mpr ⟨_, excludedNames_texts excluded, _,
    patternsOf_texts hne, listed, hlisted, rfl⟩, ?_, hmem⟩
  refine FilePath.pairwise_mergeSort_le (fun q hq => ?_) (nodup_eraseDups _)
  exact ((hmem q).mp (List.mem_mergeSort.mpr hq)).1.anchor

/-- A pattern for names stands for what is in the folder itself. -/
theorem paths_wildcard {folder : List String} (hfolder : disk.entryAt folder = some .folder)
    (pattern : String) :
    Glob.paths disk ⟨.root, folder⟩ ⟨[.wildcard pattern], false⟩ =
      ((disk.namesIn folder).filter (nameMatches pattern)).map
        fun name => ⟨.root, folder ++ [name]⟩ := by
  have hroot := plain.stat_of_entryAt hfolder
  rw [Glob.paths, Disk.isFolder, hroot]
  simp [Glob.expand, plain.list_eq hfolder, FilePath.child, List.map_eq_flatMap]

/-- The files of a folder itself, where a pattern for names finds them. -/
theorem discover_wildcard {folder names : List String} {s : String} {limit : Nat}
    (hfolder : disk.entryAt folder = some .folder)
    (hglob : Glob.ofString s = .ok ⟨[.wildcard s], false⟩)
    (hnames : (disk.namesIn folder).filter (nameMatches s) = names)
    (hfiles : ∀ name ∈ names, name ∉ alwaysExcluded ∧ isSupported ⟨.root, folder ++ [name]⟩ ∧
      ∃ content, disk.entryAt (folder ++ [name]) = some (.file content) ∧ content.length ≤ limit)
    (hsorted : (names.map fun name => (⟨.root, folder ++ [name]⟩ : FilePath)).Pairwise
      fun p q => p.orderKey < q.orderKey) :
    discover disk ⟨.root, folder⟩ (.texts [s]) (.texts []) (.int limit) =
      .ok (names.map fun name => ⟨.root, folder ++ [name]⟩) := by
  have hroot : disk.isFile ⟨.root, folder⟩ = false := by
    rw [Disk.isFile, plain.stat_of_entryAt hfolder]
  have hoptions : (names.map fun name => (⟨.root, folder ++ [name]⟩ : FilePath)).mapM
      (candidate? disk ⟨.root, folder⟩ alwaysExcluded (.int limit)) =
        .ok (names.map fun name => some ⟨.root, folder ++ [name]⟩) := by
    refine mapM_eq_ok_iff.mpr (forall₂_map_map (List.forall₂_same.mpr fun name hname => ?_))
    obtain ⟨hexcluded, hsupported, content, hfile, hsize⟩ := hfiles name hname
    exact candidate?_child plain hfile hexcluded hsupported hsize
  have hlisted : candidates (globPaths disk ⟨.root, folder⟩) disk ⟨.root, folder⟩
      (alwaysExcluded ++ []) (.int limit) [.text s] =
        .ok (names.map fun name => ⟨.root, folder ++ [name]⟩) := by
    rw [candidates, globPaths_text hglob, paths_wildcard plain hfolder, hnames, List.append_nil]
    simp [bind, Except.bind, hoptions, candidates, pure, Except.pure, List.filterMap_map]
  refine (discoverBy_eq_ok_iff hroot).mpr ⟨_, excludedNames_texts [], _,
    patternsOf_texts (List.cons_ne_nil _ _), _, hlisted, ?_⟩
  rw [eraseDups_of_nodup (FilePath.nodup_of_pairwise_orderKey hsorted),
    List.mergeSort_of_pairwise]
  exact hsorted.imp fun h => (FilePath.le_iff _ _).mpr h.le

/-- The list of a folder's files is a union over the patterns, in strictly increasing order. The order and
number of the patterns make no difference to it, nor do the order and number in which the paths of a
pattern are found. -/
theorem discoverBy_union (hroot : disk.isFile root = false) (hne : patterns ≠ [])
    (hpaths : ∀ s ∈ patterns, paths (.text s) = .ok (found s))
    (hbelow : ∀ s ∈ patterns, ∀ p ∈ found s, ∃ parts, p.below? root = some parts)
    (excluded : List String) (limit : Option Int) :
    ∃ files, discoverBy paths disk root (.texts patterns) (.texts excluded) (limitValue limit) =
        .ok files ∧
      (files.Pairwise fun p q => p.orderKey < q.orderKey) ∧
      (∀ q, q ∈ files ↔ IsWanted disk limit q ∧
        ∃ s ∈ patterns, ∃ p ∈ found s, LeadsTo disk root excluded p q) ∧
      ∀ (patterns' : List String) (paths' : Value → Except DiscoveryError (List FilePath))
        (found' : String → List FilePath), patterns' ≠ [] →
        (∀ s ∈ patterns', paths' (.text s) = .ok (found' s)) →
        (∀ p, (∃ s ∈ patterns', p ∈ found' s) ↔ ∃ s ∈ patterns, p ∈ found s) →
        discoverBy paths' disk root (.texts patterns') (.texts excluded) (limitValue limit) =
          .ok files := by
  obtain ⟨files, hfiles, hsorted, hmem⟩ :=
    @exists_discoverBy _ plain _ _ excluded limit _ _ hroot hne hpaths hbelow
  refine ⟨files, hfiles, hsorted, hmem, fun patterns' paths' found' hne' hpaths' hsame => ?_⟩
  have hbelow' : ∀ s ∈ patterns', ∀ p ∈ found' s, ∃ parts, p.below? root = some parts := by
    intro s hs p hp
    obtain ⟨t, ht, hp⟩ := (hsame p).mp ⟨s, hs, hp⟩
    exact hbelow t ht p hp
  obtain ⟨files', hfiles', hsorted', hmem'⟩ :=
    @exists_discoverBy _ plain _ _ excluded limit _ _ hroot hne' hpaths' hbelow'
  have heq : files' = files := by
    refine FilePath.eq_of_pairwise_orderKey hsorted' hsorted fun q => ?_
    rw [hmem, hmem']
    refine and_congr_right fun _ => ⟨?_, ?_⟩
    · rintro ⟨s, hs, p, hp, hleads⟩
      obtain ⟨t, ht, hp⟩ := (hsame p).mp ⟨s, hs, hp⟩
      exact ⟨t, ht, p, hp, hleads⟩
    · rintro ⟨s, hs, p, hp, hleads⟩
      obtain ⟨t, ht, hp⟩ := (hsame p).mpr ⟨s, hs, hp⟩
      exact ⟨t, ht, p, hp, hleads⟩
  rw [hfiles', heq]

end Plain

/-- A folder with two files. -/
def drawer : Disk where
  entries :=
    [(["p"], .folder), (["p", "b.test.js"], .file []), (["p", "a.test.js"], .file [])]
  current := []

theorem isPlain_drawer : drawer.IsPlain := by
  refine ⟨?_, by decide, ?_, rfl⟩
  · simp [drawer]
  · simp [drawer, Disk.entryAt, List.lookup_cons]

/-- What two patterns stand for in `drawer`. -/
def drawerPaths (s : String) : List FilePath :=
  if s = "a.test.js" then [⟨.root, ["p", "a.test.js"]⟩]
  else [⟨.root, ["p", "b.test.js"]⟩, ⟨.root, ["p", "a.test.js"]⟩]

theorem globPaths_drawer : ∀ s ∈ ["*.test.js", "*.test.js", "a.test.js"],
    globPaths drawer ⟨.root, ["p"]⟩ (.text s) = .ok (drawerPaths s) := by
  have hfolder : drawer.entryAt ["p"] = some .folder := rfl
  have hfile : drawer.entryAt (["p"] ++ ["a.test.js"]) = some (.file []) := rfl
  have hname : Glob.ofString "a.test.js" = .ok ⟨[.name "a.test.js"], false⟩ := by decide
  have hwildcard : Glob.ofString "*.test.js" = .ok ⟨[.wildcard "*.test.js"], false⟩ := by
    decide
  have hfound : ((drawer.namesIn ["p"]).filter (nameMatches "*.test.js")).map
      (fun name => (⟨.root, ["p"] ++ [name]⟩ : FilePath)) = drawerPaths "*.test.js" := by
    decide
  have hstar : globPaths drawer ⟨.root, ["p"]⟩ (.text "*.test.js") =
      .ok (drawerPaths "*.test.js") := by
    rw [globPaths_text hwildcard, paths_wildcard isPlain_drawer hfolder, hfound]
  have hplain : globPaths drawer ⟨.root, ["p"]⟩ (.text "a.test.js") =
      .ok (drawerPaths "a.test.js") := by
    rw [globPaths_text hname, paths_name isPlain_drawer hfolder hfile]
    rfl
  simp [hstar, hplain]

/-- The patterns overlap in one file of `drawer`, and come once more in another order. The name of the
other file is excluded. -/
theorem discover_drawer : ∃ files,
    discover drawer ⟨.root, ["p"]⟩ (.texts ["a.test.js", "*.test.js"]) (.texts ["b.test.js"]) .null =
        .ok files ∧
      discover drawer ⟨.root, ["p"]⟩ (.texts ["*.test.js", "*.test.js", "a.test.js"])
        (.texts ["b.test.js"]) .null = .ok files ∧
      ⟨.root, ["p", "a.test.js"]⟩ ∈ files ∧ ⟨.root, ["p", "b.test.js"]⟩ ∉ files := by
  have plain := isPlain_drawer
  have hroot : drawer.isFile ⟨.root, ["p"]⟩ = false := by
    rw [Disk.isFile, (plain.stat_eq_ok_iff (by decide)).mpr (rfl : drawer.entryAt ["p"] = _)]
  have hpaths : ∀ s ∈ ["a.test.js", "*.test.js"],
      globPaths drawer ⟨.root, ["p"]⟩ (.text s) = .ok (drawerPaths s) := by
    intro s hs
    exact globPaths_drawer s (by simp at hs ⊢; tauto)
  obtain ⟨files, hfiles, _, hmem, hsame⟩ := @discoverBy_union _ plain _ _ _ _ hroot
    (List.cons_ne_nil _ _) hpaths
    (fun s hs p hp => exists_below?_of_globPaths (hpaths s hs) hp) ["b.test.js"] none
  have hresolve : ∀ name ∈ ["a.test.js", "b.test.js"],
      drawer.resolve ⟨.root, ["p", name]⟩ = .ok ⟨.root, ["p", name]⟩ := by
    simp [plain.resolve_root]
  have hfile : drawer.isFile ⟨.root, ["p", "a.test.js"]⟩ = true := by
    rw [Disk.isFile, (plain.stat_eq_ok_iff (by decide)).mpr
      (rfl : drawer.entryAt ["p", "a.test.js"] = some (.file []))]
  have hwanted : IsWanted drawer none ⟨.root, ["p", "a.test.js"]⟩ :=
    ⟨⟨rfl, ⟨[], rfl⟩, by decide⟩, by simp⟩
  refine ⟨files, hfiles, hsame _ _ _ (List.cons_ne_nil _ _) globPaths_drawer (by simp [or_comm]),
    (hmem _).mpr ⟨hwanted, "a.test.js", by simp, _, List.mem_singleton_self _, hfile,
      hresolve _ (by simp), ["a.test.js"], by decide, by decide⟩, fun h => ?_⟩
  obtain ⟨_, s, hs, p, hp, _, hresolved, parts, hparts, hclear⟩ := (hmem _).mp h
  have hp : p = ⟨.root, ["p", "a.test.js"]⟩ ∨ p = ⟨.root, ["p", "b.test.js"]⟩ := by
    unfold drawerPaths at hp
    split at hp <;> simp at hp <;> tauto
  rcases hp with rfl | rfl
  · rw [hresolve _ (by simp)] at hresolved
    simp at hresolved
  · cases hparts
    exact (hclear "b.test.js" (by simp)).2 (by simp)

end QueryLint.Project
