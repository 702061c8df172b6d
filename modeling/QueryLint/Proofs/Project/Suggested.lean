import QueryLint.Command.Run
import QueryLint.Proofs.Lint.Arrows
import QueryLint.Proofs.Project.Agreement
import QueryLint.Proofs.Project.Apply

/-!
# The files with suggestions

The findings of a run are sorted by their files again before suggestions are applied. Each file with a
suggestion comes up once, by its own name and with its own findings, and what is applied to it is what is
suggested for its text by itself.
-/
namespace QueryLint.Code

/-- Whether the trees of texts without syntax errors lie over the texts, with each arrow in its place. -/
structure Grammar.IsFaithful (grammar : Grammar) : Prop where
  laid : ∀ language text, (grammar language text).label.hasError = false →
    (grammar language text).Laid text
  arrows : ∀ path language text, (grammar language text).label.hasError = false →
    Source.SpellsArrows ⟨path, text, language, grammar language text⟩

end QueryLint.Code

namespace QueryLint.Project

open QueryLint.Code QueryLint.Command QueryLint.Files QueryLint.Lint QueryLint.Text
open QueryLint.Finding (Edit firstEdits)

/-- A file with a text that suggestions are made for. -/
structure IsSuggested (grammar : Grammar) (disk : Disk) (base p : FilePath) (text : String) : Prop where
  file : disk.entryAt p.parts = some (.file (utf8 text))
  finding : ∃ findings, lintText grammar text (nameIn base p) .default none = .ok findings ∧
    ∃ f ∈ findings, f.suggestions ≠ []

variable {grammar : Grammar} {disk : Disk} {base p : FilePath} {text : String}

theorem suggestedEdits_ne_nil {findings : List Finding} {f : Finding} (hf : f ∈ findings)
    (h : f.suggestions ≠ []) : suggestedEdits findings ≠ [] := by
  obtain ⟨s, hs⟩ := List.exists_mem_of_ne_nil _ h
  exact List.ne_nil_of_mem (List.mem_map_of_mem (List.mem_flatMap.mpr ⟨f, hf, hs⟩))

/-- What comes of the text of a file with suggestions is another text. -/
theorem IsSuggested.exists_outcome (h : IsSuggested grammar disk base p text)
    (faithful : grammar.IsFaithful) :
    ∃ findings outcome, lintText grammar text (nameIn base p) .default none = .ok findings ∧
      suggest grammar text (nameIn base p) none = .ok outcome ∧
      Edit.applyAll text (firstEdits findings) = .ok outcome ∧
      outcome.applied ≠ 0 ∧ outcome.text ≠ text := by
  obtain ⟨findings, hlint, f, hf, hsuggestions⟩ := h.finding
  obtain ⟨source, hparse⟩ : ∃ source, parseClean grammar text (nameIn base p) = .ok source := by
    unfold lintText at hlint
    split at hlint
    · cases hlint
    · next source hparse => exact ⟨source, hparse⟩
  have hdefault := lintText_default hparse
  rw [hlint, Except.ok.injEq] at hdefault
  obtain ⟨language, _, hsource, hclean⟩ := parseClean_eq_ok hparse
  have htext := text_of_parseClean hparse
  rw [hsource] at hclean
  have laid : source.tree.Laid source.text := by
    rw [hsource]
    exact faithful.laid _ _ hclean
  have arrows : source.SpellsArrows := by
    rw [hsource]
    exact faithful.arrows _ _ _ hclean
  obtain ⟨outcome, hok, _, happlied, _⟩ := applyAll_default laid
  have hwaits : Rule.PreferFind.waits source ≠ [] := by
    have hne := suggestedEdits_ne_nil hf hsuggestions
    rw [hdefault] at hne
    intro hnil
    have hperm := suggestedEdits_arrange_default source
    rw [hnil] at hperm
    exact hne hperm.eq_nil
  have happlied : outcome.applied ≠ 0 := by
    rw [happlied]
    exact (List.length_pos_iff.mpr (innermostWaits_ne_nil laid hwaits)).ne'
  have hne := text_ne_of_applied laid arrows hok happlied
  rw [htext] at hok hne
  rw [← hdefault] at hok
  exact ⟨findings, outcome, hlint, suggest_of_applyAll hparse (hdefault ▸ hok), hok, happlied, hne⟩

section Listed

variable (plain : disk.IsPlain) {config : Config} {rules : Option (List String)}

include plain

/-- A listed file has the findings that its text has by itself. -/
theorem fileOutcome_eq_ok_iff (hbase : disk.entryAt base.parts = some .folder)
    (hp : IsListed disk p) (hfile : disk.entryAt p.parts = some (.file (utf8 text)))
    {findings : List Finding} :
    fileOutcome grammar disk base config rules p = .ok findings ↔
      lintText grammar text (nameIn base p) config rules = .ok findings := by
  obtain ⟨language, hlanguage⟩ := exists_detect_eq_ok hp.supported
  have hread : disk.read p = .ok (utf8 text) := by
    obtain ⟨anchor, parts⟩ := p
    cases hp.anchor
    exact plain.read_of_entryAt hfile
  have hnamed := hp.detect_nameIn plain hbase
  rw [hlanguage] at hnamed
  have hload : loadSource grammar disk p (nameIn base p) =
      .ok ⟨nameIn base p, text, language, grammar language text⟩ := by
    rw [loadSource_eq hread, decode_utf8, hlanguage]
  unfold lintText
  simp only [fileOutcome, hload, parseClean_of_detect grammar text hnamed, sourceOutcome]
  cases hclean : Source.hasErrors ⟨nameIn base p, text, language, grammar language text⟩ with
  | true => simp
  | false =>
    simp only [Bool.false_eq_true, if_false]
    cases lintSource ⟨nameIn base p, text, language, grammar language text⟩ config rules <;>
      simp [Except.mapError]

/-- A file with findings has a text. -/
theorem exists_text_of_fileOutcome (hp : IsListed disk p) {findings : List Finding}
    (h : fileOutcome grammar disk base config rules p = .ok findings) :
    ∃ text, disk.entryAt p.parts = some (.file (utf8 text)) := by
  obtain ⟨content, hfile⟩ := hp.file
  have hread : disk.read p = .ok content := by
    obtain ⟨anchor, parts⟩ := p
    cases hp.anchor
    exact plain.read_of_entryAt hfile
  cases hdecode : decode content with
  | ok text => exact ⟨text, utf8_of_decode hdecode ▸ hfile⟩
  | error fault =>
    rw [fileOutcome, loadSource_eq hread, hdecode] at h
    cases h

end Listed

section Sorting

theorem mem_sortedSet {s : String} {items : List String} : s ∈ sortedSet items ↔ s ∈ items := by
  rw [sortedSet, sortTexts, List.mem_mergeSort, List.mem_eraseDups]

theorem nodup_sortedSet (items : List String) : (sortedSet items).Nodup :=
  (List.mergeSort_perm _ _).nodup_iff.mpr (nodup_eraseDups items)

/-- Findings without suggestions have no first edits. -/
theorem firstEdits_filter (findings : List Finding) :
    firstEdits (findings.filter fun f => !f.suggestions.isEmpty) = firstEdits findings := by
  rw [firstEdits, firstEdits, List.filterMap_filter]
  refine List.filterMap_congr fun f _ => ?_
  cases f.suggestions <;> rfl

theorem map_fst_suggestionsByFile (findings : List Finding) :
    (suggestionsByFile findings).map Prod.fst =
      sortedSet ((findings.filter fun f => !f.suggestions.isEmpty).map (·.location.path)) := by
  rw [suggestionsByFile, List.map_map]
  exact List.map_id _

theorem mem_suggestionsByFile {findings : List Finding} {g : String × List Finding}
    (h : g ∈ suggestionsByFile findings) :
    (∃ f ∈ findings, f.suggestions ≠ [] ∧ f.location.path = g.1) ∧
      g.2 = (findings.filter (·.location.path = g.1)).filter fun f => !f.suggestions.isEmpty := by
  obtain ⟨path, hpath, rfl⟩ := List.mem_map.mp h
  obtain ⟨f, hf, rfl⟩ := List.mem_map.mp (mem_sortedSet.mp hpath)
  obtain ⟨hf, hsuggestions⟩ := List.mem_filter.mp hf
  refine ⟨⟨f, hf, by simpa using hsuggestions, rfl⟩, ?_⟩
  rw [List.filter_filter, List.filter_filter]
  simp only [Bool.and_comm]

/-- Among the findings of all files, those of one file are found by its name. -/
theorem filter_path_flatMap {name : FilePath → String} {outcomeOf : FilePath → FileOutcome}
    (htells : ∀ p, Tells (name p) (outcomeOf p)) {files : List FilePath}
    (hnames : (files.map name).Nodup) (hp : p ∈ files) :
    ((files.map outcomeOf).flatMap FileOutcome.findings).filter (·.location.path = name p) =
      (outcomeOf p).findings := by
  have hown : ∀ q, ∀ f ∈ (outcomeOf q).findings, f.location.path = name q := by
    intro q f hf
    have htell := htells q
    cases houtcome : outcomeOf q with
    | ok findings =>
      rw [houtcome] at htell hf
      exact htell f hf
    | error e =>
      rw [houtcome] at hf
      cases hf
  have hother : ∀ q, name q ≠ name p →
      (outcomeOf q).findings.filter (·.location.path = name p) = [] := by
    intro q hne
    rw [List.filter_eq_nil_iff]
    intro f hf
    simpa [hown q f hf] using hne
  induction files with
  | nil => cases hp
  | cons q files ih =>
    obtain ⟨hfirst, hnames⟩ := List.nodup_cons.mp hnames
    rw [List.map_cons, List.flatMap_cons, List.filter_append]
    rcases List.mem_cons.mp hp with rfl | hp
    · have hrest : ((files.map outcomeOf).flatMap FileOutcome.findings).filter
          (·.location.path = name p) = [] := by
        rw [List.filter_flatMap, List.flatMap_eq_nil_iff]
        intro outcome houtcome
        obtain ⟨q, hq, rfl⟩ := List.mem_map.mp houtcome
        exact hother q fun heq => hfirst (heq ▸ List.mem_map_of_mem hq)
      rw [hrest, List.append_nil, List.filter_eq_self]
      intro f hf
      simpa using hown p f hf
    · rw [hother q fun heq => hfirst (heq ▸ List.mem_map_of_mem hp), List.nil_append, ih hnames hp]

end Sorting

/-- What the findings under a name make of a file. -/
structure Rewrite.Serves (grammar : Grammar) (disk : Disk) (base : FilePath)
    (g : String × List Finding) (r : Rewrite) : Prop where
  name : g.1 = nameIn base r.path
  path : base.join (.ofString g.1) = r.path
  edits : Edit.applyAll r.text (firstEdits g.2) = .ok r.outcome
  suggested : IsSuggested grammar disk base r.path r.text
  outcome : suggest grammar r.text (nameIn base r.path) none = .ok r.outcome
  applied : r.outcome.applied ≠ 0
  differs : r.outcome.text ≠ r.text

section Groups

variable (plain : disk.IsPlain) (faithful : grammar.IsFaithful) (hanchor : base.anchor = .root)
  (hbase : disk.entryAt base.parts = some .folder) {files : List FilePath}
  (hlisted : ∀ p ∈ files, IsListed disk p) (hnames : (files.map (nameIn base)).Nodup)

include plain faithful hanchor hbase hlisted hnames

/-- The findings with suggestions under each name are those of a file. -/
theorem exists_serves {g : String × List Finding}
    (hg : g ∈ suggestionsByFile ((files.map (fileOutcome grammar disk base .default none)).flatMap
      FileOutcome.findings)) :
    ∃ r : Rewrite, r.path ∈ files ∧ r.Serves grammar disk base g := by
  obtain ⟨⟨f, hf, hsuggestions, hpath⟩, hown⟩ := mem_suggestionsByFile hg
  obtain ⟨outcome, houtcome, hf⟩ := List.mem_flatMap.mp hf
  obtain ⟨p, hp, rfl⟩ := List.mem_map.mp houtcome
  cases hfindings : fileOutcome grammar disk base .default none p with
  | error e =>
    rw [hfindings] at hf
    cases hf
  | ok findings =>
    rw [hfindings] at hf
    have htells := @tells_fileOutcome grammar disk p base .default none .unlimited
    rw [hfindings] at htells
    have hname : g.1 = nameIn base p := hpath.symm.trans (htells f hf)
    obtain ⟨text, hfile⟩ := exists_text_of_fileOutcome plain (hlisted p hp) hfindings
    have hlint := (fileOutcome_eq_ok_iff plain hbase (hlisted p hp) hfile).mp hfindings
    have hsuggested : IsSuggested grammar disk base p text :=
      ⟨hfile, findings, hlint, f, hf, hsuggestions⟩
    obtain ⟨findings', outcome, hlint', hsuggest, hok, happlied, hne⟩ :=
      hsuggested.exists_outcome faithful
    rw [hlint] at hlint'
    cases hlint'
    refine ⟨⟨p, text, outcome⟩, hp, hname, ?_, ?_, hsuggested, hsuggest, happlied, hne⟩
    · rw [hname]
      exact (hlisted p hp).join_nameIn plain hanchor hbase
    · rw [hown, firstEdits_filter, hname,
        filter_path_flatMap (fun _ => tells_fileOutcome _ _ _) hnames hp, hfindings]
      exact hok

/-- The suggestions of a run are for the files that suggestions are made for, each of them once. -/
theorem exists_rewrites :
    ∃ rs : List Rewrite,
      List.Forall₂ (fun g r => r.path ∈ files ∧ Rewrite.Serves grammar disk base g r)
        (suggestionsByFile ((files.map (fileOutcome grammar disk base .default none)).flatMap
          FileOutcome.findings)) rs ∧
      (rs.map fun r => nameIn base r.path).Nodup ∧
      ∀ p ∈ files, ∀ text, IsSuggested grammar disk base p text →
        ∃ r ∈ rs, r.path = p ∧ r.text = text := by
  obtain ⟨rs, hrs⟩ := exists_forall₂_of_forall fun g hg =>
    exists_serves plain faithful hanchor hbase hlisted hnames hg
  have hfst : (suggestionsByFile ((files.map (fileOutcome grammar disk base .default none)).flatMap
      FileOutcome.findings)).map Prod.fst = rs.map fun r => nameIn base r.path := by
    rw [← List.forall₂_eq_eq_eq, List.forall₂_map_left_iff, List.forall₂_map_right_iff]
    exact hrs.imp fun _ _ h => h.2.name
  refine ⟨rs, hrs, ?_, fun p hp text hsuggested => ?_⟩
  · rw [← hfst, map_fst_suggestionsByFile]
    exact nodup_sortedSet _
  · obtain ⟨findings, hlint, f, hf, hsuggestions⟩ := hsuggested.finding
    have hfindings := (@fileOutcome_eq_ok_iff grammar _ _ _ _ plain _ _ hbase (hlisted p hp)
      hsuggested.file _).mpr hlint
    have hmem : nameIn base p ∈ rs.map fun r => nameIn base r.path := by
      have htells := @tells_fileOutcome grammar disk p base .default none .unlimited
      rw [hfindings] at htells
      rw [← hfst, map_fst_suggestionsByFile, mem_sortedSet, ← htells f hf]
      refine List.mem_map_of_mem (List.mem_filter.mpr ⟨?_, by simpa using hsuggestions⟩)
      exact List.mem_flatMap.mpr ⟨_, List.mem_map_of_mem hp, by rw [hfindings]; exact hf⟩
    obtain ⟨r, hr, hname⟩ := List.mem_map.mp hmem
    obtain ⟨g, _, hfiles, hserves⟩ := exists_of_forall₂ hrs hr
    have hpath : r.path = p :=
      (hlisted _ hfiles).eq_of_nameIn_eq plain (hlisted p hp) hbase hname
    refine ⟨r, hr, hpath, ?_⟩
    have hfile := hserves.suggested.file
    rw [hpath, hsuggested.file] at hfile
    cases eq_of_utf8_eq (Entry.file.inj (Option.some.inj hfile))
    rfl

end Groups

end QueryLint.Project
