import QueryLint.Project.Apply
import QueryLint.Proofs.Files.Links
import QueryLint.Proofs.Finding.Replacement
import QueryLint.Proofs.Related

/-!
# What is said of suggestions that are applied

Applying suggestions to a file can stop at every operation on files, and what is said of it then should be
what came of it. The file is indeed as it was whenever an error is told, it is never written before the
copy is made, and without an error it holds what the edits give, with as many of them as is said. But the
edits are counted before the copy is made and the file is written, and the count is not taken back: an
error of one of these two operations comes with the number of edits that were to be applied.
-/
namespace QueryLint.Project

open QueryLint.Files QueryLint.Finding QueryLint.Text
open QueryLint.Finding.Edit (applyAll weave)

variable {σ : Type}

namespace FileAccess

variable (access : FileAccess σ)

/-- Whether, in sound states, what is written is read back, and a copy holds what the file holds, leaves
the file as it is, and stays when the file is written afterwards. -/
structure IsFaithful (sound : σ → Prop) : Prop where
  write : ∀ {state state' p content}, sound state → access.write state p content = .ok state' →
    access.read state' p = .ok content
  copy : ∀ {state state' p q}, sound state → access.copy state p q = .ok state' →
    sound state' ∧ ∃ content kept, Disk.IsCopyPath p q kept ∧ access.read state p = .ok content ∧
      access.read state' p = .ok content ∧ access.read state' kept = .ok content ∧
      ∀ later final, access.write state' p later = .ok final → access.read final kept = .ok content

/-- The state that a file is written in: after a copy is made, if one is wanted. -/
def prepared (state : σ) (p : FilePath) (createBackup : Bool) : Except String σ :=
  if createBackup then access.copy state p (p.extendName backupSuffix) else .ok state

/-- The state after a file is written, with a copy made before if one is wanted. -/
def replaced (state : σ) (p : FilePath) (createBackup : Bool) (content : Bytes) : Except String σ :=
  access.prepared state p createBackup >>= fun ready => access.write ready p content

end FileAccess

/-- The operations on disks are faithful, also where there are links. -/
theorem isFaithful_diskAccess : diskAccess.IsFaithful Disk.IsGrounded where
  write grounded h :=
    mapError_eq_ok_iff.mpr (Disk.read_of_write grounded (mapError_eq_ok_iff.mp h))
  copy grounded h := by
    obtain ⟨grounded', content, kept, hpath, hold, hfile, hkept, hlater⟩ :=
      Disk.read_of_copy grounded (mapError_eq_ok_iff.mp h)
    refine ⟨grounded', content, kept, hpath, mapError_eq_ok_iff.mpr hold,
      mapError_eq_ok_iff.mpr hfile, mapError_eq_ok_iff.mpr hkept, fun later final h => ?_⟩
    exact mapError_eq_ok_iff.mpr (hlater later final (mapError_eq_ok_iff.mp h))

/-- Whether the edits that lie in a text begin and end between its characters. -/
structure SuitsText (text : String) (edits : List Edit) : Prop where
  range : ∀ e ∈ edits, 0 ≤ e.start ∧ e.start ≤ e.stop
  boundary : ∀ e ∈ edits, e.stop ≤ byteLength text → IsBoundary text e.start ∧ IsBoundary text e.stop

/-- The path that is given for the copy, if one is wanted. -/
def backupOf (p : FilePath) (createBackup : Bool) : Option FilePath :=
  if createBackup then some (p.extendName backupSuffix) else none

section Endings

variable (access : FileAccess σ) (state : σ) (p : FilePath) (findings : List Finding)

/-- Whether a file is there with a text, and what the edits come to for it. -/
structure IsEdited (text : String) (outcome : Edit.Outcome) : Prop where
  there : access.hasEntry state p
  read : access.read state p = .ok (utf8 text)
  edits : applyAll text (firstEdits findings) = .ok outcome

variable (createBackup dryRun : Bool)

/-- The ways in which applying suggestions can end. -/
inductive Ending : Applied → σ → Prop
  /-- There is no text to apply them to. -/
  | noText (error : String)
      (h : ¬ ∃ text, access.hasEntry state p ∧ access.read state p = .ok (utf8 text)) :
      Ending ⟨0, 0, none, [error]⟩ state
  /-- Nothing is to be written. -/
  | unwritten {text outcome} (edited : IsEdited access state p findings text outcome)
      (h : dryRun ∨ outcome.applied = 0) :
      Ending ⟨outcome.applied, outcome.skipped, none, []⟩ state
  | notCopied {text outcome} (edited : IsEdited access state p findings text outcome)
      (h : ¬ (dryRun ∨ outcome.applied = 0)) {error}
      (failed : access.prepared state p createBackup = .error error) :
      Ending ⟨outcome.applied, outcome.skipped, none, ["Error creating backup: " ++ error]⟩ state
  | notWritten {text outcome} (edited : IsEdited access state p findings text outcome)
      (h : ¬ (dryRun ∨ outcome.applied = 0)) {ready error}
      (copied : access.prepared state p createBackup = .ok ready)
      (failed : access.write ready p (utf8 outcome.text) = .error error) :
      Ending ⟨outcome.applied, outcome.skipped, backupOf p createBackup,
        ["Error writing file: " ++ error]⟩ ready
  | written {text outcome} (edited : IsEdited access state p findings text outcome)
      (h : ¬ (dryRun ∨ outcome.applied = 0)) {ready state'}
      (copied : access.prepared state p createBackup = .ok ready)
      (done : access.write ready p (utf8 outcome.text) = .ok state') :
      Ending ⟨outcome.applied, outcome.skipped, backupOf p createBackup, []⟩ state'

/-- Whether there are edits to be applied but the copy cannot be made, or the file not be written. -/
def FailsLate : Prop :=
  ∃ text outcome, IsEdited access state p findings text outcome ∧
    ¬ (dryRun ∨ outcome.applied = 0) ∧
    ∃ error, access.replaced state p createBackup (utf8 outcome.text) = .error error

end Endings

variable {access : FileAccess σ} {state state' : σ} {p : FilePath} {findings : List Finding}
  {createBackup dryRun : Bool} {a : Applied}

theorem ending_writeContent {text : String} {outcome : Edit.Outcome} {ready : σ}
    (edited : IsEdited access state p findings text outcome)
    (h : ¬ (dryRun ∨ outcome.applied = 0))
    (copied : access.prepared state p createBackup = .ok ready)
    (hends : writeContent access ready p (utf8 outcome.text)
      ⟨outcome.applied, outcome.skipped, backupOf p createBackup, []⟩ = (a, state')) :
    Ending access state p findings createBackup dryRun a state' := by
  unfold writeContent at hends
  cases hwrite : access.write ready p (utf8 outcome.text) with
  | error e =>
    rw [hwrite] at hends
    cases hends
    exact .notWritten edited h copied hwrite
  | ok final =>
    rw [hwrite] at hends
    cases hends
    exact .written edited h copied hwrite

theorem ending_replaceContent {text : String} {outcome : Edit.Outcome}
    (edited : IsEdited access state p findings text outcome)
    (h : ¬ (dryRun ∨ outcome.applied = 0))
    (hends : replaceContent access state p (utf8 outcome.text) createBackup
      ⟨outcome.applied, outcome.skipped, none, []⟩ = (a, state')) :
    Ending access state p findings createBackup dryRun a state' := by
  cases createBackup with
  | false => exact ending_writeContent edited h rfl hends
  | true =>
    simp only [replaceContent, if_true] at hends
    cases hcopy : access.copy state p (p.extendName backupSuffix) with
    | error e =>
      rw [hcopy] at hends
      cases hends
      exact .notCopied edited h hcopy
    | ok ready =>
      rw [hcopy] at hends
      exact ending_writeContent edited h hcopy hends

/-- Applying suggestions ends in one of these ways. -/
theorem ending_applySuggestions
    (hends : applySuggestions access state p findings createBackup dryRun = .ok (a, state')) :
    Ending access state p findings createBackup dryRun a state' := by
  simp only [applySuggestions] at hends
  by_cases hthere : access.hasEntry state p = true
  · rw [if_pos hthere] at hends
    cases hread : access.read state p with
    | error e =>
      rw [hread] at hends
      cases hends
      exact .noText _ (by simp [hread])
    | ok content =>
      simp only [hread] at hends
      cases hdecode : decode content with
      | error fault =>
        rw [hdecode] at hends
        cases hends
        refine .noText _ fun hyp => ?_
        obtain ⟨text, _, htext⟩ := hyp
        rw [hread] at htext
        cases htext
        rw [decode_utf8] at hdecode
        cases hdecode
      | ok text =>
        simp only [hdecode] at hends
        cases hedits : applyAll text (firstEdits findings) with
        | error fault =>
          rw [hedits] at hends
          cases hends
        | ok outcome =>
          have edited : IsEdited access state p findings text outcome :=
            ⟨hthere, by rw [hread, utf8_of_decode hdecode], hedits⟩
          simp only [hedits, Except.map, Except.ok.injEq] at hends
          by_cases h : dryRun ∨ outcome.applied = 0
          · rw [if_pos h] at hends
            cases hends
            exact .unwritten edited h
          · rw [if_neg h] at hends
            exact ending_replaceContent edited h hends
  · rw [if_neg hthere] at hends
    cases hends
    exact .noText _ (by simp [hthere])

/-- With edits that suit the text there is always an answer. -/
theorem exists_applySuggestions
    (suits : ∀ text, access.read state p = .ok (utf8 text) → SuitsText text (firstEdits findings)) :
    ∃ a state', applySuggestions access state p findings createBackup dryRun = .ok (a, state') := by
  simp only [applySuggestions]
  split
  · split
    · exact ⟨_, _, rfl⟩
    · next content hread =>
      split
      · exact ⟨_, _, rfl⟩
      · next text hdecode =>
        have hsuits := suits text (by rw [hread, utf8_of_decode hdecode])
        obtain ⟨outcome, hedits, _⟩ := Edit.applyAll_eq_selection hsuits.range hsuits.boundary
        rw [hedits]
        exact ⟨_, _, rfl⟩
  · exact ⟨_, _, rfl⟩

/-! ### What each ending comes to -/

theorem IsEdited.unique {text text' : String} {outcome outcome' : Edit.Outcome}
    (h : IsEdited access state p findings text outcome)
    (h' : IsEdited access state p findings text' outcome') : text = text' ∧ outcome = outcome' := by
  have hread := h.read.symm.trans h'.read
  have htext : text = text' := eq_of_utf8_eq (Except.ok.inj hread)
  subst htext
  exact ⟨rfl, Except.ok.inj (h.edits.symm.trans h'.edits)⟩

/-- An error comes with no edits, unless it is one of a copy or a file that could not be written. -/
theorem Ending.count_iff (h : Ending access state p findings createBackup dryRun a state') :
    (a.errors ≠ [] → a.applied = 0) ↔ ¬ FailsLate access state p findings createBackup dryRun := by
  cases h with
  | noText error hnone =>
    refine iff_of_true (fun _ => rfl) fun hfails => ?_
    obtain ⟨text, outcome, edited, _⟩ := hfails
    exact hnone ⟨text, edited.there, edited.read⟩
  | unwritten edited hnothing =>
    refine iff_of_true (fun herrors => absurd rfl herrors) fun hfails => ?_
    obtain ⟨text, outcome, edited', hsome, _⟩ := hfails
    obtain ⟨rfl, rfl⟩ := edited.unique edited'
    exact hsome hnothing
  | @notCopied text outcome edited hsome error failed =>
    refine iff_of_false (fun hcount => hsome (.inr (hcount (List.cons_ne_nil _ _)))) ?_
    refine not_not_intro ⟨text, outcome, edited, hsome, error, ?_⟩
    rw [FileAccess.replaced, failed]
    rfl
  | @notWritten text outcome edited hsome ready error copied failed =>
    refine iff_of_false (fun hcount => hsome (.inr (hcount (List.cons_ne_nil _ _)))) ?_
    refine not_not_intro ⟨text, outcome, edited, hsome, error, ?_⟩
    rw [FileAccess.replaced, copied]
    exact failed
  | written edited hsome copied done =>
    refine iff_of_true (fun herrors => absurd rfl herrors) fun hfails => ?_
    obtain ⟨text, outcome, edited', _, error, hreplaced⟩ := hfails
    obtain ⟨rfl, rfl⟩ := edited.unique edited'
    rw [FileAccess.replaced, bind_eq_ok_iff.mpr ⟨_, copied, done⟩] at hreplaced
    cases hreplaced

theorem Ending.eq_of_dryRun (h : Ending access state p findings createBackup true a state') :
    state' = state := by
  cases h with
  | noText => rfl
  | unwritten => rfl
  | notCopied _ hsome => exact absurd (.inl rfl) hsome
  | notWritten _ hsome => exact absurd (.inl rfl) hsome
  | written _ hsome => exact absurd (.inl rfl) hsome

section Faithful

variable {sound : σ → Prop} (faithful : access.IsFaithful sound) (hsound : sound state)

include faithful hsound

/-- A file is written in a sound state where it reads as at first. -/
theorem prepared_faithful {ready : σ} {content : Bytes}
    (hread : access.read state p = .ok content)
    (h : access.prepared state p createBackup = .ok ready) :
    sound ready ∧ access.read ready p = .ok content := by
  cases createBackup with
  | false =>
    cases h
    exact ⟨hsound, hread⟩
  | true =>
    obtain ⟨hready, content', kept, _, hold, hfile, _⟩ := faithful.copy hsound h
    cases hread.symm.trans hold
    exact ⟨hready, hfile⟩

/-- With an error the file is as it was. -/
theorem Ending.read_of_error (h : Ending access state p findings createBackup dryRun a state')
    (herror : a.errors ≠ []) : access.read state' p = access.read state p := by
  cases h with
  | noText => rfl
  | unwritten => rfl
  | notCopied => rfl
  | notWritten edited _ copied _ =>
    rw [(prepared_faithful faithful hsound edited.read copied).2, edited.read]
  | written => exact absurd rfl herror

/-- Without an error the file holds what the edits give. -/
theorem Ending.read_of_success (h : Ending access state p findings createBackup false a state')
    (hsuits : ∀ text, access.read state p = .ok (utf8 text) → SuitsText text (firstEdits findings))
    (herror : a.errors = []) : ∃ text outcome, IsEdited access state p findings text outcome ∧
      a.applied = outcome.applied ∧ access.read state' p = .ok (utf8 outcome.text) := by
  cases h with
  | noText => cases herror
  | @unwritten text outcome edited hnothing =>
    refine ⟨text, outcome, edited, rfl, ?_⟩
    -- no edit is applied, so the edits give the text itself
    have hnone : outcome.applied = 0 := hnothing.resolve_left Bool.false_ne_true
    have suits := hsuits text edited.read
    obtain ⟨outcome', hedits, htext, hcount, _⟩ :=
      Edit.applyAll_eq_selection suits.range suits.boundary
    cases edited.edits.symm.trans hedits
    rw [hcount] at hnone
    rw [List.length_eq_zero_iff.mp hnone] at htext
    rw [edited.read, htext]
    rfl
  | notCopied => cases herror
  | notWritten => cases herror
  | written edited _ copied done =>
    obtain ⟨hready, _⟩ := prepared_faithful faithful hsound edited.read copied
    exact ⟨_, _, edited, rfl, faithful.write hready done⟩

/-- Whether a file is as it was, or a copy of what it held was made before anything was written and is
still there. -/
def IsKept (access : FileAccess σ) (state : σ) (p : FilePath) (state' : σ) : Prop :=
  state' = state ∨ ∃ ready content kept,
    access.copy state p (p.extendName backupSuffix) = .ok ready ∧
    Disk.IsCopyPath p (p.extendName backupSuffix) kept ∧ access.read state p = .ok content ∧
    access.read ready kept = .ok content ∧
    (state' = ready ∨ ∃ later, access.write ready p later = .ok state') ∧
    access.read state' kept = .ok content

theorem Ending.isKept (h : Ending access state p findings true dryRun a state') :
    IsKept access state p state' := by
  cases h with
  | noText => exact .inl rfl
  | unwritten => exact .inl rfl
  | notCopied => exact .inl rfl
  | notWritten _ _ copied _ =>
    obtain ⟨_, content, kept, hpath, hold, _, hkept, _⟩ := faithful.copy hsound copied
    exact .inr ⟨_, content, kept, copied, hpath, hold, hkept, .inl rfl, hkept⟩
  | written _ _ copied done =>
    obtain ⟨_, content, kept, hpath, hold, _, hkept, hlater⟩ := faithful.copy hsound copied
    exact .inr ⟨_, content, kept, copied, hpath, hold, hkept, .inr ⟨_, done⟩, hlater _ _ done⟩

/-- Whatever the operations on files come to, applying suggestions leaves the file as it was if an error is
told, and else writes what the edits give, after a copy was made if one is wanted. An error comes with
no edits exactly if it is not one of a copy or a file that could not be written. -/
theorem applySuggestions_reports
    (hsuits : ∀ text, access.read state p = .ok (utf8 text) → SuitsText text (firstEdits findings))
    (createBackup dryRun : Bool) :
    ∃ a state', applySuggestions access state p findings createBackup dryRun = .ok (a, state') ∧
      (a.errors ≠ [] → access.read state' p = access.read state p) ∧
      ((a.errors ≠ [] → a.applied = 0) ↔
        ¬ FailsLate access state p findings createBackup dryRun) ∧
      (a.errors = [] → dryRun = false → ∃ text outcome, ∃ chosen : List Edit,
        access.read state p = .ok (utf8 text) ∧ applyAll text (firstEdits findings) = .ok outcome ∧
        access.read state' p = .ok (utf8 outcome.text) ∧ chosen.Subperm (firstEdits findings) ∧
        utf8 outcome.text = weave (utf8 text) 0 chosen ∧ a.applied = chosen.length) ∧
      (createBackup → IsKept access state p state') ∧ (dryRun → state' = state) := by
  obtain ⟨a, state', hends⟩ := @exists_applySuggestions _ _ _ _ _ createBackup dryRun hsuits
  have hending := ending_applySuggestions hends
  refine ⟨a, state', hends, hending.read_of_error faithful hsound, hending.count_iff, ?_, ?_, ?_⟩
  · intro herror hwritten
    subst hwritten
    obtain ⟨text, outcome, edited, hcount, hread⟩ :=
      hending.read_of_success faithful hsound hsuits herror
    have suits := hsuits text edited.read
    obtain ⟨outcome', chosen, hedits, hsub, _, _, htext, hlength, _⟩ :=
      Edit.applyAll_eq_weave suits.range suits.boundary
    cases edited.edits.symm.trans hedits
    exact ⟨text, outcome, chosen, edited.read, edited.edits, hread, hsub, htext,
      hcount.trans hlength⟩
  · intro hbackup
    subst hbackup
    exact hending.isKept faithful hsound
  · intro hdry
    subst hdry
    exact hending.eq_of_dryRun

end Faithful

/-- A finding whose suggestion replaces the first character. -/
def firstCharacter : Finding where
  id := "tl_00000000_0000"
  ruleId := "prefer-find-by"
  ruleType := .suggestion
  severity := .warn
  messageId := "preferFindBy"
  message := "Prefer another character"
  location := ⟨"t.test.js", 1, 1, 1, 2⟩
  fingerprint := ""
  snippet := ""
  data := []
  suggestions := [⟨"preferFindBy", "Use another character", ⟨0, 1, "X"⟩⟩]

section Examples

variable {disk : Disk}

theorem hasEntry_of_locate {names : List String} {entry : Entry}
    (h : disk.locate p = .ok ⟨names, some entry⟩) : diskAccess.hasEntry disk p = true := by
  have hstat : disk.stat p = .ok entry := by rw [Disk.stat, h]
  exact congrArg Except.isOk hstat

theorem read_of_locate {names : List String} {content : Bytes}
    (h : disk.locate p = .ok ⟨names, some (.file content)⟩) :
    diskAccess.read disk p = .ok content :=
  congrArg (Except.mapError _) (Disk.read_eq_ok_iff.mpr ⟨_, h⟩)

theorem suitsText_firstCharacter : SuitsText "abc\n" (firstEdits [firstCharacter]) where
  range := by decide
  boundary := by
    intro e he _
    cases List.mem_singleton.mp he
    have hone : IsBoundary "abc\n" 1 := ⟨"a", "bc\n", rfl, rfl⟩
    exact ⟨isBoundary_zero _, hone⟩

theorem suits_firstCharacter (hread : diskAccess.read disk p = .ok (utf8 "abc\n")) (text : String)
    (h : diskAccess.read disk p = .ok (utf8 text)) : SuitsText text (firstEdits [firstCharacter]) := by
  rw [hread] at h
  cases eq_of_utf8_eq (Except.ok.inj h)
  exact suitsText_firstCharacter

theorem isEdited_firstCharacter (hthere : diskAccess.hasEntry disk p)
    (hread : diskAccess.read disk p = .ok (utf8 "abc\n")) :
    ∃ outcome, IsEdited diskAccess disk p [firstCharacter] "abc\n" outcome ∧
      outcome.text = "Xbc\n" ∧ outcome.applied = 1 := by
  obtain ⟨outcome, hedits, htext, hcount, _⟩ := Edit.applyAll_eq_selection
    suitsText_firstCharacter.range suitsText_firstCharacter.boundary
  have hselection : Edit.selection (byteLength "abc\n") (firstEdits [firstCharacter]) =
      [⟨0, 1, "X"⟩] := by
    have hfirst : firstEdits [firstCharacter] = [⟨0, 1, "X"⟩] := rfl
    rw [Edit.selection, hfirst, List.mergeSort_singleton]
    decide
  rw [hselection] at htext hcount
  exact ⟨outcome, ⟨hthere, hread, hedits⟩, eq_of_utf8_eq (htext.trans (by decide)), hcount⟩

end Examples

/-- A file that a link leads to. -/
def linkedFile : Disk where
  entries := [(["t.test.js"], .link ⟨.current, ["real.test.js"]⟩),
    (["real.test.js"], .file (utf8 "abc\n"))]
  current := []

theorem locate_linkedFile : linkedFile.locate ⟨.current, ["t.test.js"]⟩ =
    .ok ⟨["real.test.js"], some (.file (utf8 "abc\n"))⟩ :=
  (Disk.follow_link (by decide) rfl).trans (Disk.follow_to_file (by decide) rfl)

/-- With a copy beside it, the link is written through as before. -/
theorem write_linkedFile (content : Bytes) :
    (linkedFile.put ["t.test.js.bak"] (.file (utf8 "abc\n"))).write ⟨.current, ["t.test.js"]⟩ content =
      .ok ((linkedFile.put ["t.test.js.bak"] (.file (utf8 "abc\n"))).put ["real.test.js"]
        (.file content)) := by
  have hlocate : (linkedFile.put ["t.test.js.bak"] (.file (utf8 "abc\n"))).locate
      ⟨.current, ["t.test.js"]⟩ = .ok ⟨["real.test.js"], some (.file (utf8 "abc\n"))⟩ :=
    (Disk.follow_link (by decide) rfl).trans (Disk.follow_to_file (by decide) rfl)
  rw [Disk.write, hlocate]

/-- Through the link, the file is rewritten and its copy kept. -/
theorem applySuggestions_reports_linkedFile : ∃ a disk',
    applySuggestions diskAccess linkedFile ⟨.current, ["t.test.js"]⟩ [firstCharacter] true false =
      .ok (a, disk') ∧ a.errors = [] ∧ a.applied = 1 ∧
      diskAccess.read disk' ⟨.current, ["t.test.js"]⟩ = .ok (utf8 "Xbc\n") ∧
      IsKept diskAccess linkedFile ⟨.current, ["t.test.js"]⟩ disk' := by
  have hthere := hasEntry_of_locate locate_linkedFile
  have hread := read_of_locate locate_linkedFile
  have hmissing : linkedFile.locate ⟨.current, ["t.test.js.bak"]⟩ = .ok ⟨["t.test.js.bak"], none⟩ :=
    Disk.follow_last (by decide) rfl nofun
  have hcopy : diskAccess.copy linkedFile ⟨.current, ["t.test.js"]⟩ ⟨.current, ["t.test.js.bak"]⟩ =
      .ok (linkedFile.put ["t.test.js.bak"] (.file (utf8 "abc\n"))) :=
    congrArg (Except.mapError _) (Disk.copy_to_missing locate_linkedFile hmissing)
  have hwrite : ∀ content, diskAccess.write (linkedFile.put ["t.test.js.bak"] (.file (utf8 "abc\n")))
      ⟨.current, ["t.test.js"]⟩ content =
        .ok ((linkedFile.put ["t.test.js.bak"] (.file (utf8 "abc\n"))).put ["real.test.js"]
          (.file content)) :=
    fun content => congrArg (Except.mapError _) (write_linkedFile content)
  have hbackup : FilePath.extendName ⟨.current, ["t.test.js"]⟩ backupSuffix =
      ⟨.current, ["t.test.js.bak"]⟩ := by decide
  obtain ⟨outcome, edited, htext, hcount⟩ := isEdited_firstCharacter hthere hread
  have grounded : linkedFile.IsGrounded := Disk.isRooted_nil
  obtain ⟨a, disk', hends, _, _, hsuccess, hkept, _⟩ := applySuggestions_reports isFaithful_diskAccess
    grounded (suits_firstCharacter hread) true false
  have hresult := hends
  simp only [applySuggestions, hthere, hread, decode_utf8, edited.edits, Except.map, if_true, hcount,
    Nat.one_ne_zero, or_false, Bool.false_eq_true, if_false, replaceContent, hbackup, hcopy,
    writeContent, hwrite] at hresult
  cases hresult
  obtain ⟨text, outcome', _, hold, hedits, hnew, _⟩ := hsuccess rfl rfl
  cases eq_of_utf8_eq (Except.ok.inj (hread.symm.trans hold))
  cases edited.edits.symm.trans hedits
  exact ⟨_, _, hends, rfl, rfl, hnew.trans (by rw [htext]), hkept rfl⟩

/-- A file, and in the place of its copy a link into a folder that is missing. -/
def lostCopy : Disk where
  entries := [(["t.test.js"], .file (utf8 "abc\n")),
    (["t.test.js.bak"], .link ⟨.current, ["old", "t.test.js"]⟩)]
  current := []

theorem copy_lostCopy (copied : Disk) :
    lostCopy.copy ⟨.current, ["t.test.js"]⟩ ⟨.current, ["t.test.js.bak"]⟩ ≠ .ok copied := by
  intro h
  obtain ⟨_, kept, _, spot, hpath, _, hspot, _⟩ := Disk.exists_of_copy h
  cases hpath with
  | inl heq =>
    have hmissing : lostCopy.locate ⟨.current, ["t.test.js.bak"]⟩ = .error .notFound :=
      (Disk.follow_link (by decide) rfl).trans (Disk.follow_missing (by decide) rfl rfl)
    rw [heq, hmissing] at hspot
    cases hspot
  | inr heq =>
    have hmissing : lostCopy.locate ⟨.current, ["t.test.js.bak", "t.test.js"]⟩ = .error .notFound :=
      (Disk.follow_link (by decide) rfl).trans (Disk.follow_missing (by decide) rfl rfl)
    rw [heq] at hspot
    cases hmissing.symm.trans hspot

/-- No copy of `lostCopy` can be made, so that the file stays as it is. Yet an edit is counted. -/
theorem counted_lostCopy : ∃ a disk',
    applySuggestions diskAccess lostCopy ⟨.current, ["t.test.js"]⟩ [firstCharacter] true false =
      .ok (a, disk') ∧ a.errors ≠ [] ∧ a.applied ≠ 0 := by
  have hlocate : lostCopy.locate ⟨.current, ["t.test.js"]⟩ =
      .ok ⟨["t.test.js"], some (.file (utf8 "abc\n"))⟩ :=
    Disk.follow_to_file (by decide) rfl
  have hread := read_of_locate hlocate
  obtain ⟨outcome, edited, _, hcount⟩ := isEdited_firstCharacter (hasEntry_of_locate hlocate) hread
  have hfails : FailsLate diskAccess lostCopy ⟨.current, ["t.test.js"]⟩ [firstCharacter] true false := by
    refine ⟨_, outcome, edited, by simp [hcount], ?_⟩
    cases hcopy : diskAccess.copy lostCopy ⟨.current, ["t.test.js"]⟩ ⟨.current, ["t.test.js.bak"]⟩ with
    | ok copied => exact absurd (mapError_eq_ok_iff.mp hcopy) (copy_lostCopy copied)
    | error e =>
      refine ⟨e, ?_⟩
      have hprepared : diskAccess.prepared lostCopy ⟨.current, ["t.test.js"]⟩ true = .error e := hcopy
      rw [FileAccess.replaced, hprepared]
      rfl
  obtain ⟨a, disk', hends⟩ := @exists_applySuggestions _ diskAccess lostCopy ⟨.current, ["t.test.js"]⟩
    [firstCharacter] true false (suits_firstCharacter hread)
  have hcounted := mt (ending_applySuggestions hends).count_iff.mp (not_not_intro hfails)
  obtain ⟨herrors, happlied⟩ := Classical.not_imp.mp hcounted
  exact ⟨a, disk', hends, herrors, happlied⟩

end QueryLint.Project
