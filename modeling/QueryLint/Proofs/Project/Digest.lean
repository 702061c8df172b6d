import QueryLint.Project.Run
import QueryLint.Proofs.Limits
import QueryLint.Proofs.Project.Listing
import QueryLint.Proofs.Text.Boundary

/-!
# What the digest of a run is made from

A deterministic run is marked by a digest of one text: the names of its files, each with its size in
decimal digits right behind it. Nothing keeps the digits apart from the names around them, so two lists of
names and sizes can have the same text. Where they do, digits count to a size in one list and to a name in
the other: to the name that follows the size, or to a longer name that goes on where the shorter one ends.
-/
namespace QueryLint.Project

open QueryLint.Data QueryLint.Files QueryLint.Text

/-- A file as the digest of a run sees it: its path from the base, and its size. -/
structure SizedName where
  name : String
  size : Nat
  deriving DecidableEq, Repr

/-- A file lies below a base, under a name, and has a size. -/
structure IsSized (disk : Disk) (base p : FilePath) (e : SizedName) : Prop where
  below : ∃ parts, p.below? base = some parts ∧ (FilePath.mk .current parts).toString = e.name
  content : ∃ content, disk.read p = .ok content ∧ content.length = e.size

namespace SizedName

def text (e : SizedName) : List Char := e.name.toList ++ Nat.toDigits 10 e.size

/-- The text that the digest of a run is made from. -/
def allText (es : List SizedName) : List Char := es.flatMap text

/-- Two lists that have the same text, where the first of their names and sizes that are not the same
goes further in the second list than in the first one. -/
inductive RunsTogether : List SizedName → List SizedName → Prop
  /-- The size goes on with the digits that the next name starts with. -/
  | size {x y : SizedName} {xs ys : List SizedName} {digits : List Char} (hname : x.name = y.name)
      (hdigits : digits ≠ []) (hsize : Nat.toDigits 10 y.size = Nat.toDigits 10 x.size ++ digits)
      (hrest : allText xs = digits ++ allText ys) : RunsTogether (x :: xs) (y :: ys)
  /-- The name goes on with the digits of the size. -/
  | name {x y : SizedName} {xs ys : List SizedName} {more : List Char} (hmore : more ≠ [])
      (hname : y.name.toList = x.name.toList ++ more)
      (hrest : Nat.toDigits 10 x.size ++ allText xs = more ++ (Nat.toDigits 10 y.size ++ allText ys)) :
      RunsTogether (x :: xs) (y :: ys)
  | later {xs ys : List SizedName} (e : SizedName) (h : RunsTogether xs ys) :
      RunsTogether (e :: xs) (e :: ys)

variable {e x y : SizedName} {es xs ys : List SizedName}

@[simp] theorem allText_nil : allText [] = [] := rfl

theorem allText_cons (e : SizedName) (es : List SizedName) :
    allText (e :: es) = e.name.toList ++ (Nat.toDigits 10 e.size ++ allText es) := by
  rw [allText, List.flatMap_cons, text, List.append_assoc]
  rfl

theorem allText_cons_ne_nil : allText (e :: es) ≠ [] := by
  simp [allText_cons, Nat.toDigits_ne_nil]

theorem toDigits_injective {m n : Nat} (h : Nat.toDigits 10 m = Nat.toDigits 10 n) : m = n := by
  rw [← Nat.ofDigitChars_ten_toDigits (n := m), h, Nat.ofDigitChars_ten_toDigits]

/-- The first entries of lists with the same text are the same, or the lists run together there. -/
theorem eq_or_runsTogether_cons (h : allText (x :: xs) = allText (y :: ys)) :
    (x = y ∧ allText xs = allText ys) ∨
      RunsTogether (x :: xs) (y :: ys) ∨ RunsTogether (y :: ys) (x :: xs) := by
  rw [allText_cons, allText_cons] at h
  by_cases hname : x.name = y.name
  · rw [hname, List.append_cancel_left_eq] at h
    by_cases hsize : x.size = y.size
    · rw [hsize, List.append_cancel_left_eq] at h
      obtain ⟨xname, xsize⟩ := x
      obtain rfl : xname = y.name := hname
      obtain rfl : xsize = y.size := hsize
      exact .inl ⟨rfl, h⟩
    · rcases List.append_eq_append_iff.mp h with ⟨digits, hdigits, hrest⟩ | ⟨digits, hdigits, hrest⟩
      · refine .inr (.inl (.size hname ?_ hdigits hrest))
        rintro rfl
        exact hsize (toDigits_injective (by rw [hdigits, List.append_nil]))
      · refine .inr (.inr (.size hname.symm ?_ hdigits hrest))
        rintro rfl
        exact hsize (toDigits_injective (by rw [hdigits, List.append_nil]))
  · rcases List.append_eq_append_iff.mp h with ⟨more, hmore, hrest⟩ | ⟨more, hmore, hrest⟩
    · refine .inr (.inl (.name ?_ hmore hrest))
      rintro rfl
      exact hname (String.toList_inj.mp (by rw [hmore, List.append_nil]))
    · refine .inr (.inr (.name ?_ hmore hrest))
      rintro rfl
      exact hname (String.toList_inj.mp (by rw [hmore, List.append_nil]))

theorem RunsTogether.allText_eq (h : RunsTogether xs ys) : allText xs = allText ys := by
  induction h with
  | size hname _ hsize hrest =>
    rw [allText_cons, allText_cons, hname, hsize, hrest, List.append_assoc]
  | name _ hname hrest => rw [allText_cons, allText_cons, hname, hrest, List.append_assoc]
  | later e _ ih => rw [allText_cons, allText_cons, ih]

/-- Different lists have the same text exactly if they run together somewhere. -/
theorem allText_eq_iff :
    allText xs = allText ys ↔ xs = ys ∨ RunsTogether xs ys ∨ RunsTogether ys xs := by
  constructor
  · intro h
    induction xs generalizing ys with
    | nil =>
      cases ys with
      | nil => exact .inl rfl
      | cons y ys => exact absurd h.symm allText_cons_ne_nil
    | cons x xs ih =>
      cases ys with
      | nil => exact absurd h allText_cons_ne_nil
      | cons y ys =>
        rcases eq_or_runsTogether_cons h with ⟨rfl, hrest⟩ | hfirst
        · rcases ih hrest with rfl | hlater | hlater
          · exact .inl rfl
          · exact .inr (.inl (.later x hlater))
          · exact .inr (.inr (.later x hlater))
        · exact .inr hfirst
  · rintro (rfl | h | h)
    · rfl
    · exact h.allText_eq
    · exact h.allText_eq.symm

/-- A name that goes on with a digit where another one ends. -/
def GoesOnInDigits (name longer : String) : Prop :=
  ∃ c more, c.isDigit ∧ longer.toList = name.toList ++ c :: more

/-- Lists in which no digit of a name can be taken for one of a size: behind the first file no name starts
with a digit, and no name is that of a file in the other list with a digit behind it. -/
structure IsApart (xs ys : List SizedName) : Prop where
  starts : ∀ e ∈ xs.tail ++ ys.tail, ∀ c ∈ e.name.toList.head?, ¬ c.isDigit
  ends : ∀ x ∈ xs, ∀ y ∈ ys, ¬ GoesOnInDigits x.name y.name ∧ ¬ GoesOnInDigits y.name x.name

theorem IsApart.symm (h : IsApart xs ys) : IsApart ys xs where
  starts e he := h.starts e (List.mem_append.mpr (List.mem_append.mp he).symm)
  ends y hy x hx := (h.ends x hx y hy).symm

theorem IsApart.of_cons (h : IsApart (x :: xs) (y :: ys)) : IsApart xs ys where
  starts e he := h.starts e <| List.mem_append.mpr <|
    (List.mem_append.mp he).imp List.mem_of_mem_tail List.mem_of_mem_tail
  ends x' hx' y' hy' := h.ends x' (List.mem_cons_of_mem _ hx') y' (List.mem_cons_of_mem _ hy')

theorem RunsTogether.not_isApart (h : RunsTogether xs ys) (hnamed : ∀ e ∈ xs, e.name ≠ "") :
    ¬ IsApart xs ys := by
  induction h with
  | @size x y xs ys digits _ hdigits hsize hrest =>
    intro hapart
    obtain ⟨c, more, rfl⟩ := List.exists_cons_of_ne_nil hdigits
    have hmem : c ∈ Nat.toDigits 10 y.size := by simp [hsize]
    have hc : c.isDigit := Nat.isDigit_of_mem_toDigits (by decide) (by decide) hmem
    cases xs with
    | nil => simp at hrest
    | cons e es =>
      have hname : e.name.toList ≠ [] := by simpa using hnamed e (by simp)
      obtain ⟨d, ds, hd⟩ := List.exists_cons_of_ne_nil hname
      rw [allText_cons, hd] at hrest
      obtain rfl := List.head_eq_of_cons_eq hrest
      exact hapart.starts e (by simp) d (by simp [hd]) hc
  | @name x y xs ys more hmore hname hrest =>
    intro hapart
    obtain ⟨c, more, rfl⟩ := List.exists_cons_of_ne_nil hmore
    obtain ⟨d, ds, hd⟩ := List.exists_cons_of_ne_nil (@Nat.toDigits_ne_nil x.size 10)
    have hmem : d ∈ Nat.toDigits 10 x.size := by simp [hd]
    have hdigit : d.isDigit := Nat.isDigit_of_mem_toDigits (by decide) (by decide) hmem
    rw [hd] at hrest
    obtain rfl := List.head_eq_of_cons_eq hrest
    exact (hapart.ends x (by simp) y (by simp)).1 ⟨d, more, hdigit, hname⟩
  | later e _ ih =>
    exact fun hapart => ih (fun e he => hnamed e (List.mem_cons_of_mem _ he)) hapart.of_cons

end SizedName

open SizedName

variable {disk disk' : Disk} {base base' : FilePath} {files files' : List FilePath}
  {entries entries' : List SizedName}

theorem digestPart_eq {p : FilePath} {e : SizedName} (h : IsSized disk base p e) :
    digestPart disk base p = utf8 (String.ofList e.text) := by
  obtain ⟨parts, hparts, hname⟩ := h.below
  obtain ⟨content, hread, hsize⟩ := h.content
  have htext : String.ofList e.text = e.name ++ toString e.size := by
    rw [SizedName.text, String.ofList_append, String.ofList_toList, Nat.toString_eq_ofList_toDigits]
  simp only [digestPart, hparts, hread, hname, hsize, htext, utf8_append,
    Limits.strayBytes?_unlimited, Option.isSome_none, Bool.false_eq_true, if_false]

theorem flatMap_digestPart (h : List.Forall₂ (IsSized disk base) files entries) :
    files.flatMap (digestPart disk base) = utf8 (String.ofList (allText entries)) := by
  induction h with
  | nil => rfl
  | cons hpart _ ih =>
    rw [List.flatMap_cons, ih, digestPart_eq hpart, ← utf8_append, ← String.ofList_append]
    rfl

theorem name_ne_empty (h : List.Forall₂ (IsSized disk base) files entries) :
    ∀ e ∈ entries, e.name ≠ "" := by
  intro e he
  obtain ⟨p, _, ⟨parts, _, hname⟩, _⟩ := exists_of_forall₂ h he
  rw [← hname, FilePath.toString]
  split <;> simp_all

/-- Two runs have the same digest of their files exactly if the files have the same names and sizes, or the
names and sizes run together. Between lists of names that no digits can be taken from, or added to, the
digest tells all lists apart. -/
theorem digest_eq_iff (h : List.Forall₂ (IsSized disk base) files entries)
    (h' : List.Forall₂ (IsSized disk' base') files' entries') :
    (files.flatMap (digestPart disk base) = files'.flatMap (digestPart disk' base') ↔
        entries = entries' ∨ RunsTogether entries entries' ∨ RunsTogether entries' entries) ∧
      (IsApart entries entries' →
        (files.flatMap (digestPart disk base) = files'.flatMap (digestPart disk' base') ↔
          entries = entries')) := by
  have hiff : files.flatMap (digestPart disk base) = files'.flatMap (digestPart disk' base') ↔
      entries = entries' ∨ RunsTogether entries entries' ∨ RunsTogether entries' entries := by
    rw [flatMap_digestPart h, flatMap_digestPart h', ← allText_eq_iff]
    exact ⟨fun htext => String.ofList_injective (eq_of_utf8_eq htext), fun htext => by rw [htext]⟩
  refine ⟨hiff, fun hapart => hiff.trans (or_iff_left ?_)⟩
  rintro (hruns | hruns)
  · exact hruns.not_isApart (name_ne_empty h) hapart
  · exact hruns.not_isApart (name_ne_empty h') hapart.symm

/-- The file of another project goes by the name of a file followed by a digit and more. -/
example : allText [⟨"a.js", 1⟩, ⟨"b.js", 5⟩] = allText [⟨"a.js1b.js", 5⟩] := by decide

/-- A project of two files, the first of which has a given content, and the second a given name. -/
def pair (content : Bytes) (second : String) : Disk where
  entries :=
    [(["p"], .folder), (["p", "1.test.js"], .file content), (["p", second], .file (utf8 "x();\n"))]
  current := []

/-- A text of fifty-one bytes. -/
def longText : Bytes := utf8 "test('t', async () => \x7b\n  await waitFor(...a);\n\x7d);\n"

section Pair

variable {content : Bytes} {second : String} (hsecond : second ∈ ["1b.test.js", "b.test.js"])

include hsecond

theorem isPlain_pair : (pair content second).IsPlain := by
  have hnames : IsProperName second := by
    revert second
    decide
  refine ⟨by simp [pair], ?_, by simp [pair, Disk.entryAt, List.lookup_cons], rfl⟩
  have hfirst : IsProperName "p" ∧ IsProperName "1.test.js" := by decide
  simp [pair, hnames, hfirst]

theorem entryAt_pair : (pair content second).entryAt ["p", second] = some (.file (utf8 "x();\n")) := by
  have hne : (second == "1.test.js") = false := by
    revert second
    decide
  simp [pair, Disk.entryAt, List.lookup_cons, hne]

theorem discover_pair (hsize : content.length ≤ 2000000) :
    discover (pair content second) ⟨.root, ["p"]⟩ (.texts ["*.test.js"]) (.texts [])
      (.int (2000000 : Nat)) = .ok [⟨.root, ["p", "1.test.js"]⟩, ⟨.root, ["p", second]⟩] := by
  have hglob : Glob.ofString "*.test.js" = .ok ⟨[.wildcard "*.test.js"], false⟩ := by
    decide
  have hnames : ((pair content second).namesIn ["p"]).filter (nameMatches "*.test.js") =
      ["1.test.js", second] := by
    have hall : ∀ s ∈ ["1b.test.js", "b.test.js"],
        ["1.test.js", s].filter (nameMatches "*.test.js") = ["1.test.js", s] := by decide
    rw [← hall second hsecond]
    simp [Disk.namesIn, pair]
  have hsorted : ∀ s ∈ ["1b.test.js", "b.test.js"], (["1.test.js", s].map fun name =>
      (⟨.root, ["p"] ++ [name]⟩ : FilePath)).Pairwise fun p q => p.orderKey < q.orderKey := by
    decide
  have hlistable : ∀ s ∈ ["1.test.js", "1b.test.js", "b.test.js"],
      s ∉ alwaysExcluded ∧ isSupported ⟨.root, ["p"] ++ [s]⟩ := by decide
  refine discover_wildcard (isPlain_pair hsecond) rfl hglob hnames ?_ (hsorted second hsecond)
  rw [List.forall_mem_cons, List.forall_mem_singleton]
  obtain ⟨hexcluded, hsupported⟩ := hlistable "1.test.js" (by decide)
  obtain ⟨hexcluded', hsupported'⟩ := hlistable second (List.mem_cons_of_mem _ hsecond)
  exact ⟨⟨hexcluded, hsupported, content, rfl, hsize⟩, hexcluded', hsupported', _,
    entryAt_pair hsecond, by decide⟩

theorem isSized_pair : List.Forall₂ (IsSized (pair content second) ⟨.root, ["p"]⟩)
    [⟨.root, ["p", "1.test.js"]⟩, ⟨.root, ["p", second]⟩]
    [⟨"1.test.js", content.length⟩, ⟨second, 5⟩] := by
  have plain := @isPlain_pair content second hsecond
  have hfirst : (pair content second).entryAt ["p", "1.test.js"] = some (.file content) := rfl
  have hlast := @entryAt_pair content second hsecond
  have hnames : ∀ s ∈ ["1.test.js", "1b.test.js", "b.test.js"],
      (FilePath.mk .current [s]).toString = s := by decide
  have hread : ∀ {names : List String} {bytes : Bytes},
      (pair content second).entryAt names = some (.file bytes) →
        (pair content second).read ⟨.root, names⟩ = .ok bytes :=
    fun hentry => plain.read_of_entryAt hentry
  have hbelow : ∀ s, FilePath.below? ⟨.root, ["p", s]⟩ ⟨.root, ["p"]⟩ = some [s] := by
    simp [FilePath.below?]
  have hsize : (utf8 "x();\n").length = 5 := by decide
  exact .cons ⟨⟨_, hbelow _, hnames _ (by decide)⟩, _, hread hfirst, rfl⟩
    (.cons ⟨⟨_, hbelow _, hnames _ (List.mem_cons_of_mem _ hsecond)⟩, _, hread hlast, hsize⟩ .nil)

end Pair

/-- A digit more in a size, or in front of the next name. The two projects differ, and go by the same
number. -/
theorem digest_collision : ∃ files files',
    discover (pair (utf8 "x();\n") "1b.test.js") ⟨.root, ["p"]⟩ (.texts ["*.test.js"]) (.texts [])
        (.int (2000000 : Nat)) = .ok files ∧
      discover (pair longText "b.test.js") ⟨.root, ["p"]⟩ (.texts ["*.test.js"]) (.texts [])
        (.int (2000000 : Nat)) = .ok files' ∧
      List.Forall₂ (IsSized (pair (utf8 "x();\n") "1b.test.js") ⟨.root, ["p"]⟩) files
        [⟨"1.test.js", 5⟩, ⟨"1b.test.js", 5⟩] ∧
      List.Forall₂ (IsSized (pair longText "b.test.js") ⟨.root, ["p"]⟩) files'
        [⟨"1.test.js", 51⟩, ⟨"b.test.js", 5⟩] ∧
      files.flatMap (digestPart (pair (utf8 "x();\n") "1b.test.js") ⟨.root, ["p"]⟩) =
        files'.flatMap (digestPart (pair longText "b.test.js") ⟨.root, ["p"]⟩) := by
  have hsized := @isSized_pair (utf8 "x();\n") "1b.test.js" (by decide)
  have hsized' := @isSized_pair longText "b.test.js" (by decide)
  refine ⟨_, _, discover_pair (by decide) (by decide), discover_pair (by decide)
    (by decide), hsized, hsized', ?_⟩
  rw [flatMap_digestPart hsized, flatMap_digestPart hsized']
  decide

/-- The same two sizes are told apart where the next name starts with a letter. -/
theorem digest_ne_pair :
    [⟨.root, ["p", "1.test.js"]⟩, ⟨.root, ["p", "b.test.js"]⟩].flatMap
        (digestPart (pair (utf8 "x();\n") "b.test.js") ⟨.root, ["p"]⟩) ≠
      [⟨.root, ["p", "1.test.js"]⟩, ⟨.root, ["p", "b.test.js"]⟩].flatMap
        (digestPart (pair longText "b.test.js") ⟨.root, ["p"]⟩) := by
  have hsized := @isSized_pair (utf8 "x();\n") "b.test.js" (by decide)
  have hsized' := @isSized_pair longText "b.test.js" (by decide)
  have hapart : IsApart [⟨"1.test.js", (utf8 "x();\n").length⟩, ⟨"b.test.js", 5⟩]
      [⟨"1.test.js", longText.length⟩, ⟨"b.test.js", 5⟩] := by
    constructor
    · simp
    · simp [GoesOnInDigits]
  rw [ne_eq, (digest_eq_iff hsized hsized').2 hapart]
  decide

end QueryLint.Project
