import QueryLint.Proofs.Data.Json.RoundTrip
import QueryLint.Proofs.Data.Reordering

/-!
# Canonical JSON

Canonical texts are equal just when the data are, up to the order of members: what a text says is read back,
and the order in which the data were put together is lost, but for that of maps inside keys.
-/
namespace QueryLint.Data

theorem Value.IsWritable.sorted {v : Value} (h : v.IsWritable) : v.sorted.IsWritable :=
  Value.Everywhere.sorted (fun v hv => by
    cases v with
    | list vs => exact Value.sorted_list vs ▸ trivial
    | object ms => exact Value.sorted_object ms ▸ trivial
    | _ => exact hv) h

namespace Json

open QueryLint.Text (integerDigitLimit)

variable {v w : Value}

/-- A canonical text is read as the value with its members sorted. -/
theorem read_canonical (indent : Option Nat) (hwritable : v.IsWritable) (htidy : v.IsTidy) :
    read (canonical indent v) = .ok v.sorted :=
  read_written indent hwritable.sorted htidy.sorted

/-- Canonical texts are equal just when the values are the same but for the order of members. -/
theorem canonical_eq_iff (indent : Option Nat) (hv : v.IsWritable) (hw : w.IsWritable) (hvt : v.IsTidy)
    (hwt : w.IsTidy) : canonical indent v = canonical indent w ↔ v.Alike w := by
  rw [← Value.sorted_eq_iff hvt hwt]
  constructor
  · intro h
    have hread := read_canonical indent hv hvt
    rw [h, read_canonical indent hw hwt] at hread
    exact (Except.ok.inj hread).symm
  · intro h
    rw [canonical, canonical, h]

/-- Two artifacts with plain forms whose numbers can be written have the same canonical text just when their
plain forms are the same but for the order of members. The text is read as the plain form, again but for the
order of members. And it does not depend on the order of the entries of any map outside of keys, nor on that
of the elements of any set of texts. -/
theorem canonical_faithful {x y : Artifact} (hx : x.plain = .ok v) (hy : y.plain = .ok w)
    (hv : v.IsWritable) (hw : w.IsWritable) (indent : Option Int) :
    (canonical (indentWidth indent) v = canonical (indentWidth indent) w ↔ v.Alike w) ∧
      (∃ r, read (canonical (indentWidth indent) v) = .ok r ∧ v.Alike r) ∧
      ∀ z, Artifact.Reordered false true x z →
        ∃ u, z.plain = .ok u ∧ canonical (indentWidth indent) u = canonical (indentWidth indent) v := by
  have htidy := Artifact.isTidy_plain hx
  refine ⟨canonical_eq_iff _ hv hw htidy (Artifact.isTidy_plain hy), ?_, fun z hz => ?_⟩
  · exact ⟨_, read_canonical _ hv htidy, Value.alike_sorted htidy⟩
  · obtain ⟨u, hu, hsorts⟩ := hz.matches.exists_plain v hx
    exact ⟨u, hu, by rw [canonical, canonical, hsorts.sorted_eq]⟩

/-- One and a half. -/
def oneAndHalf : Binary64 := .finite false 6755399441055744 (-52)

/-- A map with a number and a set of texts in it, in one order. -/
def firstReport : Artifact :=
  .map [(.text "share", .float oneAndHalf), (.text "files", .set [.text "b.js", .text "a.js"])]

/-- The same map in another order. -/
def secondReport : Artifact :=
  .map [(.text "files", .set [.text "a.js", .text "b.js"]), (.text "share", .float oneAndHalf)]

/-- The plain form of the first report. -/
def firstPlain : Value :=
  .object [("share", .float oneAndHalf), ("files", .list [.text "a.js", .text "b.js"])]

/-- The plain form of the second report. -/
def secondPlain : Value :=
  .object [("files", .list [.text "a.js", .text "b.js"]), ("share", .float oneAndHalf)]

theorem isWritable_leaf (hv : v.HasWrittenForm) (hchildren : v.children = []) : v.IsWritable :=
  ⟨hv, by simp [hchildren]⟩

theorem isWritable_zero : (Value.int 0).IsWritable :=
  isWritable_leaf (v := .int 0) (by simp [Value.HasWrittenForm, integerDigitLimit]) rfl

theorem isWritable_share : (Value.float oneAndHalf).IsWritable :=
  isWritable_leaf (v := .float oneAndHalf) ⟨by decide, by decide, by decide, .inl (by decide)⟩ rfl

theorem isWritable_files : (Value.list [.text "a.js", .text "b.js"]).IsWritable := by
  refine ⟨trivial, fun v hv => ?_⟩
  rcases List.mem_pair.mp hv with rfl | rfl <;> exact isWritable_leaf trivial rfl

theorem isWritable_firstPlain : firstPlain.IsWritable := by
  refine ⟨trivial, fun v hv => ?_⟩
  rcases List.mem_pair.mp hv with rfl | rfl
  · exact isWritable_share
  · exact isWritable_files

theorem isWritable_secondPlain : secondPlain.IsWritable := by
  refine ⟨trivial, fun v hv => ?_⟩
  rcases List.mem_pair.mp hv with rfl | rfl
  · exact isWritable_files
  · exact isWritable_share

theorem reordered_reports : Artifact.Reordered false true firstReport secondReport := by
  refine .trans (.entries (.swap _ _ _) (by simp [Artifact.Apart, Artifact.same, Artifact.asText?]) ?_)
    (.value [] _ _ (.elements (.swap _ _ _) (by simp [Artifact.asText?])))
  intro ps hps
  cases hps
  decide

/-- Two reports that differ in their order only have the same canonical text. -/
theorem canonical_reports : firstReport.plain = .ok firstPlain ∧ secondReport.plain = .ok secondPlain ∧
    firstPlain.Alike secondPlain ∧
      canonical (some usualIndent) firstPlain = canonical (some usualIndent) secondPlain ∧
      ∃ r, read (canonical (some usualIndent) firstPlain) = .ok r ∧ firstPlain.Alike r := by
  have hfirst : firstReport.plain = .ok firstPlain := rfl
  have hsecond : secondReport.plain = .ok secondPlain := rfl
  obtain ⟨hiff, hread, hreordered⟩ := canonical_faithful hfirst hsecond isWritable_firstPlain
    isWritable_secondPlain (some 2)
  obtain ⟨u, hu, htext⟩ := hreordered _ reordered_reports
  rw [hsecond] at hu
  cases hu
  exact ⟨hfirst, hsecond, hiff.mp htext.symm, htext.symm, hread⟩

/-- A map that stands inside the key of another one, in one order. -/
def firstKeyed : Artifact :=
  .map [(.choice (.map [(.text "b", .int 1), (.text "a", .int 2)]), .int 0)]

/-- The map inside the key in another order. -/
def secondKeyed : Artifact :=
  .map [(.choice (.map [(.text "a", .int 2), (.text "b", .int 1)]), .int 0)]

/-- The members of the first map, in the order they are written in. -/
def firstKey : Value := .object [("b", .int 1), ("a", .int 2)]

/-- The members of the second map, in the order they are written in. -/
def secondKey : Value := .object [("a", .int 2), ("b", .int 1)]

theorem reordered_keyed : Artifact.Reordered true true firstKeyed secondKeyed := by
  refine .key [] [] _ (.choice (.entries (.swap _ _ _)
    (by simp [Artifact.Apart, Artifact.same, Artifact.asText?]) ?_))
  intro ps hps
  cases hps
  decide

/-- The order of the entries of a map inside a key shows in the text. -/
theorem not_canonical_inKeys : ¬ ∀ (x y : Artifact) (v w : Value) (indent : Option Int),
    Artifact.Reordered true true x y → x.plain = .ok v → y.plain = .ok w → v.IsWritable → w.IsWritable →
      canonical (indentWidth indent) v = canonical (indentWidth indent) w := by
  intro h
  have hfirst : firstKeyed.plain = .ok (.object [(firstKey.shown, .int 0)]) := rfl
  have hsecond : secondKeyed.plain = .ok (.object [(secondKey.shown, .int 0)]) := rfl
  have hwritable : ∀ key, (Value.object [(key, .int 0)]).IsWritable := fun key =>
    ⟨trivial, fun v hv => List.mem_singleton.mp hv ▸ isWritable_zero⟩
  have htexts := h _ _ _ _ none reordered_keyed hfirst hsecond (hwritable _) (hwritable _)
  rw [canonical_eq_iff _ (hwritable _) (hwritable _) (Artifact.isTidy_plain hfirst)
    (Artifact.isTidy_plain hsecond)] at htexts
  have hkeys : firstKey.shown = secondKey.shown := by
    rw [Value.Alike, Value.alikeMembers_iff] at htexts
    obtain ⟨w, hget, -⟩ := htexts.2 _ (List.mem_singleton.mpr rfl)
    rw [Members.get?_cons] at hget
    by_contra hne
    rw [if_neg hne] at hget
    cases hget
  revert hkeys
  decide +kernel

end Json

end QueryLint.Data
