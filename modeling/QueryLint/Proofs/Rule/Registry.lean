import Mathlib.Computability.Language
import QueryLint.Proofs.Related
import QueryLint.Proofs.Text.Order
import QueryLint.Proofs.Text.Pieces
import QueryLint.Proofs.Text.Regex
import QueryLint.Rule.Registry

/-!
# Consistent registries

The check of a registry accepts exactly the consistent ones: its lists of ids are strictly increasing, all
ids are of the form that ids have, no id is in two buckets, and both the list of all ids and the implemented
rules are what the buckets hold together. The form is given as a language and not by taking ids apart. It
lets one line feed follow at the end of an id.

In a consistent registry nothing is left to choose for the list of all ids. It is the buckets merged, and
has each id once.
-/
namespace QueryLint.Rule.Registry

open QueryLint.Text
open scoped Computability

section Form

/-- The texts of one small letter. -/
def smallLetter : Language Char := {cs | ∃ c, cs = [c] ∧ 'a' ≤ c ∧ c ≤ 'z'}

/-- The texts of one small letter or more. -/
def letters : Language Char := smallLetter * smallLetter∗

/-- Groups of small letters with hyphens between them. -/
def kebabCase : Language Char := letters * ({['-']} * letters)∗

variable {cs : List Char}

theorem isSmallLetter_iff {c : Char} : isSmallLetter c ↔ 'a' ≤ c ∧ c ≤ 'z' := by
  rw [isSmallLetter, Bool.and_eq_true, decide_eq_true_eq, decide_eq_true_eq]

theorem mem_kstar_smallLetter_iff : cs ∈ smallLetter∗ ↔ ∀ c ∈ cs, isSmallLetter c := by
  constructor
  · intro h c hc
    obtain ⟨singles, rfl, hsingles⟩ := Language.mem_kstar.mp h
    obtain ⟨single, hsingle, hcs⟩ := List.mem_flatten.mp hc
    obtain ⟨letter, rfl, hletter⟩ := hsingles single hsingle
    rw [List.mem_singleton.mp hcs, isSmallLetter_iff]
    exact hletter
  · intro h
    refine Language.mem_kstar.mpr ⟨cs.map fun c => [c], ?_, fun single hsingle => ?_⟩
    · rw [← List.flatMap_def, List.flatMap_singleton']
    · obtain ⟨c, hc, rfl⟩ := List.mem_map.mp hsingle
      exact ⟨c, rfl, isSmallLetter_iff.mp (h c hc)⟩

theorem mem_letters_iff : cs ∈ letters ↔ cs ≠ [] ∧ ∀ c ∈ cs, isSmallLetter c := by
  rw [letters, Language.mem_mul]
  constructor
  · rintro ⟨_, ⟨c, rfl, hc⟩, rest, hrest, rfl⟩
    refine ⟨List.cons_ne_nil _ _, List.forall_mem_cons.mpr ⟨isSmallLetter_iff.mpr hc, ?_⟩⟩
    exact mem_kstar_smallLetter_iff.mp hrest
  · rintro ⟨hne, hletters⟩
    obtain ⟨c, rest, rfl⟩ := List.exists_cons_of_ne_nil hne
    rw [List.forall_mem_cons] at hletters
    exact ⟨[c], ⟨c, rfl, isSmallLetter_iff.mp hletters.1⟩, rest,
      mem_kstar_smallLetter_iff.mpr hletters.2, rfl⟩

theorem notMem_of_mem_letters {c : Char} (hc : isSmallLetter c = false) (h : cs ∈ letters) :
    c ∉ cs := by
  intro hmem
  rw [(mem_letters_iff.mp h).2 c hmem] at hc
  cases hc

theorem mem_kstar_hyphened_iff :
    cs ∈ ({['-']} * letters : Language Char)∗ ↔
      ∃ groups : List (List Char), cs = (groups.map ('-' :: ·)).flatten ∧
        ∀ group ∈ groups, group ∈ letters := by
  rw [Language.mem_kstar]
  constructor
  · rintro ⟨hyphened, rfl, h⟩
    induction hyphened with
    | nil => exact ⟨[], rfl, by simp⟩
    | cons first rest ih =>
      rw [List.forall_mem_cons] at h
      obtain ⟨⟨_, rfl, group, hgroup, rfl⟩, hrest⟩ := h
      obtain ⟨groups, heq, hgroups⟩ := ih hrest
      refine ⟨group :: groups, ?_, List.forall_mem_cons.mpr ⟨hgroup, hgroups⟩⟩
      rw [List.flatten_cons, heq, List.map_cons, List.flatten_cons]
      rfl
  · rintro ⟨groups, rfl, hgroups⟩
    refine ⟨groups.map ('-' :: ·), rfl, fun hyphened hmem => ?_⟩
    obtain ⟨group, hgroup, rfl⟩ := List.mem_map.mp hmem
    exact ⟨['-'], rfl, group, hgroups group hgroup, rfl⟩

/-- A text is of the form if all its pieces between hyphens are groups of letters. -/
theorem mem_kebabCase_iff : cs ∈ kebabCase ↔ ∀ group ∈ pieceChars '-' cs, group ∈ letters := by
  rw [kebabCase, Language.mem_mul]
  constructor
  · rintro ⟨first, hfirst, rest, hrest, rfl⟩
    obtain ⟨groups, rfl, hgroups⟩ := mem_kstar_hyphened_iff.mp hrest
    have hall : ∀ group ∈ first :: groups, group ∈ letters :=
      List.forall_mem_cons.mpr ⟨hfirst, hgroups⟩
    rw [← intercalate_cons_eq, pieceChars_intercalate (List.cons_ne_nil _ _) fun group hgroup =>
      notMem_of_mem_letters (by decide) (hall group hgroup)]
    exact hall
  · intro h
    obtain ⟨first, groups, hpieces⟩ := List.exists_cons_of_ne_nil (pieceChars_ne_nil '-' cs)
    rw [hpieces, List.forall_mem_cons] at h
    refine ⟨first, h.1, (groups.map ('-' :: ·)).flatten,
      mem_kstar_hyphened_iff.mpr ⟨groups, rfl, h.2⟩, ?_⟩
    rw [← intercalate_cons_eq, ← hpieces, intercalate_pieceChars]

theorem lineFeed_notMem_of_mem_kebabCase (h : cs ∈ kebabCase) : '\n' ∉ cs := by
  intro hmem
  obtain ⟨group, hgroup, hfeed⟩ := @exists_mem_pieceChars '-' _ _ (by decide) hmem
  exact notMem_of_mem_letters (by decide) (mem_kebabCase_iff.mp h group hgroup) hfeed

def dropFinalNewline (cs : List Char) : List Char :=
  if cs.getLast? = some '\n' then cs.dropLast else cs

theorem dropFinalNewline_eq_iff {ds : List Char} (h : '\n' ∉ ds) :
    dropFinalNewline cs = ds ↔ cs = ds ∨ cs = ds ++ ['\n'] := by
  unfold dropFinalNewline
  split
  · next hlast =>
    obtain ⟨kept, rfl⟩ := List.getLast?_eq_some_iff.mp hlast
    have hne : kept ++ ['\n'] ≠ ds := by
      rintro rfl
      exact h (by simp)
    rw [List.dropLast_concat]
    simp [hne]
  · next hlast =>
    have hne : cs ≠ ds ++ ['\n'] := by
      rintro rfl
      exact hlast (by simp)
    simp [hne]

theorem isWellFormed_iff {id : String} : isWellFormed id ↔ MatchesToEnd kebabCase id := by
  have hbody : isWellFormed id ↔ dropFinalNewline id.toList ∈ kebabCase := by
    rw [mem_kebabCase_iff]
    simp only [isWellFormed, dropFinalNewline, List.all_eq_true, Bool.and_eq_true,
      Bool.not_eq_true', List.isEmpty_eq_false_iff, mem_letters_iff]
  rw [hbody]
  constructor
  · intro h
    exact ⟨_, h, (dropFinalNewline_eq_iff (lineFeed_notMem_of_mem_kebabCase h)).mp rfl⟩
  · rintro ⟨cs, hcs, hid⟩
    rwa [(dropFinalNewline_eq_iff (lineFeed_notMem_of_mem_kebabCase hcs)).mpr hid]

end Form

section Checks

variable {r : Registry} {name : String} {ids : List String}

/-- The buckets that ids are put in. -/
def buckets (r : Registry) : List (List String) :=
  [r.publicIds, r.experimentalIds, r.deprecatedIds]

/-- A consistent registry. -/
structure IsConsistent (r : Registry) : Prop where
  increasing : ∀ ids ∈ r.allIds :: r.buckets, ids.SortedLT
  form : ∀ ids ∈ r.allIds :: r.buckets, ∀ id ∈ ids, MatchesToEnd kebabCase id
  disjoint : r.buckets.Pairwise List.Disjoint
  all : ∀ id, id ∈ r.allIds ↔ ∃ ids ∈ r.buckets, id ∈ ids
  implemented : ∀ id, id ∈ r.implementedIds ↔ ∃ ids ∈ r.buckets, id ∈ ids

theorem checkBucket_eq_ok_iff :
    checkBucket name ids = .ok () ↔ ids.Pairwise (· < ·) ∧ ∀ id ∈ ids, isWellFormed id := by
  have hform : (ids.filter (!isWellFormed ·)) = [] ↔ ∀ id ∈ ids, isWellFormed id := by
    simp only [List.filter_eq_nil_iff, Bool.not_eq_true', Bool.not_eq_false]
  rw [← List.sortedLT_iff_pairwise, List.sortedLT_iff_nodup_and_sortedLE,
    ← length_eraseDups_eq_iff, ← eq_sortTexts_iff, ← hform]
  unfold checkBucket
  split_ifs with hsorted hnodup
  · exact ⟨nofun, fun h => absurd h.1.2 hsorted⟩
  · exact ⟨nofun, fun h => absurd h.1.1 hnodup⟩
  · cases hbad : ids.filter (!isWellFormed ·) with
    | nil => exact ⟨fun _ => ⟨⟨not_not.mp hnodup, not_not.mp hsorted⟩, rfl⟩, fun _ => rfl⟩
    | cons id bad => exact ⟨nofun, fun h => nomatch h.2⟩

theorem sameIds_iff {a b : List String} : sameIds a b ↔ ∀ id, id ∈ a ↔ id ∈ b := by
  simp only [sameIds, Bool.and_eq_true, List.all_eq_true, List.contains_iff_mem]
  exact ⟨fun h id => ⟨h.1 id, h.2 id⟩, fun h => ⟨fun id => (h id).mp, fun id => (h id).mpr⟩⟩

theorem mem_union_iff {id : String} : id ∈ r.union ↔ ∃ ids ∈ r.buckets, id ∈ ids := by
  simp [union, buckets]

theorem overlaps_eq_nil_iff : r.overlaps = [] ↔ r.buckets.Pairwise List.Disjoint := by
  simp only [overlaps, buckets, List.append_eq_nil_iff, List.filter_eq_nil_iff, Bool.or_eq_true,
    List.contains_iff_mem, not_or, imp_and, forall_and, List.pairwise_cons, List.forall_mem_cons,
    List.Disjoint]
  simp

/-- What the check tests, put so that it can be decided. -/
theorem check_eq_ok_iff_and : r.check = .ok () ↔
    (∀ ids ∈ r.allIds :: r.buckets, ids.Pairwise (· < ·) ∧ ∀ id ∈ ids, isWellFormed id) ∧
      r.overlaps = [] ∧ sameIds r.allIds r.union ∧ sameIds r.implementedIds r.union := by
  have hdone : (pure () : Except Fault Unit) = .ok () := rfl
  unfold check
  simp only [bind_unit_eq_ok_iff, throw_eq, error_bind, ite_error_eq_ok_iff, checkBucket_eq_ok_iff,
    hdone, and_true, Bool.not_eq_true', Bool.not_eq_false, List.isEmpty_iff, buckets,
    List.forall_mem_cons]
  constructor
  · rintro ⟨hpublic, hexperimental, hdeprecated, hall, hrest⟩
    exact ⟨⟨hall, hpublic, hexperimental, hdeprecated, nofun⟩, hrest⟩
  · rintro ⟨⟨hall, hpublic, hexperimental, hdeprecated, _⟩, hrest⟩
    exact ⟨hpublic, hexperimental, hdeprecated, hall, hrest⟩

theorem check_eq_ok_iff : r.check = .ok () ↔ r.IsConsistent := by
  rw [check_eq_ok_iff_and, overlaps_eq_nil_iff, sameIds_iff, sameIds_iff]
  simp only [mem_union_iff, isWellFormed_iff, ← List.sortedLT_iff_pairwise]
  constructor
  · rintro ⟨hlists, hdisjoint, hall, himplemented⟩
    exact ⟨fun ids hids => (hlists ids hids).1, fun ids hids => (hlists ids hids).2, hdisjoint, hall,
      himplemented⟩
  · intro h
    exact ⟨fun ids hids => ⟨h.increasing ids hids, h.form ids hids⟩, h.disjoint, h.all,
      h.implemented⟩

/-- The ids of the implemented rules are in order and without repetition as they are. -/
theorem current_eq : current =
    { publicIds := registered.map (·.info.id), experimentalIds := [], deprecatedIds := [],
      allIds := registered.map (·.info.id), implementedIds := registered.map (·.info.id) } := by
  have hsorted : sortTexts (registered.map (·.info.id)) = registered.map (·.info.id) :=
    List.mergeSort_of_pairwise (by decide)
  have hdups : (registered.map (·.info.id)).eraseDups = registered.map (·.info.id) := by decide
  rw [current, sortedSet, hdups, hsorted]

/-- The registry of the implemented rules is consistent. -/
theorem isConsistent_current : current.IsConsistent := by
  rw [← check_eq_ok_iff, check_eq_ok_iff_and, current_eq]
  decide

end Checks

section Merging

variable {r : Registry}

/-- The ids of all buckets, merged in order. -/
def merged (r : Registry) : List String :=
  (r.publicIds.merge r.experimentalIds textLe).merge r.deprecatedIds textLe

theorem merged_perm_union (r : Registry) : r.merged.Perm r.union :=
  (List.merge_perm_append textLe).trans ((List.merge_perm_append textLe).append_right _)

theorem IsConsistent.nodup_union (h : r.IsConsistent) : r.union.Nodup := by
  have hunion : r.union = r.buckets.flatten := by simp [union, buckets]
  rw [hunion, List.nodup_flatten]
  exact ⟨fun ids hids => (h.increasing ids (List.mem_cons_of_mem _ hids)).nodup, h.disjoint⟩

theorem IsConsistent.sortedLT_merged (h : r.IsConsistent) : r.merged.SortedLT := by
  have hbucket : ∀ ids ∈ r.buckets, ids.SortedLE := fun ids hids =>
    (h.increasing ids (List.mem_cons_of_mem _ hids)).sortedLE
  have hsorted : r.merged.SortedLE := by
    refine sortedLE_merge (sortedLE_merge ?_ ?_) ?_ <;> exact hbucket _ (by simp [buckets])
  exact hsorted.sortedLT_of_nodup (r.merged_perm_union.nodup_iff.mpr h.nodup_union)

/-- In a consistent registry the list of all ids is the buckets merged. -/
theorem IsConsistent.allIds_eq (h : r.IsConsistent) : r.allIds = r.merged := by
  have hall : r.allIds.SortedLT := h.increasing _ List.mem_cons_self
  refine hall.eq_of_mem_iff h.sortedLT_merged fun id => ?_
  rw [h.all, r.merged_perm_union.mem_iff, mem_union_iff]

end Merging

/-- The check accepts exactly the consistent registries. In these the list of all ids is the buckets merged
in order, and has each id once. -/
theorem check_accepts (r : Registry) :
    (r.check = .ok () ↔ r.IsConsistent) ∧
      (r.check = .ok () →
        r.allIds = r.merged ∧ ∀ ids ∈ r.buckets, ∀ id ∈ ids, r.allIds.count id = 1) := by
  refine ⟨check_eq_ok_iff, fun hcheck => ?_⟩
  have h : r.IsConsistent := check_eq_ok_iff.mp hcheck
  refine ⟨h.allIds_eq, fun ids hids id hid => ?_⟩
  have hnodup : r.allIds.Nodup := (h.increasing _ List.mem_cons_self).nodup
  exact List.count_eq_one_of_mem hnodup ((h.all id).mpr ⟨ids, hids, hid⟩)

/-- Ids in all buckets, one of them with a line feed at its end. -/
def spread : Registry where
  publicIds := ["a-b", "c"]
  experimentalIds := ["b"]
  deprecatedIds := ["a\n"]
  allIds := ["a\n", "a-b", "b", "c"]
  implementedIds := ["c", "b", "a-b", "a\n"]

theorem check_accepts_spread : spread.check = .ok () ∧ spread.IsConsistent ∧
    spread.allIds = spread.merged := by
  have hcheck : spread.check = .ok () := check_eq_ok_iff_and.mpr (by decide)
  obtain ⟨hiff, hall⟩ := check_accepts spread
  exact ⟨hcheck, hiff.mp hcheck, (hall hcheck).1⟩

end QueryLint.Rule.Registry
