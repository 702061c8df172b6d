import Mathlib.Data.List.Basic
import Mathlib.Data.List.TakeWhile
import QueryLint.Text.Template

/-!
# Filling a template

A template falls into pieces: it is scanned from left to right, a placeholder is taken wherever one
begins, and else a single character. There is one such scan of each template. Filling replaces the
placeholders in it by their values and leaves the rest, so values are never looked into, and without
values the template stays as it is.

No blank character is a word character. So where a name ends, and where the blanks before it do, is told
by the characters alone, and at most one placeholder begins at a place.
-/
namespace QueryLint.Text

theorem not_inRanges_of_apart {table table' : List CharRange}
    (apart : table.all fun a => table'.all fun b => a.last < b.first || b.last < a.first) {c : Char}
    (h : inRanges table c) : ¬ inRanges table' c := by
  intro h'
  obtain ⟨a, ha, hac⟩ := List.any_eq_true.mp h
  obtain ⟨b, hb, hbc⟩ := List.any_eq_true.mp h'
  have hab := List.all_eq_true.mp (List.all_eq_true.mp apart a ha) b hb
  simp only [Bool.and_eq_true, Bool.or_eq_true, decide_eq_true_eq] at hac hbc hab
  omega

theorem not_isWordChar_of_isBlank {c : Char} (h : isBlank c) : ¬ isWordChar c :=
  not_inRanges_of_apart (by decide +kernel) h

theorem isWordChar_brace : isWordChar '\x7d' = false := by decide +kernel

theorem isBlank_brace : isBlank '\x7d' = false := by decide

/-- `written` is a placeholder of a name: the name between two opening and two closing braces, with
blanks around it where wanted. -/
inductive IsPlaceholder : List Char → List Char → Prop
  | mk {front name back : List Char} (hfront : ∀ c ∈ front, isBlank c) (hne : name ≠ [])
      (hname : ∀ c ∈ name, isWordChar c) (hback : ∀ c ∈ back, isBlank c) :
      IsPlaceholder ('\x7b' :: '\x7b' :: (front ++ (name ++ (back ++ ['\x7d', '\x7d'])))) name

variable {cs written name rest : List Char}

theorem IsPlaceholder.length_pos (h : IsPlaceholder written name) : 0 < written.length := by
  cases h
  exact Nat.succ_pos _

theorem placeholder?_append (h : IsPlaceholder written name) (rest : List Char) :
    placeholder? (written ++ rest) = some ⟨name, written.length⟩ := by
  cases h with
  | @mk front _ back hfront hne hname hback =>
    obtain ⟨c, cs, rfl⟩ := List.exists_cons_of_ne_nil hne
    have hfirst : ¬ isBlank c := fun hc =>
      not_isWordChar_of_isBlank hc (hname c List.mem_cons_self)
    have hnamed : (front ++ (c :: cs ++ (back ++ '\x7d' :: '\x7d' :: rest))).dropWhile isBlank =
        c :: cs ++ (back ++ '\x7d' :: '\x7d' :: rest) := by
      rw [List.dropWhile_append_of_pos hfront, List.cons_append, List.dropWhile_cons_of_neg hfirst]
    -- neither a blank nor the closing brace goes on with the name
    have hstop : (back ++ '\x7d' :: '\x7d' :: rest).takeWhile isWordChar = [] ∧
        (back ++ '\x7d' :: '\x7d' :: rest).dropWhile isWordChar =
          back ++ '\x7d' :: '\x7d' :: rest := by
      cases back with
      | nil => simp [isWordChar_brace]
      | cons b bs => simp [not_isWordChar_of_isBlank (hback b List.mem_cons_self)]
    have hclose : (back ++ '\x7d' :: '\x7d' :: rest).dropWhile isBlank = '\x7d' :: '\x7d' :: rest := by
      rw [List.dropWhile_append_of_pos hback, List.dropWhile_cons_of_neg (by simp [isBlank_brace])]
    have hwritten : '\x7b' :: '\x7b' :: (front ++ (c :: cs ++ (back ++ ['\x7d', '\x7d']))) ++ rest =
        '\x7b' :: '\x7b' :: (front ++ (c :: cs ++ (back ++ '\x7d' :: '\x7d' :: rest))) := by simp
    rw [hwritten]
    simp only [placeholder?, hnamed, List.takeWhile_append_of_pos hname, hstop.1, List.append_nil,
      List.dropWhile_append_of_pos hname, hstop.2, hclose]
    simp only [List.length_cons, List.length_append, List.length_nil, Option.some.injEq,
      Placeholder.mk.injEq, true_and]
    omega

theorem exists_of_placeholder? {p : Placeholder} (h : placeholder? cs = some p) :
    ∃ written rest, cs = written ++ rest ∧ IsPlaceholder written p.name ∧
      written.length = p.length := by
  unfold placeholder? at h
  split at h
  · next inner =>
    dsimp only at h
    split at h
    · next first others rest hname hclose =>
      obtain ⟨front, hfront⟩ : ∃ front, front = inner.takeWhile isBlank := ⟨_, rfl⟩
      obtain ⟨back, hback⟩ : ∃ back,
          back = ((inner.dropWhile isBlank).dropWhile isWordChar).takeWhile isBlank := ⟨_, rfl⟩
      have hinner : inner = front ++ (first :: others ++ (back ++ '\x7d' :: '\x7d' :: rest)) := by
        rw [hfront, hback, ← hclose, ← hname, List.takeWhile_append_dropWhile,
          List.takeWhile_append_dropWhile, List.takeWhile_append_dropWhile]
      rw [hname, Option.some.injEq] at h
      subst h
      refine ⟨'\x7b' :: '\x7b' :: (front ++ (first :: others ++ (back ++ ['\x7d', '\x7d']))), rest, ?_,
        .mk ?_ (List.cons_ne_nil _ _) ?_ ?_, ?_⟩
      · simp [hinner]
      · rw [hfront]
        exact fun c => List.mem_takeWhile_imp
      · rw [← hname]
        exact fun c => List.mem_takeWhile_imp
      · rw [hback]
        exact fun c => List.mem_takeWhile_imp
      · simp only [hinner, List.length_cons, List.length_append, List.length_nil]
        omega
    · exact nomatch h
  · exact nomatch h

theorem placeholder?_eq_none_iff :
    placeholder? cs = none ↔ ∀ written name rest, cs = written ++ rest → ¬ IsPlaceholder written name := by
  constructor
  · rintro hnone written name rest rfl h
    rw [placeholder?_append h] at hnone
    cases hnone
  · intro hno
    cases h : placeholder? cs with
    | none => rfl
    | some p =>
      obtain ⟨written, rest, hcs, hp, _⟩ := exists_of_placeholder? h
      exact absurd hp (hno _ _ _ hcs)

/-- At most one placeholder begins at a place. -/
theorem IsPlaceholder.unique {written' name' rest' : List Char} (h : IsPlaceholder written name)
    (h' : IsPlaceholder written' name') (hcs : written ++ rest = written' ++ rest') :
    written = written' ∧ name = name' ∧ rest = rest' := by
  have hboth := placeholder?_append h rest
  rw [hcs, placeholder?_append h' rest'] at hboth
  obtain ⟨hname, hlength⟩ := Placeholder.mk.inj (Option.some.inj hboth)
  obtain ⟨hwritten, hrest⟩ := List.append_inj hcs hlength.symm
  exact ⟨hwritten, hname.symm, hrest⟩

/-! ### The scan of a template -/

/-- A piece of a template: a character that stands for itself, or a placeholder of a name. -/
inductive Piece where
  | char (c : Char)
  | hole (name written : List Char)

namespace Piece

/-- The piece as it stands in the template. -/
def spelled : Piece → List Char
  | char c => [c]
  | hole _ written => written

/-- What stands for the piece in the filled template. -/
def filled (value : String → Option String) : Piece → List Char
  | char c => [c]
  | hole name written => ((value (String.ofList name)).map (·.toList)).getD written

end Piece

/-- The scan of a template from left to right comes to some pieces. -/
inductive Scan : List Char → List Piece → Prop
  | nil : Scan [] []
  | hole {written name rest pieces} (h : IsPlaceholder written name) (more : Scan rest pieces) :
      Scan (written ++ rest) (.hole name written :: pieces)
  | char {c rest pieces}
      (h : ∀ written name after, c :: rest = written ++ after → ¬ IsPlaceholder written name)
      (more : Scan rest pieces) : Scan (c :: rest) (.char c :: pieces)

variable {value : String → Option String} {pieces pieces' : List Piece}

theorem Scan.cases_front (h : Scan cs pieces) :
    cs = [] ∧ pieces = [] ∨
    (∃ written name rest more, cs = written ++ rest ∧ pieces = .hole name written :: more ∧
      IsPlaceholder written name ∧ Scan rest more) ∨
    ∃ c rest more, cs = c :: rest ∧ pieces = .char c :: more ∧ placeholder? cs = none ∧
      Scan rest more := by
  cases h with
  | nil => exact .inl ⟨rfl, rfl⟩
  | hole h more => exact .inr (.inl ⟨_, _, _, _, rfl, rfl, h, more⟩)
  | char h more => exact .inr (.inr ⟨_, _, _, rfl, rfl, placeholder?_eq_none_iff.mpr h, more⟩)

/-- A template has one scan. The induction is on the scan. -/
theorem Scan.unique (h : Scan cs pieces) (h' : Scan cs pieces') : pieces' = pieces := by
  induction h generalizing pieces' with
  | nil =>
    rcases h'.cases_front with ⟨_, rfl⟩ | ⟨written, _, rest, _, hcs, _, hp, _⟩ | ⟨_, _, _, hcs, _⟩
    · rfl
    · have hpos := hp.length_pos
      rw [(List.append_eq_nil_iff.mp hcs.symm).1] at hpos
      cases hpos
    · cases hcs
  | @hole written name rest pieces h _ ih =>
    rcases h'.cases_front with ⟨hcs, _⟩ | ⟨_, _, _, _, hcs, rfl, hp, more⟩ | ⟨_, _, _, _, _, hnone, _⟩
    · have hpos := h.length_pos
      rw [(List.append_eq_nil_iff.mp hcs).1] at hpos
      cases hpos
    · obtain ⟨rfl, rfl, rfl⟩ := h.unique hp hcs
      rw [ih more]
    · rw [placeholder?_append h] at hnone
      cases hnone
  | @char c rest pieces h _ ih =>
    rcases h'.cases_front with ⟨hcs, _⟩ | ⟨_, _, _, _, hcs, _, hp, _⟩ | ⟨_, _, _, hcs, rfl, _, more⟩
    · cases hcs
    · exact absurd hp (h _ _ _ hcs)
    · cases hcs
      rw [ih more]

theorem fillChars_placeholder (h : IsPlaceholder written name) (rest : List Char) :
    fillChars value (written ++ rest) =
      ((value (String.ofList name)).map (·.toList)).getD written ++ fillChars value rest := by
  have hplaceholder := placeholder?_append h rest
  cases hwritten : written with
  | nil =>
    have hpos := h.length_pos
    rw [hwritten] at hpos
    cases hpos
  | cons c tail =>
    rw [hwritten, List.cons_append] at hplaceholder
    have htake : (c :: (tail ++ rest)).take (c :: tail).length = c :: tail :=
      @List.take_left _ (c :: tail) rest
    have hdrop : (tail ++ rest).drop ((c :: tail).length - 1) = rest := List.drop_left
    rw [List.cons_append, fillChars, hplaceholder]
    simp only [htake, hdrop]

theorem fillChars_char {c : Char} (h : placeholder? (c :: rest) = none) :
    fillChars value (c :: rest) = c :: fillChars value rest := by
  rw [fillChars, h]

/-- Every template can be scanned. The induction is on the way it is filled. -/
theorem exists_scan (cs : List Char) : ∃ pieces, Scan cs pieces := by
  fun_induction fillChars (fun _ => none) cs with
  | case1 => exact ⟨[], .nil⟩
  | case2 c rest p h ih =>
    obtain ⟨pieces, hpieces⟩ := ih
    obtain ⟨written, after, hcs, hp, hlength⟩ := exists_of_placeholder? h
    have hpos := hp.length_pos
    have hafter : rest.drop (p.length - 1) = after := by
      have hdrop : (c :: rest).drop p.length = after := by
        rw [hcs, ← hlength, List.drop_left]
      obtain ⟨n, hn⟩ : ∃ n, p.length = n + 1 := ⟨p.length - 1, by omega⟩
      rw [hn, List.drop_succ_cons] at hdrop
      rw [hn, Nat.add_sub_cancel, hdrop]
    rw [hafter] at hpieces
    exact ⟨.hole p.name written :: pieces, hcs ▸ .hole hp hpieces⟩
  | case3 c rest h ih =>
    obtain ⟨pieces, hpieces⟩ := ih
    exact ⟨.char c :: pieces, .char (placeholder?_eq_none_iff.mp h) hpieces⟩

theorem Scan.spelled_eq (h : Scan cs pieces) : pieces.flatMap Piece.spelled = cs := by
  induction h with
  | nil => rfl
  | hole _ _ ih => rw [List.flatMap_cons, ih, Piece.spelled]
  | char _ _ ih => rw [List.flatMap_cons, ih, Piece.spelled, List.singleton_append]

/-- Filling a template fills its pieces one by one. -/
theorem Scan.fillChars_eq (h : Scan cs pieces) :
    fillChars value cs = pieces.flatMap (Piece.filled value) := by
  induction h with
  | nil => rw [fillChars, List.flatMap_nil]
  | hole h _ ih => rw [fillChars_placeholder h, ih, List.flatMap_cons, Piece.filled]
  | char h _ ih =>
    rw [fillChars_char (placeholder?_eq_none_iff.mpr h), ih, List.flatMap_cons, Piece.filled,
      List.singleton_append]

/-- A template whose placeholders have no values stays as it is. -/
theorem Scan.fillChars_eq_self (h : Scan cs pieces)
    (hnone : ∀ name written, .hole name written ∈ pieces → value (String.ofList name) = none) :
    fillChars value cs = cs := by
  have hpiece : ∀ piece ∈ pieces, piece.filled value = piece.spelled := by
    intro piece hpiece
    cases piece with
    | char c => rfl
    | hole name written => rw [Piece.filled, hnone name written hpiece, Piece.spelled]; rfl
  rw [h.fillChars_eq, List.flatMap_congr hpiece, h.spelled_eq]

/-! ### Templates that are written out -/

theorem fillChars_append (h : ∀ c ∈ cs, c ≠ '\x7b') (rest : List Char) :
    fillChars value (cs ++ rest) = cs ++ fillChars value rest := by
  induction cs with
  | nil => rfl
  | cons c cs ih =>
    have hc : placeholder? (c :: (cs ++ rest)) = none := by
      refine placeholder?_eq_none_iff.mpr ?_
      rintro _ _ _ hcs ⟨⟩
      exact h c List.mem_cons_self (List.cons.inj hcs).1
    rw [List.cons_append, fillChars_char hc, ih fun d hd => h d (List.mem_cons_of_mem _ hd),
      List.cons_append]

theorem fillChars_eq_self (h : ∀ c ∈ cs, c ≠ '\x7b') : fillChars value cs = cs := by
  have happend := @fillChars_append cs value h []
  rwa [fillChars, List.append_nil] at happend

/-- A placeholder gives way to its value. -/
theorem fillChars_hole {front back : List Char} {filling : String} (hfront : ∀ c ∈ front, isBlank c)
    (hne : name ≠ []) (hname : ∀ c ∈ name, isWordChar c) (hback : ∀ c ∈ back, isBlank c)
    (hvalue : value (String.ofList name) = some filling) (rest : List Char) :
    fillChars value
        ('\x7b' :: '\x7b' :: (front ++ (name ++ (back ++ '\x7d' :: '\x7d' :: rest)))) =
      filling.toList ++ fillChars value rest := by
  have hfill := @fillChars_placeholder _ _ value (.mk hfront hne hname hback) rest
  rw [hvalue] at hfill
  simpa using hfill

/-- A name in braces, without blanks, gives way to its value. -/
theorem fillChars_braced {name filling : String}
    (hname : name.toList ≠ [] ∧ ∀ c ∈ name.toList, isWordChar c)
    (hvalue : value name = some filling) (rest : List Char) :
    fillChars value ('\x7b' :: '\x7b' :: (name.toList ++ '\x7d' :: '\x7d' :: rest)) =
      filling.toList ++ fillChars value rest := by
  have hof : value (String.ofList name.toList) = some filling := by
    rw [String.ofList_toList, hvalue]
  exact @fillChars_hole name.toList value [] [] filling nofun hname.1 hname.2 nofun hof rest

end QueryLint.Text
