import QueryLint.Proofs.Text.Blank

/-!
# Two notions of line

The lines that are shown to a reader end at any line break, and those that a position counts end at line
feeds. Where every break is a line feed, alone or behind a carriage return, the two agree but for these
carriage returns. Any other break ends a line that is shown and none that is counted, so that from there
on the numbers of the one stand for other lines than those of the other.

Blanks at the end of what is shown are taken away, so only the breaks before its last character that is not
blank matter, and each of them does.
-/
namespace QueryLint.Text

theorem isBlank_of_isLineBreak {c : Char} (h : isLineBreak c) : isBlank c := by
  unfold isLineBreak at h
  split at h
  all_goals first | decide | cases h

theorem isLineBreak_eq_false {c : Char} (h : isBlank c = false) : isLineBreak c = false := by
  cases hbreak : isLineBreak c with
  | false => rfl
  | true => rw [isBlank_of_isLineBreak hbreak] at h; cases h

/-! ### Carriage returns before line feeds -/

section Returns

variable {cs ds : List Char} {c : Char}

/-- A pair of a carriage return and a line feed begins where the cases of a recursion say so. -/
theorem head?_ne_of_not_pair (h : ∀ rest, c = '\r' → cs = '\n' :: rest → False) :
    c = '\r' → cs.head? ≠ some '\n' := by
  intro hc hhead
  obtain ⟨rest, hcs⟩ := List.head?_eq_some_iff.mp hhead
  exact h rest hc hcs

theorem joinReturns_cons (h : c = '\r' → cs.head? ≠ some '\n') :
    joinReturns (c :: cs) = c :: joinReturns cs := by
  rw [joinReturns]
  rintro rest rfl rfl
  exact h rfl rfl

theorem joinReturns_append (h : cs.getLast? = some '\r' → ds.head? ≠ some '\n') :
    joinReturns (cs ++ ds) = joinReturns cs ++ joinReturns ds := by
  fun_induction joinReturns cs with
  | case1 => rfl
  | case2 rest ih =>
    have hrest := ih fun hlast => h (List.mem_getLast?_cons (List.mem_getLast?_cons hlast))
    rw [List.cons_append, List.cons_append, joinReturns, hrest, List.cons_append]
  | case3 c rest hpair ih =>
    have hcons : c = '\r' → (rest ++ ds).head? ≠ some '\n' := by
      intro hc
      cases rest with
      | nil => exact h (by rw [hc]; rfl)
      | cons d rest =>
        intro hd
        cases hd
        exact hpair _ hc rfl
    have hrest := ih fun hlast => h (List.mem_getLast?_cons hlast)
    rw [List.cons_append, joinReturns_cons hcons, hrest, List.cons_append]

theorem joinReturns_eq_self (h : '\r' ∉ cs) : joinReturns cs = cs := by
  induction cs with
  | nil => rfl
  | cons c cs ih =>
    rw [List.mem_cons, not_or] at h
    rw [joinReturns_cons fun hc => absurd hc.symm h.1, ih h.2]

theorem joinReturns_eq_nil : joinReturns cs = [] ↔ cs = [] := by
  fun_cases joinReturns cs <;> simp

/-- A character that is left out is blank, like the one behind it. -/
theorem joinReturns_dropWhile (cs : List Char) :
    joinReturns (cs.dropWhile isBlank) = (joinReturns cs).dropWhile isBlank := by
  fun_induction joinReturns cs with
  | case1 => rfl
  | case2 rest ih => exact ih
  | case3 c rest hpair ih =>
    cases hc : isBlank c with
    | true => rw [List.dropWhile_cons_of_pos hc, List.dropWhile_cons_of_pos hc, ih]
    | false =>
      rw [List.dropWhile_cons_of_neg (by simp [hc]), List.dropWhile_cons_of_neg (by simp [hc]),
        joinReturns]
      exact hpair

theorem countP_joinReturns (cs : List Char) :
    (joinReturns cs).countP (!isBlank ·) = cs.countP (!isBlank ·) := by
  fun_induction joinReturns cs with
  | case1 => rfl
  | case2 rest ih =>
    rw [List.countP_cons_of_neg (by decide), List.countP_cons_of_neg (by decide),
      List.countP_cons_of_neg (by decide), ih]
  | case3 c rest _ ih => rw [List.countP_cons, List.countP_cons, ih]

/-- A part of a text is one without returns before line feeds as well, when both are trimmed. -/
theorem joinReturns_trimChars_infix (h : cs <:+: ds) :
    joinReturns (trimChars cs) <:+: joinReturns (trimChars ds) := by
  obtain ⟨front, back, hds⟩ := trimChars_infix h
  obtain ⟨hhead, hlast⟩ := not_isBlank_trimChars cs
  have hnotFeed : (trimChars cs).head? ≠ some '\n' := fun heq => absurd (hhead _ heq) (by decide)
  have hnotReturn : (trimChars cs).getLast? ≠ some '\r' := fun heq => absurd (hlast _ heq) (by decide)
  by_cases hnil : trimChars cs = []
  · rw [hnil]
    exact List.nil_infix
  · refine ⟨joinReturns front, joinReturns back, ?_⟩
    rw [← hds, joinReturns_append, joinReturns_append]
    · intro _ heq
      exact hnotFeed heq
    · rw [List.getLast?_append_of_ne_nil _ hnil]
      exact fun heq => absurd heq hnotReturn

end Returns

/-! ### Lines and rows -/

section Lines

variable {cs rest : List Char} {c : Char}

/-- At a break a line ends. The break may take up the line feed behind it. -/
theorem lines_break (h : isLineBreak c) (rest : List Char) :
    ∃ more, lines (c :: rest) = [] :: lines more ∧
      (more = rest ∨ c = '\r' ∧ rest = '\n' :: more) := by
  by_cases hpair : c = '\r' ∧ rest.head? = some '\n'
  · obtain ⟨rfl, hhead⟩ := hpair
    obtain ⟨more, rfl⟩ := List.head?_eq_some_iff.mp hhead
    exact ⟨more, by rw [lines], .inr ⟨rfl, rfl⟩⟩
  · refine ⟨rest, ?_, .inl rfl⟩
    rw [lines, if_pos h]
    rintro more rfl rfl
    exact hpair ⟨rfl, rfl⟩

/-- Of a stretch that is gone through pair by pair, a break can take up a line feed only behind it. -/
theorem lines_break_append (h : isLineBreak c) (hpair : ∀ more, c = '\r' → cs = '\n' :: more → False)
    (back : List Char) : lines (c :: (cs ++ back)) = [] :: lines (cs ++ back) ∨
      c = '\r' ∧ cs = [] ∧ ∃ more, back = '\n' :: more ∧ lines (c :: back) = [] :: lines more := by
  obtain ⟨more, hlines, hmore⟩ := lines_break h (cs ++ back)
  cases hmore with
  | inl heq =>
    rw [heq] at hlines
    exact .inl hlines
  | inr hpaired =>
    obtain ⟨rfl, hjoined⟩ := hpaired
    cases cs with
    | nil => exact .inr ⟨rfl, rfl, more, hjoined, hlines⟩
    | cons d cs =>
      cases hjoined
      exact absurd rfl (hpair _ rfl)

theorem lines_feed (rest : List Char) : lines ('\n' :: rest) = [] :: lines rest := by
  rw [lines]
  · rfl
  · nofun

theorem lines_pair (rest : List Char) : lines ('\r' :: '\n' :: rest) = [] :: lines rest := by
  rw [lines]

theorem lines_char (h : isLineBreak c = false) (rest : List Char) :
    lines (c :: rest) = (c :: (lines rest).headD []) :: (lines rest).tail := by
  rw [lines, if_neg (by simp [h])]
  · cases lines rest <;> rfl
  · rintro _ rfl
    cases h

theorem ne_feed_of_not_isLineBreak (h : isLineBreak c = false) : c ≠ '\n' := by
  rintro rfl
  cases h

theorem not_isLineBreak_of_mem_lines (cs : List Char) :
    ∀ line ∈ lines cs, ∀ c ∈ line, isLineBreak c = false := by
  fun_induction lines cs with
  | case1 => nofun
  | case2 rest ih => exact List.forall_mem_cons.mpr ⟨nofun, ih⟩
  | case3 c rest _ _ ih => exact List.forall_mem_cons.mpr ⟨nofun, ih⟩
  | case4 c rest _ hc hnil ih =>
    intro line hline d hd
    cases List.mem_singleton.mp hline
    cases List.mem_singleton.mp hd
    exact Bool.eq_false_iff.mpr hc
  | case5 c rest _ hc line more hlines ih =>
    rw [hlines] at ih
    obtain ⟨hline, hmore⟩ := List.forall_mem_cons.mp ih
    refine List.forall_mem_cons.mpr ⟨List.forall_mem_cons.mpr ⟨?_, hline⟩, hmore⟩
    exact Bool.eq_false_iff.mpr hc

/-- The rows of a text: what lies between its line feeds. -/
def rows (cs : List Char) : List (List Char) := cs.splitOn '\n'

theorem rows_ne_nil (cs : List Char) : rows cs ≠ [] := List.splitOn_ne_nil _ _

theorem rows_feed (rest : List Char) : rows ('\n' :: rest) = [] :: rows rest := by
  rw [rows, List.splitOn_eq_splitOnP, List.splitOnP_cons_eq_if_modifyHead, if_pos (beq_self_eq_true _)]
  rfl

/-- A character that is no line feed is the first of its row. -/
theorem rows_char (h : c ≠ '\n') (rest : List Char) :
    ∃ row more, rows rest = row :: more ∧ rows (c :: rest) = (c :: row) :: more := by
  obtain ⟨row, more, hrows⟩ := List.exists_cons_of_ne_nil (rows_ne_nil rest)
  refine ⟨row, more, hrows, ?_⟩
  have hsplit : rows rest = rest.splitOnP (· == '\n') := List.splitOn_eq_splitOnP
  rw [rows, List.splitOn_eq_splitOnP, List.splitOnP_cons_eq_if_modifyHead, if_neg (by simpa using h),
    ← hsplit, hrows, List.modifyHead_cons]

theorem rows_pair (rest : List Char) : rows ('\r' :: '\n' :: rest) = ['\r'] :: rows rest := by
  obtain ⟨row, more, hmore, heq⟩ := rows_char (c := '\r') (by decide) ('\n' :: rest)
  rw [rows_feed] at hmore
  cases hmore
  exact heq

theorem count_pair (rest : List Char) :
    List.count '\n' ('\r' :: '\n' :: rest) = rest.count '\n' + 1 := by
  rw [List.count_cons_of_ne (by decide), List.count_cons_self]

/-- Lines with a line feed behind each. -/
def ended (ls : List (List Char)) : List Char := ls.flatMap (· ++ ['\n'])

@[simp] theorem ended_nil : ended [] = [] := rfl

@[simp] theorem ended_cons (l : List Char) (ls : List (List Char)) :
    ended (l :: ls) = l ++ '\n' :: ended ls := by
  simp [ended]

theorem ended_eq {ls : List (List Char)} (h : ls ≠ []) : ended ls = ['\n'].intercalate ls ++ ['\n'] := by
  induction ls with
  | nil => exact absurd rfl h
  | cons l ls ih =>
    cases ls with
    | nil => simp
    | cons next more =>
      rw [ended_cons, ih (List.cons_ne_nil _ _), List.intercalate_cons_cons, List.append_assoc,
        List.append_assoc, List.singleton_append]

theorem trimChars_intercalate (ls : List (List Char)) :
    trimChars (['\n'].intercalate ls) = trimChars (ended ls) := by
  cases ls with
  | nil => rfl
  | cons l ls =>
    rw [trimChars_eq, trimChars_eq, ended_eq (List.cons_ne_nil _ _),
      List.rdropWhile_concat_pos _ _ _ (by decide)]

theorem isBlank_ended {ls : List (List Char)} (h : ∀ l ∈ ls, ∀ c ∈ l, isBlank c) :
    ∀ c ∈ ended ls, isBlank c := by
  intro c hc
  obtain ⟨l, hl, hc⟩ := List.mem_flatMap.mp hc
  cases List.mem_append.mp hc with
  | inl hline => exact h l hl c hline
  | inr hfeed => rw [List.mem_singleton.mp hfeed]; decide

theorem countP_ended (ls : List (List Char)) :
    (ended ls).countP (!isBlank ·) = ls.flatten.countP (!isBlank ·) := by
  induction ls with
  | nil => rfl
  | cons l ls ih =>
    rw [ended_cons, List.countP_append, List.countP_cons_of_neg (by decide), ih, List.flatten_cons,
      List.countP_append]

end Lines

/-! ### Breaks that end no row -/

/-- How many line breaks of a text are no line feed, and no carriage return before one. -/
def loneBreaks (cs : List Char) : Nat := (joinReturns cs).countP fun c => isLineBreak c && c != '\n'

section LoneBreaks

variable {cs ds : List Char} {c : Char}

theorem loneBreaks_pair (cs : List Char) : loneBreaks ('\r' :: '\n' :: cs) = loneBreaks cs := by
  rw [loneBreaks, joinReturns, List.countP_cons_of_neg (by decide), loneBreaks]

theorem loneBreaks_cons (h : c = '\r' → cs.head? ≠ some '\n') :
    loneBreaks (c :: cs) = loneBreaks cs + if isLineBreak c && c != '\n' then 1 else 0 := by
  rw [loneBreaks, joinReturns_cons h, List.countP_cons, loneBreaks]

theorem loneBreaks_append (h : cs.getLast? = some '\r' → ds.head? ≠ some '\n') :
    loneBreaks (cs ++ ds) = loneBreaks cs + loneBreaks ds := by
  rw [loneBreaks, joinReturns_append h, List.countP_append, loneBreaks, loneBreaks]

end LoneBreaks

section Blanks

variable {front back : List Char} {ls : List (List Char)} {c : Char} {n : Nat}

theorem isBlank_of_mem_take_nil (h : ∀ line ∈ ls.take (n - 1), ∀ c ∈ line, isBlank c) :
    ∀ line ∈ ([] :: ls).take n, ∀ c ∈ line, isBlank c := by
  cases n with
  | zero => nofun
  | succ n => exact List.forall_mem_cons.mpr ⟨nofun, h⟩

theorem isBlank_of_mem_take_of_le (hn : n ≤ 1) : ∀ line ∈ ([] :: ls).take n, ∀ c ∈ line, isBlank c := by
  apply isBlank_of_mem_take_nil
  rw [Nat.sub_eq_zero_of_le hn]
  nofun

theorem isBlank_of_mem_take_char (hc : isBlank c) (h : ∀ line ∈ ls.take n, ∀ c ∈ line, isBlank c) :
    ∀ line ∈ ((c :: ls.headD []) :: ls.tail).take n, ∀ c ∈ line, isBlank c := by
  cases n with
  | zero => nofun
  | succ n =>
    cases ls with
    | nil =>
      rw [List.headD_nil, List.tail_nil, List.take_succ_cons, List.take_nil]
      exact List.forall_mem_singleton.mpr (List.forall_mem_singleton.mpr hc)
    | cons line more =>
      obtain ⟨hline, hmore⟩ := List.forall_mem_cons.mp h
      exact List.forall_mem_cons.mpr ⟨List.forall_mem_cons.mpr ⟨hc, hline⟩, hmore⟩

/-- Where a text begins with blanks, so do its lines, up to the first line feed behind the blanks. -/
theorem isBlank_of_mem_lines (hfront : ∀ c ∈ front, isBlank c)
    (hback : back = [] ∨ ∃ more, back = '\n' :: more) (hn : back ≠ [] → n ≤ front.count '\n' + 1) :
    ∀ line ∈ (lines (front ++ back)).take n, ∀ c ∈ line, isBlank c := by
  fun_induction joinReturns front generalizing n with
  | case1 =>
    cases hback with
    | inl hnil =>
      rw [hnil, List.append_nil, lines, List.take_nil]
      nofun
    | inr hfeed =>
      obtain ⟨more, rfl⟩ := hfeed
      rw [List.nil_append, lines_feed]
      exact isBlank_of_mem_take_of_le (hn (List.cons_ne_nil _ _))
  | case2 rest ih =>
    obtain ⟨_, _, hrest⟩ := List.forall_mem_cons.mp hfront |>.imp_right List.forall_mem_cons.mp
    rw [count_pair] at hn
    rw [List.cons_append, List.cons_append, lines_pair]
    exact isBlank_of_mem_take_nil (ih hrest fun hne => by have := hn hne; omega)
  | case3 c rest hpair ih =>
    obtain ⟨hblank, hrest⟩ := List.forall_mem_cons.mp hfront
    cases hc : isLineBreak c with
    | true =>
      have hcount : List.count '\n' (c :: rest) ≤ rest.count '\n' + 1 := by
        rw [List.count_cons]
        split <;> omega
      cases lines_break_append hc hpair back with
      | inl hlines =>
        rw [List.cons_append, hlines]
        exact isBlank_of_mem_take_nil (ih hrest fun hne => by have := hn hne; omega)
      | inr hpaired =>
        -- the break takes up the line feed behind the blanks, so there is but one line before it
        obtain ⟨rfl, rfl, more, rfl, hlines⟩ := hpaired
        rw [List.singleton_append, hlines]
        exact isBlank_of_mem_take_of_le (hn (List.cons_ne_nil _ _))
    | false =>
      rw [List.count_cons_of_ne (ne_feed_of_not_isLineBreak hc)] at hn
      rw [List.cons_append, lines_char hc]
      exact isBlank_of_mem_take_char hblank (ih hrest hn)

theorem isBlank_of_mem_rows (hfront : ∀ c ∈ front, isBlank c)
    (hback : back = [] ∨ ∃ more, back = '\n' :: more) (hn : back ≠ [] → n ≤ front.count '\n' + 1) :
    ∀ row ∈ (rows (front ++ back)).take n, ∀ c ∈ row, isBlank c := by
  induction front generalizing n with
  | nil =>
    cases hback with
    | inl hnil =>
      rw [hnil, List.append_nil, rows, List.splitOn_nil]
      apply isBlank_of_mem_take_nil
      rw [List.take_nil]
      nofun
    | inr hfeed =>
      obtain ⟨more, rfl⟩ := hfeed
      rw [List.nil_append, rows_feed]
      exact isBlank_of_mem_take_of_le (hn (List.cons_ne_nil _ _))
  | cons c front ih =>
    obtain ⟨hblank, hrest⟩ := List.forall_mem_cons.mp hfront
    by_cases hc : c = '\n'
    · rw [hc, List.count_cons_self] at hn
      rw [hc, List.cons_append, rows_feed]
      exact isBlank_of_mem_take_nil (ih hrest fun hne => by have := hn hne; omega)
    · rw [List.count_cons_of_ne hc] at hn
      obtain ⟨row, more, hmore, heq⟩ := rows_char hc (front ++ back)
      have hrows := ih hrest hn
      rw [hmore] at hrows
      rw [List.cons_append, heq]
      exact isBlank_of_mem_take_char hblank hrows

end Blanks

/-! ### Where the two agree -/

/-- Whether characters that are shown are those that are named, but for carriage returns before line feeds
and for blanks at the end. -/
def Agree (shown named : List Char) : Prop :=
  shown.rdropWhile isBlank = joinReturns (named.rdropWhile isBlank)

section Agreement

variable {shown named : List Char} {c : Char}

theorem Agree.cons (h : Agree shown named) (hc : c ≠ '\r') : Agree (c :: shown) (c :: named) := by
  unfold Agree at h ⊢
  rw [rdropWhile_cons, rdropWhile_cons, h]
  simp only [joinReturns_eq_nil]
  split_ifs
  · rfl
  · rw [joinReturns_cons fun heq => absurd heq hc]
    rfl
  · rw [joinReturns_cons fun heq => absurd heq hc]

theorem Agree.feed_pair (h : Agree shown named) :
    Agree ('\n' :: shown) ('\r' :: '\n' :: named) := by
  unfold Agree at h ⊢
  have hfeed : isBlank '\n' = true := by decide
  have hreturn : isBlank '\r' = true := by decide
  rw [rdropWhile_cons, rdropWhile_cons '\r', rdropWhile_cons '\n' named, h, if_pos hfeed,
    if_pos hreturn]
  by_cases hnil : named.rdropWhile isBlank = []
  · rw [if_pos hnil, if_pos rfl, if_pos (joinReturns_eq_nil.mpr hnil)]
    rfl
  · rw [if_neg hnil, if_neg (List.cons_ne_nil _ _), if_neg (mt joinReturns_eq_nil.mp hnil), joinReturns]

theorem Agree.of_isBlank (hshown : ∀ c ∈ shown, isBlank c) (hnamed : ∀ c ∈ named, isBlank c) :
    Agree shown named := by
  rw [Agree, List.rdropWhile_eq_nil_iff.mpr hshown, List.rdropWhile_eq_nil_iff.mpr hnamed]
  rfl

theorem Agree.trimChars_eq (h : Agree shown named) :
    trimChars shown = joinReturns (trimChars named) := by
  rw [Text.trimChars_eq, Text.trimChars_eq, h, joinReturns_dropWhile]

/-- From the first line on, or from a later one. -/
theorem Agree.drop_cons {line row : List Char} {more later : List (List Char)}
    (hmore : ∀ first, Agree (ended (more.drop first)) (ended (later.drop first)))
    (hfirst : Agree (line ++ '\n' :: ended more) (row ++ '\n' :: ended later)) (first : Nat) :
    Agree (ended ((line :: more).drop first)) (ended ((row :: later).drop first)) := by
  cases first with
  | zero => rwa [List.drop_zero, List.drop_zero, ended_cons, ended_cons]
  | succ first => exact hmore first

/-- With a character more in the first line, which there may not yet be of those that are shown. -/
theorem Agree.drop_char {row : List Char} {more later : List (List Char)}
    (h : ∀ first, Agree (ended (more.drop first)) (ended ((row :: later).drop first)))
    (hc : c ≠ '\r') (first : Nat) : Agree (ended (((c :: more.headD []) :: more.tail).drop first))
      (ended (((c :: row) :: later).drop first)) := by
  cases first with
  | zero =>
    have hfirst := (h 0).cons hc
    cases more with
    | nil =>
      -- the last line that is shown has no break, and none is missed
      have hend : (c :: ended []) ++ ['\n'] = ended [[c]] := rfl
      rw [Agree, List.drop_zero, List.headD_nil, List.tail_nil, ← hend,
        List.rdropWhile_concat_pos _ _ _ (by decide)]
      exact hfirst
    | cons line others => exact hfirst
  | succ first =>
    have hlater := h (first + 1)
    cases more with
    | nil =>
      rw [List.tail_nil, List.drop_succ_cons, List.drop_nil]
      rwa [List.drop_nil] at hlater
    | cons line others => exact hlater

/-- Over a stretch without lone breaks the lines that are shown are the rows, if what comes behind it is
blank as far as it is looked at. -/
theorem agree_of_loneBreaks {front back : List Char} {n : Nat} (h : loneBreaks front = 0)
    (hn : front.count '\n' < n) (first : Nat)
    (hlines : ∀ line ∈ (lines back).take (n - front.count '\n'), ∀ c ∈ line, isBlank c)
    (hrows : ∀ row ∈ (rows back).take (n - front.count '\n'), ∀ c ∈ row, isBlank c) :
    Agree (ended (((lines (front ++ back)).take n).drop first))
      (ended (((rows (front ++ back)).take n).drop first)) := by
  fun_induction joinReturns front generalizing n first with
  | case1 =>
    apply Agree.of_isBlank
    · exact isBlank_ended fun line hline => hlines line (List.mem_of_mem_drop hline)
    · exact isBlank_ended fun row hrow => hrows row (List.mem_of_mem_drop hrow)
  | case2 rest ih =>
    rw [count_pair] at hn hlines hrows
    obtain ⟨n, rfl⟩ : ∃ m, n = m + 1 := ⟨n - 1, by omega⟩
    rw [Nat.add_sub_add_right] at hlines hrows
    rw [loneBreaks_pair] at h
    have hrest := fun first => ih h (n := n) (by omega) first hlines hrows
    rw [List.cons_append, List.cons_append, lines_pair, rows_pair, List.take_succ_cons,
      List.take_succ_cons]
    exact Agree.drop_cons hrest (hrest 0).feed_pair first
  | case3 c rest hpair ih =>
    rw [loneBreaks_cons (head?_ne_of_not_pair hpair)] at h
    obtain ⟨hlone, hc⟩ := Nat.add_eq_zero_iff.mp h
    obtain ⟨n, rfl⟩ : ∃ m, n = m + 1 := ⟨n - 1, by omega⟩
    by_cases hfeed : c = '\n'
    · rw [hfeed, List.count_cons_self, Nat.add_sub_add_right] at hlines hrows
      rw [hfeed, List.count_cons_self] at hn
      have hrest := fun first => ih hlone (n := n) (by omega) first hlines hrows
      rw [hfeed, List.cons_append, lines_feed, rows_feed, List.take_succ_cons, List.take_succ_cons]
      exact Agree.drop_cons hrest ((hrest 0).cons (by decide)) first
    · have hchar : isLineBreak c = false := by
        by_contra hbreak
        rw [if_pos (by simpa [hfeed] using hbreak)] at hc
        cases hc
      rw [List.count_cons_of_ne hfeed] at hlines hrows hn
      have hrest := fun first => ih hlone (n := n + 1) hn first hlines hrows
      obtain ⟨row, more, hmore, heq⟩ := rows_char hfeed (rest ++ back)
      rw [hmore] at hrest
      have hreturn : c ≠ '\r' := by
        rintro rfl
        cases hchar
      have htake : ∀ ls : List (List Char), ((c :: ls.headD []) :: ls.tail).take (n + 1) =
          (c :: (ls.take (n + 1)).headD []) :: (ls.take (n + 1)).tail := by
        rintro (_ | _) <;> simp
      rw [List.cons_append, lines_char hchar, htake, heq, List.take_succ_cons]
      exact Agree.drop_char hrest hreturn first

end Agreement

/-- The characters of the lines from one to another, by the numbers of a position, without blanks at
their ends. -/
def namedLines (cs : List Char) (first last : Nat) : List Char :=
  joinReturns (trimChars (['\n'].intercalate (((rows cs).take (last + 1)).drop first)))

/-- The characters of the lines with these numbers among those that are shown. -/
def shownLines (cs : List Char) (first last : Nat) : List Char :=
  joinReturns (trimChars (['\n'].intercalate (((lines cs).take (last + 1)).drop first)))

/-- A text up to the end of a line, by the numbers of a position, without blanks at the end. -/
def through (cs : List Char) (last : Nat) : List Char :=
  (['\n'].intercalate ((rows cs).take (last + 1))).rdropWhile isBlank

section Ranges

variable {cs front back : List Char} {first last n : Nat}

theorem intercalate_cons_char (c : Char) (l : List Char) (ls : List (List Char)) :
    ['\n'].intercalate ((c :: l) :: ls) = c :: ['\n'].intercalate (l :: ls) := by
  cases ls with
  | nil => simp
  | cons next more => rw [List.intercalate_cons_cons, List.intercalate_cons_cons]; rfl

/-- The first rows of a text are its front, up to the line feed behind the last of them. -/
theorem exists_intercalate_rows (cs : List Char) (last : Nat) : ∃ front back,
    ['\n'].intercalate ((rows cs).take (last + 1)) = front ∧ cs = front ++ back ∧
      front.count '\n' ≤ last ∧ (back = [] ∨ ∃ more, back = '\n' :: more ∧ front.count '\n' = last) := by
  induction cs generalizing last with
  | nil => exact ⟨[], [], by simp [rows], rfl, Nat.zero_le _, .inl rfl⟩
  | cons c cs ih =>
    by_cases hc : c = '\n'
    · subst hc
      rw [rows_feed, List.take_succ_cons]
      cases last with
      | zero => exact ⟨[], '\n' :: cs, by simp, rfl, Nat.le_refl _, .inr ⟨cs, rfl, rfl⟩⟩
      | succ last =>
        obtain ⟨front, back, hfront, rfl, hcount, hback⟩ := ih last
        obtain ⟨row, more, hrows⟩ := List.exists_cons_of_ne_nil (rows_ne_nil (front ++ back))
        rw [hrows, List.take_succ_cons] at hfront ⊢
        have hfeed : List.count '\n' ('\n' :: front) = front.count '\n' + 1 := List.count_cons_self
        refine ⟨'\n' :: front, back, ?_, rfl, by omega, hback.imp_right fun hmore => ?_⟩
        · rw [List.intercalate_cons_cons, hfront]
          rfl
        · obtain ⟨more, hmore, hlast⟩ := hmore
          exact ⟨more, hmore, by omega⟩
    · obtain ⟨front, back, hfront, hcs, hcount, hback⟩ := ih last
      obtain ⟨row, more, hmore, heq⟩ := rows_char hc cs
      rw [hmore, List.take_succ_cons] at hfront
      rw [heq, List.take_succ_cons, intercalate_cons_char, hfront]
      have hsame : List.count '\n' (c :: front) = front.count '\n' := List.count_cons_of_ne hc
      rw [← hsame] at hcount hback
      exact ⟨c :: front, back, rfl, by rw [hcs, List.cons_append], hcount, hback⟩

theorem return_notMem_ended {ls : List (List Char)} (h : ∀ l ∈ ls, '\r' ∉ l) : '\r' ∉ ended ls := by
  intro hmem
  obtain ⟨l, hl, hmem⟩ := List.mem_flatMap.mp hmem
  cases List.mem_append.mp hmem with
  | inl hline => exact h l hl hline
  | inr hfeed => exact absurd (List.mem_singleton.mp hfeed) (by decide)

/-- The lines that are shown hold no carriage returns to be left out. -/
theorem shownLines_eq (cs : List Char) (first last : Nat) :
    shownLines cs first last = trimChars (ended (((lines cs).take (last + 1)).drop first)) := by
  rw [shownLines, trimChars_intercalate]
  apply joinReturns_eq_self
  intro hmem
  obtain ⟨front, back, heq, _⟩ := exists_trimChars (ended (((lines cs).take (last + 1)).drop first))
  have hended : '\r' ∈ ended (((lines cs).take (last + 1)).drop first) := by
    rw [heq]
    simp [hmem]
  refine return_notMem_ended (fun l hl hreturn => ?_) hended
  have hline := not_isLineBreak_of_mem_lines cs l (List.mem_of_mem_take (List.mem_of_mem_drop hl))
  exact absurd (hline _ hreturn) (by decide)

/-- Without a lone break up to the end of what is shown, the lines that are shown are those that are
named. -/
theorem shownLines_eq_namedLines (h : loneBreaks (through cs last) = 0) (first : Nat) :
    shownLines cs first last = namedLines cs first last := by
  obtain ⟨front, back, hfront, hcs, hcount, hback⟩ := exists_intercalate_rows cs last
  obtain ⟨blanks, hblanks, hsplit⟩ : ∃ blanks, (∀ c ∈ blanks, isBlank c) ∧
      through cs last ++ blanks = front := by
    refine ⟨front.rtakeWhile isBlank, fun c => List.mem_rtakeWhile_imp, ?_⟩
    rw [through, hfront]
    exact List.rdropWhile_append_rtakeWhile
  have hsum : (through cs last).count '\n' + blanks.count '\n' = front.count '\n' := by
    rw [← hsplit, List.count_append]
  have hbehind : back = [] ∨ ∃ more, back = '\n' :: more :=
    hback.imp_right fun hfeed => hfeed.imp fun _ hmore => hmore.1
  have hfew : back ≠ [] → last + 1 - (through cs last).count '\n' ≤ blanks.count '\n' + 1 := by
    intro hne
    obtain ⟨_, _, hlast⟩ := hback.resolve_left hne
    omega
  have hagree := agree_of_loneBreaks h (n := last + 1) (by omega) first
    (isBlank_of_mem_lines hblanks hbehind hfew) (isBlank_of_mem_rows hblanks hbehind hfew)
  rw [← List.append_assoc, hsplit, ← hcs] at hagree
  rw [shownLines_eq, hagree.trimChars_eq, namedLines, trimChars_intercalate]

/-! ### Lone breaks count -/

/-- A text without lone breaks has none up to the end of a line. -/
theorem loneBreaks_through (h : loneBreaks (cs.rdropWhile isBlank) = 0) (last : Nat) :
    loneBreaks (through cs last) = 0 := by
  obtain ⟨front, back, hfront, hcs, _⟩ := exists_intercalate_rows cs last
  have hprefix : through cs last <+: cs.rdropWhile isBlank := by
    rw [through, hfront, hcs]
    exact rdropWhile_append_prefix front back
  obtain ⟨rest, hrest⟩ := hprefix
  have hlast : (through cs last).getLast? ≠ some '\r' := by
    intro hreturn
    exact absurd (getLast?_rdropWhile _ _ hreturn) (by decide)
  rw [← hrest, loneBreaks_append fun heq => absurd heq hlast] at h
  omega

theorem flatten_take_nil (ls : List (List Char)) (n : Nat) :
    (([] :: ls).take n).flatten = (ls.take (n - 1)).flatten := by
  cases n <;> rfl

/-- Up to a break there are no more lines than breaks, so that the first lines of a text hold no more than
the stretch with these breaks. -/
theorem countP_lines_le (h : n ≤ loneBreaks front + front.count '\n') :
    ((lines (front ++ back)).take n).flatten.countP (!isBlank ·) ≤ front.countP (!isBlank ·) := by
  fun_induction joinReturns front generalizing n with
  | case1 =>
    rw [Nat.le_zero.mp h]
    exact Nat.zero_le _
  | case2 rest ih =>
    rw [loneBreaks_pair, count_pair] at h
    rw [List.cons_append, List.cons_append, lines_pair, flatten_take_nil,
      List.countP_cons_of_neg (by decide), List.countP_cons_of_neg (by decide)]
    exact ih (by omega)
  | case3 c rest hpair ih =>
    rw [loneBreaks_cons (head?_ne_of_not_pair hpair)] at h
    cases hc : isLineBreak c with
    | true =>
      have hcount : (if isLineBreak c && c != '\n' then 1 else 0) + List.count '\n' (c :: rest) =
          rest.count '\n' + 1 := by
        rw [hc, List.count_cons]
        by_cases hfeed : c = '\n' <;> simp [hfeed, Nat.add_comm]
      have hle : rest.countP (!isBlank ·) ≤ (c :: rest).countP (!isBlank ·) :=
        (List.sublist_cons_self _ _).countP_le
      cases lines_break_append hc hpair back with
      | inl hlines =>
        rw [List.cons_append, hlines, flatten_take_nil]
        exact (ih (by omega)).trans hle
      | inr hpaired =>
        obtain ⟨rfl, rfl, more, rfl, hlines⟩ := hpaired
        have hone : n ≤ 1 := by simpa [loneBreaks, joinReturns, isLineBreak] using h
        rw [List.singleton_append, hlines, flatten_take_nil, Nat.sub_eq_zero_of_le hone]
        exact Nat.zero_le _
    | false =>
      rw [List.count_cons_of_ne (ne_feed_of_not_isLineBreak hc)] at h
      have hrest := ih (n := n) (by simpa [hc] using h)
      rw [List.cons_append, lines_char hc, List.countP_cons]
      cases n with
      | zero => exact Nat.zero_le _
      | succ n =>
        rw [List.take_succ_cons, List.flatten_cons, List.cons_append, List.countP_cons]
        refine Nat.add_le_add_right (le_trans ?_ hrest) _
        cases lines (rest ++ back) with
        | nil => simp
        | cons line more => exact Nat.le_refl _

theorem prefix_rows (part back : List Char) :
    part <+: ['\n'].intercalate ((rows (part ++ back)).take (part.count '\n' + 1)) := by
  obtain ⟨front, rest, hfront, hsplit, hcount, hrest⟩ :=
    exists_intercalate_rows (part ++ back) (part.count '\n')
  rw [hfront]
  have hprefix : front <+: part ++ back := by
    rw [hsplit]
    exact List.prefix_append _ _
  cases List.prefix_or_prefix_of_prefix (List.prefix_append part back) hprefix with
  | inl h => exact h
  | inr h =>
    -- what lies between the front and the end of the part holds no line feed, and would begin with one
    obtain ⟨middle, rfl⟩ := h
    rw [List.append_assoc, List.append_cancel_left_eq] at hsplit
    cases middle with
    | nil => rw [List.append_nil]
    | cons c middle =>
      obtain hnil | ⟨more, hmore, hlast⟩ := hrest
      · rw [hnil] at hsplit
        cases hsplit
      · rw [hmore] at hsplit
        cases hsplit
        rw [List.count_append, List.count_cons_self] at hlast
        omega

/-- What stands in a text stands in its rows from the one where it begins to the one where it ends. -/
theorem infix_rows (front part back : List Char) :
    part <:+: ['\n'].intercalate (((rows (front ++ (part ++ back))).take
      ((front ++ part).count '\n' + 1)).drop (front.count '\n')) := by
  induction front with
  | nil => exact (prefix_rows part back).isInfix
  | cons c front ih =>
    by_cases hc : c = '\n'
    · rw [hc, List.cons_append, List.cons_append, rows_feed, List.count_cons_self,
        List.count_cons_self, List.take_succ_cons, List.drop_succ_cons]
      exact ih
    · obtain ⟨row, more, hmore, heq⟩ := rows_char hc (front ++ (part ++ back))
      rw [hmore, List.take_succ_cons] at ih
      rw [List.cons_append, List.cons_append, heq, List.count_cons_of_ne hc, List.count_cons_of_ne hc,
        List.take_succ_cons]
      cases hfirst : front.count '\n' with
      | zero =>
        rw [hfirst, List.drop_zero] at ih
        rw [List.drop_zero, intercalate_cons_char]
        exact ih.trans (List.suffix_cons _ _).isInfix
      | succ first =>
        rw [hfirst] at ih
        exact ih

/-- Up to the row of a character behind a lone break, the lines that are shown end before the character. -/
theorem shownLines_ne_namedLines {front blanks : List Char} (hlone : loneBreaks front ≠ 0)
    (hc : isBlank c = false) :
    shownLines (front ++ c :: blanks) 0 (front.count '\n') ≠
      namedLines (front ++ c :: blanks) 0 (front.count '\n') := by
  intro heq
  have hsplit : (front ++ [c]) ++ blanks = front ++ c :: blanks := by
    rw [List.append_assoc, List.singleton_append]
  have hcount : (front ++ [c]).count '\n' = front.count '\n' := by
    rw [List.count_append,
      List.count_cons_of_ne (ne_feed_of_not_isLineBreak (isLineBreak_eq_false hc)), List.count_nil]
    rfl
  have hshown := @countP_lines_le front (c :: blanks) (front.count '\n' + 1) (by omega)
  have hnamed := (prefix_rows (front ++ [c]) blanks).sublist.countP_le (p := (!isBlank ·))
  rw [hsplit, hcount] at hnamed
  have hsame := congrArg (List.countP (!isBlank ·)) heq
  rw [shownLines_eq, countP_trimChars, countP_ended, namedLines, countP_joinReturns,
    countP_trimChars, List.drop_zero, List.drop_zero] at hsame
  have hone : (front ++ [c]).countP (!isBlank ·) = front.countP (!isBlank ·) + 1 := by
    simp [List.countP_append, hc]
  omega

/-- The lines that are shown are those that are named, whatever the numbers, exactly if there is no lone
break before the last character that is not blank. -/
theorem shownLines_eq_namedLines_iff (cs : List Char) :
    (∀ first last, shownLines cs first last = namedLines cs first last) ↔
      loneBreaks (cs.rdropWhile isBlank) = 0 := by
  constructor
  · intro h
    by_contra hlone
    obtain ⟨body, blanks, hbody, hcs⟩ :
        ∃ body blanks, cs.rdropWhile isBlank = body ∧ cs = body ++ blanks :=
      ⟨_, _, rfl, List.rdropWhile_append_rtakeWhile.symm⟩
    have hkept := getLast?_rdropWhile (p := isBlank) cs
    rw [hbody] at hlone hkept
    have hne : body ≠ [] := by
      rintro rfl
      exact hlone rfl
    obtain ⟨front, c, rfl⟩ : ∃ front c, body = front ++ [c] :=
      ⟨_, _, (List.dropLast_concat_getLast hne).symm⟩
    have hc : isBlank c = false := hkept c (by simp)
    -- the last character that is not blank breaks no line itself
    have hchar := isLineBreak_eq_false hc
    have hbreaks : loneBreaks (front ++ [c]) = loneBreaks front := by
      have hnotFeed : [c].head? ≠ some '\n' := by simpa using ne_feed_of_not_isLineBreak hchar
      rw [loneBreaks_append fun _ => hnotFeed, loneBreaks_cons fun _ => by simp, hchar]
      rfl
    rw [hbreaks] at hlone
    rw [List.append_assoc, List.singleton_append] at hcs
    exact shownLines_ne_namedLines hlone hc (hcs ▸ h 0 (front.count '\n'))
  · intro h first last
    exact shownLines_eq_namedLines (loneBreaks_through h last) first

end Ranges

end QueryLint.Text
