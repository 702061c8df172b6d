import QueryLint.Proofs.Text.Boundary

/-!
# Texts in order in a text

Some texts occur in order in another one if each is found in it behind the one before.
-/
namespace QueryLint.Text

/-- Whether texts occur in a text one after the other, with anything between them. -/
def InOrder : List String → String → Prop
  | [], _ => True
  | t :: ts, s => ∃ front back, s = front ++ t ++ back ∧ InOrder ts back

namespace InOrder

variable {ts us : List String} {s u : String}

theorem nil (s : String) : InOrder [] s := trivial

theorem append_left (front : String) (h : InOrder ts s) : InOrder ts (front ++ s) := by
  cases ts with
  | nil => exact nil _
  | cons t ts =>
    obtain ⟨before, back, hs, hback⟩ := h
    refine ⟨front ++ before, back, ?_, hback⟩
    rw [hs]
    simp only [String.append_assoc]

theorem append_right (h : InOrder ts s) (back : String) : InOrder ts (s ++ back) := by
  induction ts generalizing s with
  | nil => exact nil _
  | cons t ts ih =>
    obtain ⟨front, rest, hs, hrest⟩ := h
    refine ⟨front, rest ++ back, ?_, ih hrest⟩
    rw [hs, String.append_assoc]

theorem append (h : InOrder ts s) (h' : InOrder us u) : InOrder (ts ++ us) (s ++ u) := by
  induction ts generalizing s with
  | nil => exact append_left s h'
  | cons t ts ih =>
    obtain ⟨front, back, hs, hback⟩ := h
    refine ⟨front, back ++ u, ?_, ih hback⟩
    rw [hs, String.append_assoc]

/-- Some of the texts may be left out. -/
theorem sublist (hsub : ts.Sublist us) (h : InOrder us s) : InOrder ts s := by
  induction hsub generalizing s with
  | slnil => exact nil _
  | cons t hsub ih =>
    obtain ⟨front, back, hs, hback⟩ := h
    rw [hs]
    exact append_left _ (ih hback)
  | cons_cons t hsub ih =>
    obtain ⟨front, back, hs, hback⟩ := h
    exact ⟨front, back, hs, ih hback⟩

/-- Each of the texts occurs. -/
theorem isInfix {t : String} (h : InOrder [t] s) : t.toList <:+: s.toList := by
  obtain ⟨front, back, hs, _⟩ := h
  refine ⟨front.toList, back.toList, ?_⟩
  rw [hs, String.toList_append, String.toList_append]

/-- What occurs in order in some texts does so in the texts joined by a separator. -/
theorem intercalate {α : Type} (separator : String) (text : α → String) (parts : α → List String)
    {items : List α} (h : ∀ a ∈ items, InOrder (parts a) (text a)) :
    InOrder (items.flatMap parts) (separator.intercalate (items.map text)) := by
  induction items with
  | nil => exact nil _
  | cons a items ih =>
    obtain ⟨ha, hitems⟩ := List.forall_mem_cons.mp h
    have hrest := ih hitems
    cases items with
    | nil =>
      rw [List.flatMap_cons, List.flatMap_nil, List.append_nil]
      simpa using ha
    | cons b items =>
      rw [List.flatMap_cons, List.map_cons, List.map_cons, String.intercalate_cons_cons]
      exact append (append_right ha separator) hrest

end InOrder

end QueryLint.Text
