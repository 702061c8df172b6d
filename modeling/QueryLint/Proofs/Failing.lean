import QueryLint.Proofs.Related

/-!
# Computations that fail for one reason

A computation that can only fail in one way is told by when it fails and by what it gives where it does
not. Steps that are put together fail where one of them does, and what they give is put together from what
the steps give.
-/
namespace QueryLint

/-- Whether a computation fails with `e` where something holds, and gives `a` everywhere else. -/
structure FailsIff {ε α : Type} (x : Except ε α) (bad : Prop) (e : ε) (a : α) : Prop where
  error : bad → x = .error e
  ok : ¬ bad → x = .ok a

namespace FailsIff

variable {ε α β : Type} {x : Except ε α} {bad bad' : Prop} {e : ε} {a : α}

theorem congr (h : FailsIff x bad e a) (hbad : bad' ↔ bad) : FailsIff x bad' e a :=
  ⟨fun hb => h.error (hbad.mp hb), fun hb => h.ok (mt hbad.mpr hb)⟩

theorem of_ok (a : α) (e : ε) : FailsIff (.ok a) False e a := ⟨False.elim, fun _ => rfl⟩

theorem map (h : FailsIff x bad e a) (f : α → β) : FailsIff (x.map f) bad e (f a) where
  error hbad := by
    rw [h.error hbad]
    rfl
  ok hbad := by
    rw [h.ok hbad]
    rfl

theorem mapError {ε' : Type} (h : FailsIff x bad e a) (f : ε → ε') :
    FailsIff (x.mapError f) bad (f e) a where
  error hbad := by
    rw [h.error hbad]
    rfl
  ok hbad := by
    rw [h.ok hbad]
    rfl

/-- The second step is only taken if the first did not fail, with what the first gives. -/
theorem bind {f : α → Except ε β} {b : β} (h : FailsIff x bad e a)
    (hf : ¬ bad → FailsIff (f a) bad' e b) : FailsIff (x >>= f) (bad ∨ bad') e b where
  error hbad := by
    by_cases hx : bad
    · rw [h.error hx]
      rfl
    · rw [h.ok hx]
      exact (hf hx).error (hbad.resolve_left hx)
  ok hbad := by
    obtain ⟨hx, hrest⟩ := not_or.mp hbad
    rw [h.ok hx]
    exact (hf hx).ok hrest

theorem mapM {f : α → Except ε β} {fails : α → Prop} {g : α → β} {xs : List α}
    (h : ∀ x ∈ xs, FailsIff (f x) (fails x) e (g x)) :
    FailsIff (xs.mapM f) (∃ x ∈ xs, fails x) e (xs.map g) := by
  induction xs with
  | nil => exact (of_ok [] e).congr (by simp)
  | cons x xs ih =>
    have hrest := ih fun y hy => h y (List.mem_cons_of_mem x hy)
    rw [List.mapM_cons]
    refine FailsIff.congr ((h x List.mem_cons_self).bind fun _ => hrest.bind fun _ =>
      of_ok (g x :: xs.map g) e) ?_
    simp

theorem foldlM {f : β → α → Except ε β} {fails : α → Prop} {g : β → α → β} (xs : List α)
    (h : ∀ b, ∀ x ∈ xs, FailsIff (f b x) (fails x) e (g b x)) (b : β) :
    FailsIff (xs.foldlM f b) (∃ x ∈ xs, fails x) e (xs.foldl g b) := by
  induction xs generalizing b with
  | nil => exact (of_ok b e).congr (by simp)
  | cons x xs ih =>
    have hrest := ih (fun b y hy => h b y (List.mem_cons_of_mem x hy)) (g b x)
    rw [List.foldlM_cons]
    exact ((h b x List.mem_cons_self).bind fun _ => hrest).congr (by simp)

/-- Where it fails, it does so for its reason. -/
theorem eq_error_iff (h : FailsIff x bad e a) {e' : ε} : x = .error e' ↔ bad ∧ e' = e := by
  by_cases hbad : bad
  · rw [h.error hbad, Except.error.injEq]
    exact ⟨fun heq => ⟨hbad, heq.symm⟩, fun hyp => hyp.2.symm⟩
  · rw [h.ok hbad]
    exact iff_of_false nofun fun hyp => hbad hyp.1

end FailsIff

end QueryLint
