import Mathlib.Data.List.Infix
import QueryLint.Text.Position

/-!
# Character boundaries

An offset is a boundary of a text if the text divides there into two texts. What lies between two
boundaries is a text again.
-/
namespace QueryLint.Text

/-- Whether an offset lies between two characters of a text, or at one of its ends. -/
def IsBoundary (text : String) (offset : Int) : Prop :=
  ∃ front back : String, text = front ++ back ∧ (byteLength front : Int) = offset

theorem isBoundary_zero (text : String) : IsBoundary text 0 :=
  ⟨"", text, by simp, by simp [byteLength]⟩

theorem slice_zero (bytes : Bytes) (stop : Nat) : slice bytes 0 stop = bytes.take stop := rfl

theorem drop_slice {n stop : Nat} (bytes : Bytes) (start : Nat) :
    (slice bytes start stop).drop n = slice bytes (start + n) stop := by
  rw [slice, slice, List.drop_drop]

theorem slice_append {start middle stop : Nat} (bytes : Bytes) (h₁ : start ≤ middle)
    (h₂ : middle ≤ stop) :
    slice bytes start middle ++ slice bytes middle stop = slice bytes start stop := by
  have hfront : (slice bytes start stop).take (middle - start) = slice bytes start middle := by
    rw [slice, List.take_drop, List.take_take, slice]
    congr 2
    omega
  have hback : (slice bytes start stop).drop (middle - start) = slice bytes middle stop := by
    rw [drop_slice, Nat.add_sub_cancel' h₁]
  rw [← hfront, ← hback, List.take_append_drop]

theorem byteLength_append (s t : String) : byteLength (s ++ t) = byteLength s + byteLength t := by
  rw [← length_utf8, utf8_append, List.length_append, length_utf8, length_utf8]

theorem le_of_isBoundary {text : String} {n : Nat} (h : IsBoundary text n) :
    n ≤ byteLength text := by
  obtain ⟨front, back, rfl, hn⟩ := h
  rw [byteLength_append]
  omega

theorem eq_of_utf8_eq {s t : String} (h : utf8 s = utf8 t) : s = t := by
  have hdecode := congrArg decode h
  rw [decode_utf8, decode_utf8] at hdecode
  exact Except.ok.inj hdecode

theorem utf8_of_decode {bytes : Bytes} {s : String} (h : decode bytes = .ok s) : utf8 s = bytes := by
  unfold decode at h
  split_ifs at h with hvalid
  rw [← Except.ok.inj h, utf8, String.fromUTF8, List.data_toByteArray]

/-- Among ASCII characters every offset is a boundary. -/
theorem isBoundary_of_ascii {text : String} (ascii : ∀ c ∈ text.toList, c.utf8Size = 1) {n : Nat}
    (h : n ≤ byteLength text) : IsBoundary text n := by
  obtain ⟨cs, rfl⟩ : ∃ cs, text = String.ofList cs := ⟨text.toList, by simp⟩
  rw [String.toList_ofList] at ascii
  induction cs generalizing n with
  | nil =>
    have hzero : byteLength (String.ofList []) = 0 := rfl
    rw [hzero, Nat.le_zero] at h
    subst h
    exact isBoundary_zero _
  | cons c cs ih =>
    cases n with
    | zero => exact isBoundary_zero _
    | succ n =>
      have hone : byteLength (String.singleton c) = 1 := by
        rw [byteLength, String.utf8ByteSize_singleton]
        exact ascii c List.mem_cons_self
      rw [String.ofList_cons] at h ⊢
      rw [byteLength_append, hone] at h
      have hle : n ≤ byteLength (String.ofList cs) := by omega
      obtain ⟨front, back, hsplit, hlen⟩ := ih (fun d hd => ascii d (List.mem_cons_of_mem _ hd)) hle
      refine ⟨String.singleton c ++ front, back, ?_, ?_⟩
      · rw [hsplit, String.append_assoc]
      · rw [byteLength_append, hone]
        omega

/-- Of two ways to divide a text, the one that comes first divides the front of the other. -/
theorem append_eq_of_byteLength_le {front₁ back₁ front₂ back₂ : String}
    (h : front₁ ++ back₁ = front₂ ++ back₂) (hle : byteLength front₁ ≤ byteLength front₂) :
    ∃ middle, front₂ = front₁ ++ middle := by
  have hprefix₁ : front₁.toList <+: (front₂ ++ back₂).toList := by
    rw [← h, String.toList_append]
    exact List.prefix_append _ _
  have hprefix₂ : front₂.toList <+: (front₂ ++ back₂).toList := by
    rw [String.toList_append]
    exact List.prefix_append _ _
  rcases List.prefix_or_prefix_of_prefix hprefix₁ hprefix₂ with ⟨cs, hcs⟩ | ⟨cs, hcs⟩
  · refine ⟨String.ofList cs, String.toList_injective ?_⟩
    rw [String.toList_append, String.toList_ofList, hcs]
  · have heq : front₁ = front₂ ++ String.ofList cs := by
      apply String.toList_injective
      rw [String.toList_append, String.toList_ofList, hcs]
    rw [heq, byteLength_append] at hle
    have hnil : String.ofList cs = "" := String.utf8ByteSize_eq_zero_iff.mp (by
      rw [← byteLength]
      omega)
    exact ⟨"", by rw [heq, hnil, String.append_empty, String.append_empty]⟩

theorem exists_utf8_drop {text : String} {pos : Nat} (h : IsBoundary text pos) :
    ∃ s, (utf8 text).drop pos = utf8 s := by
  obtain ⟨front, back, rfl, hlen⟩ := h
  refine ⟨back, ?_⟩
  rw [utf8_append, List.drop_left' (by rw [length_utf8]; omega)]

theorem exists_utf8_slice {text : String} {start stop : Nat} (hstart : IsBoundary text start)
    (hstop : IsBoundary text stop) (h : start ≤ stop) :
    ∃ s, slice (utf8 text) start stop = utf8 s := by
  obtain ⟨front, back, rfl, hfront⟩ := hstart
  obtain ⟨front', back', htext, hfront'⟩ := hstop
  obtain ⟨middle, rfl⟩ := append_eq_of_byteLength_le htext (by omega)
  refine ⟨middle, ?_⟩
  rw [htext, slice, utf8_append, List.take_left' (by rw [length_utf8]; omega), utf8_append,
    List.drop_left' (by rw [length_utf8]; omega)]

end QueryLint.Text
