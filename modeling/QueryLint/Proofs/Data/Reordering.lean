import Mathlib.Data.List.Pairwise
import Mathlib.Data.List.Perm.Basic
import QueryLint.Proofs.Data.Matching

/-!
# Maps and sets in another order

The order in which the entries of a map come makes no difference to its plain form but for the order of
members, and the order in which the elements of a set of texts come makes none at all. This holds wherever
the map or the set stands, but not for a map inside a key: a key is written as a text, which shows the order.
-/
namespace QueryLint.Data

namespace Artifact

variable {x y z : Artifact} {xs ys : List Artifact} {v w : Value}

/-! ### Entries in another order -/

/-- Whether neither of two artifacts is equal to the other. -/
def Apart (x y : Artifact) : Prop := same x y = false ∧ same y x = false

theorem Apart.symm (h : Apart x y) : Apart y x := ⟨h.2, h.1⟩

section Apart

variable {α : Type} {key : α → Artifact} {as : List α} {seen : List Artifact}

theorem keepFirst_of_apart (h : as.Pairwise fun a b => Apart (key a) (key b))
    (hseen : ∀ a ∈ as, ∀ x ∈ seen, same (key a) x = false) : keepFirst key seen as = as := by
  induction as generalizing seen with
  | nil => rfl
  | cons a as ih =>
    rw [List.pairwise_cons] at h
    have hamong : isAmong (key a) seen = false := by
      rw [isAmong, List.any_eq_false]
      exact fun x hx => by simp [hseen a List.mem_cons_self x hx]
    rw [keepFirst, hamong, if_neg Bool.false_ne_true, ih h.2]
    intro b hb x hx
    rcases List.mem_cons.mp hx with rfl | hx
    · exact (h.1 b hb).2
    · exact hseen b (List.mem_cons_of_mem _ hb) x hx

theorem mergeEntries_of_apart {entries : List (Artifact × α)}
    (h : entries.Pairwise fun e f => Apart e.1 f.1) : mergeEntries entries = entries := by
  rw [mergeEntries, keepFirst_of_apart h (by simp)]
  refine (List.map_congr_left fun e he => ?_).trans (List.map_id _)
  cases hfind : entries.reverse.find? fun f => same e.1 f.1 with
  | none => rfl
  | some f =>
    have hf := List.mem_reverse.mp (List.mem_of_find?_eq_some hfind)
    have hsame := List.find?_some hfind
    have heq : e = f := by
      by_contra hne
      have : Std.Symm fun e f : Artifact × α => Apart e.1 f.1 := ⟨fun _ _ hef => hef.symm⟩
      rw [(h.forall he hf hne).1] at hsame
      cases hsame
    rw [heq]
    rfl

end Apart

/-- The members that the plain keys and values of some entries make. -/
def membersOf (ps : List (Value × Value)) : Members := ps.map fun p => (p.1.shown, p.2)

/-- Entries whose keys stay apart are members one by one. -/
theorem plain_map_of_apart {es : List (Artifact × Artifact)} {ps : List (Value × Value)}
    (hapart : es.Pairwise fun e f => Apart e.1 f.1)
    (hps : List.Forall₂ (fun e p => plain e.1 = .ok p.1 ∧ plain e.2 = .ok p.2) es ps)
    (htexts : (membersOf ps).keys.Nodup) : plain (.map es) = .ok (.object (membersOf ps)) := by
  have hlength : (es.map (·.1)).length = ps.length := by rw [List.length_map, hps.length_eq]
  have hentries : ((es.map (·.1)).zip ps).Pairwise fun e f => Apart e.1 f.1 := by
    rw [← List.pairwise_map (f := Prod.fst) (R := Apart), List.map_fst_zip hlength.le, List.pairwise_map]
    exact hapart
  have hmembers : ((es.map (·.1)).zip ps).map (fun entry => (entry.2.1.shown, entry.2.2)) =
      membersOf ps := by
    conv_rhs => rw [membersOf, ← List.map_snd_zip hlength.ge, List.map_map]
    rfl
  refine plain_map_eq_ok_iff.mpr ⟨ps, hps, ?_⟩
  rw [mergeEntries_of_apart hentries, hmembers, Members.ofList_of_nodup htexts]

/-- Entries in another order, whose keys stay apart, give the same members in another order. -/
theorem exists_plain_of_perm {es fs : List (Artifact × Artifact)} (hperm : es.Perm fs)
    (hapart : es.Pairwise fun e f => Apart e.1 f.1)
    (htexts : ∀ ps, plainEntries es = .ok ps → (membersOf ps).keys.Nodup) (hv : plain (.map es) = .ok v) :
    ∃ w, plain (.map fs) = .ok w ∧ SortsTo v w := by
  obtain ⟨ps, hps, -⟩ := plain_map_eq_ok_iff.mp hv
  obtain ⟨qs, hqs, hqps⟩ := List.perm_comp_forall₂ hperm.symm hps
  have hmembers : (membersOf ps).Perm (membersOf qs) := hqps.symm.map _
  have hps' := htexts ps (plainEntries_eq_ok_iff.mpr hps)
  have hqs' : (membersOf qs).keys.Nodup := (hmembers.map _).nodup_iff.mp hps'
  have heq := plain_map_of_apart hapart hps hps'
  have hw := plain_map_of_apart ((hperm.pairwise_iff fun hef => hef.symm).mp hapart) hqs hqs'
  rw [heq] at hv
  cases hv
  refine ⟨_, hw, isTidy_plain heq, isTidy_plain hw, ?_⟩
  rw [Value.sorted_object, Value.sorted_object, Value.object.injEq,
    Value.sorted_members_eq_iff (by rwa [Value.keys_map_sorted])]
  exact hmembers.map _

/-! ### Elements in another order -/

section Texts

variable {ts us : List String}

theorem isAmong_of_texts {s : String} (hx : x.asText? = some s)
    (h : List.Forall₂ (fun y t => y.asText? = some t) ys ts) : isAmong x ys ↔ s ∈ ts := by
  induction h with
  | nil => simp [isAmong]
  | cons hy _ ih =>
    rw [isAmong, List.any_cons, Bool.or_eq_true, same_of_asText? hx hy, beq_iff_eq, List.mem_cons]
    exact or_congr_right ih

/-- Of texts, those are kept that have not come up before, each once. -/
theorem exists_kept {seen : List Artifact} (h : List.Forall₂ (fun x t => x.asText? = some t) xs ts)
    (hseen : List.Forall₂ (fun x t => x.asText? = some t) seen us) :
    ∃ ks : List String, (keepFirst (·.1) seen (xs.zip (ts.map Value.text))).map (·.2) = ks.map .text ∧
      ks.Nodup ∧ ∀ s, s ∈ ks ↔ s ∈ ts ∧ s ∉ us := by
  induction h generalizing seen us with
  | nil => exact ⟨[], rfl, List.nodup_nil, by simp⟩
  | @cons x t xs ts hx _ ih =>
    rw [List.map_cons, List.zip_cons_cons, keepFirst]
    have hamong := isAmong_of_texts hx hseen
    split
    · next hold =>
      have hold := hamong.mp hold
      obtain ⟨ks, heq, hnodup, hmem⟩ := ih hseen
      refine ⟨ks, heq, hnodup, fun s => ?_⟩
      rw [hmem, List.mem_cons]
      refine ⟨fun h => ⟨.inr h.1, h.2⟩, fun h => ⟨h.1.resolve_left ?_, h.2⟩⟩
      rintro rfl
      exact h.2 hold
    · next hnew =>
      have hnew := mt hamong.mpr hnew
      obtain ⟨ks, heq, hnodup, hmem⟩ := ih (.cons hx hseen)
      refine ⟨t :: ks, ?_, List.nodup_cons.mpr ⟨fun h => ?_, hnodup⟩, fun s => ?_⟩
      · rw [List.map_cons, heq, List.map_cons]
      · exact ((hmem t).mp h).2 List.mem_cons_self
      · rw [List.mem_cons, List.mem_cons, hmem, List.mem_cons, not_or]
        by_cases hs : s = t
        · simp [hs, hnew]
        · simp [hs]

theorem lt_text (s t : String) : Value.lt (.text s) (.text t) = .ok (s < t) := by
  rw [Value.lt]

/-- A text is put into sorted texts where it belongs. -/
theorem exists_insertSorted_text (s : String) (h : ts.Pairwise (· ≤ ·)) :
    ∃ us : List String, Value.insertSorted (.text s) (ts.map .text) = .ok (us.map .text) ∧
      us.Perm (s :: ts) ∧ us.Pairwise (· ≤ ·) := by
  induction ts with
  | nil => exact ⟨[s], rfl, .refl _, List.pairwise_singleton _ _⟩
  | cons t ts ih =>
    rw [List.pairwise_cons] at h
    rw [List.map_cons]
    by_cases hlt : s < t
    · refine ⟨s :: t :: ts, Value.insertSorted_cons_eq_ok_iff.mpr (.inl ⟨?_, rfl⟩), .refl _, ?_⟩
      · rw [lt_text, decide_eq_true hlt]
      · exact List.pairwise_cons.mpr ⟨List.forall_mem_cons.mpr
          ⟨hlt.le, fun u hu => hlt.le.trans (h.1 u hu)⟩, List.pairwise_cons.mpr h⟩
    · obtain ⟨us, hinsert, hperm, hsorted⟩ := ih h.2
      refine ⟨t :: us, Value.insertSorted_cons_eq_ok_iff.mpr (.inr ⟨?_, _, hinsert, rfl⟩), ?_, ?_⟩
      · rw [lt_text, decide_eq_false hlt]
      · exact (hperm.cons t).trans (.swap s t ts)
      · refine List.pairwise_cons.mpr ⟨fun u hu => ?_, hsorted⟩
        rcases List.mem_cons.mp (hperm.mem_iff.mp hu) with rfl | hu
        · exact not_lt.mp hlt
        · exact h.1 u hu

/-- Texts are sorted by their order. -/
theorem exists_sort_texts (ts : List String) : ∃ us : List String,
    Value.sort (ts.map .text) = .ok (us.map .text) ∧ us.Perm ts ∧ us.Pairwise (· ≤ ·) := by
  have hfold : ∀ acc : List String, acc.Pairwise (· ≤ ·) → ∃ us : List String,
      (ts.map Value.text).foldlM (fun sorted v => Value.insertSorted v sorted) (acc.map .text) =
        .ok (us.map .text) ∧ us.Perm (ts ++ acc) ∧ us.Pairwise (· ≤ ·) := by
    induction ts with
    | nil => exact fun acc h => ⟨acc, rfl, .refl _, h⟩
    | cons t ts ih =>
      intro acc h
      obtain ⟨next, hinsert, hnext, hsorted⟩ := exists_insertSorted_text t h
      obtain ⟨us, hfold, hperm, hus⟩ := ih next hsorted
      refine ⟨us, Value.foldlM_cons_eq_ok_iff.mpr ⟨_, hinsert, hfold⟩, ?_, hus⟩
      exact (hperm.trans (hnext.append_left ts)).trans List.perm_middle
  simpa [Value.sort] using hfold [] .nil

/-- Texts in any order are sorted alike. -/
theorem sort_texts_of_perm (h : ts.Perm us) :
    Value.sort (ts.map .text) = Value.sort (us.map .text) := by
  obtain ⟨ts', hts, htperm, htsorted⟩ := exists_sort_texts ts
  obtain ⟨us', hus, huperm, husorted⟩ := exists_sort_texts us
  have heq : ts' = us' := List.Perm.eq_of_pairwise (fun _ _ _ _ hab hba => le_antisymm hab hba)
    htsorted husorted ((htperm.trans h).trans huperm.symm)
  rw [hts, hus, heq]

/-- The plain form of a set of texts is the sorted list of them. -/
theorem exists_plain_set (h : List.Forall₂ (fun x t => x.asText? = some t) xs ts) :
    ∃ ks : List String, ks.Nodup ∧ (∀ s, s ∈ ks ↔ s ∈ ts) ∧
      plain (.set xs) = (Value.sort (ks.map .text)).map .list := by
  obtain ⟨ks, hkept, hnodup, hmem⟩ := exists_kept h .nil
  refine ⟨ks, hnodup, by simpa using hmem, ?_⟩
  obtain ⟨sorted, hsort, -⟩ := exists_sort_texts ks
  have hitems : List.Forall₂ (fun x v => plain x = .ok v) xs (ts.map .text) :=
    List.forall₂_map_right_iff.mpr (h.imp fun _ _ hx => plain_of_asText? hx)
  rw [hsort]
  exact plain_set_eq_ok_iff.mpr ⟨_, hitems, _, hkept ▸ hsort, rfl⟩

theorem exists_texts (h : ∀ x ∈ xs, x.asText?.isSome) :
    ∃ ts : List String, List.Forall₂ (fun x t => x.asText? = some t) xs ts :=
  exists_forall₂_of_forall fun x hx => Option.isSome_iff_exists.mp (h x hx)

/-- A set of texts has one plain form, whatever order its elements come in. -/
theorem plain_set_of_perm (hperm : xs.Perm ys) (h : ∀ x ∈ xs, x.asText?.isSome) :
    plain (.set xs) = plain (.set ys) := by
  obtain ⟨ts, hts⟩ := exists_texts h
  obtain ⟨us, hus, huts⟩ := List.perm_comp_forall₂ hperm.symm hts
  obtain ⟨ks, hks, hkmem, hkplain⟩ := exists_plain_set hts
  obtain ⟨ls, hls, hlmem, hlplain⟩ := exists_plain_set hus
  have hkls : ks.Perm ls := (List.perm_ext_iff_of_nodup hks hls).mpr fun s => by
    rw [hkmem, hlmem, huts.mem_iff]
  rw [hkplain, hlplain, sort_texts_of_perm hkls]

end Texts

/-! ### Reordering -/

/-- Whether an artifact becomes another when maps in it have their entries in another order, if `maps` says
so, and sets of texts their elements. The keys of a map stay apart from each other, and so do the texts that
are written for them. What stands inside a key of a map counts if `inKeys` says so. -/
inductive Reordered (inKeys : Bool) : Bool → Artifact → Artifact → Prop where
  | refl {maps : Bool} (x : Artifact) : Reordered inKeys maps x x
  | trans {maps : Bool} {x y z : Artifact} (h : Reordered inKeys maps x y)
      (h' : Reordered inKeys maps y z) : Reordered inKeys maps x z
  | entries {es fs : List (Artifact × Artifact)} (hperm : es.Perm fs)
      (hapart : es.Pairwise fun e f => Apart e.1 f.1)
      (htexts : ∀ ps, plainEntries es = .ok ps → (membersOf ps).keys.Nodup) :
      Reordered inKeys true (.map es) (.map fs)
  | elements {maps : Bool} {xs ys : List Artifact} (hperm : xs.Perm ys)
      (htexts : ∀ x ∈ xs, x.asText?.isSome) : Reordered inKeys maps (.set xs) (.set ys)
  | choice {maps : Bool} {x y : Artifact} (h : Reordered inKeys maps x y) :
      Reordered inKeys maps (.choice x) (.choice y)
  | field {maps : Bool} {x y : Artifact} (before after : List (String × Artifact)) (name : String)
      (h : Reordered inKeys maps x y) :
      Reordered inKeys maps (.record (before ++ (name, x) :: after)) (.record (before ++ (name, y) :: after))
  | item {maps : Bool} {x y : Artifact} (before after : List Artifact) (h : Reordered inKeys maps x y) :
      Reordered inKeys maps (.list (before ++ x :: after)) (.list (before ++ y :: after))
  | place {maps : Bool} {x y : Artifact} (before after : List Artifact) (h : Reordered inKeys maps x y) :
      Reordered inKeys maps (.tuple (before ++ x :: after)) (.tuple (before ++ y :: after))
  | element {maps : Bool} {x y : Artifact} (before after : List Artifact)
      (h : Reordered inKeys maps x y) :
      Reordered inKeys maps (.set (before ++ x :: after)) (.set (before ++ y :: after))
  | value {maps : Bool} {x y : Artifact} (before after : List (Artifact × Artifact)) (key : Artifact)
      (h : Reordered inKeys maps x y) :
      Reordered inKeys maps (.map (before ++ (key, x) :: after)) (.map (before ++ (key, y) :: after))
  | key {maps : Bool} {x y : Artifact} (before after : List (Artifact × Artifact)) (value : Artifact)
      (h : Reordered inKeys (maps && inKeys) x y) :
      Reordered inKeys maps (.map (before ++ (x, value) :: after)) (.map (before ++ (y, value) :: after))

/-- What the order of entries makes of the plain forms: they sort to the same, and are the same if the entries
stay where they are. -/
def Likewise : Bool → Value → Value → Prop
  | true => SortsTo
  | false => Eq

theorem likeness_likewise (maps : Bool) : Likeness (Likewise maps) := by
  cases maps with
  | true => exact likeness_sortsTo
  | false => exact likeness_eq

/-- Outside of keys the order of entries and elements is lost. -/
theorem Reordered.matches {maps : Bool} (h : Reordered false maps x y) : Matches (Likewise maps) x y := by
  induction h with
  | refl x => exact .refl (likeness_likewise _) x
  | trans _ _ ih ih' => exact ih.trans (likeness_likewise _) ih'
  | entries hperm hapart htexts =>
    exact ⟨indistinct_of_equalsNothing rfl rfl, fun v hv => exists_plain_of_perm hperm hapart htexts hv⟩
  | elements hperm htexts =>
    refine ⟨indistinct_of_equalsNothing rfl rfl, fun v hv => ⟨v, ?_, ?_⟩⟩
    · rw [← plain_set_of_perm hperm htexts, hv]
    · exact (likeness_likewise _).refl v (isTidy_plain hv)
  | choice _ ih => exact matches_choice ih
  | field before after name _ ih =>
    exact matches_record (likeness_likewise _)
      (forall₂_middle (fun f => ⟨rfl, .refl (likeness_likewise _) f.2⟩) before after ⟨rfl, ih⟩)
  | item before after _ ih =>
    exact matches_list (likeness_likewise _) (forall₂_middle (.refl (likeness_likewise _)) before after ih)
  | place before after _ ih =>
    exact matches_tuple (likeness_likewise _) (forall₂_middle (.refl (likeness_likewise _)) before after ih)
  | element before after _ ih =>
    exact matches_set (likeness_likewise _) (forall₂_middle (.refl (likeness_likewise _)) before after ih)
  | value before after key _ ih =>
    exact matches_map (likeness_likewise _) (forall₂_middle
      (fun e => ⟨.refl likeness_eq e.1, .refl (likeness_likewise _) e.2⟩) before after
      ⟨.refl likeness_eq key, ih⟩)
  | @key maps x y before after value _ ih =>
    rw [Bool.and_false] at ih
    exact matches_map (likeness_likewise _) (forall₂_middle
      (fun e => ⟨.refl likeness_eq e.1, .refl (likeness_likewise _) e.2⟩) before after
      ⟨ih, .refl (likeness_likewise _) value⟩)

end Artifact

end QueryLint.Data
