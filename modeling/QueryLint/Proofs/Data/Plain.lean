import QueryLint.Proofs.Data.Comparing

/-!
# Plain forms

A plain form holds each key once at every depth. Where parts of an artifact are replaced by parts that are
equal to the same others, and whose plain forms are related, the plain forms of the whole are related too.
-/
namespace QueryLint.Data

namespace Members

variable {members others : Members} {key : String} {value value' : Value} {m : String × Value}

theorem mem_of_mem_put (h : m ∈ members.put key value) : m = (key, value) ∨ m ∈ members := by
  induction members with
  | nil => exact .inl (List.mem_singleton.mp h)
  | cons first rest ih =>
    rw [put] at h
    split at h
    · next hkey =>
      rcases List.mem_cons.mp h with rfl | h
      · exact .inl (by rw [hkey])
      · exact .inr (List.mem_cons_of_mem _ h)
    · rcases List.mem_cons.mp h with rfl | h
      · exact .inr List.mem_cons_self
      · exact (ih h).imp_right (List.mem_cons_of_mem _)

theorem nodup_keys_put (h : members.keys.Nodup) : (members.put key value).keys.Nodup := by
  induction members with
  | nil => exact List.nodup_singleton _
  | cons first rest ih =>
    rw [keys, List.map_cons, List.nodup_cons] at h
    rw [put]
    split
    · exact List.nodup_cons.mpr h
    · next hkey =>
      refine List.nodup_cons.mpr ⟨fun hmem => ?_, ih h.2⟩
      obtain ⟨m, hm, heq⟩ := List.mem_map.mp hmem
      rcases mem_of_mem_put hm with rfl | hm
      · exact hkey heq.symm
      · exact h.1 (List.mem_map.mpr ⟨m, hm, heq⟩)

theorem nodup_keys_ofList (entries : Members) : (ofList entries).keys.Nodup :=
  List.foldlRecOn (motive := fun members : Members => members.keys.Nodup) entries _ List.nodup_nil
    fun _ h _ _ => nodup_keys_put h

theorem mem_of_mem_ofList {entries : Members} (h : m ∈ ofList entries) : m ∈ entries := by
  refine List.foldlRecOn (motive := fun members : Members => ∀ m ∈ members, m ∈ entries) entries _
    (fun m hm => absurd hm List.not_mem_nil) (fun before hbefore entry hentry m hm => ?_) m h
  rcases mem_of_mem_put hm with rfl | hm
  · exact hentry
  · exact hbefore m hm

variable {R : Value → Value → Prop}

theorem forall₂_put (h : List.Forall₂ (fun m n => m.1 = n.1 ∧ R m.2 n.2) members others)
    (hvalue : R value value') : List.Forall₂ (fun m n => m.1 = n.1 ∧ R m.2 n.2)
      (members.put key value) (others.put key value') := by
  induction h with
  | nil => exact .cons ⟨rfl, hvalue⟩ .nil
  | @cons m n members others hmn hrest ih =>
    obtain ⟨k, v⟩ := m
    obtain ⟨k', v'⟩ := n
    obtain ⟨rfl, hv⟩ := hmn
    rw [put, put]
    split
    · exact .cons ⟨rfl, hvalue⟩ hrest
    · exact .cons ⟨rfl, hv⟩ ih

theorem forall₂_ofList {entries entries' : Members}
    (h : List.Forall₂ (fun m n => m.1 = n.1 ∧ R m.2 n.2) entries entries') :
    List.Forall₂ (fun m n => m.1 = n.1 ∧ R m.2 n.2) (ofList entries) (ofList entries') := by
  have hfold : ∀ before before' : Members, List.Forall₂ (fun m n => m.1 = n.1 ∧ R m.2 n.2) before before' →
      List.Forall₂ (fun m n => m.1 = n.1 ∧ R m.2 n.2)
        (entries.foldl (fun members entry => put members entry.1 entry.2) before)
        (entries'.foldl (fun members entry => put members entry.1 entry.2) before') := by
    induction h with
    | nil => exact fun _ _ h => h
    | cons hmn _ ih =>
      intro before before' h
      rw [List.foldl_cons, List.foldl_cons, hmn.1]
      exact ih _ _ (forall₂_put h hmn.2)
  exact hfold [] [] .nil

end Members

namespace Value

variable {v w : Value} {vs ws sorted sorted' : List Value} {R : Value → Value → Prop}

theorem insertSorted_cons_eq_ok_iff {u : Value} : insertSorted v (u :: vs) = .ok ws ↔
    lt v u = .ok true ∧ ws = v :: u :: vs ∨
      lt v u = .ok false ∧ ∃ rest, insertSorted v vs = .ok rest ∧ ws = u :: rest := by
  rw [insertSorted, bind_eq_ok_iff]
  constructor
  · rintro ⟨before, hlt, h⟩
    cases before with
    | true => exact .inl ⟨hlt, (Except.ok.inj h).symm⟩
    | false =>
      obtain ⟨rest, hrest, h⟩ := bind_eq_ok_iff.mp h
      exact .inr ⟨hlt, rest, hrest, (Except.ok.inj h).symm⟩
  · rintro (⟨hlt, rfl⟩ | ⟨hlt, rest, hrest, rfl⟩)
    · exact ⟨true, hlt, rfl⟩
    · exact ⟨false, hlt, bind_eq_ok_iff.mpr ⟨rest, hrest, rfl⟩⟩

theorem foldlM_cons_eq_ok_iff {f : List Value → Value → Except Incomparable (List Value)}
    {acc : List Value} : (v :: vs).foldlM f acc = .ok ws ↔
      ∃ acc', f acc v = .ok acc' ∧ vs.foldlM f acc' = .ok ws := by
  rw [List.foldlM_cons, bind_eq_ok_iff]

theorem perm_of_insertSorted (h : insertSorted v vs = .ok ws) : ws.Perm (v :: vs) := by
  induction vs generalizing ws with
  | nil =>
    cases h
    exact .refl _
  | cons u vs ih =>
    rcases insertSorted_cons_eq_ok_iff.mp h with ⟨-, rfl⟩ | ⟨-, rest, hrest, rfl⟩
    · exact .refl _
    · exact ((ih hrest).cons u).trans (.swap v u vs)

/-- Sorting gives the same values in some order. -/
theorem perm_of_sort (h : sort vs = .ok ws) : ws.Perm vs := by
  have hfold : ∀ acc : List Value, vs.foldlM (fun sorted v => insertSorted v sorted) acc = .ok ws →
      ws.Perm (vs ++ acc) := by
    clear h
    induction vs with
    | nil =>
      intro acc h
      cases h
      exact .refl _
    | cons v vs ih =>
      intro acc h
      obtain ⟨acc', hinsert, hrest⟩ := foldlM_cons_eq_ok_iff.mp h
      exact ((ih acc' hrest).trans ((perm_of_insertSorted hinsert).append_left vs)).trans List.perm_middle
  simpa using hfold [] h

/-- Values that are compared alike are sorted alike. -/
theorem exists_forall₂_insertSorted (hlt : ∀ v w v' w', R v w → R v' w' → lt v v' = lt w w')
    (hvw : R v w) (h : List.Forall₂ R vs ws) (hsorted : insertSorted v vs = .ok sorted) :
    ∃ sorted', insertSorted w ws = .ok sorted' ∧ List.Forall₂ R sorted sorted' := by
  induction h generalizing sorted with
  | nil =>
    cases hsorted
    exact ⟨[w], rfl, .cons hvw .nil⟩
  | @cons u u' vs ws hu hrest ih =>
    rcases insertSorted_cons_eq_ok_iff.mp hsorted with ⟨hbefore, rfl⟩ | ⟨hafter, rest, hrest', rfl⟩
    · rw [hlt v w u u' hvw hu] at hbefore
      exact ⟨_, insertSorted_cons_eq_ok_iff.mpr (.inl ⟨hbefore, rfl⟩), .cons hvw (.cons hu hrest)⟩
    · rw [hlt v w u u' hvw hu] at hafter
      obtain ⟨rest', hinsert, hrel⟩ := ih hrest'
      exact ⟨_, insertSorted_cons_eq_ok_iff.mpr (.inr ⟨hafter, rest', hinsert, rfl⟩), .cons hu hrel⟩

theorem exists_forall₂_sort (hlt : ∀ v w v' w', R v w → R v' w' → lt v v' = lt w w')
    (h : List.Forall₂ R vs ws) (hsorted : sort vs = .ok sorted) :
    ∃ sorted', sort ws = .ok sorted' ∧ List.Forall₂ R sorted sorted' := by
  have hfold : ∀ acc acc' : List Value, List.Forall₂ R acc acc' →
      vs.foldlM (fun sorted v => insertSorted v sorted) acc = .ok sorted →
      ∃ sorted', ws.foldlM (fun sorted v => insertSorted v sorted) acc' = .ok sorted' ∧
        List.Forall₂ R sorted sorted' := by
    clear hsorted
    induction h with
    | nil =>
      intro acc acc' hacc h
      cases h
      exact ⟨acc', rfl, hacc⟩
    | cons hvw _ ih =>
      intro acc acc' hacc h
      obtain ⟨next, hinsert, hrest⟩ := foldlM_cons_eq_ok_iff.mp h
      obtain ⟨next', hinsert', hnext⟩ := exists_forall₂_insertSorted hlt hvw hacc hinsert
      obtain ⟨sorted', hsorted', hrel⟩ := ih next next' hnext hrest
      exact ⟨sorted', foldlM_cons_eq_ok_iff.mpr ⟨next', hinsert', hsorted'⟩, hrel⟩
  exact hfold [] [] .nil hsorted

end Value

namespace Artifact

variable {x y z : Artifact} {xs ys : List Artifact} {v : Value} {vs : List Value}

/-! ### Parts and their plain forms -/

theorem plainItems_eq_ok_iff :
    plainItems xs = .ok vs ↔ List.Forall₂ (fun x v => plain x = .ok v) xs vs := by
  have heq : plainItems xs = xs.mapM plain := by
    induction xs with
    | nil => rfl
    | cons x xs ih => rw [plainItems, List.mapM_cons, ih]
  rw [heq, mapM_eq_ok_iff]

theorem plainFields_eq_ok_iff {fs : List (String × Artifact)} {ms : Members} :
    plainFields fs = .ok ms ↔ List.Forall₂ (fun f m => f.1 = m.1 ∧ plain f.2 = .ok m.2) fs ms := by
  have heq : plainFields fs = fs.mapM fun f => do return (f.1, ← plain f.2) := by
    induction fs with
    | nil => rfl
    | cons f fs ih => rw [plainFields, List.mapM_cons, ih, bind_assoc]; rfl
  rw [heq, mapM_eq_ok_iff]
  refine forall₂_congr_of_mem fun f _ m _ => ?_
  rw [bind_eq_ok_iff]
  constructor
  · rintro ⟨v, hv, ⟨⟩⟩
    exact ⟨rfl, hv⟩
  · rintro ⟨hkey, hv⟩
    exact ⟨m.2, hv, by rw [hkey]; rfl⟩

theorem plainEntries_eq_ok_iff {es : List (Artifact × Artifact)} {ps : List (Value × Value)} :
    plainEntries es = .ok ps ↔
      List.Forall₂ (fun e p => plain e.1 = .ok p.1 ∧ plain e.2 = .ok p.2) es ps := by
  have heq : plainEntries es = es.mapM fun e => do return (← plain e.1, ← plain e.2) := by
    induction es with
    | nil => rfl
    | cons e es ih =>
      rw [plainEntries, List.mapM_cons, ih, bind_assoc]
      congr 1
      funext k
      rw [bind_assoc]
      rfl
  rw [heq, mapM_eq_ok_iff]
  refine forall₂_congr_of_mem fun e _ p _ => ?_
  rw [bind_eq_ok_iff]
  constructor
  · rintro ⟨k, hk, h⟩
    obtain ⟨v, hv, ⟨⟩⟩ := bind_eq_ok_iff.mp h
    exact ⟨hk, hv⟩
  · rintro ⟨hk, hv⟩
    exact ⟨p.1, hk, bind_eq_ok_iff.mpr ⟨p.2, hv, rfl⟩⟩

theorem plain_record_eq_ok_iff {fs : List (String × Artifact)} : plain (.record fs) = .ok v ↔
    ∃ ms, List.Forall₂ (fun f m => f.1 = m.1 ∧ plain f.2 = .ok m.2) fs ms ∧
      v = .object (Members.ofList ms) := by
  simp only [plain, bind_eq_ok_iff, plainFields_eq_ok_iff, pure, Except.pure, Except.ok.injEq, eq_comm (a := v)]

theorem plain_list_eq_ok_iff : plain (.list xs) = .ok v ↔
    ∃ vs, List.Forall₂ (fun x v => plain x = .ok v) xs vs ∧ v = .list vs := by
  simp only [plain, bind_eq_ok_iff, plainItems_eq_ok_iff, pure, Except.pure, Except.ok.injEq, eq_comm (a := v)]

theorem plain_tuple_eq_ok_iff : plain (.tuple xs) = .ok v ↔
    ∃ vs, List.Forall₂ (fun x v => plain x = .ok v) xs vs ∧ v = .list vs := by
  simp only [plain, bind_eq_ok_iff, plainItems_eq_ok_iff, pure, Except.pure, Except.ok.injEq, eq_comm (a := v)]

theorem plain_set_eq_ok_iff : plain (.set xs) = .ok v ↔
    ∃ vs, List.Forall₂ (fun x v => plain x = .ok v) xs vs ∧ ∃ ws,
      Value.sort ((keepFirst (·.1) [] (xs.zip vs)).map (·.2)) = .ok ws ∧ v = .list ws := by
  simp only [plain, bind_eq_ok_iff, plainItems_eq_ok_iff, pure, Except.pure, Except.ok.injEq, eq_comm (a := v)]

theorem plain_map_eq_ok_iff {es : List (Artifact × Artifact)} : plain (.map es) = .ok v ↔
    ∃ ps : List (Value × Value),
      List.Forall₂ (fun e p => plain e.1 = .ok p.1 ∧ plain e.2 = .ok p.2) es ps ∧
        v = .object (Members.ofList ((mergeEntries ((es.map (·.1)).zip ps)).map fun entry =>
          (entry.2.1.shown, entry.2.2))) := by
  simp only [plain, bind_eq_ok_iff, plainEntries_eq_ok_iff, pure, Except.pure, Except.ok.injEq,
    eq_comm (a := v)]

/-! ### Equal keys and elements -/

section Kept

variable {α : Type} {key : α → Artifact} {as : List α} {seen : List Artifact}

theorem keepFirst_sublist (key : α → Artifact) (seen : List Artifact) (as : List α) :
    (keepFirst key seen as).Sublist as := by
  induction as generalizing seen with
  | nil => exact .slnil
  | cons a as ih =>
    rw [keepFirst]
    split
    · exact (ih seen).cons a
    · exact (ih (key a :: seen)).cons_cons a

/-- The values of merged entries are among those of the entries. -/
theorem mem_of_mem_mergeEntries {entries : List (Artifact × α)} {entry : Artifact × α}
    (h : entry ∈ mergeEntries entries) : ∃ e ∈ entries, entry.2 = e.2 := by
  obtain ⟨e, he, rfl⟩ := List.mem_map.mp h
  have hmem := (keepFirst_sublist _ _ _).subset he
  dsimp only
  cases hfind : entries.reverse.find? fun f => same e.1 f.1 with
  | none => exact ⟨e, hmem, rfl⟩
  | some f => exact ⟨f, List.mem_reverse.mp (List.mem_of_find?_eq_some hfind), rfl⟩

end Kept

/-! ### Plain forms hold each key once -/

/-- What an artifact is made of. -/
def parts : Artifact → List Artifact
  | choice x => [x]
  | record fields => fields.map (·.2)
  | list items => items
  | tuple items => items
  | set items => items
  | map entries => entries.flatMap fun e => [e.1, e.2]
  | _ => []

/-- What holds of an artifact if it holds of all its parts holds of every artifact. -/
theorem parts_induction {motive : Artifact → Prop}
    (step : ∀ x : Artifact, (∀ y ∈ x.parts, motive y) → motive x) (x : Artifact) : motive x := by
  refine @Artifact.rec motive (fun fields => ∀ f ∈ fields, motive f.2) (fun items => ∀ y ∈ items, motive y)
    (fun entries => ∀ e ∈ entries, motive e.1 ∧ motive e.2) (fun f => motive f.2)
    (fun e => motive e.1 ∧ motive e.2)
    ?_ ?_ ?_ ?_ ?_ ?_ ?_ ?_ ?_ ?_ ?_ ?_ ?_ ?_ ?_ ?_ ?_ ?_ ?_ ?_ ?_ ?_ x
  case refine_1 => exact step .null (by simp [parts])
  case refine_2 => exact fun b => step (.bool b) (by simp [parts])
  case refine_3 => exact fun n => step (.int n) (by simp [parts])
  case refine_4 => exact fun x => step (.float x) (by simp [parts])
  case refine_5 => exact fun s => step (.text s) (by simp [parts])
  case refine_6 => exact fun p => step (.path p) (by simp [parts])
  case refine_7 => exact fun x ih => step (.choice x) (by simpa [parts] using ih)
  case refine_8 => exact fun s => step (.textChoice s) (by simp [parts])
  case refine_9 => exact fun fields ih => step (.record fields) (List.forall_mem_map.mpr ih)
  case refine_10 => exact fun s => step (.described s) (by simp [parts])
  case refine_11 => exact fun items ih => step (.list items) ih
  case refine_12 => exact fun items ih => step (.tuple items) ih
  case refine_13 => exact fun items ih => step (.set items) ih
  case refine_14 =>
    intro entries ih
    refine step (.map entries) fun y hy => ?_
    obtain ⟨e, he, hy⟩ := List.mem_flatMap.mp hy
    rcases List.mem_pair.mp hy with rfl | rfl
    · exact (ih e he).1
    · exact (ih e he).2
  case refine_15 => simp
  case refine_16 => exact fun f fs hf hfs => List.forall_mem_cons.mpr ⟨hf, hfs⟩
  case refine_17 => simp
  case refine_18 => exact fun y ys hy hys => List.forall_mem_cons.mpr ⟨hy, hys⟩
  case refine_19 => simp
  case refine_20 => exact fun e es he hes => List.forall_mem_cons.mpr ⟨he, hes⟩
  case refine_21 => exact fun _ _ h => h
  case refine_22 => exact fun _ _ hk hx => ⟨hk, hx⟩

theorem isTidy_ofList {ms : Members} (h : ∀ m ∈ ms, m.2.IsTidy) :
    (Value.object (Members.ofList ms)).IsTidy :=
  ⟨Members.nodup_keys_ofList ms, fun _ hw => by
    obtain ⟨m, hm, rfl⟩ := List.mem_map.mp hw
    exact h m (Members.mem_of_mem_ofList hm)⟩

theorem isTidy_list (h : ∀ v ∈ vs, v.IsTidy) : (Value.list vs).IsTidy := ⟨List.nodup_nil, h⟩

theorem isTidy_plain (h : x.plain = .ok v) : v.IsTidy := by
  induction x using parts_induction generalizing v with
  | step x ih =>
    cases x with
    | choice x => exact ih x List.mem_cons_self (by rwa [plain] at h)
    | record fields =>
      obtain ⟨ms, hms, rfl⟩ := plain_record_eq_ok_iff.mp h
      refine isTidy_ofList fun m hm => ?_
      obtain ⟨f, hf, -, hplain⟩ := exists_of_forall₂ hms hm
      exact ih f.2 (List.mem_map_of_mem hf) hplain
    | list items =>
      obtain ⟨vs, hvs, rfl⟩ := plain_list_eq_ok_iff.mp h
      refine isTidy_list fun v hv => ?_
      obtain ⟨x, hx, hplain⟩ := exists_of_forall₂ hvs hv
      exact ih x hx hplain
    | tuple items =>
      obtain ⟨vs, hvs, rfl⟩ := plain_tuple_eq_ok_iff.mp h
      refine isTidy_list fun v hv => ?_
      obtain ⟨x, hx, hplain⟩ := exists_of_forall₂ hvs hv
      exact ih x hx hplain
    | set items =>
      obtain ⟨vs, hvs, ws, hsort, rfl⟩ := plain_set_eq_ok_iff.mp h
      refine isTidy_list fun w hw => ?_
      obtain ⟨p, hp, rfl⟩ := List.mem_map.mp ((Value.perm_of_sort hsort).mem_iff.mp hw)
      obtain ⟨x, hx, hplain⟩ := exists_of_forall₂ hvs
        (List.of_mem_zip ((keepFirst_sublist _ _ _).subset hp)).2
      exact ih x hx hplain
    | map entries =>
      obtain ⟨ps, hps, rfl⟩ := plain_map_eq_ok_iff.mp h
      refine isTidy_ofList fun m hm => ?_
      obtain ⟨entry, hentry, rfl⟩ := List.mem_map.mp hm
      obtain ⟨e, he, heq⟩ := mem_of_mem_mergeEntries hentry
      obtain ⟨f, hf, -, hplain⟩ := exists_of_forall₂ hps (List.of_mem_zip he).2
      exact ih f.2 (List.mem_flatMap.mpr ⟨f, hf, by simp⟩) (heq ▸ hplain)
    | _ =>
      cases h
      exact ⟨List.nodup_nil, by simp [Value.children]⟩

end Artifact

end QueryLint.Data
