import QueryLint.Data.Artifact
import QueryLint.Proofs.Data.Alike

/-!
# Comparing values up to the order of members

Values are compared by what they amount to, so the order of members makes no difference to whether they are
equal, nor to which of them comes first.
-/
namespace QueryLint.Data.Value

variable {v w : Value} {vs ws : List Value} {ms ns : Members}

theorem sameItems_iff : sameItems vs ws ↔ List.Forall₂ (fun v w => same v w) vs ws := by
  induction vs generalizing ws with
  | nil => cases ws <;> simp [sameItems]
  | cons v vs ih => cases ws <;> simp [sameItems, ih]

theorem sameMembers_iff :
    sameMembers ms ns ↔ ∀ m ∈ ms, ∃ w, Members.get? ns m.1 = some w ∧ same m.2 w := by
  induction ms with
  | nil => simp [sameMembers]
  | cons m ms ih =>
    rw [sameMembers, Bool.and_eq_true, ih, List.forall_mem_cons]
    refine and_congr_left fun _ => ?_
    cases Members.get? ns m.1 <;> simp

theorem get?_sorted_map (hkeys : ms.keys.Nodup) (key : String) :
    Members.get? (Members.sorted (ms.map fun m => (m.1, m.2.sorted))) key =
      (Members.get? ms key).map sorted := by
  have hnodup : (Members.sorted (ms.map fun m => (m.1, m.2.sorted))).keys.Nodup := by
    refine ((perm_sorted _).map _).nodup_iff.mpr ?_
    rwa [← Members.keys, keys_map_sorted]
  refine Option.ext fun value => ?_
  rw [Members.get?_eq_some_iff hnodup, (perm_sorted _).mem_iff, Option.map_eq_some_iff, List.mem_map]
  constructor
  · rintro ⟨m, hm, heq⟩
    cases heq
    exact ⟨m.2, Members.get?_eq_of_mem hkeys hm, rfl⟩
  · rintro ⟨v, hv, rfl⟩
    exact ⟨(key, v), Members.mem_of_get?_eq hv, rfl⟩

theorem sameItems_map_sorted
    (h : ∀ v ∈ vs, ∀ w ∈ ws, same v.sorted w.sorted = same v w) :
    sameItems (vs.map sorted) (ws.map sorted) = sameItems vs ws := by
  rw [Bool.eq_iff_iff, sameItems_iff, sameItems_iff, List.forall₂_map_left_iff,
    List.forall₂_map_right_iff]
  refine forall₂_congr_of_mem fun v hv w hw => ?_
  rw [h v hv w hw]

theorem sameMembers_sorted (hkeys : ns.keys.Nodup)
    (h : ∀ m ∈ ms, ∀ w, Members.get? ns m.1 = some w → same m.2.sorted w.sorted = same m.2 w) :
    sameMembers (Members.sorted (ms.map fun m => (m.1, m.2.sorted)))
        (Members.sorted (ns.map fun m => (m.1, m.2.sorted))) = sameMembers ms ns := by
  rw [Bool.eq_iff_iff, sameMembers_iff, sameMembers_iff]
  have hmem : ∀ p : String × Value → Prop,
      (∀ m ∈ Members.sorted (ms.map fun m => (m.1, m.2.sorted)), p m) ↔
        ∀ m ∈ ms, p (m.1, m.2.sorted) := fun p => by
    simp only [(perm_sorted _).mem_iff, List.forall_mem_map]
  rw [hmem]
  refine forall₂_congr fun m hm => ?_
  simp only [get?_sorted_map hkeys, Option.map_eq_some_iff]
  constructor
  · rintro ⟨_, ⟨w, hget, rfl⟩, hsame⟩
    exact ⟨w, hget, h m hm w hget ▸ hsame⟩
  · rintro ⟨w, hget, hsame⟩
    exact ⟨_, ⟨w, hget, rfl⟩, (h m hm w hget).trans hsame⟩

theorem length_sorted_map (ms : Members) :
    (Members.sorted (ms.map fun m => (m.1, m.2.sorted))).length = ms.length := by
  rw [(perm_sorted _).length_eq, List.length_map]

/-- Whether two values are equal does not depend on the order of members. -/
theorem same_sorted (hv : v.IsTidy) (hw : w.IsTidy) : same v.sorted w.sorted = same v w := by
  induction v using children_induction generalizing w with
  | step v ih =>
    cases v with
    | list vs =>
      cases w with
      | list ws =>
        rw [sorted_list, sorted_list, same, same]
        exact sameItems_map_sorted fun v hvs w hws => ih v hvs (hv.inside v hvs) (hw.inside w hws)
      | object ns => simp [sorted_list, sorted_object, same, quantity?]
      | _ => simp [sorted, same, quantity?]
    | object ms =>
      cases w with
      | object ns =>
        rw [sorted_object, sorted_object, same, same, length_sorted_map, length_sorted_map]
        congr 1
        refine sameMembers_sorted hw.here fun m hm w hget => ?_
        have hm := List.mem_map_of_mem (f := Prod.snd) hm
        have hw' := List.mem_map_of_mem (f := Prod.snd) (Members.mem_of_get?_eq hget)
        exact ih m.2 hm (hv.inside m.2 hm) (hw.inside w hw')
      | list ns => simp [sorted_list, sorted_object, same, quantity?]
      | _ => simp [sorted, same, quantity?]
    | _ =>
      cases w with
      | list ws => simp [sorted, same, quantity?]
      | object ns => simp [sorted, same, quantity?]
      | _ => rfl

theorem ltItems_map_sorted (hvs : ∀ v ∈ vs, v.IsTidy) (hws : ∀ w ∈ ws, w.IsTidy)
    (h : ∀ v ∈ vs, ∀ w ∈ ws, lt v.sorted w.sorted = lt v w) :
    ltItems (vs.map sorted) (ws.map sorted) = ltItems vs ws := by
  induction vs generalizing ws with
  | nil => cases ws <;> rfl
  | cons v vs ih =>
    cases ws with
    | nil => rfl
    | cons w ws =>
      rw [List.forall_mem_cons] at hvs hws
      rw [List.map_cons, List.map_cons, ltItems, ltItems, same_sorted hvs.1 hws.1,
        h v List.mem_cons_self w List.mem_cons_self, ih hvs.2 hws.2 fun v hv w hw =>
          h v (List.mem_cons_of_mem _ hv) w (List.mem_cons_of_mem _ hw)]

/-- Which of two values comes first does not depend on the order of members. -/
theorem lt_sorted (hv : v.IsTidy) (hw : w.IsTidy) : lt v.sorted w.sorted = lt v w := by
  induction v using children_induction generalizing w with
  | step v ih =>
    cases v with
    | list vs =>
      cases w with
      | list ws =>
        rw [sorted_list, sorted_list, lt, lt]
        exact ltItems_map_sorted hv.inside hw.inside fun v hvs w hws =>
          ih v hvs (hv.inside v hvs) (hw.inside w hws)
      | object ns => simp [sorted_list, sorted_object, lt, quantity?, typeName]
      | _ => simp [sorted, lt, quantity?, typeName]
    | object ms =>
      cases w with
      | object ns => simp [sorted_object, lt, quantity?, typeName]
      | list ns => simp [sorted_list, sorted_object, lt, quantity?, typeName]
      | _ => simp [sorted, lt, quantity?, typeName]
    | _ =>
      cases w with
      | list ws => simp [sorted, lt, quantity?, typeName]
      | object ns => simp [sorted, lt, quantity?, typeName]
      | _ => rfl

end QueryLint.Data.Value
