import Mathlib.Data.List.Perm.Subperm
import QueryLint.Data.Json.Canonical
import QueryLint.Proofs.Related
import QueryLint.Proofs.Text.Order

/-!
# Values up to the order of members

Two values are alike if they differ in nothing but the order of the members of objects, at any depth. Values
that hold each key once are alike just when they are equal with their members sorted.
-/
namespace QueryLint.Data

open QueryLint.Text

namespace Members

variable {members : Members} {key : String} {value : Value}

theorem mem_of_get?_eq (h : members.get? key = some value) : (key, value) ∈ members :=
  mem_of_lookup_eq_some h

/-- With each key once, a member is found under its key. -/
theorem get?_eq_some_iff (hkeys : members.keys.Nodup) :
    members.get? key = some value ↔ (key, value) ∈ members :=
  lookup_eq_some_iff_mem hkeys

theorem get?_eq_of_mem (hkeys : members.keys.Nodup) (h : (key, value) ∈ members) :
    members.get? key = some value :=
  (get?_eq_some_iff hkeys).mpr h

theorem put_of_notMem (h : key ∉ members.keys) : members.put key value = members ++ [(key, value)] := by
  induction members with
  | nil => rfl
  | cons m rest ih =>
    rw [keys, List.map_cons, List.mem_cons, not_or] at h
    rw [put, if_neg (Ne.symm h.1), ih h.2, List.cons_append]

/-- Members put one after the other are kept as they are if each key comes once. -/
theorem ofList_of_nodup (h : members.keys.Nodup) : ofList members = members := by
  have hput : ∀ before : Members, (keys (before ++ members)).Nodup →
      members.foldl (fun members entry => put members entry.1 entry.2) before = before ++ members := by
    clear h
    induction members with
    | nil => simp
    | cons m rest ih =>
      intro before hkeys
      have hm : m.1 ∉ before.keys := by
        rw [keys, List.map_append, List.map_cons] at hkeys
        exact fun hmem => List.disjoint_of_nodup_append hkeys hmem List.mem_cons_self
      rw [List.foldl_cons, put_of_notMem hm, ih _ (by simpa using hkeys), List.append_assoc,
        List.singleton_append]
  exact hput [] h

/-- Members that are all among others, as many, are the others in some order. -/
theorem perm_of_subset {others : Members} (hkeys : members.keys.Nodup) (h : members ⊆ others)
    (hlength : members.length = others.length) : members.Perm others :=
  (List.subperm_of_subset hkeys.of_map h).perm_of_length_le hlength.ge

end Members

namespace Value

/-- The values that a value is made of. -/
def children : Value → List Value
  | list items => items
  | object members => members.map (·.2)
  | _ => []

/-- The keys of the members of a value. -/
def keys : Value → List String
  | object members => Members.keys members
  | _ => []

/-- What holds of a value if it holds of all values in it holds of every value. -/
theorem children_induction {motive : Value → Prop}
    (step : ∀ v : Value, (∀ w ∈ v.children, motive w) → motive v) (v : Value) : motive v := by
  refine @Value.rec motive (fun items => ∀ w ∈ items, motive w)
    (fun members => ∀ m ∈ members, motive m.2) (fun m => motive m.2)
    ?_ ?_ ?_ ?_ ?_ ?_ ?_ ?_ ?_ ?_ ?_ ?_ v
  case refine_1 => exact step .null (by simp [children])
  case refine_2 => exact fun b => step (.bool b) (by simp [children])
  case refine_3 => exact fun n => step (.int n) (by simp [children])
  case refine_4 => exact fun x => step (.float x) (by simp [children])
  case refine_5 => exact fun s => step (.text s) (by simp [children])
  case refine_6 => exact fun items ih => step (.list items) ih
  case refine_7 => exact fun members ih => step (.object members) (List.forall_mem_map.mpr ih)
  case refine_8 => simp
  case refine_9 => exact fun v vs hv hvs => List.forall_mem_cons.mpr ⟨hv, hvs⟩
  case refine_10 => simp
  case refine_11 => exact fun m ms hm hms => List.forall_mem_cons.mpr ⟨hm, hms⟩
  case refine_12 => exact fun _ _ h => h

/-- Whether something holds of a value and of all values in it. -/
inductive Everywhere (p : Value → Prop) : Value → Prop
  | intro {v : Value} (here : p v) (inside : ∀ w ∈ v.children, Everywhere p w) : Everywhere p v

/-- Whether each object in a value holds each key once. -/
def IsTidy : Value → Prop := Everywhere fun v => v.keys.Nodup

mutual

/-- Whether two values are the same but for the order of the members of objects. -/
def Alike : Value → Value → Prop
  | list vs, list ws => AlikeItems vs ws
  | object ms, object ns => ms.length = ns.length ∧ AlikeMembers ms ns
  | v, w => v = w

/-- Whether two lists of values are alike item by item. -/
def AlikeItems : List Value → List Value → Prop
  | [], [] => True
  | v :: vs, w :: ws => Alike v w ∧ AlikeItems vs ws
  | _, _ => False

/-- Whether some members are all among others, with values alike. -/
def AlikeMembers : List (String × Value) → List (String × Value) → Prop
  | [], _ => True
  | (k, v) :: rest, others =>
    (∃ w, Members.get? others k = some w ∧ Alike v w) ∧ AlikeMembers rest others

end

variable {v w : Value} {vs ws : List Value} {ms ns : Members} {p : Value → Prop}

theorem Everywhere.here (h : Everywhere p v) : p v := by
  cases h
  assumption

theorem Everywhere.inside (h : Everywhere p v) : ∀ w ∈ v.children, Everywhere p w := by
  cases h
  assumption

theorem alikeItems_iff : AlikeItems vs ws ↔ List.Forall₂ Alike vs ws := by
  induction vs generalizing ws with
  | nil => cases ws <;> simp [AlikeItems]
  | cons v vs ih => cases ws <;> simp [AlikeItems, ih]

theorem alikeMembers_iff :
    AlikeMembers ms ns ↔ ∀ m ∈ ms, ∃ w, Members.get? ns m.1 = some w ∧ Alike m.2 w := by
  induction ms with
  | nil => simp [AlikeMembers]
  | cons m ms ih => simp [AlikeMembers, ih]

theorem sortedItems_eq (vs : List Value) : sortedItems vs = vs.map sorted := by
  induction vs with
  | nil => rfl
  | cons v vs ih => rw [sortedItems, ih, List.map_cons]

theorem sortedMembers_eq (ms : Members) : sortedMembers ms = ms.map fun m => (m.1, m.2.sorted) := by
  induction ms with
  | nil => rfl
  | cons m ms ih => rw [sortedMembers, ih, List.map_cons]

theorem sorted_list (vs : List Value) : (list vs).sorted = list (vs.map sorted) := by
  rw [sorted, sortedItems_eq]

theorem sorted_object (ms : Members) :
    (object ms).sorted = object (Members.sorted (ms.map fun m => (m.1, m.2.sorted))) := by
  rw [sorted, sortedMembers_eq]

theorem keys_map_sorted (ms : Members) :
    Members.keys (ms.map fun m => (m.1, m.2.sorted)) = Members.keys ms := by
  rw [Members.keys, List.map_map]
  rfl

/-- Sorted members are equal just when the members are the same in some order. -/
theorem sorted_members_eq_iff (hkeys : ms.keys.Nodup) :
    Members.sorted ms = Members.sorted ns ↔ ms.Perm ns := by
  refine ⟨fun h => ?_, mergeSort_textLe_eq_of_perm hkeys⟩
  have hms := List.mergeSort_perm ms fun a b => textLe a.1 b.1
  have hns := List.mergeSort_perm ns fun a b => textLe a.1 b.1
  exact hms.symm.trans ((List.Perm.of_eq h).trans hns)

/-- Members with their values sorted are the same in some order just when each is found among the others. -/
theorem perm_map_sorted_iff (hms : ms.keys.Nodup) (hns : ns.keys.Nodup) :
    (ms.map fun m => (m.1, m.2.sorted)).Perm (ns.map fun m => (m.1, m.2.sorted)) ↔
      ms.length = ns.length ∧ ∀ m ∈ ms, ∃ w, Members.get? ns m.1 = some w ∧ m.2.sorted = w.sorted := by
  constructor
  · intro h
    refine ⟨by simpa using h.length_eq, fun m hm => ?_⟩
    obtain ⟨n, hn, heq⟩ := List.mem_map.mp (h.mem_iff.mp (List.mem_map_of_mem hm))
    obtain ⟨hkey, hvalue⟩ := Prod.mk.inj heq
    exact ⟨n.2, Members.get?_eq_of_mem hns (hkey ▸ hn), hvalue.symm⟩
  · rintro ⟨hlength, hfound⟩
    refine Members.perm_of_subset (by rwa [keys_map_sorted]) (fun entry hentry => ?_) (by simpa using hlength)
    obtain ⟨m, hm, rfl⟩ := List.mem_map.mp hentry
    obtain ⟨w, hw, hvalue⟩ := hfound m hm
    exact List.mem_map.mpr ⟨(m.1, w), Members.mem_of_get?_eq hw, by rw [hvalue]⟩

/-- Two values are alike just when they are equal with their members sorted. -/
theorem sorted_eq_iff (hv : v.IsTidy) (hw : w.IsTidy) : v.sorted = w.sorted ↔ Alike v w := by
  induction v using children_induction generalizing w with
  | step v ih =>
    cases v with
    | list vs =>
      cases w with
      | list ws =>
        rw [sorted_list, sorted_list, Alike, alikeItems_iff, list.injEq, ← List.forall₂_eq_eq_eq,
          List.forall₂_map_left_iff, List.forall₂_map_right_iff]
        exact forall₂_congr_of_mem fun v hvs w hws => ih v hvs (hv.inside v hvs) (hw.inside w hws)
      | _ => simp [sorted, Alike]
    | object ms =>
      cases w with
      | object ns =>
        have hms : Members.keys ms |>.Nodup := hv.here
        have hns : Members.keys ns |>.Nodup := hw.here
        rw [sorted_object, sorted_object, Alike, alikeMembers_iff, object.injEq,
          sorted_members_eq_iff (by rwa [keys_map_sorted]), perm_map_sorted_iff hms hns]
        refine and_congr_right fun _ => forall₂_congr fun m hm => exists_congr fun w =>
          and_congr_right fun hget => ?_
        have hw' := List.mem_map_of_mem (f := Prod.snd) (Members.mem_of_get?_eq hget)
        have hm := List.mem_map_of_mem (f := Prod.snd) hm
        exact ih m.2 hm (hv.inside m.2 hm) (hw.inside w hw')
      | _ => simp [sorted, Alike]
    | _ => cases w <;> simp [sorted, Alike]

/-! ### Sorting the members -/

theorem perm_sorted (ms : Members) : ms.sorted.Perm ms := List.mergeSort_perm ms _

theorem perm_children_sorted (v : Value) : v.sorted.children.Perm (v.children.map sorted) := by
  cases v with
  | list vs =>
    rw [sorted_list]
    exact .refl _
  | object ms =>
    rw [sorted_object, children, children, List.map_map]
    refine ((perm_sorted _).map _).trans (List.Perm.of_eq ?_)
    rw [List.map_map]
    rfl
  | _ => exact .refl _

theorem perm_keys_sorted (v : Value) : v.sorted.keys.Perm v.keys := by
  cases v with
  | list vs =>
    rw [sorted_list]
    exact .refl _
  | object ms =>
    rw [sorted_object, keys, keys, ← keys_map_sorted ms]
    exact (perm_sorted _).map _
  | _ => exact .refl _

theorem Everywhere.sorted (hp : ∀ v, p v → p v.sorted) (h : Everywhere p v) :
    Everywhere p v.sorted := by
  induction v using children_induction with
  | step v ih =>
    refine ⟨hp v h.here, fun w hw => ?_⟩
    obtain ⟨u, hu, rfl⟩ := List.mem_map.mp ((perm_children_sorted v).mem_iff.mp hw)
    exact ih u hu (h.inside u hu)

theorem IsTidy.sorted (h : v.IsTidy) : v.sorted.IsTidy :=
  Everywhere.sorted (fun v hv => (perm_keys_sorted v).nodup_iff.mpr hv) h

theorem sorted_sorted (h : v.IsTidy) : v.sorted.sorted = v.sorted := by
  induction v using children_induction with
  | step v ih =>
    cases v with
    | list vs =>
      rw [sorted_list, sorted_list, List.map_map, list.injEq]
      exact List.map_congr_left fun v hv => ih v hv (h.inside v hv)
    | object ms =>
      have hkeys : Members.keys (ms.map fun m => (m.1, m.2.sorted)) |>.Nodup := by
        rw [keys_map_sorted]
        exact h.here
      rw [sorted_object, sorted_object, object.injEq]
      refine (sorted_members_eq_iff ?_).mpr ?_
      · rw [keys_map_sorted]
        exact ((perm_sorted _).map _).nodup_iff.mpr hkeys
      · refine ((perm_sorted _).map _).trans (List.Perm.of_eq ?_)
        rw [List.map_map]
        refine List.map_congr_left fun m hm => Prod.ext rfl ?_
        have hm := List.mem_map_of_mem (f := Prod.snd) hm
        exact ih m.2 hm (h.inside m.2 hm)
    | _ => rfl

theorem alike_sorted (h : v.IsTidy) : Alike v v.sorted :=
  (sorted_eq_iff h h.sorted).mp (sorted_sorted h).symm

end Value

end QueryLint.Data
