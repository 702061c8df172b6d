import Mathlib.Data.List.Forall2
import Mathlib.Data.List.Infix
import Mathlib.Data.List.MinMax
import Mathlib.Order.Nat
import QueryLint.Proofs.Code.Preorder

/-!
# Paths in a tree

The positions on the way down to a place tell it from all others of its tree, and a place is above
another if the way to it is the beginning of the way to the other. So how places are nested can be
read off their paths.

The height of some paths is the largest number of them that lie on one way down. It falls by one if
all those are taken away that have no other below.
-/
namespace QueryLint.Code

namespace Place

variable {p q : Place} {tree : Node}

theorem children_eq (p : Place) :
    p.children = p.node.children.zipIdx.map fun (n, i) => child p i n := by
  have hfrom : ∀ (ns : List Node) (k : Nat),
      p.childrenFrom k ns = (ns.zipIdx k).map fun (n, i) => child p i n := by
    intro ns
    induction ns with
    | nil => exact fun _ => rfl
    | cons n ns ih =>
      intro k
      rw [childrenFrom, ih, List.zipIdx_cons, List.map_cons]
  exact hfrom p.node.children 0

theorem mem_children_iff {i : Nat} {n : Node} :
    child p i n ∈ p.children ↔ p.node.children[i]? = some n := by
  rw [children_eq, List.mem_map]
  constructor
  · rintro ⟨⟨m, j⟩, hm, heq⟩
    cases heq
    exact List.mem_zipIdx_iff_getElem?.mp hm
  · intro h
    exact ⟨(n, i), List.mem_zipIdx_iff_getElem?.mpr h, rfl⟩

theorem path_of_getElem_children {i : Nat} (h : i < p.children.length) :
    p.children[i].path = p.path ++ [i] := by
  have hnode : p.children[i]? = (p.node.children.zipIdx[i]?).map fun (n, i) => child p i n := by
    rw [children_eq, List.getElem?_map]
  rw [List.getElem?_eq_getElem h, List.getElem?_zipIdx, Nat.zero_add] at hnode
  obtain ⟨⟨n, j⟩, hn, hchild⟩ := Option.map_eq_some_iff.mp hnode.symm
  obtain ⟨_, _, heq⟩ := Option.map_eq_some_iff.mp hn
  cases heq
  rw [← hchild, path]

/-- Children that correspond have the same path if their parents have. -/
theorem forall₂_path {p' : Place} {R : Place → Place → Prop}
    (h : List.Forall₂ R p.children p'.children) (hpath : p'.path = p.path) :
    List.Forall₂ (fun c c' => R c c' ∧ c ∈ p.children ∧ c' ∈ p'.children ∧ c'.path = c.path)
      p.children p'.children := by
  obtain ⟨hlength, hrel⟩ := List.forall₂_iff_get.mp h
  refine List.forall₂_iff_get.mpr ⟨hlength, fun i hi hi' => ?_⟩
  refine ⟨hrel i hi hi', List.getElem_mem hi, List.getElem_mem hi', ?_⟩
  simp only [List.get_eq_getElem, path_of_getElem_children, hpath]

theorem mem_children_of_mem_places {i : Nat} {n : Node} (h : child p i n ∈ tree.places) :
    child p i n ∈ p.children := by
  have hp : p ∈ tree.places := mem_places_of_mem_ancestors h List.mem_cons_self
  have hbelow : child p i n ∈ p.descendants := (mem_descendants_iff hp).mpr ⟨h, List.mem_cons_self⟩
  obtain ⟨c, hc, hpre⟩ := List.mem_flatMap.mp hbelow
  rw [preorder_eq] at hpre
  rcases List.mem_cons.mp hpre with heq | hdesc
  · rwa [heq]
  · -- otherwise a child of `p` would be above a child of `p`
    have hdepth := depth_lt_of_mem_ancestors (mem_ancestors_of_mem_descendants hdesc)
    rw [depth_of_mem_children hc] at hdepth
    exact absurd hdepth (Nat.lt_irrefl _)

theorem eq_root_of_mem_places {n : Node} (h : root n ∈ tree.places) : root n = root tree := by
  rw [Node.places, preorder_eq] at h
  rcases List.mem_cons.mp h with heq | hbelow
  · exact heq
  · cases mem_ancestors_of_mem_descendants hbelow

/-- A place is told by its path. -/
theorem eq_of_path_eq (hp : p ∈ tree.places) (hq : q ∈ tree.places) (h : p.path = q.path) :
    p = q := by
  induction p generalizing q with
  | root n =>
    cases q with
    | root m => rw [eq_root_of_mem_places hp, eq_root_of_mem_places hq]
    | child q j m => simp [path] at h
  | child p i n ih =>
    cases q with
    | root m => simp [path] at h
    | child q j m =>
      obtain ⟨hpath, hij⟩ := List.append_inj' h rfl
      have hparent := ih (mem_places_of_mem_ancestors hp List.mem_cons_self)
        (mem_places_of_mem_ancestors hq List.mem_cons_self) hpath
      cases hij
      subst hparent
      have hn := mem_children_iff.mp (mem_children_of_mem_places hp)
      have hm := mem_children_iff.mp (mem_children_of_mem_places hq)
      cases hn.symm.trans hm
      rfl

/-- The places above are those whose paths begin the path. -/
theorem mem_ancestors_iff_path (hp : p ∈ tree.places) (hq : q ∈ tree.places) :
    p ∈ q.ancestors ↔ p.path <+: q.path ∧ p.path ≠ q.path := by
  induction q with
  | root n =>
    simp [path]
  | child q i n ih =>
    have hparent : q ∈ tree.places := mem_places_of_mem_ancestors hq List.mem_cons_self
    have hshort : ∀ {r : List Nat}, r <+: q.path → r ≠ q.path ++ [i] := by
      intro r hr heq
      have hle := hr.length_le
      rw [heq, List.length_append, List.length_singleton] at hle
      omega
    rw [ancestors_child, List.mem_cons, ih hparent, path, List.prefix_concat_iff]
    constructor
    · rintro (rfl | ⟨hbegins, _⟩)
      · exact ⟨.inr List.prefix_rfl, hshort List.prefix_rfl⟩
      · exact ⟨.inr hbegins, hshort hbegins⟩
    · rintro ⟨heq | hbegins, hne⟩
      · exact absurd heq hne
      · by_cases hpath : p.path = q.path
        · exact .inl (eq_of_path_eq hp hparent hpath)
        · exact .inr ⟨hbegins, hpath⟩

end Place

/-- The largest number of some paths that begin one of them. -/
def height (paths : List (List Nat)) : Nat :=
  (paths.map fun w => paths.countP (·.isPrefixOf w)).foldr max 0

section Height

variable {paths : List (List Nat)} {w : List Nat}

theorem countP_le_height (h : w ∈ paths) : paths.countP (·.isPrefixOf w) ≤ height paths :=
  List.le_max_of_le (List.mem_map_of_mem h) (Nat.le_refl _)

theorem height_le {n : Nat} (h : ∀ w ∈ paths, paths.countP (·.isPrefixOf w) ≤ n) :
    height paths ≤ n := by
  refine List.max_le_of_forall_le _ _ fun c hc => ?_
  obtain ⟨w, hw, rfl⟩ := List.mem_map.mp hc
  exact h w hw

theorem exists_height (h : paths ≠ []) :
    ∃ w ∈ paths, paths.countP (·.isPrefixOf w) = height paths := by
  obtain ⟨counts, hcounts⟩ : ∃ counts, counts = paths.map fun w => paths.countP (·.isPrefixOf w) :=
    ⟨_, rfl⟩
  have hne : counts ≠ [] := by simpa [hcounts] using h
  have hmax : ((counts.foldr max 0 : Nat) : WithBot Nat) = counts.maximum :=
    List.foldr_max_of_ne_nil hne
  have hmem : counts.foldr max 0 ∈ counts := List.maximum_mem hmax.symm
  rw [hcounts] at hmem
  obtain ⟨w, hw, hcount⟩ := List.mem_map.mp hmem
  exact ⟨w, hw, hcount⟩

theorem height_eq_zero_iff : height paths = 0 ↔ paths = [] := by
  constructor
  · intro h
    by_contra hne
    obtain ⟨w, hw, hcount⟩ := exists_height hne
    have hpos : 0 < paths.countP (·.isPrefixOf w) := List.countP_pos_iff.mpr ⟨w, hw, by simp⟩
    omega
  · rintro rfl
    rfl

theorem countP_lt_countP {α : Type*} {f g : α → Bool} {l : List α} {v : α}
    (h : ∀ x ∈ l, f x → g x) (hv : v ∈ l) (hg : g v) (hf : ¬ f v) : l.countP f < l.countP g := by
  obtain ⟨front, back, rfl⟩ := List.append_of_mem hv
  have hfront : front.countP f ≤ front.countP g :=
    List.countP_mono_left fun x hx => h x (List.mem_append_left _ hx)
  have hback : back.countP f ≤ back.countP g :=
    List.countP_mono_left fun x hx => h x (List.mem_append_right _ (List.mem_cons_of_mem _ hx))
  rw [List.countP_append, List.countP_append, List.countP_cons_of_pos hg, List.countP_cons_of_neg hf]
  omega

theorem countP_le_add {α : Type*} {f g k : α → Bool} {l : List α}
    (h : ∀ x ∈ l, f x → g x ∨ k x) : l.countP f ≤ l.countP g + l.countP k := by
  induction l with
  | nil => exact Nat.zero_le _
  | cons x l ih =>
    have hrest := ih fun y hy => h y (List.mem_cons_of_mem _ hy)
    have hhead := h x List.mem_cons_self
    simp only [List.countP_cons]
    split_ifs <;> simp_all <;> omega

theorem countP_isPrefixOf_lt {v : List Nat} (hv : v ∈ paths) (h : w <+: v) (hne : w ≠ v) :
    paths.countP (·.isPrefixOf w) < paths.countP (·.isPrefixOf v) := by
  refine countP_lt_countP (fun u _ hu => ?_) hv (by simp) ?_
  · exact List.isPrefixOf_iff_prefix.mpr ((List.isPrefixOf_iff_prefix.mp hu).trans h)
  · intro hvw
    exact hne (h.eq_of_length_le (List.isPrefixOf_iff_prefix.mp hvw).length_le)

/-- Of the paths that begin a path, the longest other than itself begins with all the rest. -/
theorem exists_countP_isPrefixOf (hnodup : paths.Nodup)
    (h : 2 ≤ paths.countP (·.isPrefixOf w)) :
    ∃ u ∈ paths, u <+: w ∧ u ≠ w ∧
      paths.countP (·.isPrefixOf w) ≤ paths.countP (·.isPrefixOf u) + 1 := by
  have hone : paths.countP (· == w) ≤ 1 := List.nodup_iff_count_le_one.mp hnodup w
  obtain ⟨shorter, hshorter⟩ : ∃ shorter, shorter = paths.filter fun u => u <+: w ∧ u ≠ w := ⟨_, rfl⟩
  have hmem : ∀ u, u ∈ shorter ↔ u ∈ paths ∧ u <+: w ∧ u ≠ w := by simp [hshorter]
  cases hlongest : shorter.argmax List.length with
  | none =>
    have hnone : ∀ u ∈ paths, u.isPrefixOf w → u == w := by
      intro u hu hbegins
      by_contra hne
      have hmem' := (hmem u).mpr ⟨hu, List.isPrefixOf_iff_prefix.mp hbegins, by simpa using hne⟩
      rw [List.argmax_eq_none.mp hlongest] at hmem'
      cases hmem'
    have hle : paths.countP (·.isPrefixOf w) ≤ paths.countP (· == w) :=
      List.countP_mono_left hnone
    omega
  | some u =>
    obtain ⟨hu, hbegins, hne⟩ := (hmem u).mp (List.argmax_mem hlongest)
    refine ⟨u, hu, hbegins, hne, ?_⟩
    have hall : ∀ x ∈ paths, x.isPrefixOf w → x.isPrefixOf u ∨ x == w := by
      intro x hx hxw
      by_cases heq : x = w
      · exact .inr (beq_iff_eq.mpr heq)
      · have hxbegins := List.isPrefixOf_iff_prefix.mp hxw
        have hle := List.le_of_mem_argmax ((hmem x).mpr ⟨hx, hxbegins, heq⟩) hlongest
        exact .inl (List.isPrefixOf_iff_prefix.mpr
          (List.prefix_of_prefix_length_le hxbegins hbegins hle))
    have hle := countP_le_add hall
    omega

/-- Without the paths that begin no other, the height is one less. -/
theorem height_filter (hnodup : paths.Nodup) :
    height (paths.filter fun w => ∃ v ∈ paths, w <+: v ∧ w ≠ v) = height paths - 1 := by
  -- what begins a path that is kept is kept as well
  have hkeep : ∀ w ∈ paths, ∀ v ∈ paths, w <+: v → w ≠ v →
      (paths.filter fun w => ∃ v ∈ paths, w <+: v ∧ w ≠ v).countP (·.isPrefixOf w) =
        paths.countP (·.isPrefixOf w) := by
    intro w _ v hv hbegins hne
    rw [List.countP_filter]
    refine List.countP_congr fun u _ => ?_
    simp only [Bool.and_eq_true, decide_eq_true_eq, and_iff_left_iff_imp]
    intro hu
    have huw := List.isPrefixOf_iff_prefix.mp hu
    refine ⟨v, hv, huw.trans hbegins, ?_⟩
    rintro rfl
    exact hne (hbegins.eq_of_length_le huw.length_le)
  apply Nat.le_antisymm
  · refine height_le fun w hw => ?_
    obtain ⟨hmem, hbelow⟩ := List.mem_filter.mp hw
    obtain ⟨v, hv, hbegins, hne⟩ := of_decide_eq_true hbelow
    have hlt := countP_isPrefixOf_lt hv hbegins hne
    have hle := countP_le_height hv
    rw [hkeep w hmem v hv hbegins hne]
    omega
  · by_cases hsmall : height paths ≤ 1
    · omega
    · have hne : paths ≠ [] := by
        rintro rfl
        exact hsmall (Nat.zero_le 1)
      obtain ⟨w, hw, hcount⟩ := exists_height hne
      obtain ⟨u, hu, hbegins, hneq, hle⟩ := @exists_countP_isPrefixOf paths w hnodup (by omega)
      have hkept : u ∈ paths.filter fun w => ∃ v ∈ paths, w <+: v ∧ w ≠ v :=
        List.mem_filter.mpr ⟨hu, decide_eq_true ⟨w, hw, hbegins, hneq⟩⟩
      have hheight := countP_le_height hkept
      rw [hkeep u hu w hw hbegins hneq] at hheight
      omega

end Height

end QueryLint.Code
