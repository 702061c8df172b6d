import QueryLint.Proofs.Data.Plain

/-!
# Parts that stand for others

A part of an artifact may stand for another one if it is equal to the same artifacts and its plain form is
related to the other's. If the relation is one that lists and objects hand on, the plain forms of the whole
are related too. Keys are written as texts, so in a key the plain forms have to be the same.
-/
namespace QueryLint.Data

/-- A relation of values that lists and objects hand on, and by which values compare alike. -/
structure Likeness (R : Value → Value → Prop) : Prop where
  refl : ∀ v, v.IsTidy → R v v
  trans : ∀ u v w, R u v → R v w → R u w
  list : ∀ vs ws, List.Forall₂ R vs ws → R (.list vs) (.list ws)
  object : ∀ ms ns : Members, List.Forall₂ (fun m n => m.1 = n.1 ∧ R m.2 n.2) ms ns →
    R (.object (Members.ofList ms)) (.object (Members.ofList ns))
  lt : ∀ v w v' w', R v w → R v' w' → v.lt v' = w.lt w'

/-- Whether two values that hold each key once are equal with their members sorted. -/
structure SortsTo (v w : Value) : Prop where
  left : v.IsTidy
  right : w.IsTidy
  sorted_eq : v.sorted = w.sorted

theorem forall₂_members_eq {ms ns : Members}
    (h : List.Forall₂ (fun m n => m.1 = n.1 ∧ m.2 = n.2) ms ns) : ms = ns := by
  rw [← List.forall₂_eq_eq_eq]
  exact h.imp fun _ _ hmn => Prod.ext hmn.1 hmn.2

theorem likeness_eq : Likeness Eq where
  refl _ _ := rfl
  trans _ _ _ h h' := h.trans h'
  list vs ws h := by rw [List.forall₂_eq_eq_eq] at h; rw [h]
  object ms ns h := by rw [forall₂_members_eq h]
  lt _ _ _ _ h h' := by rw [h, h']

theorem likeness_sortsTo : Likeness SortsTo where
  refl v hv := ⟨hv, hv, rfl⟩
  trans _ _ _ h h' := ⟨h.left, h'.right, h.sorted_eq.trans h'.sorted_eq⟩
  list vs ws h := by
    obtain ⟨hvs, hws⟩ := forall_of_forall₂ h fun v w hvw => ⟨hvw.left, hvw.right⟩
    refine ⟨Artifact.isTidy_list hvs, Artifact.isTidy_list hws, ?_⟩
    rw [Value.sorted_list, Value.sorted_list, Value.list.injEq, ← List.forall₂_eq_eq_eq,
      List.forall₂_map_left_iff, List.forall₂_map_right_iff]
    exact h.imp fun v w hvw => hvw.sorted_eq
  object ms ns h := by
    obtain ⟨hms, hns⟩ := forall_of_forall₂ (p := fun m : String × Value => m.2.IsTidy)
      (q := fun n : String × Value => n.2.IsTidy) h fun m n hmn => ⟨hmn.2.left, hmn.2.right⟩
    refine ⟨Artifact.isTidy_ofList hms, Artifact.isTidy_ofList hns, ?_⟩
    rw [Value.sorted_object, Value.sorted_object]
    congr 2
    rw [← List.forall₂_eq_eq_eq, List.forall₂_map_left_iff, List.forall₂_map_right_iff]
    exact (Members.forall₂_ofList h).imp fun m n hmn => Prod.ext hmn.1 hmn.2.sorted_eq
  lt v w v' w' h h' := by
    rw [← Value.lt_sorted h.left h'.left, h.sorted_eq, h'.sorted_eq, Value.lt_sorted h.right h'.right]

namespace Artifact

variable {x y z : Artifact} {xs ys : List Artifact} {v w : Value} {R : Value → Value → Prop}

/-- Whether two artifacts are equal to the same others. -/
structure Indistinct (x y : Artifact) : Prop where
  left : ∀ z, same x z = same y z
  right : ∀ z, same z x = same z y

theorem Indistinct.refl (x : Artifact) : Indistinct x x := ⟨fun _ => rfl, fun _ => rfl⟩

theorem Indistinct.trans (h : Indistinct x y) (h' : Indistinct y z) : Indistinct x z :=
  ⟨fun u => (h.left u).trans (h'.left u), fun u => (h.right u).trans (h'.right u)⟩

/-- Whether an artifact is of a kind that is equal to nothing. -/
def equalsNothing : Artifact → Bool
  | choice _ | list _ | set _ | map _ => true
  | _ => false

theorem same_of_equalsNothing (h : x.equalsNothing) (z : Artifact) :
    same x z = false ∧ same z x = false := by
  cases x <;> simp [equalsNothing] at h <;> cases z <;> simp [same, asText?, quantity?]

theorem indistinct_of_equalsNothing (hx : x.equalsNothing) (hy : y.equalsNothing) : Indistinct x y where
  left z := by rw [(same_of_equalsNothing hx z).1, (same_of_equalsNothing hy z).1]
  right z := by rw [(same_of_equalsNothing hx z).2, (same_of_equalsNothing hy z).2]

theorem indistinct_tuple (h : List.Forall₂ Indistinct xs ys) : Indistinct (.tuple xs) (.tuple ys) := by
  have hitems : ∀ zs, sameItems xs zs = sameItems ys zs ∧ sameItems zs xs = sameItems zs ys := by
    induction h with
    | nil => exact fun _ => ⟨rfl, rfl⟩
    | cons hxy _ ih =>
      intro zs
      cases zs with
      | nil => exact ⟨rfl, rfl⟩
      | cons z zs => simp only [sameItems, hxy.left, hxy.right, ih zs, and_self]
  refine ⟨fun z => ?_, fun z => ?_⟩
  · cases z with
    | tuple zs => exact (hitems zs).1
    | _ => simp [same, asText?, quantity?]
  · cases z with
    | tuple zs => exact (hitems zs).2
    | _ => simp [same, asText?, quantity?]

theorem indistinct_record {fs gs : List (String × Artifact)}
    (h : List.Forall₂ (fun f g => f.1 = g.1 ∧ Indistinct f.2 g.2) fs gs) :
    Indistinct (.record fs) (.record gs) := by
  have hfields : ∀ hs, sameFields fs hs = sameFields gs hs ∧ sameFields hs fs = sameFields hs gs := by
    induction h with
    | nil => exact fun _ => ⟨rfl, rfl⟩
    | cons hfg _ ih =>
      intro hs
      cases hs with
      | nil => exact ⟨rfl, rfl⟩
      | cons h hs => simp only [sameFields, hfg.1, hfg.2.left, hfg.2.right, ih hs, and_self]
  refine ⟨fun z => ?_, fun z => ?_⟩
  · cases z with
    | record hs => exact (hfields hs).1
    | _ => simp [same, asText?, quantity?]
  · cases z with
    | record hs => exact (hfields hs).2
    | _ => simp [same, asText?, quantity?]

/-! ### What is kept of equal keys -/

section Kept

variable {α : Type} {S : α → α → Prop} {as bs : List α} {seen seen' : List Artifact}

theorem isAmong_congr (h : Indistinct x y) (hs : List.Forall₂ Indistinct xs ys) :
    isAmong x xs = isAmong y ys := by
  induction hs with
  | nil => rfl
  | cons hab _ ih =>
    simp only [isAmong, List.any_cons] at ih ⊢
    rw [ih, h.left, hab.right]

theorem forall₂_keepFirst (key : α → Artifact)
    (h : List.Forall₂ (fun a b => Indistinct (key a) (key b) ∧ S a b) as bs)
    (hseen : List.Forall₂ Indistinct seen seen') :
    List.Forall₂ (fun a b => Indistinct (key a) (key b) ∧ S a b) (keepFirst key seen as)
      (keepFirst key seen' bs) := by
  induction h generalizing seen seen' with
  | nil => exact .nil
  | cons hab _ ih =>
    rw [keepFirst, keepFirst, isAmong_congr hab.1 hseen]
    split
    · exact ih hseen
    · exact .cons hab (ih (.cons hab.1 hseen))

theorem forall₂_mergeEntries {entries entries' : List (Artifact × α)}
    (h : List.Forall₂ (fun e f => Indistinct e.1 f.1 ∧ S e.2 f.2) entries entries') :
    List.Forall₂ (fun e f => Indistinct e.1 f.1 ∧ S e.2 f.2) (mergeEntries entries)
      (mergeEntries entries') := by
  rw [mergeEntries, mergeEntries, List.forall₂_map_left_iff, List.forall₂_map_right_iff]
  refine (forall₂_keepFirst Prod.fst (S := fun e f => S e.2 f.2) h .nil).imp fun e f hef => ?_
  refine ⟨hef.1, ?_⟩
  have hfind := rel_find? (f := fun f => same e.1 f.1) (g := fun g => same f.1 g.1)
    (List.forall₂_reverse_iff.mpr h) fun a b hab => by rw [hef.1.left, hab.1.right]
  revert hfind
  dsimp only
  generalize entries.reverse.find? _ = found
  generalize entries'.reverse.find? _ = found'
  rintro (hab | _)
  · exact hab.2
  · exact hef.2

end Kept

/-! ### Related parts -/

/-- Whether an artifact may stand for another: it is equal to the same others, and its plain form is related
to the other's. -/
structure Matches (R : Value → Value → Prop) (x y : Artifact) : Prop where
  indistinct : Indistinct x y
  exists_plain : ∀ v, plain x = .ok v → ∃ w, plain y = .ok w ∧ R v w

theorem Matches.refl (hR : Likeness R) (x : Artifact) : Matches R x x :=
  ⟨.refl x, fun v hv => ⟨v, hv, hR.refl v (isTidy_plain hv)⟩⟩

theorem Matches.trans (hR : Likeness R) (h : Matches R x y) (h' : Matches R y z) : Matches R x z where
  indistinct := h.indistinct.trans h'.indistinct
  exists_plain v hv := by
    obtain ⟨w, hw, hvw⟩ := h.exists_plain v hv
    obtain ⟨u, hu, hwu⟩ := h'.exists_plain w hw
    exact ⟨u, hu, hR.trans v w u hvw hwu⟩

theorem exists_plainItems (h : List.Forall₂ (Matches R) xs ys) {vs : List Value}
    (hvs : List.Forall₂ (fun x v => plain x = .ok v) xs vs) :
    ∃ ws, List.Forall₂ (fun y w => plain y = .ok w) ys ws ∧ List.Forall₂ R vs ws := by
  induction h generalizing vs with
  | nil =>
    cases hvs
    exact ⟨[], .nil, .nil⟩
  | cons hxy _ ih =>
    cases hvs with
    | cons hv hvs =>
      obtain ⟨w, hw, hvw⟩ := hxy.exists_plain _ hv
      obtain ⟨ws, hws, hrel⟩ := ih hvs
      exact ⟨w :: ws, .cons hw hws, .cons hvw hrel⟩

theorem matches_choice (h : Matches R x y) : Matches R (.choice x) (.choice y) where
  indistinct := indistinct_of_equalsNothing rfl rfl
  exists_plain v hv := by
    rw [plain] at hv ⊢
    exact h.exists_plain v hv

theorem matches_list (hR : Likeness R) (h : List.Forall₂ (Matches R) xs ys) :
    Matches R (.list xs) (.list ys) where
  indistinct := indistinct_of_equalsNothing rfl rfl
  exists_plain v hv := by
    obtain ⟨vs, hvs, rfl⟩ := plain_list_eq_ok_iff.mp hv
    obtain ⟨ws, hws, hrel⟩ := exists_plainItems h hvs
    exact ⟨.list ws, plain_list_eq_ok_iff.mpr ⟨ws, hws, rfl⟩, hR.list vs ws hrel⟩

theorem matches_tuple (hR : Likeness R) (h : List.Forall₂ (Matches R) xs ys) :
    Matches R (.tuple xs) (.tuple ys) where
  indistinct := indistinct_tuple (h.imp fun _ _ hxy => hxy.indistinct)
  exists_plain v hv := by
    obtain ⟨vs, hvs, rfl⟩ := plain_tuple_eq_ok_iff.mp hv
    obtain ⟨ws, hws, hrel⟩ := exists_plainItems h hvs
    exact ⟨.list ws, plain_tuple_eq_ok_iff.mpr ⟨ws, hws, rfl⟩, hR.list vs ws hrel⟩

theorem matches_record (hR : Likeness R) {fs gs : List (String × Artifact)}
    (h : List.Forall₂ (fun f g => f.1 = g.1 ∧ Matches R f.2 g.2) fs gs) :
    Matches R (.record fs) (.record gs) where
  indistinct := indistinct_record (h.imp fun _ _ hfg => ⟨hfg.1, hfg.2.indistinct⟩)
  exists_plain v hv := by
    obtain ⟨ms, hms, rfl⟩ := plain_record_eq_ok_iff.mp hv
    have hns : ∃ ns : Members, List.Forall₂ (fun g n => g.1 = n.1 ∧ plain g.2 = .ok n.2) gs ns ∧
        List.Forall₂ (fun m n => m.1 = n.1 ∧ R m.2 n.2) ms ns := by
      clear hv
      induction h generalizing ms with
      | nil =>
        cases hms
        exact ⟨[], .nil, .nil⟩
      | @cons f g fs gs hfg _ ih =>
        cases hms with
        | cons hm hms =>
          obtain ⟨w, hw, hrel⟩ := hfg.2.exists_plain _ hm.2
          obtain ⟨ns, hns, hrels⟩ := ih _ hms
          exact ⟨(g.1, w) :: ns, .cons ⟨rfl, hw⟩ hns, .cons ⟨hm.1.symm.trans hfg.1, hrel⟩ hrels⟩
    obtain ⟨ns, hns, hrel⟩ := hns
    exact ⟨_, plain_record_eq_ok_iff.mpr ⟨ns, hns, rfl⟩, hR.object ms ns hrel⟩

theorem matches_set (hR : Likeness R) (h : List.Forall₂ (Matches R) xs ys) :
    Matches R (.set xs) (.set ys) where
  indistinct := indistinct_of_equalsNothing rfl rfl
  exists_plain v hv := by
    obtain ⟨vs, hvs, sorted, hsort, rfl⟩ := plain_set_eq_ok_iff.mp hv
    obtain ⟨ws, hws, hrel⟩ := exists_plainItems h hvs
    have hzip := forall₂_zip (h.imp fun _ _ hxy => hxy.indistinct) hrel
    have hkept := forall₂_keepFirst Prod.fst (S := fun p q => R p.2 q.2) hzip .nil
    have hvalues := forall₂_map_map (f := Prod.snd) (g := Prod.snd) (hkept.imp fun _ _ hpq => hpq.2)
    obtain ⟨sorted', hsort', hsorted⟩ := Value.exists_forall₂_sort hR.lt hvalues hsort
    exact ⟨.list sorted', plain_set_eq_ok_iff.mpr ⟨ws, hws, sorted', hsort', rfl⟩,
      hR.list sorted sorted' hsorted⟩

theorem matches_map (hR : Likeness R) {es fs : List (Artifact × Artifact)}
    (h : List.Forall₂ (fun e f => Matches Eq e.1 f.1 ∧ Matches R e.2 f.2) es fs) :
    Matches R (.map es) (.map fs) where
  indistinct := indistinct_of_equalsNothing rfl rfl
  exists_plain v hv := by
    obtain ⟨ps, hps, rfl⟩ := plain_map_eq_ok_iff.mp hv
    have hqs : ∃ qs : List (Value × Value),
        List.Forall₂ (fun f q => plain f.1 = .ok q.1 ∧ plain f.2 = .ok q.2) fs qs ∧
          List.Forall₂ (fun p q => p.1 = q.1 ∧ R p.2 q.2) ps qs := by
      clear hv
      induction h generalizing ps with
      | nil =>
        cases hps
        exact ⟨[], .nil, .nil⟩
      | cons hef _ ih =>
        cases hps with
        | cons hp hps =>
          obtain ⟨k, hk, hkey⟩ := hef.1.exists_plain _ hp.1
          obtain ⟨w, hw, hrel⟩ := hef.2.exists_plain _ hp.2
          obtain ⟨qs, hqs, hrels⟩ := ih _ hps
          exact ⟨(k, w) :: qs, .cons ⟨hk, hw⟩ hqs, .cons ⟨hkey, hrel⟩ hrels⟩
    obtain ⟨qs, hqs, hrel⟩ := hqs
    have hkeys : List.Forall₂ Indistinct (es.map (·.1)) (fs.map (·.1)) :=
      forall₂_map_map (h.imp fun _ _ hef => hef.1.indistinct)
    have hmerged := forall₂_mergeEntries (S := fun p q : Value × Value => p.1 = q.1 ∧ R p.2 q.2)
      (forall₂_zip hkeys hrel)
    refine ⟨_, plain_map_eq_ok_iff.mpr ⟨qs, hqs, rfl⟩, hR.object _ _ (forall₂_map_map ?_)⟩
    exact hmerged.imp fun _ _ hpq => ⟨by rw [hpq.2.1], hpq.2.2⟩

end Artifact

end QueryLint.Data
