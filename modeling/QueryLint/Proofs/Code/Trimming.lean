import QueryLint.Binding.Variable
import QueryLint.Proofs.Code.Owners
import QueryLint.Proofs.Code.Paths
import QueryLint.Proofs.Code.Search

/-!
# Trimmed trees

A tree is trimmed by dropping comments and punctuation, and by opening parentheses, so that the
expression inside takes their place and plays their part. All other nodes stay as they are.

Going down, parts are looked for among named nodes that are no comments, and parentheses are unwrapped.
Going up, parentheses are passed over. So whatever way a place is found from another one, what it has
become is found in the trimmed tree in the same way.
-/
namespace QueryLint.Code

open QueryLint.Binding

/-- What leads to nothing can be left out of what is gone through. -/
theorem flatMap_eq_flatMap_filter {α β : Type*} {f : α → List β} {keep : α → Bool} {xs : List α}
    (h : ∀ x ∈ xs, keep x = false → f x = []) : xs.flatMap f = (xs.filter keep).flatMap f := by
  induction xs with
  | nil => rfl
  | cons x xs ih =>
    have hrest := ih fun y hy => h y (List.mem_cons_of_mem _ hy)
    cases hx : keep x with
    | false =>
      rw [List.filter_cons_of_neg (by simp [hx]), List.flatMap_cons, h x List.mem_cons_self hx,
        List.nil_append, hrest]
    | true => rw [List.filter_cons_of_pos hx, List.flatMap_cons, List.flatMap_cons, hrest]

/-- What becomes of a place when its tree is trimmed. -/
inductive Fate where
  | kept
  /-- What is inside takes its place. -/
  | opened
  | dropped
  deriving DecidableEq, Repr

/-- The kinds of expression that parentheses are opened around. -/
def openableKinds : List Kind :=
  [Kind.callExpression, Kind.memberExpression, Kind.identifier, Kind.awaitExpression,
   Kind.arrowFunction]

/-- The parts that parentheses may play that are opened. -/
def openableRoles : List (Option Role) :=
  [none, some .function, some .object, some .argument, some .body, some .value]

namespace Place

/-- Whether a place is there for the reader only: punctuation or a comment, without children. -/
structure IsTrivia (p : Place) : Prop where
  leaf : p.children = []
  noName : ¬ p.isIdentifier
  noPart : p.label.isNamed → p.kind = Kind.comment

instance (p : Place) : Decidable p.IsTrivia :=
  decidable_of_iff
    (p.children = [] ∧ ¬ p.isIdentifier ∧ (p.label.isNamed → p.kind = Kind.comment))
    ⟨fun ⟨hl, hn, hp⟩ => ⟨hl, hn, hp⟩, fun h => ⟨h.leaf, h.noName, h.noPart⟩⟩

/-- Whether a place is parentheses around a single expression that can be opened. They are no target
of a binding and no part of an element's name, and whatever else stands in them is punctuation and
comments. -/
structure IsOpenable (p : Place) : Prop where
  kind_eq : p.kind = Kind.parenthesized
  isNamed : p.label.isNamed
  inner : ∃ e, p.parts = [e] ∧ e.kind ∈ openableKinds
  trivia : ∀ c ∈ p.children, (c.label.isNamed → c.kind = Kind.comment) → c.IsTrivia
  role : p.label.role ∈ openableRoles
  noPattern : ∀ q, p.parent? = some q → shape q.kind = .name ∨ shape q.kind = .nowhere
  noElement : ¬ isElementName p

end Place

/-- A way to trim the tree of a source: what becomes of each place, and where those that stay are
afterwards. -/
structure Trimming (source source' : Source) where
  path_eq : source'.path = source.path
  text_eq : source'.text = source.text
  fate : Place → Fate
  /-- The place that a place has in the trimmed tree, unless it is dropped. -/
  place : Place → Place
  fate_root : fate (.root source.tree) ≠ .dropped
  place_root : place (.root source.tree) = .root source'.tree
  label_eq : ∀ p ∈ source.tree.places, fate p = .kept →
    p.label = { (place p).label with role := p.label.role }
  children_eq : ∀ p ∈ source.tree.places, fate p = .kept →
    (place p).children = (p.children.filter (fate · ≠ .dropped)).map place
  role_eq : ∀ p ∈ source.tree.places, fate p = .kept → ∀ c ∈ p.children,
    if fate c = .dropped then c.label.role = none else (place c).label.role = c.label.role
  trivia : ∀ p ∈ source.tree.places, fate p = .dropped → p.IsTrivia
  opened : ∀ p ∈ source.tree.places, fate p = .opened → p.IsOpenable ∧
    ∃ e, p.parts = [e] ∧ fate e = .kept ∧ place e = place p ∧
      p.children.filter (fate · ≠ .dropped) = [e]

namespace Trimming

open Place

variable {source source' : Source} (t : Trimming source source') {p : Place}

/-- Whether a place of the tree is kept. -/
structure Keeps (p : Place) : Prop where
  mem : p ∈ source.tree.places
  fate : t.fate p = .kept

/-- Whether a place of the tree is kept or opened. -/
structure Stays (p : Place) : Prop where
  mem : p ∈ source.tree.places
  fate : t.fate p ≠ .dropped

/-- The children that stay. -/
def staying (p : Place) : List Place := p.children.filter (t.fate · ≠ .dropped)

variable {t}

theorem Keeps.stays (h : t.Keeps p) : t.Stays p := ⟨h.mem, by rw [h.fate]; decide⟩

theorem Stays.cases (h : t.Stays p) : t.Keeps p ∨ p ∈ source.tree.places ∧ t.fate p = .opened := by
  cases hfate : t.fate p with
  | kept => exact .inl ⟨h.mem, hfate⟩
  | opened => exact .inr ⟨h.mem, rfl⟩
  | dropped => exact absurd hfate h.fate

section Kept

variable (h : t.Keeps p)

include h

theorem Keeps.kind : (t.place p).kind = p.kind := by
  rw [Place.kind, Place.kind, t.label_eq p h.mem h.fate]

theorem Keeps.start : (t.place p).start = p.start := by
  rw [Place.start, Place.start, t.label_eq p h.mem h.fate]

theorem Keeps.stop : (t.place p).stop = p.stop := by
  rw [Place.stop, Place.stop, t.label_eq p h.mem h.fate]

theorem Keeps.isNamed : (t.place p).label.isNamed = p.label.isNamed := by
  rw [t.label_eq p h.mem h.fate]

theorem Keeps.children : (t.place p).children = (t.staying p).map t.place :=
  t.children_eq p h.mem h.fate

end Kept

theorem mem_staying_iff {c : Place} : c ∈ t.staying p ↔ c ∈ p.children ∧ t.fate c ≠ .dropped := by
  rw [staying, List.mem_filter, decide_eq_true_eq]

theorem stays_of_mem_staying {c : Place} (hp : p ∈ source.tree.places) (hc : c ∈ t.staying p) :
    t.Stays c :=
  ⟨mem_places_of_mem_children hp (mem_staying_iff.mp hc).1, (mem_staying_iff.mp hc).2⟩

theorem stays_of_mem_children {c : Place} (hp : p ∈ source.tree.places) (hc : c ∈ p.children) :
    t.Stays p := by
  refine ⟨hp, fun h => ?_⟩
  rw [(t.trivia p hp h).leaf] at hc
  cases hc

theorem stays_of_mem_ancestors {a : Place} (hp : p ∈ source.tree.places) (ha : a ∈ p.ancestors) :
    t.Stays a := by
  have hat := mem_places_of_mem_ancestors hp ha
  obtain ⟨c, hc, _⟩ := List.mem_flatMap.mp ((mem_descendants_iff hat).mpr ⟨hp, ha⟩)
  exact stays_of_mem_children hat hc

/-- What is opened holds one place that stays, and that one is kept and takes its place. -/
theorem exists_staying (hp : p ∈ source.tree.places) (h : t.fate p = .opened) :
    ∃ e, p.parts = [e] ∧ t.Keeps e ∧ t.place e = t.place p ∧ t.staying p = [e] := by
  obtain ⟨_, e, hparts, hfate, hplace, hstaying⟩ := t.opened p hp h
  have he : e ∈ t.staying p := by
    rw [staying, hstaying]
    exact List.mem_singleton_self e
  exact ⟨e, hparts, ⟨(stays_of_mem_staying hp he).mem, hfate⟩, hplace, hstaying⟩

theorem kind_of_opened (hp : p ∈ source.tree.places) (h : t.fate p = .opened) :
    p.kind = Kind.parenthesized :=
  (t.opened p hp h).1.kind_eq

/-- What takes the place of parentheses is an expression of one of a few kinds. -/
theorem kind_place_of_opened (hp : p ∈ source.tree.places) (h : t.fate p = .opened) :
    (t.place p).kind ∈ openableKinds ∧ (t.place p).label.isNamed := by
  obtain ⟨e, hparts, he, hplace, _⟩ := exists_staying hp h
  obtain ⟨e', hparts', hkind⟩ := (t.opened p hp h).1.inner
  have hpart : e ∈ p.parts := hparts ▸ List.mem_singleton_self e
  rw [hparts] at hparts'
  cases hparts'
  rw [← hplace, he.kind, he.isNamed]
  exact ⟨hkind, (mem_parts_iff.mp hpart).2.2⟩

/-- What is gone through below a place is gone through among what stays, if it leads to nothing at
what is dropped. -/
theorem flatMap_children {β : Type*} {f : Place → List β} (p : Place)
    (hf : ∀ c ∈ p.children, t.fate c = .dropped → f c = []) :
    p.children.flatMap f = (t.staying p).flatMap f :=
  flatMap_eq_flatMap_filter fun c hc hnot => hf c hc (by simpa using hnot)

section Up

theorem Stays.parent {q : Place} {i : Nat} {n : Node} (h : t.Stays (child q i n)) : t.Stays q :=
  stays_of_mem_ancestors h.mem List.mem_cons_self

/-- What stays is a child of what its parent has become, or takes the place of its parent. -/
theorem Stays.parent_cases {q : Place} {i : Nat} {n : Node} (h : t.Stays (child q i n)) :
    t.Keeps q ∧ t.place (child q i n) ∈ (t.place q).children ∨
      t.fate q = .opened ∧ t.place (child q i n) = t.place q := by
  have hmem : child q i n ∈ t.staying q :=
    mem_staying_iff.mpr ⟨mem_children_of_mem_places h.mem, h.fate⟩
  rcases h.parent.cases with hkept | ⟨hq, hopened⟩
  · refine .inl ⟨hkept, ?_⟩
    rw [hkept.children]
    exact List.mem_map_of_mem hmem
  · obtain ⟨e, _, _, hplace, hstaying⟩ := exists_staying hq hopened
    rw [hstaying, List.mem_singleton] at hmem
    exact .inr ⟨hopened, hmem ▸ hplace⟩

/-- The places above, without those that are opened. -/
theorem ancestors_place (h : t.Stays p) :
    (t.place p).ancestors = (p.ancestors.filter (t.fate · = .kept)).map t.place := by
  induction p with
  | root n =>
    rw [eq_root_of_mem_places h.mem, t.place_root]
    rfl
  | child q i n ih =>
    rw [ancestors_child]
    rcases h.parent_cases with ⟨hkept, hchild⟩ | ⟨hopened, hplace⟩
    · rw [ancestors_of_mem_children hchild, ih h.parent,
        List.filter_cons_of_pos (by simp [hkept.fate]), List.map_cons]
    · rw [List.filter_cons_of_neg (by simp [hopened]), ← ih h.parent, hplace]

theorem keeps_of_mem_owners {a : Place} (hp : p ∈ source.tree.places) (ha : a ∈ p.owners) : t.Keeps a := by
  rw [owners_eq_filter, List.mem_filter] at ha
  obtain ⟨habove, hkind⟩ := ha
  -- parentheses own nothing, so none of the owners is opened
  refine ((stays_of_mem_ancestors hp habove).cases).resolve_right ?_
  rintro ⟨hat, hopened⟩
  rw [kind_of_opened hat hopened] at hkind
  exact absurd hkind (by decide)

theorem Keeps.owners (h : t.Keeps p) : (t.place p).owners = p.owners.map t.place := by
  have hkinds : ∀ a ∈ p.ancestors.filter (t.fate · = .kept),
      ((!transparentKinds.contains ·.kind) ∘ t.place) a = !transparentKinds.contains a.kind := by
    intro a ha
    obtain ⟨ha, hkept⟩ := List.mem_filter.mp ha
    have hkeeps : t.Keeps a := ⟨mem_places_of_mem_ancestors h.mem ha, of_decide_eq_true hkept⟩
    rw [Function.comp_apply, hkeeps.kind]
  rw [owners_eq_filter (t.place p), ancestors_place h.stays, List.filter_map]
  congr 1
  rw [List.filter_congr hkinds, List.filter_filter, owners_eq_filter]
  refine List.filter_congr fun a ha => ?_
  -- whatever is chosen by its kind is kept anyway
  rw [Bool.and_eq_left_iff_imp]
  intro hkind
  refine decide_eq_true (keeps_of_mem_owners h.mem (a := a) ?_).fate
  rw [owners_eq_filter]
  exact List.mem_filter.mpr ⟨ha, hkind⟩

theorem Keeps.owner? (h : t.Keeps p) : (t.place p).owner? = p.owner?.map t.place := by
  rw [Place.owner?, Place.owner?, h.owners, List.head?_map]

theorem keeps_of_owner? {owner : Place} (hp : p ∈ source.tree.places) (h : p.owner? = some owner) :
    t.Keeps owner :=
  keeps_of_mem_owners hp (List.mem_of_mem_head? h)

end Up

section Down

/-- The places below, without those that are opened or dropped. -/
theorem preorder_place (h : t.Stays p) :
    (t.place p).preorder = (p.preorder.filter (t.fate · = .kept)).map t.place := by
  induction p using children_induction with
  | step p ih =>
    have hdropped : ∀ c ∈ p.children, t.fate c = .dropped →
        (c.preorder.filter (t.fate · = .kept)).map t.place = [] := by
      intro c hc hfate
      have hleaf := (t.trivia c (mem_places_of_mem_children h.mem hc) hfate).leaf
      rw [preorder_eq, descendants, hleaf]
      simp [hfate]
    have hbelow : (p.descendants.filter (t.fate · = .kept)).map t.place =
        (t.staying p).flatMap fun c => (t.place c).preorder := by
      rw [descendants, List.filter_flatMap, List.map_flatMap, flatMap_children p hdropped]
      refine List.flatMap_congr fun c hc => (ih c (mem_staying_iff.mp hc).1 ?_).symm
      exact stays_of_mem_staying h.mem hc
    -- what is opened has one place below it that stays, and that one stands where it stood
    rw [preorder_eq p, List.filter_cons]
    rcases h.cases with hkept | ⟨hp, hopened⟩
    · rw [if_pos (by simp [hkept.fate]), List.map_cons, hbelow, preorder_eq, descendants,
        hkept.children, List.flatMap_map]
    · obtain ⟨e, _, _, hplace, hstaying⟩ := exists_staying hp hopened
      rw [if_neg (by simp [hopened]), hbelow, hstaying, List.flatMap_singleton, hplace]

theorem places_eq (t : Trimming source source') :
    source'.tree.places = (source.tree.places.filter (t.fate · = .kept)).map t.place := by
  rw [Node.places, ← t.place_root, preorder_place ⟨mem_preorder_self _, t.fate_root⟩]
  rfl

/-- Whether two searches do the same at a place and at what it has become. They go on below what is
opened and take nothing that is dropped. -/
structure Agree (t : Trimming source source') (verdict verdict' : Place → Verdict) : Prop where
  kept : ∀ q, t.Keeps q → verdict' (t.place q) = verdict q
  opened : ∀ q ∈ source.tree.places, t.fate q = .opened → verdict q = .below
  dropped : ∀ q ∈ source.tree.places, t.fate q = .dropped → verdict q ≠ .take

section Search

variable {verdict verdict' : Place → Verdict} (agree : t.Agree verdict verdict')

include agree

theorem search_of_dropped {c : Place} (hc : c ∈ source.tree.places) (hfate : t.fate c = .dropped) :
    c.search verdict = [] := by
  have hnot := agree.dropped c hc hfate
  rw [search_eq, (t.trivia c hc hfate).leaf]
  cases hv : verdict c <;> simp_all

theorem map_flatMap_search (hp : p ∈ source.tree.places)
    (h : ∀ c ∈ t.staying p, (t.place c).search verdict' = (c.search verdict).map t.place) :
    (p.children.flatMap (search verdict)).map t.place =
      (t.staying p).flatMap fun c => (t.place c).search verdict' := by
  have hdropped : ∀ c ∈ p.children, t.fate c = .dropped → c.search verdict = [] := fun c hc =>
    search_of_dropped agree (mem_places_of_mem_children hp hc)
  rw [flatMap_children p hdropped, List.map_flatMap]
  exact List.flatMap_congr fun c hc => (h c hc).symm

theorem search_place (h : t.Stays p) :
    (t.place p).search verdict' = (p.search verdict).map t.place := by
  induction p using children_induction with
  | step p ih =>
    have hbelow := map_flatMap_search agree h.mem fun c hc =>
      ih c (mem_staying_iff.mp hc).1 (stays_of_mem_staying h.mem hc)
    rcases h.cases with hkeeps | ⟨hp, hfate⟩
    · rw [search_eq, search_eq _ p, agree.kept p hkeeps]
      cases verdict p with
      | skip => rfl
      | take => rfl
      | below => rw [hbelow, hkeeps.children, List.flatMap_map]
    · obtain ⟨e, _, _, hplace, hstaying⟩ := exists_staying hp hfate
      rw [search_eq _ p, agree.opened p hp hfate, hbelow, hstaying, List.flatMap_singleton, hplace]

theorem Keeps.flatMap_search (h : t.Keeps p) :
    (t.place p).children.flatMap (search verdict') =
      (p.children.flatMap (search verdict)).map t.place := by
  rw [map_flatMap_search agree h.mem fun c hc => search_place agree (stays_of_mem_staying h.mem hc),
    h.children, List.flatMap_map]

end Search

theorem stays_of_childAs {c : Place} {role : Role} (h : t.Keeps p) (hc : p.childAs role = some c) :
    t.Stays c := by
  have hmem := mem_children_of_childAs hc
  refine ⟨mem_places_of_mem_children h.mem hmem, fun hfate => ?_⟩
  have hnone := t.role_eq p h.mem h.fate c hmem
  have hrole : c.label.role = some role := by simpa using List.find?_some hc
  rw [if_pos hfate, hrole] at hnone
  cases hnone

theorem keeps_of_childAs {c : Place} {role : Role} (hrole : some role ∉ openableRoles)
    (h : t.Keeps p) (hc : p.childAs role = some c) : t.Keeps c := by
  refine (stays_of_childAs h hc).cases.resolve_right ?_
  rintro ⟨hct, hopened⟩
  have hpart : c.label.role = some role := by simpa using List.find?_some hc
  exact hrole (hpart ▸ (t.opened c hct hopened).1.role)

theorem Keeps.childAs (h : t.Keeps p) (role : Role) :
    (t.place p).childAs role = (p.childAs role).map t.place := by
  rw [Place.childAs, Place.childAs, ← List.head?_filter, ← List.head?_filter, h.children,
    List.filter_map, List.head?_map, staying, List.filter_filter]
  congr 2
  refine List.filter_congr fun c hc => ?_
  have hrole := t.role_eq p h.mem h.fate c hc
  split_ifs at hrole with hfate
  · simp [hfate, hrole]
  · simp [hfate, hrole]

theorem stays_of_mem_parts {c : Place} (hp : p ∈ source.tree.places) (hc : c ∈ p.parts) : t.Stays c := by
  obtain ⟨hchild, hkind, hnamed⟩ := mem_parts_iff.mp hc
  have hct := mem_places_of_mem_children hp hchild
  exact ⟨hct, fun hfate => hkind ((t.trivia c hct hfate).noPart hnamed)⟩

theorem Keeps.parts (h : t.Keeps p) : (t.place p).parts = p.parts.map t.place := by
  rw [parts_eq_filter, parts_eq_filter, h.children, List.filter_map, staying, List.filter_filter]
  congr 1
  refine List.filter_congr fun c hc => ?_
  have hct := mem_places_of_mem_children h.mem hc
  cases hfate : t.fate c with
  | kept =>
    have hkeeps : t.Keeps c := ⟨hct, hfate⟩
    simp [hkeeps.kind, hkeeps.isNamed]
  | opened =>
    obtain ⟨hkind, hnamed⟩ := kind_place_of_opened hct hfate
    have hcomment : ∀ k ∈ openableKinds, k ≠ Kind.comment := by decide
    have hparentheses : Kind.parenthesized ≠ Kind.comment := by decide
    simp [hcomment _ hkind, hnamed, kind_of_opened hct hfate, hparentheses,
      (t.opened c hct hfate).1.isNamed]
  | dropped =>
    have hpart := (t.trivia c hct hfate).noPart
    by_cases hnamed : c.label.isNamed <;> simp [hnamed, hpart]

theorem keeps_of_unwrap {q : Place} (h : t.Stays p) (hq : p.unwrap = some q) : t.Keeps q := by
  induction hq using unwrap_induction with
  | self p _ hkind =>
    exact h.cases.resolve_right fun ⟨hp, hopened⟩ => hkind (kind_of_opened hp hopened)
  | inside p c q _ _ _ hpart ih => exact ih (stays_of_mem_parts h.mem hpart)

/-- The expression inside parentheses stays the same, whether they are opened or not. -/
theorem unwrap_place (h : t.Stays p) : (t.place p).unwrap = p.unwrap.map t.place := by
  induction p using children_induction with
  | step p ih =>
    have hinner : ∀ c, p.parts.head? = some c → (t.place c).unwrap = c.unwrap.map t.place := by
      intro c hc
      have hpart := List.mem_of_mem_head? hc
      exact ih c (mem_children_of_mem_parts hpart) (stays_of_mem_parts h.mem hpart)
    rcases h.cases with hkept | ⟨hp, hopened⟩
    · rw [unwrap_eq, unwrap_eq p, hkept.kind, hkept.parts, List.head?_map]
      split_ifs
      · cases hhead : p.parts.head? with
        | none => rfl
        | some c => simpa using hinner c hhead
      · rfl
    · obtain ⟨e, hparts, _, hplace, _⟩ := exists_staying hp hopened
      rw [unwrap_eq p, if_pos (kind_of_opened hp hopened), hparts, ← hplace]
      exact hinner e (by rw [hparts]; rfl)

theorem bind_unwrap {found : Option Place} (h : ∀ c, found = some c → t.Stays c) :
    (found.map t.place).bind unwrap = (found.bind unwrap).map t.place := by
  cases found with
  | none => rfl
  | some c => simpa using unwrap_place (h c rfl)

theorem keeps_of_bind_unwrap {found : Option Place} (h : ∀ c, found = some c → t.Stays c)
    {q : Place} (hq : found.bind unwrap = some q) : t.Keeps q := by
  obtain ⟨c, hc, hq⟩ := Option.bind_eq_some_iff.mp hq
  exact keeps_of_unwrap (h c hc) hq

end Down

section Expressions

variable (h : t.Keeps p)

include h

theorem Keeps.isCall : (t.place p).isCall = p.isCall := by
  rw [Place.isCall, Place.isCall, h.kind]

theorem Keeps.isMember : (t.place p).isMember = p.isMember := by
  rw [Place.isMember, Place.isMember, h.kind]

theorem Keeps.isAwait : (t.place p).isAwait = p.isAwait := by
  rw [Place.isAwait, Place.isAwait, h.kind]

theorem Keeps.isArrow : (t.place p).isArrow = p.isArrow := by
  rw [Place.isArrow, Place.isArrow, h.kind]

theorem Keeps.isDeclarator : (t.place p).isDeclarator = p.isDeclarator := by
  rw [Place.isDeclarator, Place.isDeclarator, h.kind]

theorem Keeps.callee? : (t.place p).callee? = p.callee?.map t.place := by
  rw [Place.callee?, Place.callee?, h.isCall, h.childAs]
  cases p.isCall with
  | false => rfl
  | true => exact bind_unwrap fun c hc => stays_of_childAs h hc

theorem keeps_of_callee? {callee : Place} (hcallee : p.callee? = some callee) : t.Keeps callee := by
  unfold Place.callee? at hcallee
  split_ifs at hcallee
  exact keeps_of_bind_unwrap (fun c hc => stays_of_childAs h hc) hcallee

theorem Keeps.object? : (t.place p).object? = p.object?.map t.place := by
  rw [Place.object?, Place.object?, h.isMember, h.childAs]
  cases p.isMember with
  | false => rfl
  | true => exact bind_unwrap fun c hc => stays_of_childAs h hc

theorem keeps_of_object? {object : Place} (hobject : p.object? = some object) : t.Keeps object := by
  unfold Place.object? at hobject
  split_ifs at hobject
  exact keeps_of_bind_unwrap (fun c hc => stays_of_childAs h hc) hobject

theorem Keeps.property? : (t.place p).property? = p.property?.map t.place := by
  rw [Place.property?, Place.property?, h.isMember, h.childAs]
  cases p.isMember <;> rfl

theorem keeps_of_property? {property : Place} (hproperty : p.property? = some property) :
    t.Keeps property := by
  unfold Place.property? at hproperty
  split_ifs at hproperty
  exact keeps_of_childAs (by decide) h hproperty

theorem Keeps.body? : (t.place p).body? = p.body?.map t.place := by
  rw [Place.body?, Place.body?, h.isArrow, h.childAs]
  cases p.isArrow <;> rfl

theorem stays_of_body? {body : Place} (hbody : p.body? = some body) : t.Stays body := by
  unfold Place.body? at hbody
  split_ifs at hbody
  exact stays_of_childAs h hbody

theorem Keeps.callArguments : (t.place p).callArguments = p.callArguments.map t.place := by
  rw [Place.callArguments, Place.callArguments, h.isCall, h.childAs]
  cases p.isCall with
  | false => rfl
  | true =>
    cases hlist : p.childAs .arguments with
    | none => rfl
    | some list =>
      have hkept : t.Keeps list := keeps_of_childAs (by decide) h hlist
      simp only [if_true, Option.map_some, hkept.kind, hkept.parts]
      by_cases hk : list.kind = Kind.arguments <;> simp [hk]

theorem stays_of_mem_callArguments {c : Place} (hc : c ∈ p.callArguments) : t.Stays c := by
  unfold Place.callArguments at hc
  split_ifs at hc
  · cases hlist : p.childAs .arguments with
    | none => simp [hlist] at hc
    | some list =>
      simp only [hlist] at hc
      split_ifs at hc
      · exact stays_of_mem_parts (keeps_of_childAs (by decide) h hlist).mem hc
      · cases hc
  · cases hc

theorem Keeps.isEmpty_parameters : (t.place p).parameters.isEmpty = p.parameters.isEmpty := by
  rw [Place.parameters, Place.parameters, h.isArrow, h.childAs, h.childAs]
  cases p.isArrow with
  | false => rfl
  | true =>
    cases p.childAs .parameter with
    | some single => rfl
    | none =>
      cases hlist : p.childAs .parameters with
      | none => rfl
      | some list =>
        have hkept : t.Keeps list := keeps_of_childAs (by decide) h hlist
        simp only [if_true, Option.map_none, Option.map_some, hkept.parts, List.isEmpty_map]

end Expressions

theorem callee?_eq_none (hp : p ∈ source.tree.places) (h : t.fate p ≠ .kept) : p.callee? = none := by
  rw [callee?]
  cases hfate : t.fate p with
  | kept => exact absurd hfate h
  | opened =>
    rw [isCall, kind_of_opened hp hfate]
    rfl
  | dropped =>
    rw [childAs, (t.trivia p hp hfate).leaf]
    simp

theorem keeps_of_isSome_callee? (hp : p ∈ source.tree.places) (h : p.callee?.isSome) : t.Keeps p := by
  refine ⟨hp, by_contra fun hfate => ?_⟩
  rw [callee?_eq_none hp hfate] at h
  cases h

section Names

variable (h : t.Keeps p)

include h

theorem Keeps.textOf : source'.textOf (t.place p) = source.textOf p := by
  rw [Source.textOf, Source.textOf, h.start, h.stop, t.text_eq]

theorem Keeps.nameOf? : source'.nameOf? (t.place p) = source.nameOf? p := by
  rw [Source.nameOf?, Source.nameOf?, isIdentifier, isIdentifier, h.kind, h.textOf]

theorem Keeps.propertyName? : source'.propertyName? (t.place p) = source.propertyName? p := by
  rw [Source.propertyName?, Source.propertyName?, h.property?]
  cases hproperty : p.property? with
  | none => rw [Option.map_none, Option.bind_none, Option.bind_none]
  | some property =>
    rw [Option.map_some, Option.bind_some, Option.bind_some, (keeps_of_property? h hproperty).nameOf?]

theorem Keeps.calledName :
    (t.place p).callee?.bind source'.nameOf? = p.callee?.bind source.nameOf? := by
  rw [h.callee?]
  cases hc : p.callee? with
  | none => rw [Option.map_none, Option.bind_none, Option.bind_none]
  | some callee =>
    rw [Option.map_some, Option.bind_some, Option.bind_some, (keeps_of_callee? h hc).nameOf?]

end Names

end Trimming

end QueryLint.Code
