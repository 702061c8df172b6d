import QueryLint.Proofs.Rule.AwaitQuery

/-!
# Brackets in brackets

However many calls may stand inside each other, there is a text without errors that needs more of them:
a parameter in so many brackets, in a function for which the uses of a variable are searched.
-/
namespace QueryLint.Rule.AwaitQuery

open QueryLint.Binding QueryLint.Code QueryLint.Code.Place QueryLint.Query QueryLint.Text

/-- The end of `bracketText n`, which begins with `const a = findByText`. -/
def bracketRest (n : Nat) : String :=
  "('x'); function f(" ++ String.ofList (List.replicate n '[') ++ "p" ++
    String.ofList (List.replicate n ']') ++ ") \x7b\x7d"

/-- `const a = findByText('x'); function f([[…[p]…]]) {}`, with `n` brackets around `p`. -/
def bracketText (n : Nat) : String := "const a = " ++ "findByText" ++ bracketRest n

/-- A name in `n` brackets. -/
def brackets (start : Nat) : Nat → Node
  | 0 => .named "identifier" start (start + 1) none []
  | n + 1 =>
    .named "array_pattern" start (start + 2 * n + 3) none [
      .token "[" start (start + 1), brackets (start + 1) n,
      .token "]" (start + 2 * n + 2) (start + 2 * n + 3)]

/-- The parameters in `bracketText n`. -/
def bracketParameters (n : Nat) : Node :=
  .named "formal_parameters" 37 (40 + 2 * n) (some .parameters) [
    .token "(" 37 38, brackets 38 n, .token ")" (39 + 2 * n) (40 + 2 * n)]

/-- The function in `bracketText n`. -/
def bracketFunction (n : Nat) : Node :=
  .named "function_declaration" 27 (43 + 2 * n) none [
    .token "function" 27 35, .named "identifier" 36 37 (some .name) [], bracketParameters n,
    .named "statement_block" (41 + 2 * n) (43 + 2 * n) (some .body) [
      .token "\x7b" (41 + 2 * n) (42 + 2 * n), .token "\x7d" (42 + 2 * n) (43 + 2 * n)]]

/-- The call in `bracketText n`. -/
def bracketCall : Node :=
  .named "call_expression" 10 25 (some .value) [
    .named "identifier" 10 20 (some .function) [],
    .named "arguments" 20 25 (some .arguments) [
      .token "(" 20 21,
      .named "string" 21 24 none [
        .token "'" 21 22, .named "string_fragment" 22 23 none [], .token "'" 23 24],
      .token ")" 24 25]]

/-- The declarator in `bracketText n`. -/
def bracketDeclarator : Node :=
  .named "variable_declarator" 6 25 none [
    .named "identifier" 6 7 (some .name) [], .token "=" 8 9, bracketCall]

/-- The declaration in `bracketText n`. -/
def bracketDeclaration : Node :=
  .named "lexical_declaration" 0 26 none [
    .token "const" 0 5 (some .kind), bracketDeclarator, .token ";" 25 26]

def bracketTree (n : Nat) : Node :=
  .named "program" 0 (43 + 2 * n) none [bracketDeclaration, bracketFunction n]

/-- The source with `n` brackets. -/
def bracketSource (path : String) (n : Nat) : Source := ⟨path, bracketText n, .javascript, bracketTree n⟩

section Nesting

variable {n j : Nat}

/-- Of the calls for a name in `n` brackets, there are `n + 1` inside each other. -/
theorem nests_brackets (h : j ≤ n) (parent : Place) (i start : Nat) :
    Nests (some (.child parent i (brackets start n))) (j + 1) := by
  induction n generalizing j parent i start with
  | zero =>
    cases Nat.le_zero.mp h
    exact .call _
  | succ n ih =>
    cases j with
    | zero => exact .call _
    | succ j =>
      have hparts : (Place.child parent i (brackets start (n + 1))).parts =
          [.child (.child parent i (brackets start (n + 1))) 1 (brackets (start + 1) n)] := by
        rw [parts_eq_filter]
        cases n <;> rfl
      refine .part rfl (hparts ▸ List.mem_singleton_self _) ?_
      exact ih (Nat.le_of_succ_le_succ h) _ _ _

end Nesting

variable (path : String) (n : Nat)

/-- The place of the function. -/
def bracketScope : Place := .child (.root (bracketTree n)) 1 (bracketFunction n)

/-- The place of the declarator. -/
def bracketKept : Place :=
  .child (.child (.root (bracketTree n)) 0 bracketDeclaration) 1 bracketDeclarator

/-- The query. -/
def bracketQuery : CallSite :=
  let call : Place := .child (bracketKept n) 2 bracketCall
  let name : Place := .child call 0 (.named "identifier" 10 20 (some .function) [])
  ⟨name, name, call⟩

theorem nameOf?_bracketQuery :
    (bracketSource path n).nameOf? (bracketQuery n).identifier = some "findByText" := by
  have hbytes : slice (utf8 (bracketText n)) 10 20 = utf8 "findByText" := by
    have hbefore : (utf8 "const a = ").length = 10 := by decide +kernel
    have hupTo : (utf8 ("const a = " ++ "findByText")).length = 20 := by decide +kernel
    rw [slice, bracketText, utf8_append, List.take_left' hupTo, utf8_append, List.drop_left' hbefore]
  have htext : (bracketSource path n).textOf (bracketQuery n).identifier = "findByText" := by
    rw [Source.textOf_eq]
    exact (congrArg decodeLossy hbytes).trans (decodeLossy_utf8 _)
  rw [Source.nameOf?, htext]
  rfl

theorem callSite?_bracketQuery :
    callSite? (bracketSource path n) (bracketQuery n).call = some (bracketQuery n) := by
  refine callSite?_eq_some_iff.mpr ⟨rfl, rfl, .inl ⟨rfl, rfl⟩, _, nameOf?_bracketQuery path n, ?_⟩
  decide +kernel

/-- The query is kept in a variable, and nothing else is done with it. -/
theorem mem_suspects_bracketSource : bracketQuery n ∈ suspects (bracketSource path n) := by
  have hcall : (bracketQuery n).call ∈ (bracketSource path n).tree.places :=
    mem_places_of_mem_children
      (mem_places_of_mem_children
        (mem_places_of_mem_children (mem_preorder_self _) List.mem_cons_self)
        (List.mem_cons_of_mem _ List.mem_cons_self))
      (List.mem_cons_of_mem _ (List.mem_cons_of_mem _ List.mem_cons_self))
  refine List.mem_flatMap.mpr ⟨_, hcall, mem_suspectsAt_iff.mpr ⟨callSite?_bracketQuery path n, ?_⟩⟩
  refine (isSuspect_iff (callSite?_bracketQuery path n)).mpr ⟨?_, ?_⟩
  · rintro owner ⟨⟩
    exact ⟨(by decide : ("variable_declarator" : Kind) ∉ handlingKinds), nofun⟩
  · rintro assertion member name hfound
    -- what is called is no assertion, and around it there is no other call
    have howners : (bracketQuery n).call.owners =
        [bracketKept n, .child (.root (bracketTree n)) 0 bracketDeclaration, .root (bracketTree n)] :=
      rfl
    have hcall : isAssertion (bracketSource path n) (bracketQuery n).call = false := by
      have hcallee : (bracketQuery n).call.callee? = some (bracketQuery n).identifier := rfl
      have hname : (some "findByText" == some expectName) = false := by decide
      rw [isAssertion, hcallee, Option.bind_some, nameOf?_bracketQuery, hname, Bool.false_and]
    rw [howners, List.find?_cons, hcall] at hfound
    cases hfound

/-- The rule gives up on the source if there are more brackets than there is room. -/
theorem givesUp_bracketSource {limits : Limits} {d : Nat} (hdepth : limits.depth = some d)
    (hd : d ≤ n) : GivesUp limits (bracketSource path n) := by
  have hparameters : some (.child (bracketScope n) 2 (bracketParameters n)) ∈
      scopePatterns (bracketScope n) := List.mem_cons_self
  refine ⟨_, mem_suspects_bracketSource path n, bracketKept n, _, rfl,
    @TakesApart.between _ _ (.root (bracketTree n)) _ _ _ rfl rfl (List.mem_singleton_self _)
      ⟨?_, ?_, ?_⟩ hparameters, d, hdepth, ?_⟩
  · exact ⟨bracketScope n, List.mem_cons_of_mem _ List.mem_cons_self, .here _⟩
  · rfl
  · rintro hkey
    obtain ⟨a, ha, heq⟩ := List.mem_map.mp hkey
    have hancestors : (bracketKept n).ancestors =
        [.child (.root (bracketTree n)) 0 bracketDeclaration, .root (bracketTree n)] := rfl
    have hstart : a.start = 27 := congrArg ScopeKey.start heq
    rw [hancestors] at ha
    rcases List.mem_cons.mp ha with rfl | ha
    · cases hstart
    · cases List.mem_singleton.mp ha
      cases hstart
  · cases d with
    | zero => exact .call _
    | succ d =>
      have hparts : (Place.child (bracketScope n) 2 (bracketParameters n)).parts =
          [.child (.child (bracketScope n) 2 (bracketParameters n)) 1 (brackets 38 n)] := by
        rw [parts_eq_filter]
        cases n <;> rfl
      exact .part rfl (hparts ▸ List.mem_singleton_self _)
        (nests_brackets (Nat.le_of_succ_le hd) _ _ _)

end QueryLint.Rule.AwaitQuery
