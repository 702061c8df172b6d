import QueryLint.Code.Walk

/-!
# Searches

A search keeps the places it has yet to look at on a stack, as a walk does, and asks at each of them
whether to leave the place out, to report it, or to put its children on top. What it asks may have
effects of its own, such as a failure, and these come in the order in which it looks at the places.
-/
namespace QueryLint.Code.Place

/-- What a search does at a place. -/
inductive Verdict where
  /-- Leave out the place and all below it. -/
  | skip
  /-- Report the place, and look no further below it. -/
  | take
  /-- Go on with the children. -/
  | below

variable {m : Type → Type} [Monad m]

/-- The places that a search reports, from the places on its stack on. -/
def searchOn (verdict : Place → m Verdict) (stack : List Place) : m (List Place) :=
  match stack with
  | [] => pure []
  | p :: rest => do
    match ← verdict p with
    | .skip => searchOn verdict rest
    | .take => return p :: (← searchOn verdict rest)
    | .below => searchOn verdict (push rest p.children.reverse)
  termination_by sizeOfAll stack
  decreasing_by
    · exact sizeOfAll_lt_cons p rest
    · exact sizeOfAll_lt_cons p rest
    · rw [sizeOfAll_children, push_reverse]
      exact Nat.lt_succ_self _

end QueryLint.Code.Place
