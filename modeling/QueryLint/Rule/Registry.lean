import QueryLint.Data.Shown
import QueryLint.Rule.AwaitQuery
import QueryLint.Rule.PreferFind
import QueryLint.Text.Order

/-!
# The registry of rules

Rules are listed by id in three buckets: public, experimental and deprecated. A registry is
consistent if each list of ids is in order and without repetition, each id is made of small
letters in groups joined by hyphens, no id is in two buckets, and both the list of all ids and the
implemented rules are what the buckets hold together.
-/
namespace QueryLint.Rule

open QueryLint.Data QueryLint.Text

/-- The rules that are implemented. -/
def registered : List Rule := [AwaitQuery.rule, PreferFind.rule]

def ofId? (id : String) : Option Rule := registered.find? (·.info.id = id)

def unknown (id : String) : String := "unknown rule: " ++ Text.quoted id

/-- The lists of ids of a registry. -/
structure Registry where
  publicIds : List String
  experimentalIds : List String
  deprecatedIds : List String
  allIds : List String
  /-- The ids of the implemented rules. -/
  implementedIds : List String

namespace Registry

/-- The registry of the rules that are implemented, all of them public. -/
def current : Registry where
  publicIds := sortTexts (registered.map (·.info.id))
  experimentalIds := []
  deprecatedIds := []
  allIds := sortedSet (registered.map (·.info.id))
  implementedIds := registered.map (·.info.id)

/-- Why a registry is not consistent. -/
inductive Fault where
  | unsorted (bucket : String)
  | repeated (bucket : String)
  | malformed (bucket : String) (ids : List String)
  | overlapping (ids : List String)
  | notUnion
  | notImplemented (ids : List String)
  deriving DecidableEq, Repr

def Fault.message : Fault → String
  | .unsorted bucket => bucket ++ " must be sorted"
  | .repeated bucket => bucket ++ " must contain unique IDs"
  | .malformed bucket ids => s!"{bucket} contains invalid rule IDs: {(Value.texts ids).quoted}"
  | .overlapping ids =>
    s!"Rule ID buckets must be disjoint; overlaps: {(Value.texts ids).quoted}"
  | .notUnion => "ALL_RULE_IDS must equal union(PUBLIC, EXPERIMENTAL, DEPRECATED)"
  | .notImplemented ids => s!"RULES and rule buckets disagree: {(Value.texts ids).quoted}"

def isSmallLetter (c : Char) : Bool := 'a' ≤ c && c ≤ 'z'

/-- Whether an id is made of small letters in groups joined by hyphens. One line feed at its end
is overlooked. -/
def isWellFormed (id : String) : Bool :=
  let cs := id.toList
  let body := if cs.getLast? = some '\n' then cs.dropLast else cs
  (pieceChars '-' body).all fun group => !group.isEmpty && group.all isSmallLetter

def checkBucket (name : String) (ids : List String) : Except Fault Unit :=
  if ids ≠ sortTexts ids then .error (.unsorted name)
  else if ids.eraseDups.length ≠ ids.length then .error (.repeated name)
  else match ids.filter (!isWellFormed ·) with
    | [] => .ok ()
    | bad => .error (.malformed name bad)

/-- The ids that the buckets hold together. -/
def union (r : Registry) : List String := r.publicIds ++ r.experimentalIds ++ r.deprecatedIds

/-- The ids that are in two buckets. -/
def overlaps (r : Registry) : List String :=
  r.publicIds.filter (fun id => r.experimentalIds.contains id || r.deprecatedIds.contains id) ++
    r.experimentalIds.filter r.deprecatedIds.contains

def sameIds (a b : List String) : Bool := a.all b.contains && b.all a.contains

def check (r : Registry) : Except Fault Unit := do
  checkBucket "PUBLIC_RULE_IDS" r.publicIds
  checkBucket "EXPERIMENTAL_RULE_IDS" r.experimentalIds
  checkBucket "DEPRECATED_RULE_IDS" r.deprecatedIds
  checkBucket "ALL_RULE_IDS" r.allIds
  if !r.overlaps.isEmpty then throw (.overlapping (sortedSet r.overlaps))
  if !sameIds r.allIds r.union then throw .notUnion
  if !sameIds r.implementedIds r.union then
    throw (.notImplemented (sortedSet
      (r.implementedIds.filter (!r.union.contains ·) ++
        r.union.filter (!r.implementedIds.contains ·))))

end Registry

/-- The descriptions of all rules, in the order of their ids. -/
def infos : List Info := Registry.current.allIds.filterMap fun id => (ofId? id).map (·.info)

end QueryLint.Rule
