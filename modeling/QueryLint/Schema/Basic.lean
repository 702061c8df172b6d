import QueryLint.Data.Quantity
import QueryLint.Data.Shown
import QueryLint.Text.Order

/-!
# Schemas

A schema is a list of demands on a value. `violations` lists all demands that a value breaks, in
the order in which the schema makes them, and `check` picks the one to report: the least deep; of
several at one depth the one whose path comes last; and of several at one path one that is about
the type of the value, if there is one.

The demands are the keywords of JSON Schema (draft 2020-12) that the schemas here are made of, as the
standard describes them: a keyword for values of one type has nothing to say of the others, a truth value is
no integer, and a number without a fractional part is one. Which violation is reported, and in which words,
is what is documented of the validator in use: the best match among all errors, by depth, by path and by
type. Both are taken over from there, and are not derived from anything in this library.
-/
namespace QueryLint.Schema

open QueryLint.Data QueryLint.Text

/-- The types of values that a schema tells apart. -/
inductive ValueType where
  | object
  | array
  | string
  | integer
  deriving DecidableEq, Repr

namespace ValueType

def name : ValueType → String
  | object => "object"
  | array => "array"
  | string => "string"
  | integer => "integer"

/-- Whether a value is of a type. A floating-point number without a fractional part is an
integer. -/
def holds : ValueType → Value → Bool
  | object, .object _ => true
  | array, .list _ => true
  | string, .text _ => true
  | integer, .int _ => true
  | integer, .float x => x.isInteger
  | _, _ => false

end ValueType

/-- A class of texts, with the text that describes it. -/
structure Pattern where
  shown : String
  accepts : List Char → Bool

/-- A demand on a value. All but the first are made only of values that they make sense for. -/
inductive Demand where
  | type (t : ValueType)
  | const (s : String)
  | oneOf (options : List String)
  | required (keys : List String)
  /-- No members but those with the keys. -/
  | closed (keys : List String)
  /-- Demands on the members under certain keys. -/
  | properties (members : List (String × List Demand))
  /-- Demands on all members. -/
  | members (demands : List Demand)
  /-- Demands on all keys. -/
  | keys (demands : List Demand)
  /-- Demands on all items. -/
  | items (demands : List Demand)
  | nonEmpty
  | minimum (n : Int)
  | pattern (p : Pattern)

/-- A step from a value into a part of it. -/
inductive Step where
  | key (k : String)
  | index (i : Nat)
  deriving DecidableEq, Repr

def Step.lt : Step → Step → Bool
  | key a, key b => a < b
  | index a, index b => a < b
  | index _, key _ => true
  | key _, index _ => false

def pathLt : List Step → List Step → Bool
  | [], [] => false
  | [], _ :: _ => true
  | _ :: _, [] => false
  | a :: as, b :: bs => a.lt b || a == b && pathLt as bs

/-- A demand that is broken somewhere in a value. -/
structure Violation where
  path : List Step
  message : String
  /-- Whether the value there has the type demanded of it. -/
  hasType : Bool

def typeOf? (demands : List Demand) : Option ValueType :=
  demands.findSome? fun d => match d with
    | .type t => some t
    | _ => none

/-- Whether a value has the type that some demands ask for. If they ask for none, it has not. -/
def hasAskedType (demands : List Demand) (v : Value) : Bool :=
  match typeOf? demands with
  | some t => t.holds v
  | none => false

def listedKeys (keys : List String) : String :=
  ", ".intercalate (keys.map fun k => Text.quoted k)

def unexpectedMessage (keys : List String) : String :=
  let verb := if keys.length = 1 then "was" else "were"
  s!"Additional properties are not allowed ({listedKeys (sortTexts keys)} {verb} unexpected)"

/-- The messages of a demand that looks only at the value itself. -/
def plainMessages (d : Demand) (v : Value) : List String :=
  match d with
  | .type t => if t.holds v then [] else [s!"{v.quoted} is not of type {Text.quoted t.name}"]
  | .const s =>
    match v with
    | .text t => if t = s then [] else [s!"{Text.quoted s} was expected"]
    | _ => [s!"{Text.quoted s} was expected"]
  | .oneOf options =>
    let isOption := match v with
      | .text t => options.contains t
      | _ => false
    if isOption then [] else [s!"{v.quoted} is not one of {(Value.texts options).quoted}"]
  | .required keys =>
    match v with
    | .object ms => (keys.filter fun k => (Members.get? ms k).isNone).map fun k =>
        s!"{Text.quoted k} is a required property"
    | _ => []
  | .closed keys =>
    match v with
    | .object ms =>
      match (Members.keys ms).filter fun k => !keys.contains k with
      | [] => []
      | extra => [unexpectedMessage extra]
    | _ => []
  | .nonEmpty =>
    match v with
    | .text "" => [s!"{v.quoted} should be non-empty"]
    | _ => []
  | .minimum n =>
    match v with
    | .bool _ => []
    | _ =>
      match v.quantity? with
      | some x =>
        if x.lt (.ratio n 1) then [s!"{v.quoted} is less than the minimum of {n}"] else []
      | none => []
  | .pattern p =>
    match v with
    | .text t =>
      if p.accepts t.toList then [] else [s!"{v.quoted} does not match {Text.quoted p.shown}"]
    | _ => []
  | _ => []

/-- There is nothing to say of a value of the demanded type. -/
theorem plainMessages_type_eq_nil_iff {t : ValueType} {v : Value} :
    plainMessages (.type t) v = [] ↔ t.holds v := by
  by_cases h : t.holds v <;> simp [plainMessages, h]

mutual

/-- The violations of a demand by a value at a path. `asked` tells whether the value has the type
that is demanded of it. -/
def violationsOf (path : List Step) (v : Value) (asked : Bool) : Demand → List Violation
  | .properties members =>
    match v with
    | .object ms => propertyViolations path ms members
    | _ => []
  | .members demands =>
    match v with
    | .object ms => ms.flatMap fun m =>
        violationsIn (path ++ [.key m.1]) m.2 (hasAskedType demands m.2) demands
    | _ => []
  | .keys demands =>
    match v with
    | .object ms => ms.flatMap fun m =>
        violationsIn path (.text m.1) (hasAskedType demands (.text m.1)) demands
    | _ => []
  | .items demands =>
    match v with
    | .list vs => vs.zipIdx.flatMap fun (item, i) =>
        violationsIn (path ++ [.index i]) item (hasAskedType demands item) demands
    | _ => []
  | d => (plainMessages d v).map (⟨path, ·, asked⟩)

/-- The violations of some demands by a value at a path. -/
def violationsIn (path : List Step) (v : Value) (asked : Bool) : List Demand → List Violation
  | [] => []
  | d :: ds => violationsOf path v asked d ++ violationsIn path v asked ds

/-- The violations of demands on certain members of an object at a path. -/
def propertyViolations (path : List Step) (ms : Members) :
    List (String × List Demand) → List Violation
  | [] => []
  | (k, demands) :: rest =>
    (match Members.get? ms k with
      | some v => violationsIn (path ++ [.key k]) v (hasAskedType demands v) demands
      | none => []) ++ propertyViolations path ms rest

end

def violations (demands : List Demand) (v : Value) : List Violation :=
  violationsIn [] v (hasAskedType demands v) demands

/-- Whether a violation is to be reported rather than another that comes before it. -/
def Violation.outranks (b a : Violation) : Bool :=
  b.path.length < a.path.length ||
    b.path.length == a.path.length &&
      (pathLt a.path b.path || a.path == b.path && a.hasType && !b.hasType)

/-- The violation to report, none if the value is as demanded. -/
def check (demands : List Demand) (v : Value) : Option Violation :=
  (violations demands v).foldl (fun best b =>
    match best with
    | some a => if b.outranks a then some b else some a
    | none => some b) none

end QueryLint.Schema
