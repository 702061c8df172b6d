import QueryLint.Data.Binary64

/-!
# Plain data

The values that configurations, requests and results are made of: null, truth values, integers of
any size, floating-point numbers, texts, lists, and objects. An object keeps its members in the
order in which their keys first came.
-/
namespace QueryLint.Data

/-- A value. -/
inductive Value where
  | null
  | bool (b : Bool)
  | int (n : Int)
  | float (x : Binary64)
  | text (s : String)
  | list (items : List Value)
  | object (members : List (String × Value))
  deriving Inhabited

/-- The members of an object. -/
abbrev Members := List (String × Value)

namespace Members

def get? (members : Members) (key : String) : Option Value := members.lookup key

/-- The members with a value put under a key: in place if the key is there, else at the end. -/
def put (members : Members) (key : String) (value : Value) : Members :=
  match members with
  | [] => [(key, value)]
  | (k, v) :: rest => if k = key then (k, value) :: rest else (k, v) :: put rest key value

theorem get?_cons (k key : String) (value : Value) (rest : Members) :
    get? ((k, value) :: rest) key = if key = k then some value else get? rest key := by
  by_cases h : key = k
  · simp [get?, h]
  · have h' : (key == k) = false := by simp [h]
    simp [get?, List.lookup_cons, h', h]

/-- What is put under a key is found there, and all other keys keep their values. -/
@[simp] theorem get?_put (members : Members) (key k : String) (value : Value) :
    (members.put key value).get? k = if k = key then some value else members.get? k := by
  induction members with
  | nil => rw [put, get?_cons]
  | cons m rest ih =>
    obtain ⟨k', v⟩ := m
    by_cases hk : k' = key
    · subst hk
      by_cases h : k = k' <;> simp [put, get?_cons, h]
    · by_cases h : k = k'
      · subst h
        simp [put, get?_cons, hk]
      · simp [put, get?_cons, hk, h, ih]

/-- Members put one after the other, so that of equal keys the first keeps its place and the last
its value. -/
def ofList (entries : List (String × Value)) : Members :=
  entries.foldl (fun members entry => put members entry.1 entry.2) []

def keys (members : Members) : List String := members.map (·.1)

end Members

namespace Value

def typeName : Value → String
  | null => "NoneType"
  | bool _ => "bool"
  | int _ => "int"
  | float _ => "float"
  | text _ => "str"
  | list _ => "list"
  | object _ => "dict"

/-- Whether a value counts as true: all do but null, false, zero, and what is empty. -/
def isTruthy : Value → Bool
  | null => false
  | bool b => b
  | int n => n != 0
  | float (.finite _ m _) => m != 0
  | float _ => true
  | text s => s != ""
  | list items => !items.isEmpty
  | object members => !members.isEmpty

/-- The member of an object under a key, none for any other value. -/
def get? (v : Value) (key : String) : Option Value :=
  match v with
  | object members => Members.get? members key
  | _ => none

/-- The natural number that a value is, zero for any other value. -/
def asNat : Value → Nat
  | int n => n.toNat
  | _ => 0

/-- The text that a value is, empty for any other value. -/
def asText : Value → String
  | text s => s
  | _ => ""

/-- The items of a list, none for any other value. -/
def asList : Value → List Value
  | list items => items
  | _ => []

def nat (n : Nat) : Value := int n

def texts (items : List String) : Value := list (items.map text)

end Value

end QueryLint.Data
