import QueryLint.Data.Quantity
import QueryLint.Data.Shown
import QueryLint.Files.FilePath

/-!
# Artifacts

Artifacts are what programs hold when they come to write data out: besides plain values there are
paths, members of enumerations, records, sets, tuples, and maps with keys of any sort. Each has a
plain form. A path gives its text, an enumeration's member its value, a record an object, a tuple a
list, a set the sorted list of its elements, and a map an object whose keys are the texts of the
plain keys. Anything else gives the text that describes it.

A map holds each key once, and a set each element once: of equal keys the first stays, with the
last value.
-/
namespace QueryLint.Data

open QueryLint.Files

/-- Something to be written out. -/
inductive Artifact where
  | null
  | bool (b : Bool)
  | int (n : Int)
  | float (x : Binary64)
  | text (s : String)
  | path (p : FilePath)
  /-- A member of an enumeration. Two members are never equal. -/
  | choice (value : Artifact)
  /-- A member of an enumeration of texts, which is equal to its text. -/
  | textChoice (s : String)
  | record (fields : List (String × Artifact))
  /-- Anything else, given by the text that describes it. -/
  | described (s : String)
  | list (items : List Artifact)
  | tuple (items : List Artifact)
  | set (items : List Artifact)
  | map (entries : List (Artifact × Artifact))

/-- Two values that cannot be put in order. -/
structure Incomparable where
  left : String
  right : String
  deriving DecidableEq, Repr

/-- The wording for two values that cannot be put in order. -/
def Incomparable.message (e : Incomparable) : String :=
  s!"'<' not supported between instances of '{e.left}' and '{e.right}'"

namespace Value

mutual

/-- Whether two values are equal, numbers by what they amount to. -/
def same : Value → Value → Bool
  | null, null => true
  | text s, text t => s == t
  | list vs, list ws => sameItems vs ws
  | object ms, object ns => ms.length == ns.length && sameMembers ms ns
  | v, w =>
    match v.quantity?, w.quantity? with
    | some x, some y => x.same y
    | _, _ => false

/-- Whether two lists of values are equal item by item. -/
def sameItems : List Value → List Value → Bool
  | [], [] => true
  | v :: vs, w :: ws => same v w && sameItems vs ws
  | _, _ => false

/-- Whether some members are all among others, with equal values. -/
def sameMembers : List (String × Value) → List (String × Value) → Bool
  | [], _ => true
  | (k, v) :: rest, others =>
    (match Members.get? others k with
      | some w => same v w
      | Option.none => false) && sameMembers rest others

end

mutual

/-- Whether one value comes before another: numbers by what they amount to, texts by their code
points, lists by the first items that differ. -/
def lt : Value → Value → Except Incomparable Bool
  | text s, text t => .ok (s < t)
  | list vs, list ws => ltItems vs ws
  | v, w =>
    match v.quantity?, w.quantity? with
    | some x, some y => .ok (x.lt y)
    | _, _ => .error ⟨v.typeName, w.typeName⟩

def ltItems : List Value → List Value → Except Incomparable Bool
  | [], ws => .ok !ws.isEmpty
  | _ :: _, [] => .ok false
  | v :: vs, w :: ws => if same v w then ltItems vs ws else lt v w

end

/-- Puts a value into a sorted list, behind those that are equal. -/
def insertSorted (v : Value) : List Value → Except Incomparable (List Value)
  | [] => .ok [v]
  | w :: ws => do
    if ← lt v w then return v :: w :: ws
    return w :: (← insertSorted v ws)

/-- Values in order, equal ones in the order in which they were. This says what sorting gives wherever the
values are ordered. What is not a number comes neither before nor behind anything, so that with it among
the values the outcome is that of putting in one value after the other, and other ways of sorting may come
to another order. -/
def sort (vs : List Value) : Except Incomparable (List Value) :=
  vs.foldlM (fun sorted v => insertSorted v sorted) []

end Value

namespace Artifact

/-- What an artifact amounts to, if it is a truth value or a number. -/
def quantity? : Artifact → Option Quantity
  | bool b => (Value.bool b).quantity?
  | int n => (Value.int n).quantity?
  | float x => (Value.float x).quantity?
  | _ => none

/-- The text that an artifact is equal to, if there is one. -/
def asText? : Artifact → Option String
  | text s => some s
  | textChoice s => some s
  | _ => none

mutual

/-- Whether two artifacts are equal as keys and elements. -/
def same : Artifact → Artifact → Bool
  | null, null => true
  | path p, path q => p == q
  | tuple xs, tuple ys => sameItems xs ys
  | record fs, record gs => sameFields fs gs
  | x, y =>
    match x.asText?, y.asText?, x.quantity?, y.quantity? with
    | some s, some t, _, _ => s == t
    | _, _, some p, some q => p.same q
    | _, _, _, _ => false

/-- Whether two lists of artifacts are equal item by item. -/
def sameItems : List Artifact → List Artifact → Bool
  | [], [] => true
  | x :: xs, y :: ys => same x y && sameItems xs ys
  | _, _ => false

def sameFields : List (String × Artifact) → List (String × Artifact) → Bool
  | [], [] => true
  | (k, x) :: fs, (l, y) :: gs => k == l && same x y && sameFields fs gs
  | _, _ => false

end

/-- What equals a text is compared by the text. -/
theorem same_of_asText? {x y : Artifact} {s t : String} (hx : x.asText? = some s)
    (hy : y.asText? = some t) : same x y = (s == t) := by
  cases x <;> cases y <;> simp_all [asText?, same]

/-- Whether an artifact is equal to one of some others. -/
def isAmong (x : Artifact) (xs : List Artifact) : Bool := xs.any (same x)

/-- For each of some keyed values, whether its key has come up before it. -/
def keepFirst {α : Type} (key : α → Artifact) : List Artifact → List α → List α
  | _, [] => []
  | seen, x :: xs =>
    if isAmong (key x) seen then keepFirst key seen xs
    else x :: keepFirst key (key x :: seen) xs

/-- The entries of a map. Of those with equal keys the first key stays, with the last value. -/
def mergeEntries {α : Type} (entries : List (Artifact × α)) : List (Artifact × α) :=
  (keepFirst (·.1) [] entries).map fun entry =>
    (entry.1, ((entries.reverse.find? fun e => same entry.1 e.1).map (·.2)).getD entry.2)

mutual

def plain : Artifact → Except Incomparable Value
  | null => .ok .null
  | bool b => .ok (.bool b)
  | int n => .ok (.int n)
  | float x => .ok (.float x)
  | text s => .ok (.text s)
  | path p => .ok (.text p.toString)
  | choice x => plain x
  | textChoice s => .ok (.text s)
  | record fields => do return .object (Members.ofList (← plainFields fields))
  | described s => .ok (.text s)
  | list items => do return .list (← plainItems items)
  | tuple items => do return .list (← plainItems items)
  | set items => do
    let plainOnes ← plainItems items
    let kept := keepFirst (·.1) [] (items.zip plainOnes)
    return .list (← Value.sort (kept.map (·.2)))
  | map entries => do
    let plainOnes ← plainEntries entries
    let kept := mergeEntries ((entries.map (·.1)).zip plainOnes)
    return .object (Members.ofList (kept.map fun entry => (entry.2.1.shown, entry.2.2)))

def plainItems : List Artifact → Except Incomparable (List Value)
  | [] => .ok []
  | x :: xs => do return (← plain x) :: (← plainItems xs)

def plainFields : List (String × Artifact) → Except Incomparable (List (String × Value))
  | [] => .ok []
  | (k, x) :: fs => do return (k, ← plain x) :: (← plainFields fs)

/-- The plain forms of the keys and values of a map. -/
def plainEntries : List (Artifact × Artifact) → Except Incomparable (List (Value × Value))
  | [] => .ok []
  | (k, x) :: es => do return (← plain k, ← plain x) :: (← plainEntries es)

end

/-- What equals a text amounts to the text. -/
theorem plain_of_asText? {x : Artifact} {s : String} (h : x.asText? = some s) :
    plain x = .ok (.text s) := by
  cases x <;> simp_all [asText?, plain]

end Artifact

end QueryLint.Data
