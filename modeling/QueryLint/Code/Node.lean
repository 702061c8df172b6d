/-!
# Syntax trees

The tree that a grammar gives for a source text. A node has a kind, the range of bytes it covers,
and its children in source order; a child may play a named role for its parent. Punctuation and
keywords are nodes too, and are told from named nodes by a flag. Two more flags tell whether the
grammar had to recover from an error at or below the node, and whether it made the node up.
-/
namespace QueryLint.Code

/-- The parts a child can play for its parent. -/
inductive Role where
  | argument
  | arguments
  | body
  | function
  | initializer
  | kind
  | left
  | name
  | object
  | parameter
  | parameters
  | pattern
  | property
  | value
  deriving DecidableEq, Repr

/-- The kind of a node, as the grammar names it. The kinds that rules ask for are listed below. -/
abbrev Kind := String

namespace Kind

def program : Kind := "program"
def callExpression : Kind := "call_expression"
def memberExpression : Kind := "member_expression"
def awaitExpression : Kind := "await_expression"
def arrowFunction : Kind := "arrow_function"
def returnStatement : Kind := "return_statement"
def variableDeclarator : Kind := "variable_declarator"
def lexicalDeclaration : Kind := "lexical_declaration"
def variableDeclaration : Kind := "variable_declaration"
def identifier : Kind := "identifier"
def propertyIdentifier : Kind := "property_identifier"
def shorthandProperty : Kind := "shorthand_property_identifier"
def parenthesized : Kind := "parenthesized_expression"
def arguments : Kind := "arguments"
def formalParameters : Kind := "formal_parameters"
def statementBlock : Kind := "statement_block"
def comment : Kind := "comment"
def error : Kind := "ERROR"

end Kind

/-- What a node is, apart from its children. -/
structure Label where
  /-- The kind of the node. For a token that is no named node, its text. -/
  kind : Kind
  /-- The offset of its first byte. -/
  start : Nat
  /-- The offset after its last byte. -/
  stop : Nat
  /-- Whether it is a named node, not mere punctuation or a keyword. -/
  isNamed : Bool
  /-- Whether it is or contains an error or a missing node. -/
  hasError : Bool
  /-- Whether the grammar put it in where the source has nothing. -/
  isMissing : Bool
  /-- The part it plays for its parent. -/
  role : Option Role
  deriving DecidableEq, Repr

/-- A node with its children in source order. -/
inductive Node where
  | mk (label : Label) (children : List Node)

namespace Node

def label : Node → Label
  | mk l _ => l

def children : Node → List Node
  | mk _ cs => cs

def kind (n : Node) : Kind := n.label.kind

mutual

def size : Node → Nat
  | mk _ cs => 1 + totalSize cs

/-- The number of nodes of some trees together. -/
def totalSize : List Node → Nat
  | [] => 0
  | n :: ns => size n + totalSize ns

end

theorem totalSize_append (ms ns : List Node) :
    totalSize (ms ++ ns) = totalSize ms + totalSize ns := by
  induction ms with
  | nil => exact (Nat.zero_add _).symm
  | cons m ms ih => rw [List.cons_append, totalSize, totalSize, ih, Nat.add_assoc]

theorem size_le_totalSize {n : Node} {ns : List Node} (h : n ∈ ns) : n.size ≤ totalSize ns := by
  induction ns with
  | nil => cases h
  | cons m ms ih =>
    cases h with
    | head => exact Nat.le_add_right _ _
    | tail _ h => exact Nat.le_trans (ih h) (Nat.le_add_left _ _)

/-- A child is smaller than its parent. -/
theorem size_lt_of_mem_children {n c : Node} (h : c ∈ n.children) : c.size < n.size := by
  cases n with
  | mk l cs =>
    have : c.size ≤ totalSize cs := size_le_totalSize h
    simp only [size]
    omega

end Node

end QueryLint.Code
