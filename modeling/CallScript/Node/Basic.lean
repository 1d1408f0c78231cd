import CallScript.Value.Render

/-!
# Syntax trees

A tree node has a kind, a payload and children. A program's children are its statements. A call's
children are the object, the method and the arguments; a call that names no object starts with the
method. An array's children are its elements.

`Node.text` draws a tree with one line per node, indented by two blanks per level. The payload of a
tree made by hand may be any value, but only data can be drawn.
-/

namespace CallScript

/-- The kinds of nodes. -/
inductive NodeKind where
  | program
  | call
  | core
  | method
  | identifier
  | string
  | number
  | array
deriving DecidableEq

/-- The name by which messages and drawings refer to a kind of node. -/
def NodeKind.name : NodeKind → String
  | program => "PROGRAM"
  | call => "CALL"
  | core => "CORE"
  | method => "METHOD"
  | identifier => "IDENTIFIER"
  | string => "STRING"
  | number => "NUMBER"
  | array => "ARRAY"

/-- A node of a syntax tree. -/
structure Node where
  kind : NodeKind
  value : Value := .null
  children : List Node := []

namespace Node

/-- The line of a node in a drawing, without its indentation. -/
def label (n : Node) : Except ForeignError String :=
  match n.value with
  | .null => .ok n.kind.name
  | value => value.data.map fun shown => n.kind.name ++ "(" ++ shown ++ ")"

/-- The indentation of a level; there is none below level zero. -/
def indent (depth : Int) : String :=
  String.ofList (List.replicate (2 * depth.toNat) ' ')

mutual

/-- The lines of a drawing that starts at a level. -/
def lines (depth : Int) : Node → Except ForeignError (List String)
  | ⟨kind, value, children⟩ => do
    let shown ← label ⟨kind, value, []⟩
    return (indent depth ++ shown) :: (← linesAll (depth + 1) children)

/-- The lines of several drawings, one after the other. -/
def linesAll (depth : Int) : List Node → Except ForeignError (List String)
  | [] => .ok []
  | n :: ns => do
    let first ← lines depth n
    return first ++ (← linesAll depth ns)

end

/-- A tree drawn as text. -/
def text (n : Node) (depth : Int) : Except ForeignError String :=
  (lines depth n).map (Text.joinWith "\n")

/-- A node for display, its children only counted, given the names of the methods of each
registry. -/
def display (methodsOf : Nat → List Scalar) (n : Node) : Except ForeignError String :=
  let shown (payload : String) : String :=
    "ASTNode(" ++ n.kind.name ++ ", " ++ payload ++ "children=" ++ toString n.children.length ++ ")"
  match n.value with
  | .null => .ok (shown "")
  | value => (value.display methodsOf).map fun payload => shown (payload ++ ", ")

end Node

end CallScript
