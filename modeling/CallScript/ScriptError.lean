import CallScript.Value.Parts

/-!
# Errors of a script

Reading and running a script fails with one of these errors. What all of them share is a message,
an optional place in the source and a code; what sets them apart is the cause, which carries the
facts of the failure. The text of an error is one head line followed by indented detail lines, and
its brief form is the first line of the text.

An embedding program may make such errors itself and put any values into them, so a fact is a
value. Most values can be written in a sentence, and a list of names can if its items are texts. An
error with a fact that cannot be written has no text: asking for it raises another error.
-/

namespace CallScript

/-- What kind of error a script failed with. -/
inductive ErrorKind where
  /-- No particular kind. -/
  | general
  /-- Malformed source. -/
  | malformed
  /-- A character that starts no token. -/
  | unexpectedCharacter
  /-- A token that the grammar does not allow where it stands. -/
  | unexpectedToken
  /-- Some failure while running. -/
  | execution
  /-- A call of a core method that is not registered. -/
  | unknownCoreMethod
  /-- A call on a variable that is not bound. -/
  | undefinedVariable
  /-- A call of a method that the object does not expose. -/
  | unknownMethod
  /-- A call on something that is neither the core nor a variable. -/
  | unsupportedCallTarget
  /-- A node that has no value. -/
  | unknownNodeKind
  /-- A registration with a bad name or of something that cannot be called. -/
  | registration
deriving DecidableEq

namespace ErrorKind

/-- All kinds. -/
def all : List ErrorKind :=
  [general, malformed, unexpectedCharacter, unexpectedToken, execution, unknownCoreMethod,
    undefinedVariable, unknownMethod, unsupportedCallTarget, unknownNodeKind, registration]

/-- The name of a kind. -/
def name : ErrorKind → String
  | general => "ZCWError"
  | malformed => "ZCWSyntaxError"
  | unexpectedCharacter => "UnexpectedCharacter"
  | unexpectedToken => "UnexpectedToken"
  | execution => "ZCWRuntimeError"
  | unknownCoreMethod => "UnknownCoreMethod"
  | undefinedVariable => "UndefinedVariable"
  | unknownMethod => "UnknownMethod"
  | unsupportedCallTarget => "UnsupportedCallTarget"
  | unknownNodeKind => "UnknownNodeKind"
  | registration => "RegistryError"

/-- The kind of a name. -/
def ofName? (name : String) : Option ErrorKind := all.find? (·.name = name)

/-- The code that errors of a kind carry unless told otherwise. -/
def code : ErrorKind → String
  | general => "ZCW_ERROR"
  | malformed => "SYNTAX_ERROR"
  | unexpectedCharacter => "UNEXPECTED_CHARACTER"
  | unexpectedToken => "UNEXPECTED_TOKEN"
  | execution => "RUNTIME_ERROR"
  | unknownCoreMethod => "UNKNOWN_CORE_METHOD"
  | undefinedVariable => "UNDEFINED_VARIABLE"
  | unknownMethod => "UNKNOWN_METHOD"
  | unsupportedCallTarget => "UNSUPPORTED_CALL_TARGET"
  | unknownNodeKind => "UNKNOWN_NODE_KIND"
  | registration => "REGISTRY_ERROR"

/-- Kinds that lie in the source text. -/
def isMalformed : ErrorKind → Bool
  | malformed => true
  | unexpectedCharacter => true
  | unexpectedToken => true
  | _ => false

/-- Kinds that arise while a script runs. -/
def isExecution : ErrorKind → Bool
  | execution => true
  | unknownCoreMethod => true
  | undefinedVariable => true
  | unknownMethod => true
  | unsupportedCallTarget => true
  | unknownNodeKind => true
  | _ => false

end ErrorKind

/-- What a reader of tokens or characters was looking for and what it met. -/
structure Expectation where
  expected : Value := .list []
  found : Value := .null
  suggestion : Value := .null

/-- Why a script failed: the kind of error, with the facts of the failure. -/
inductive Cause where
  | general
  | malformed (context : Expectation)
  | unexpectedCharacter (context : Expectation) (character : Value)
  | unexpectedToken (context : Expectation)
  | execution
  | unknownCoreMethod (method available : Value)
  | undefinedVariable (name available : Value)
  | unknownMethod (object method available : Value)
  | unsupportedCallTarget (nodeKind : Value)
  | unknownNodeKind (nodeKind : Value)
  | registration (method : Value)

/-! ## Facts by name -/

/-- The facts of an expectation. -/
def Expectation.fields (e : Expectation) : List (String × Value) :=
  [("expected", e.expected), ("found", e.found), ("suggestion", e.suggestion)]

/-- The expectation with facts given by name. -/
def Expectation.ofFields (given : String → Value → Value) : Expectation where
  expected := given "expected" (.list [])
  found := given "found" .null
  suggestion := given "suggestion" .null

namespace Cause

/-- The kind of error a cause leads to. -/
def kind : Cause → ErrorKind
  | general => .general
  | malformed _ => .malformed
  | unexpectedCharacter _ _ => .unexpectedCharacter
  | unexpectedToken _ => .unexpectedToken
  | execution => .execution
  | unknownCoreMethod _ _ => .unknownCoreMethod
  | undefinedVariable _ _ => .undefinedVariable
  | unknownMethod _ _ _ => .unknownMethod
  | unsupportedCallTarget _ => .unsupportedCallTarget
  | unknownNodeKind _ => .unknownNodeKind
  | registration _ => .registration

/-- The facts of a cause. -/
def fields : Cause → List (String × Value)
  | general => []
  | malformed context => context.fields
  | unexpectedCharacter context character => context.fields ++ [("character", character)]
  | unexpectedToken context => context.fields
  | execution => []
  | unknownCoreMethod method available => [("method_name", method), ("available", available)]
  | undefinedVariable name available => [("name", name), ("available", available)]
  | unknownMethod object method available =>
    [("object_name", object), ("method_name", method), ("available", available)]
  | unsupportedCallTarget nodeKind => [("node_type", nodeKind)]
  | unknownNodeKind nodeKind => [("node_type", nodeKind)]
  | registration method => [("method_name", method)]

/-- The cause of a kind with facts given by name, each with a value to take if it is not given. -/
def ofFields (given : String → Value → Value) : ErrorKind → Cause
  | .general => general
  | .malformed => malformed (.ofFields given)
  | .unexpectedCharacter => unexpectedCharacter (.ofFields given) (given "character" (.text ""))
  | .unexpectedToken => unexpectedToken (.ofFields given)
  | .execution => execution
  | .unknownCoreMethod =>
    unknownCoreMethod (given "method_name" (.text "")) (given "available" (.list []))
  | .undefinedVariable => undefinedVariable (given "name" (.text "")) (given "available" (.list []))
  | .unknownMethod =>
    unknownMethod (given "object_name" (.text "")) (given "method_name" (.text ""))
      (given "available" (.list []))
  | .unsupportedCallTarget => unsupportedCallTarget (given "node_type" (.text ""))
  | .unknownNodeKind => unknownNodeKind (given "node_type" (.text ""))
  | .registration => registration (given "method_name" .null)

end Cause

/-! ## Detail lines -/

/-- A labelled detail line, unless its value counts as false. -/
def Expectation.detail (methodsOf : Nat → List Scalar) (label : String) (v : Value) :
    Except ForeignError (List String) :=
  if v.counts methodsOf then (v.plain methodsOf).map fun shown => [label ++ shown] else .ok []

/-- The line on what was expected. -/
def Expectation.wanted (methodsOf : Nat → List Scalar) (expected : Value) :
    Except ForeignError (List String) :=
  if expected.counts methodsOf then do
    if (← expected.length methodsOf) = 1 then
      return ["Expected: " ++ (← (← expected.zeroth).plain methodsOf)]
    else return ["Expected one of: " ++ (← expected.joined)]
  else .ok []

/-- The detail lines of an expectation. -/
def Expectation.details (methodsOf : Nat → List Scalar) (e : Expectation) :
    Except ForeignError (List String) := do
  let wanted ← wanted methodsOf e.expected
  let found ← detail methodsOf "Found: " e.found
  let suggestion ← detail methodsOf "Suggestion: " e.suggestion
  return wanted ++ found ++ suggestion

/-- How many bound names an error about a missing variable lists. -/
def Cause.listedNames : Nat := 5

/-- The detail lines of a cause. -/
def Cause.details (methodsOf : Nat → List Scalar) : Cause → Except ForeignError (List String)
  | malformed context => context.details methodsOf
  | unexpectedCharacter context _ => context.details methodsOf
  | unexpectedToken context => context.details methodsOf
  | unknownCoreMethod _ available =>
    if available.counts methodsOf then
      available.joined.map fun names => ["Available core methods: " ++ names]
    else .ok ["No core methods are registered"]
  | undefinedVariable _ available =>
    if available.counts methodsOf then do
      let listed ← available.firstItems listedNames
      return ["Bound variables: " ++ (← listed.joined)]
    else .ok []
  | unknownMethod object _ available =>
    if available.counts methodsOf then do
      let object ← object.plain methodsOf
      return ["Methods on " ++ object ++ ": " ++ (← available.joined)]
    else .ok []
  | _ => .ok []

/-! ## Errors -/

/-- An error of a script. -/
structure ScriptError where
  cause : Cause
  message : Value
  line : Value := .null
  column : Value := .null
  code : Value := .text cause.kind.code

namespace ScriptError

/-- What kind of error it is. -/
def kind (e : ScriptError) : ErrorKind := e.cause.kind

/-- All facts of an error. -/
def fields (e : ScriptError) : List (String × Value) :=
  [("message", e.message), ("line", e.line), ("column", e.column), ("code", e.code)]
    ++ e.cause.fields

/-- The error of a kind with facts given by name. Only the message has to be given, and no other
names than those of the facts may be. -/
def ofFields (kind : ErrorKind) (facts : Table String Value) : Except ForeignError ScriptError :=
  let function := kind.name ++ ".__init__"
  let given := fun name missing => (facts.get? name).getD missing
  let e : ScriptError :=
    { cause := .ofFields given kind
      message := given "message" .null
      line := given "line" .null
      column := given "column" .null
      code := given "code" (.text kind.code) }
  match facts.names.find? fun name => !(e.fields.map (·.1)).contains name with
  | some name => .error (.surplusArgument function name)
  | none =>
    if facts.contains "message" then .ok e else .error (.missingArgument function "message")

/-- The place of an error; a column without a line says nothing. -/
def place (methodsOf : Nat → List Scalar) (e : ScriptError) : Except ForeignError String :=
  if e.line.isNull then .ok ""
  else do
    let line ← e.line.plain methodsOf
    if e.column.isNull then return "Line " ++ line ++ " | "
    else return "Line " ++ line ++ ":" ++ (← e.column.plain methodsOf) ++ " | "

/-- The head line: place, code and message. -/
def head (methodsOf : Nat → List Scalar) (e : ScriptError) : Except ForeignError String := do
  let place ← e.place methodsOf
  let code ← e.code.plain methodsOf
  let message ← e.message.plain methodsOf
  return place ++ "[" ++ code ++ "] " ++ message

/-- The detail lines. -/
def details (methodsOf : Nat → List Scalar) (e : ScriptError) :
    Except ForeignError (List String) :=
  e.cause.details methodsOf

/-- The whole text of an error. -/
def text (methodsOf : Nat → List Scalar) (e : ScriptError) : Except ForeignError String := do
  let head ← e.head methodsOf
  let lines ← e.details methodsOf
  return head ++ String.join (lines.map ("\n  " ++ ·))

/-- The first line of the text of an error. -/
def brief (methodsOf : Nat → List Scalar) (e : ScriptError) : Except ForeignError String :=
  (e.text methodsOf).map Text.firstLine

end ScriptError

end CallScript
