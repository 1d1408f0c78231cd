import CallScript.Binary64.Numeral
import CallScript.Value.Basic

/-!
# The configuration of a core

Two settings are shared with the methods of a core: whether to be verbose and how long to wait.
They are given as values and checked field by field. Every field that is wrong is reported, the
known fields first and then the unknown ones in the order they were given.
-/

namespace CallScript

/-- What can be wrong with a field. -/
inductive Issue where
  /-- Not a value that could stand for a truth value. -/
  | flagKind
  /-- An integer of one machine word or a text, neither of which names a truth value. -/
  | flagWord
  /-- Not a value that could stand for a number. -/
  | numberKind
  /-- A text that is no numeral. -/
  | numberWord
  /-- A number that is not greater than zero. -/
  | notPositive
  /-- Not a text. -/
  | textKind
  /-- A field that is not known. -/
  | unknownField
deriving DecidableEq

/-- A field and what is wrong with it. -/
structure FieldIssue where
  field : String
  issue : Issue
deriving DecidableEq

/-- Settings that the methods of a core share. The waiting time is greater than zero. -/
@[ext] structure CoreConfig where
  debug : Bool
  timeout : Binary64
  positive : timeout.isPositive = true
deriving DecidableEq

namespace CoreConfig

/-- How long to wait unless told otherwise: five seconds. -/
def defaultTimeout : Binary64 := Binary64.ofRatio false 5 1

theorem isPositive_defaultTimeout : defaultTimeout.isPositive = true := by decide +kernel

/-- The configuration without any settings. -/
def default : CoreConfig := ⟨false, defaultTimeout, isPositive_defaultTimeout⟩

instance : Inhabited CoreConfig := ⟨default⟩

/-- A truth value by its word, in any case of letters. -/
def flagOfWord? (s : String) : Option Bool :=
  let word := String.ofList (s.toList.map Char.toLower)
  if ["1", "on", "t", "true", "y", "yes"].contains word then some true
  else if ["0", "off", "f", "false", "n", "no"].contains word then some false
  else none

/-- Integers below this and not below its opposite fit a machine word. -/
def wordBound : Int := Int.pow 2 63

/-- A truth value as an integer: zero or one. Any other integer is wrong as a word is, if it lies
within the bounds of one, and of the wrong kind otherwise. -/
def flagOfInt (least : Int) (n : Int) : Except Issue Bool :=
  if n = 0 then .ok false
  else if n = 1 then .ok true
  else if least ≤ n && n < wordBound then .error .flagWord
  else .error .flagKind

/-- Reads a truth value. A number counts as the integer it equals, but the least integer of a word
is out of its bounds. -/
def readFlag : Value → Except Issue Bool
  | .bool b => .ok b
  | .int n => flagOfInt (-wordBound) n
  | .float x =>
    match x.toInt? with
    | some n => flagOfInt (1 - wordBound) n
    | none => .error .flagKind
  | v =>
    match v.text? with
    | none => .error .flagKind
    | some s =>
      match flagOfWord? s with
      | some b => .ok b
      | none => .error .flagWord

/-- Whether a character stands next to itself. -/
def doubles (c : Char) : List Char → Bool
  | a :: b :: rest => (a = c && b = c) || doubles c (b :: rest)
  | _ => false

/-- Drops underscores, none of which may stand at an end or next to another. -/
def dropSingleUnderscores? (cs : List Char) : Option (List Char) :=
  if cs.head? = some '_' || cs.getLast? = some '_' || doubles '_' cs then none
  else some (cs.filter (· ≠ '_'))

/-- The number a text is a numeral of. It may be padded with white space, or else hold single
underscores. -/
def numberOfText? (s : String) : Option Binary64 :=
  match Binary64.plain? (Text.trimBy Text.isWhiteSpace s.toList) with
  | some x => some x
  | none => (dropSingleUnderscores? s.toList).bind Binary64.plain?

/-- Reads a number. -/
def readNumber : Value → Except Issue Binary64
  | .bool b => .ok (Binary64.ofBool b)
  | .int n =>
    match Binary64.ofInt? n with
    | some x => .ok x
    | none => .error .numberKind
  | .float x => .ok x
  | v =>
    match v.text? with
    | none => .error .numberKind
    | some s =>
      match numberOfText? s with
      | some x => .ok x
      | none => .error .numberWord

/-- Reads a number greater than zero. -/
def readPositive (v : Value) : Except Issue { x : Binary64 // x.isPositive = true } :=
  match readNumber v with
  | .ok x => if h : x.isPositive = true then .ok ⟨x, h⟩ else .error .notPositive
  | .error issue => .error issue

/-- The name of the setting that makes a core verbose. -/
def debugField : String := "debug"

/-- The name of the setting that says how long to wait. -/
def timeoutField : String := "timeout"

/-- Reads a field that may be missing. -/
def readField {α : Type} (fields : Table String Value) (name : String) (fallback : α)
    (read : Value → Except Issue α) : Except Issue α :=
  match fields.get? name with
  | some v => read v
  | none => .ok fallback

/-- The issue of a field, if its reading failed. -/
def issueOf {α : Type} (name : String) : Except Issue α → List FieldIssue
  | .ok _ => []
  | .error issue => [⟨name, issue⟩]

/-- The fields that are not known. -/
def unknownFields (fields : Table String Value) : List FieldIssue :=
  (fields.names.filter fun name => name ≠ debugField && name ≠ timeoutField).map
    (⟨·, .unknownField⟩)

/-- **Checking a configuration.** Fields that are missing take their default. -/
def ofFields (fields : Table String Value) : Except (List FieldIssue) CoreConfig :=
  let debug := readField fields debugField false readFlag
  let timeout :=
    readField fields timeoutField ⟨defaultTimeout, isPositive_defaultTimeout⟩ readPositive
  match debug, timeout, unknownFields fields with
  | .ok debug, .ok timeout, [] => .ok ⟨debug, timeout.val, timeout.property⟩
  | debug, timeout, unknown =>
    .error (issueOf debugField debug ++ issueOf timeoutField timeout ++ unknown)

/-- The fields of a configuration. -/
def toFields (c : CoreConfig) : Table String Value :=
  .ofList [(debugField, .bool c.debug), (timeoutField, .float c.timeout)]

/-- Overlays a configuration with changed fields and checks the whole. -/
def update (c : CoreConfig) (changes : List (String × Value)) :
    Except (List FieldIssue) CoreConfig :=
  ofFields (changes.foldl (fun fields e => fields.insert e.1 e.2) c.toFields)

end CoreConfig

end CallScript
