import CallScript.Document.Toml
import CallScript.Settings.Basic

/-!
# Loading settings

Settings are read from the file named explicitly, which may lie anywhere, or else from the first of
two files in the root of a workspace that exists. A file with the suffix `.toml` is read as TOML and
any other as JSON; the settings are its section `runtime`. Then environment variables override them,
and the waiting time that results must be positive.
-/

namespace CallScript

/-- The names on the way from the top of a file system to a file or a directory. -/
abbrev Route := List String

/-- A path: names to follow one after the other, from the top of the file system or from where a
program works. -/
structure Path where
  absolute : Bool
  parts : List String
deriving DecidableEq

/-- A file system, the root of a workspace in it, and the directory a program works in. -/
structure Workspace where
  files : List (Route × ByteArray) := []
  directories : List Route := []
  root : Route := []
  current : Route := []

/-- Where a path leads. -/
inductive Place where
  | file (bytes : ByteArray)
  | directory (route : Route)

namespace Path

/-- A written path. Empty parts and those that stay in place do not count. -/
def ofText (text : String) : Path where
  absolute := text.toList.head? = some '/'
  parts :=
    ((Text.splitAt '/' text.toList).map String.ofList).filter fun part => part ≠ "" && part ≠ "."

end Path

namespace Workspace

/-- Whether a route leads to a directory: one that is listed, or one on the way to something. -/
def isDirectory (w : Workspace) (route : Route) : Bool :=
  (w.root :: w.current :: (w.files.map (·.1) ++ w.directories)).any route.isPrefixOf

/-- Follows one part of a path. Two points lead up, which at the top leads nowhere else; nothing
lies below a file. -/
def step? (w : Workspace) : Place → String → Option Place
  | .file _, _ => none
  | .directory route, part =>
    if part = ".." then some (.directory route.dropLast)
    else
      match w.files.lookup (route ++ [part]) with
      | some bytes => some (.file bytes)
      | none =>
        if w.isDirectory (route ++ [part]) then some (.directory (route ++ [part])) else none

/-- Where a path leads, part by part. -/
def resolve? (w : Workspace) (path : Path) : Option Place :=
  path.parts.foldlM w.step? (.directory (if path.absolute then [] else w.current))

/-- Whether a path leads to something. -/
def leads (w : Workspace) (path : Path) : Bool := (w.resolve? path).isSome

/-- The names of the files that settings are looked for in. -/
def settingsFiles : List String := ["zcw.toml", ".zcwrc"]

/-- The path of a file in the root of the workspace. -/
def inRoot (w : Workspace) (name : String) : Path := ⟨true, w.root ++ [name]⟩

/-- The path of the file that settings are read from. An explicit path that leads nowhere is not
replaced by another. -/
def locate (w : Workspace) (explicit : Option Path) : Option Path :=
  match explicit with
  | some path => if w.leads path then some path else none
  | none => (settingsFiles.map w.inRoot).find? w.leads

/-- The suffix of a file name: from its last point on, unless that is its first or last
character. -/
def suffix (name : List Char) : List Char :=
  let after := name.reverse.takeWhile (· ≠ '.')
  if after.isEmpty || name.length ≤ after.length + 1 then [] else '.' :: after.reverse

/-- Whether a file is read as TOML, which its last part tells. -/
def isToml (path : Path) : Bool :=
  suffix (path.parts.getLast?.getD "").toList = ".toml".toList

/-- Reads the text of a document. -/
def readText (isToml : Bool) (text : String) : Except SettingsError Value :=
  match if isToml then Toml.read text else Json.read text with
  | .ok document => .ok document
  | .error (.tooManyDigits count) => .error (.tooManyDigits count)
  | .error .malformed => .error (if isToml then .malformedToml else .malformedJson)

/-- Reads the document at a path. -/
def readDocument (w : Workspace) (path : Path) : Except SettingsError Value :=
  match w.resolve? path with
  | some (.file bytes) =>
    match String.fromUTF8? bytes with
    | some text => readText (isToml path) text
    | none => .error .notText
  | _ => .error .isDirectory

end Workspace

namespace Settings

/-- The name of the section that holds the settings. -/
def sectionName : String := "runtime"

/-- The section of the settings. One that is missing or counts as false is empty. -/
def sectionOf (document : Value) : Except SettingsError (List (Scalar × Value)) :=
  match document with
  | .dict entries =>
    match Value.named? sectionName entries with
    | some (.dict inner) => .ok inner
    | some v => if v.truthy (fun _ => 0) then .error .sectionNotTable else .ok []
    | none => .ok []
  | v => .error (.notDocument v)

/-- The level named by a section; one that counts as false is none. -/
def sectionLevel (entries : List (Scalar × Value)) (fallback : Value) :
    Except SettingsError Value :=
  let given := ((Value.named? "log_level" entries).filter (·.truthy fun _ => 0)).getD fallback
  (textOf given).map fun level => .text (Text.lower level)

/-- The settings of a section, missing ones at their defaults. -/
def ofSection (entries : List (Scalar × Value)) (document : Value) :
    Except SettingsError Settings := do
  let defaults : Settings := {}
  let debug ← readFlag "debug" ((Value.named? "debug" entries).getD defaults.debug)
  let timeout ← readNumber ((Value.named? "timeout" entries).getD defaults.timeout)
  let logLevel ← sectionLevel entries defaults.logLevel
  let trace ← readFlag "trace" ((Value.named? "trace" entries).getD defaults.trace)
  return {
    debug := .bool debug
    timeout := .float timeout
    logLevel := logLevel
    trace := .bool trace
    document := document }

/-- The settings of a document. -/
def ofDocument (document : Value) : Except SettingsError Settings := do
  let entries ← sectionOf document
  ofSection entries document

/-- Whether a waiting time is a number that is not positive. -/
def isNonPositive : Value → Bool
  | .float x => x.isNonPositive
  | _ => false

/-- The settings of the document at a path, or the defaults if there is none. -/
def ofFile (w : Workspace) : Option Path → Except SettingsError Settings
  | some path => (w.readDocument path).bind ofDocument
  | none => .ok {}

/-- **Loading settings** from a workspace and the environment. -/
def load (w : Workspace) (explicit : Option Path) (environment : Table String String) :
    Except SettingsError Settings :=
  match ofFile w (w.locate explicit) with
  | .error e => .error e
  | .ok settings =>
    match settings.override environment with
    | (_, some e) => .error e
    | (settings, none) =>
      if isNonPositive settings.timeout then .error (.timeoutNotPositive settings.timeout)
      else .ok settings

end Settings

end CallScript
