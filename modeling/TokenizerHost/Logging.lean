import TokenizerHost.FileTree
import TokenizerHost.Json.Record
import TokenizerHost.LogFilter

namespace TokenizerHost

inductive LogFormat where
  | pretty
  | compact
  | json
  | full
  deriving DecidableEq, Repr, Inhabited

inductive FileRotation where
  | daily
  | hourly
  | minutely
  | never
  deriving DecidableEq, Repr, Inhabited

inductive LogTarget where
  | stdout
  | stderr
  | directory (path : String)
  deriving DecidableEq, Repr, Inhabited

structure LogFiles where
  stem : String
  rotation : FileRotation
  /-- The most files that are kept; zero for all. -/
  maxFiles : Nat
  deriving DecidableEq, Repr, Inhabited

structure LogConfig where
  level : String
  format : LogFormat
  target : LogTarget
  file : LogFiles
  timestamps : Bool
  fileInfo : Bool
  threadIds : Bool
  threadNames : Bool
  spanEvents : Bool
  ansi : Bool
  directives : List String
  deriving DecidableEq, Repr, Inhabited

inductive LogError where
  | badConfig (reason : String)
  | notInitialized (reason : String)
  deriving DecidableEq, Repr, Inhabited

namespace LogError

def message : LogError → String
  | .badConfig reason => "Configuration error: " ++ reason
  | .notInitialized reason => "Initialization error: " ++ reason

end LogError

namespace Json

def count? : Json → Option Nat
  | .integer n => if 0 ≤ n ∧ n < UInt64.size then some n.toNat else none
  | _ => none

/-- The name of a choice: a text, or the only member of an object, which is set to `null`. -/
def choice? : Json → Option String
  | .string s => some s
  | .object [(some name, .null)] => some name
  | _ => none

end Json

namespace LogFormat

def all : List LogFormat := [.pretty, .compact, .json, .full]

def name : LogFormat → String
  | .pretty => "pretty"
  | .compact => "compact"
  | .json => "json"
  | .full => "full"

def ofName? (s : String) : Option LogFormat := all.find? (·.name == s)

def parse (text : String) : Except LogError LogFormat :=
  let s := text.map Char.toLower
  match ofName? s with
  | some f => .ok f
  | none => .error (.badConfig ("unknown log format '" ++ s ++ "'"))

def ofJson? (j : Json) : Option LogFormat := j.choice?.bind ofName?

end LogFormat

namespace FileRotation

def all : List FileRotation := [.daily, .hourly, .minutely, .never]

def name : FileRotation → String
  | .daily => "daily"
  | .hourly => "hourly"
  | .minutely => "minutely"
  | .never => "never"

def ofName? (s : String) : Option FileRotation := all.find? (·.name == s)

def ofJson? (j : Json) : Option FileRotation := j.choice?.bind ofName?

end FileRotation

namespace LogTarget

def ofJson? (j : Json) : Option LogTarget :=
  match j with
  | .object [(some "file", .string path)] => some (.directory path)
  | j =>
    match j.choice? with
    | some "stdout" => some .stdout
    | some "stderr" => some .stderr
    | _ => none

def toJson : LogTarget → Json
  | .stdout => .string "stdout"
  | .stderr => .string "stderr"
  | .directory path => .record [("file", .string path)]

end LogTarget

namespace LogFiles

def standard : LogFiles := ⟨"kotoba", .daily, 0⟩

def ofJson? (j : Json) : Option LogFiles := do
  match ← j.fields? ["prefix", "rotation", "max_files"] with
  | [stem, rotation, maxFiles] =>
    some ⟨← Json.orElse standard.stem Json.string? stem,
      ← Json.orElse standard.rotation FileRotation.ofJson? rotation,
      ← Json.orElse standard.maxFiles Json.count? maxFiles⟩
  | _ => none

def toJson (f : LogFiles) : Json :=
  .record [("prefix", .string f.stem), ("rotation", .string f.rotation.name),
    ("max_files", .integer f.maxFiles)]

end LogFiles

namespace LogConfig

def standard : LogConfig where
  level := "info"
  format := .compact
  target := .stderr
  file := .standard
  timestamps := true
  fileInfo := false
  threadIds := false
  threadNames := false
  spanEvents := false
  ansi := true
  directives := []

def ofLevel (level : String) : LogConfig := { standard with level }

def toDirectory (c : LogConfig) (path stem : String) (rotation : FileRotation) : LogConfig :=
  { c with target := .directory path, file := { c.file with stem, rotation }, ansi := false }

def addDirectives (c : LogConfig) (ds : List String) : LogConfig :=
  { c with directives := c.directives ++ ds }

def fieldNames : List String :=
  ["level", "format", "target", "file", "timestamps", "file_info", "thread_ids", "thread_names",
    "span_events", "ansi", "directives"]

def ofJson? (j : Json) : Option LogConfig := do
  match ← j.fields? fieldNames with
  | [level, format, target, file, timestamps, fileInfo, threadIds, threadNames, spanEvents, ansi,
      directives] =>
    some {
      level := ← Json.orElse standard.level Json.string? level
      format := ← Json.orElse standard.format LogFormat.ofJson? format
      target := ← Json.orElse standard.target LogTarget.ofJson? target
      file := ← Json.orElse standard.file LogFiles.ofJson? file
      timestamps := ← Json.orElse standard.timestamps Json.bool? timestamps
      fileInfo := ← Json.orElse standard.fileInfo Json.bool? fileInfo
      threadIds := ← Json.orElse standard.threadIds Json.bool? threadIds
      threadNames := ← Json.orElse standard.threadNames Json.bool? threadNames
      spanEvents := ← Json.orElse standard.spanEvents Json.bool? spanEvents
      ansi := ← Json.orElse standard.ansi Json.bool? ansi
      directives := ← Json.orElse standard.directives (Json.list? Json.string?) directives }
  | _ => none

def toJson (c : LogConfig) : Json :=
  .record [("level", .string c.level), ("format", .string c.format.name),
    ("target", c.target.toJson), ("file", c.file.toJson), ("timestamps", .bool c.timestamps),
    ("file_info", .bool c.fileInfo), ("thread_ids", .bool c.threadIds),
    ("thread_names", .bool c.threadNames), ("span_events", .bool c.spanEvents),
    ("ansi", .bool c.ansi), ("directives", .array (c.directives.map .string))]

/-- Starts to log. The filter is checked first, then the directory; a process logs in one way
only, so that nothing starts where another configuration was `installed` before. -/
def setUp (c : LogConfig) (files : FileTree) (installed : Bool) : Except LogError Unit := do
  if !LogFilter.isFilter c.level then throw (.badConfig "invalid filter directive")
  match c.directives.find? fun d => !LogFilter.isDirective d with
  | some d => throw (.badConfig ("directive '" ++ d ++ "': invalid filter directive"))
  | none => pure ()
  match c.target with
  | .directory path =>
    if !files.canMakeDirectory path then throw (.badConfig "failed to create log directory")
  | _ => pure ()
  if installed then
    throw (.notInitialized "a global default trace dispatcher has already been set")

end LogConfig

end TokenizerHost
