import TokenizerHost.Arguments
import TokenizerHost.Json.Record
import TokenizerHost.ModuleTokenizer

namespace TokenizerHost

structure ModuleSettings where
  source : String
  importSpace : String
  aliasSpaces : List String
  functionName : String
  argv : List String
  maxMemoryPages : Option Nat
  env : Environment
  deriving Inhabited

structure SchedulerSettings where
  maxTimerRefires : Nat
  deriving DecidableEq, Repr, Inhabited

/-- A range of code points, both ends included; not every number is the code point of a character. -/
structure PointRange where
  start : Nat
  finish : Nat
  deriving DecidableEq, Repr, Inhabited

structure AnalyzerSettings where
  symbolMarker : String
  scriptRanges : List PointRange
  deriving DecidableEq, Repr, Inhabited

structure LoggingSettings where
  level : String
  format : String
  directives : List String
  deriving DecidableEq, Repr, Inhabited

structure Config where
  guest : ModuleSettings
  scheduler : SchedulerSettings
  analyzer : AnalyzerSettings
  logging : LoggingSettings
  deriving Inhabited

namespace PointRange

def toChars? (r : PointRange) : Option CharRange :=
  if r.start.isValidChar ∧ r.finish.isValidChar ∧ r.start ≤ r.finish then
    some ⟨.ofNat r.start, .ofNat r.finish⟩
  else none

def toJson (r : PointRange) : Json := .record [("start", .integer r.start), ("end", .integer r.finish)]

end PointRange

namespace Environment

def ofJson? : Json → Option Environment
  | .object members => (members.mapM setting?).map Assoc.ofList
  | _ => none
where
  setting? (m : Option String × Json) : Option (String × String) := do
    some (← m.1, ← m.2.string?)

end Environment

def textsToJson (items : List String) : Json := .array (items.map .string)

namespace PointRange

def ofJson? (j : Json) : Option PointRange := do
  match ← j.fields? ["start", "end"] with
  | [start, finish] =>
    some ⟨← Json.required Json.word? start, ← Json.required Json.word? finish⟩
  | _ => none

end PointRange

namespace ModuleSettings

def standard : ModuleSettings where
  source := "kagome.wasm"
  importSpace := "gojs"
  aliasSpaces := ["go"]
  functionName := defaultFunctionName
  argv := ["js"]
  maxMemoryPages := none
  env := .empty

def fieldNames : List String :=
  ["source", "namespace", "alias_namespaces", "export", "argv", "max_memory_pages", "env"]

def ofJson? (j : Json) : Option ModuleSettings := do
  match ← j.fields? fieldNames with
  | [source, importSpace, aliasSpaces, functionName, argv, maxMemoryPages, env] =>
    some {
      source := ← Json.orElse standard.source Json.string? source
      importSpace := ← Json.orElse standard.importSpace Json.string? importSpace
      aliasSpaces := ← Json.orElse standard.aliasSpaces (Json.list? Json.string?) aliasSpaces
      functionName := ← Json.orElse standard.functionName Json.string? functionName
      argv := ← Json.orElse standard.argv (Json.list? Json.string?) argv
      maxMemoryPages := ← Json.orElse none (Json.nullable? Json.word?) maxMemoryPages
      env := ← Json.orElse standard.env Environment.ofJson? env }
  | _ => none

def toJson (m : ModuleSettings) : Json :=
  .record ([("source", .string m.source), ("namespace", .string m.importSpace),
    ("alias_namespaces", textsToJson m.aliasSpaces), ("export", .string m.functionName),
    ("argv", textsToJson m.argv)] ++
      (m.maxMemoryPages.map fun (n : Nat) => ("max_memory_pages", Json.integer n)).toList ++
      [("env", .record (m.env.sorted.map fun (k, v) => (k, .string v)))])

end ModuleSettings

namespace SchedulerSettings

def standard : SchedulerSettings := ⟨Scheduler.defaultMaxRefires⟩

def ofJson? (j : Json) : Option SchedulerSettings := do
  match ← j.fields? ["max_timer_refires"] with
  | [refires] => some ⟨← Json.orElse standard.maxTimerRefires Json.word? refires⟩
  | _ => none

def toJson (s : SchedulerSettings) : Json :=
  .record [("max_timer_refires", .integer s.maxTimerRefires)]

end SchedulerSettings

namespace AnalyzerSettings

/-- Hiragana, katakana and the common ideographs. -/
def standard : AnalyzerSettings where
  symbolMarker := defaultSymbolMarker
  scriptRanges := [⟨0x3040, 0x309F⟩, ⟨0x30A0, 0x30FF⟩, ⟨0x4E00, 0x9FAF⟩]

def ofJson? (j : Json) : Option AnalyzerSettings := do
  match ← j.fields? ["symbol_marker", "script_ranges"] with
  | [marker, ranges] =>
    some ⟨← Json.orElse standard.symbolMarker Json.string? marker,
      ← Json.orElse standard.scriptRanges (Json.list? PointRange.ofJson?) ranges⟩
  | _ => none

def toJson (a : AnalyzerSettings) : Json :=
  .record [("symbol_marker", .string a.symbolMarker),
    ("script_ranges", .array (a.scriptRanges.map PointRange.toJson))]

/-- The ranges of characters; what is no such range is left out. -/
def charRanges (a : AnalyzerSettings) : List CharRange := a.scriptRanges.filterMap (·.toChars?)

end AnalyzerSettings

namespace LoggingSettings

def standard : LoggingSettings := ⟨"info", "compact", []⟩

def ofJson? (j : Json) : Option LoggingSettings := do
  match ← j.fields? ["level", "format", "directives"] with
  | [level, format, directives] =>
    some ⟨← Json.orElse standard.level Json.string? level,
      ← Json.orElse standard.format Json.string? format,
      ← Json.orElse standard.directives (Json.list? Json.string?) directives⟩
  | _ => none

def toJson (l : LoggingSettings) : Json :=
  .record [("level", .string l.level), ("format", .string l.format),
    ("directives", textsToJson l.directives)]

end LoggingSettings

namespace Config

def standard : Config := ⟨.standard, .standard, .standard, .standard⟩

def ofJson? (j : Json) : Option Config := do
  match ← j.fields? ["module", "scheduler", "analyzer", "logging"] with
  | [guest, scheduler, analyzer, logging] =>
    some {
      guest := ← Json.orElse .standard ModuleSettings.ofJson? guest
      scheduler := ← Json.orElse .standard SchedulerSettings.ofJson? scheduler
      analyzer := ← Json.orElse .standard AnalyzerSettings.ofJson? analyzer
      logging := ← Json.orElse .standard LoggingSettings.ofJson? logging }
  | _ => none

def toJson (c : Config) : Json :=
  .record [("module", c.guest.toJson), ("scheduler", c.scheduler.toJson),
    ("analyzer", c.analyzer.toJson), ("logging", c.logging.toJson)]

end Config

end TokenizerHost
