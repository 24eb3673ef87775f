import TokenizerHost.Config
import TokenizerHost.Text.Blank

namespace TokenizerHost

inductive ConfigError where
  | unreadable (path reason : String)
  /-- A document is no configuration document, or does not fit the fields. -/
  | malformed (path : String)
  | tooLarge (path : String) (size limit : Nat)
  | missingSource
  | invalidRange (index : Nat) (range : PointRange)
  | invalidField (field reason : String)
  | noHome
  deriving DecidableEq, Repr, Inhabited

namespace ConfigError

def pointText (n : Nat) : String :=
  let ds := (Nat.toDigits 16 n).map Char.toUpper
  "U+" ++ String.ofList (List.replicate (4 - ds.length) '0' ++ ds)

def field? : ConfigError → Option String
  | .missingSource => some "module.source"
  | .invalidRange index _ => some s!"analyzer.script_ranges[{index}]"
  | .invalidField field _ => some field
  | _ => none

def message : ConfigError → String
  | .unreadable path reason => s!"cannot read config layer {path}: {reason}"
  | .malformed path => s!"cannot parse config layer {path}"
  | .tooLarge path size limit => s!"config layer {path} is {size} bytes, over the {limit} byte limit"
  | .missingSource => "module.source is empty; set it to a kagome .wasm path or URL"
  | .invalidRange index range =>
    s!"analyzer.script_ranges[{index}]: " ++ pointText range.start ++ "..=" ++
      pointText range.finish ++ " is not a valid range of Unicode scalar values"
  | .invalidField field reason => "invalid value for '" ++ field ++ "': " ++ reason
  | .noHome => "cannot locate a home directory for ~/.kotoba/config.toml; pass --config instead"

end ConfigError

def maxPages : Nat := 65536

def maxRefireLimit : Nat := 1024

def logLevelNames : List String := ["trace", "debug", "info", "warn", "error"]

def logFormatNames : List String := ["pretty", "compact", "json", "full"]

def ensure (p : Prop) [Decidable p] (e : ConfigError) : Except ConfigError Unit :=
  if p then .ok () else .error e

namespace ModuleSettings

def validate (m : ModuleSettings) : Except ConfigError Unit := do
  ensure (!Text.isBlankText m.source) .missingSource
  ensure (!Text.isBlankText m.importSpace)
    (.invalidField "module.namespace" "namespace must not be empty")
  match m.aliasSpaces.find? Text.isBlankText with
  | some s =>
    throw (.invalidField "module.alias_namespaces"
      ("alias namespace '" ++ s ++ "' must not be empty"))
  | none => pure ()
  ensure (!Text.isBlankText m.functionName)
    (.invalidField "module.export" "export must not be empty")
  ensure (∀ n ∈ m.maxMemoryPages, 1 ≤ n ∧ n ≤ maxPages)
    (.invalidField "module.max_memory_pages" s!"max_memory_pages must be between 1 and {maxPages}")

end ModuleSettings

namespace SchedulerSettings

def validate (s : SchedulerSettings) : Except ConfigError Unit :=
  ensure (1 ≤ s.maxTimerRefires ∧ s.maxTimerRefires ≤ maxRefireLimit)
    (.invalidField "scheduler.max_timer_refires"
      (s!"max_timer_refires {s.maxTimerRefires} is out of range; must be between 1 and " ++
        toString maxRefireLimit))

end SchedulerSettings

namespace AnalyzerSettings

def validateRanges : Nat → List PointRange → Except ConfigError Unit
  | _, [] => .ok ()
  | index, r :: rest => do
    ensure (r.toChars?.isSome) (.invalidRange index r)
    validateRanges (index + 1) rest

def validate (a : AnalyzerSettings) : Except ConfigError Unit := do
  ensure (a.symbolMarker ≠ "")
    (.invalidField "analyzer.symbol_marker" "symbol_marker must not be empty")
  ensure (a.scriptRanges ≠ [])
    (.invalidField "analyzer.script_ranges" "at least one script range is required")
  validateRanges 0 a.scriptRanges

end AnalyzerSettings

namespace LoggingSettings

def validate (l : LoggingSettings) : Except ConfigError Unit := do
  ensure (l.level ∈ logLevelNames)
    (.invalidField "logging.level"
      ("unsupported log level '" ++ l.level ++ "'; expected one of: " ++
        ", ".intercalate logLevelNames))
  ensure (l.format ∈ logFormatNames)
    (.invalidField "logging.format"
      ("unsupported log format '" ++ l.format ++ "'; expected one of: " ++
        ", ".intercalate logFormatNames))

end LoggingSettings

def Config.validate (c : Config) : Except ConfigError Unit := do
  c.guest.validate
  c.scheduler.validate
  c.analyzer.validate
  c.logging.validate

end TokenizerHost
