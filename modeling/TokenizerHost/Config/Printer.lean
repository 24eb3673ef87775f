import TokenizerHost.Config.Layers
import TokenizerHost.Toml.Printer

namespace TokenizerHost

open Toml (quote quoteKey quoteList)

def assignment (key value : String) : String := key ++ " = " ++ value ++ "\n"

namespace PointRange

def block (r : PointRange) : String :=
  "[[analyzer.script_ranges]]\n" ++ assignment "start" (Text.decimal r.start) ++
    assignment "end" (Text.decimal r.finish)

end PointRange

namespace ModuleSettings

def blocks (m : ModuleSettings) : List String :=
  ["[module]\n" ++ assignment "source" (quote m.source) ++
      assignment "namespace" (quote m.importSpace) ++
      assignment "alias_namespaces" (quoteList m.aliasSpaces) ++
      assignment "export" (quote m.functionName) ++ assignment "argv" (quoteList m.argv) ++
      (m.maxMemoryPages.map fun (n : Nat) => assignment "max_memory_pages" (Text.decimal n)).getD "",
    "[module.env]\n" ++
      String.join (m.env.sorted.map fun (k, v) => assignment (quoteKey k) (quote v))]

end ModuleSettings

namespace SchedulerSettings

def block (s : SchedulerSettings) : String :=
  "[scheduler]\n" ++ assignment "max_timer_refires" (Text.decimal s.maxTimerRefires)

end SchedulerSettings

namespace AnalyzerSettings

def blocks (a : AnalyzerSettings) : List String :=
  ("[analyzer]\n" ++ assignment "symbol_marker" (quote a.symbolMarker) ++
    if a.scriptRanges.isEmpty then assignment "script_ranges" "[]" else "") ::
      a.scriptRanges.map PointRange.block

end AnalyzerSettings

namespace LoggingSettings

def block (l : LoggingSettings) : String :=
  "[logging]\n" ++ assignment "level" (quote l.level) ++ assignment "format" (quote l.format) ++
    assignment "directives" (quoteList l.directives)

end LoggingSettings

def Config.render (c : Config) : String :=
  "\n".intercalate
    (c.guest.blocks ++ [c.scheduler.block] ++ c.analyzer.blocks ++ [c.logging.block])

namespace ResolvedConfig

def fileLines : Nat → List String → String
  | _, [] => ""
  | n, path :: rest => "#   " ++ Text.decimal n ++ ". " ++ path ++ "\n" ++ fileLines (n + 1) rest

def header (r : ResolvedConfig) : String :=
  "# Resolved kotoba configuration\n" ++
    (match r.files with
      | [] => "# No config files loaded; built-in defaults\n"
      | files => "#\n# Loaded files (in precedence order):\n" ++ fileLines 1 files) ++
    (if r.overrideCount = 0 then ""
      else "# Environment overrides applied: " ++ Text.decimal r.overrideCount ++ "\n") ++ "\n"

def render (r : ResolvedConfig) : String := r.header ++ r.config.render

end ResolvedConfig

end TokenizerHost
