import TokenizerHost.Config.Layers
import TokenizerHost.Logging
import TokenizerHost.ModuleSource

namespace TokenizerHost.Config

def hostOptions (c : Config) : HostOptions where
  argv := c.guest.argv
  env := c.guest.env
  importSpace := c.guest.importSpace
  aliasSpaces := c.guest.aliasSpaces
  maxMemoryPages := c.guest.maxMemoryPages
  maxTimerRefires := c.scheduler.maxTimerRefires

def scriptFilter (c : Config) : ScriptFilter := ⟨c.analyzer.charRanges⟩

/-- Where the module comes from, unless a source is given that goes before the configured one. -/
def moduleSource (c : Config) (source : Option String) : ModuleSource :=
  .parse (source.getD c.guest.source)

/-- How to log; a format without meaning is taken for the compact one. -/
def logConfig (c : Config) (verbose : Bool) : LogConfig :=
  { LogConfig.ofLevel (if verbose then "debug" else c.logging.level) with
    format := match LogFormat.parse c.logging.format with
      | .ok f => f
      | .error _ => .compact
    directives := c.logging.directives }

end TokenizerHost.Config
