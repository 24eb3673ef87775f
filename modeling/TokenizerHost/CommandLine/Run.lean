import TokenizerHost.CommandLine
import TokenizerHost.Config.Options
import TokenizerHost.Config.Printer
import TokenizerHost.Json.Reader

namespace TokenizerHost

variable {σ : Type}

structure Machine (σ : Type) where
  read : String → Except ReadFailure ByteArray
  home : Option String
  vars : Environment
  input : ByteArray
  engine : ByteArray → Option (GuestModule σ)
  around : Surroundings

structure RunResult where
  code : UInt32
  output : String
  diagnostics : String
  deriving Repr, Inhabited

namespace RunResult

def success (output : String) : RunResult := ⟨0, output, ""⟩

def failure (reason : String) : RunResult := ⟨1, "", "Error: " ++ reason ++ "\n"⟩

def ofNoRun : NoRun → RunResult
  | .version => success "kotoba 0.1.0\n"
  | .usage =>
    ⟨2, "", "Usage: kotoba [-v] [-c FILE] <analyze [TEXTS]... [-m SRC] [--stdin] [-w] | config show>\n"⟩

end RunResult

def joinPath (directory name : String) : String :=
  if directory.isEmpty || directory.endsWith "/" then directory ++ name
  else directory ++ "/" ++ name

def userConfigPath (home : String) : String := joinPath home ".kotoba/config.toml"

namespace Machine

def layer (m : Machine σ) (path : String) : LayerFile := ⟨path, m.read path⟩

def loadConfig (m : Machine σ) (configFile : Option String) :
    Except ConfigError ResolvedConfig := do
  match m.home with
  | none => throw .noHome
  | some home =>
    Config.loadLayers (m.layer (userConfigPath home)) (configFile.map m.layer) m.vars

def readRequest (m : Machine σ) : Except String BatchRequest :=
  match String.fromUTF8? m.input with
  | none => .error "failed to read stdin"
  | some text =>
    match (Json.parse? text).bind BatchRequest.ofJson? with
    | some request => .ok request
    | none => .error "stdin is not a JSON batch request like \x7b\"texts\": [...]\x7d"

def loader (m : Machine σ) (c : Config) (source : Option String) : ModuleLoader σ where
  source := ((c.moduleSource source).fetch m.read).map m.engine
  options := c.hostOptions
  around := m.around
  functionName := c.guest.functionName

def analyze (m : Machine σ) (c : Config) (a : AnalyzeCommand) : Except String String := do
  let request ← if a.fromInput then m.readRequest else pure ⟨a.texts⟩
  if request.texts.isEmpty then throw "nothing to analyze; pass texts as arguments or use --stdin"
  let kind := (m.loader c a.source).kind
  let (response, _) := (Analyzer.handle kind request).run (.new c.scriptFilter ())
  return if a.wordsOnly then response.words c.analyzer.symbolMarker
    else response.toJson.pretty ++ "\n"

def perform (m : Machine σ) (i : Invocation) : RunResult :=
  match m.loadConfig i.configFile with
  | .error e => .failure ("failed to load configuration: " ++ e.message)
  | .ok resolved =>
    match i.command with
    | .showConfig => .success resolved.render
    | .analyze a =>
      match m.analyze resolved.config a with
      | .ok output => .success output
      | .error reason => .failure reason

def run (m : Machine σ) (args : List String) : RunResult :=
  match Invocation.parse args with
  | .ok i => m.perform i
  | .error e => .ofNoRun e

end Machine

end TokenizerHost
