import TokenizerHost.Analyzer
import TokenizerHost.Session

namespace TokenizerHost

variable {σ : Type}

structure ModuleTokenizer (σ : Type) where
  session : Session σ
  functionName : String

def defaultFunctionName : String := "kagome_tokenize"

structure ModuleLoader (σ : Type) where
  /-- The module, or why its bytes could not be fetched; no module if they are none. -/
  source : Except AnalyzerError (Option (GuestModule σ))
  options : HostOptions
  around : Surroundings
  functionName : String

namespace ModuleTokenizer

def call (p : Program σ) (name text : String) : Host σ (Except String (List Token)) := do
  discard p.serviceTimers
  match ← p.callGlobal name [.string text] with
  | .returned v => return .ok (← Host.ofExcept (Token.listOfHost (← get).heap v))
  | .thrown v => return .error (← Host.textOf v)

def tokenize (text : String) : StateM (ModuleTokenizer σ) (Except AnalyzerError (List Token)) :=
  fun t =>
    let p := t.session.program
    match call p t.functionName text t.session.world with
    | .ok (.ok tokens) w => (.ok tokens, { t with session := ⟨p, w⟩ })
    | .ok (.error reason) w => (.error (.analysisFailure reason), { t with session := ⟨p, w⟩ })
    | .error e w => (.error (.ofFault e), { t with session := ⟨p, w⟩ })

end ModuleTokenizer

namespace ModuleLoader

def startUp (p : Program σ) : Host σ Unit := do
  p.start
  discard p.serviceTimers

def load (l : ModuleLoader σ) : Except AnalyzerError (ModuleTokenizer σ) := do
  match GuestModule.load (← l.source) l.options l.around with
  | .error e => throw (.loadFailure e.toFault.message)
  | .ok s =>
    match startUp s.program s.world with
    | .error e _ => throw (.loadFailure e.message)
    | .ok () w =>
      match w.exitCode? with
      | some code => throw (.loadFailure s!"guest exited with code {code.toInt} during startup")
      | none => return ⟨⟨s.program, w⟩, l.functionName⟩

def kind (l : ModuleLoader σ) : TokenizerKind Unit (ModuleTokenizer σ) where
  load := return l.load
  tokenize := ModuleTokenizer.tokenize

end ModuleLoader

end TokenizerHost
