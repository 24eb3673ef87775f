import TokenizerHost.AnalyzerError
import TokenizerHost.Batch
import TokenizerHost.ScriptFilter

namespace TokenizerHost

/-- How tokenizers are loaded and used. `ρ` is what loading may change, `τ` a loaded tokenizer. -/
structure TokenizerKind (ρ τ : Type) where
  load : StateM ρ (Except AnalyzerError τ)
  tokenize : String → StateM τ (Except AnalyzerError (List Token))

structure Analyzer (ρ τ : Type) where
  filter : ScriptFilter
  loader : ρ
  loaded : Option (Except AnalyzerError τ)

namespace Analyzer

variable {ρ τ : Type}

def new (filter : ScriptFilter) (loader : ρ) : Analyzer ρ τ := ⟨filter, loader, none⟩

def isLoaded (a : Analyzer ρ τ) : Bool := a.loaded.isSome

def ensureLoaded (kind : TokenizerKind ρ τ) : StateM (Analyzer ρ τ) (Except AnalyzerError τ) :=
  fun a =>
    match a.loaded with
    | some result => (result, a)
    | none =>
      let (result, loader) := kind.load a.loader
      (result, { a with loader, loaded := some result })

/-- Loads the tokenizer; the failure is the same for every caller. -/
def load (kind : TokenizerKind ρ τ) : StateM (Analyzer ρ τ) (Except AnalyzerError Unit) := do
  return (← ensureLoaded kind).map fun _ => ()

def analyzeText (kind : TokenizerKind ρ τ) (text : String) :
    StateM (Analyzer ρ τ) (Except AnalyzerError (List Token)) := do
  if !(← get).filter.accepts text then return .ok []
  match ← ensureLoaded kind with
  | .error e => return .error e
  | .ok tokenizer =>
    let (result, tokenizer) := kind.tokenize text tokenizer
    modify fun a => { a with loaded := some (.ok tokenizer) }
    return result

def analyzeOne (kind : TokenizerKind ρ τ) (text : String) :
    StateM (Analyzer ρ τ) AnalysisResult := do
  match ← analyzeText kind text with
  | .ok tokens => return ⟨text, tokens⟩
  | .error _ => return ⟨text, []⟩

def analyze (kind : TokenizerKind ρ τ) (texts : List String) :
    StateM (Analyzer ρ τ) (List AnalysisResult) :=
  texts.mapM (analyzeOne kind)

def handle (kind : TokenizerKind ρ τ) (request : BatchRequest) :
    StateM (Analyzer ρ τ) BatchResponse :=
  return ⟨← analyze kind request.texts⟩

end Analyzer

end TokenizerHost
