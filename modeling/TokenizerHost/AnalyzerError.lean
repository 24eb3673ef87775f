import TokenizerHost.Fault

namespace TokenizerHost

inductive AnalyzerError where
  | loadFailure (reason : String)
  | analysisFailure (reason : String)
  | missingExport (name : String)
  deriving DecidableEq, Repr, Inhabited

namespace AnalyzerError

def message : AnalyzerError → String
  | .loadFailure reason => "failed to load tokenizer module: " ++ reason
  | .analysisFailure reason => "analysis failed: " ++ reason
  | .missingExport name => "tokenizer function `" ++ name ++ "` is not available"

def ofFault : Fault → AnalyzerError
  | .missingExport name => .missingExport name
  | .loadFailure reason => .loadFailure reason
  | .argvOverflow base required limit => .loadFailure (Fault.argvOverflow base required limit).message
  | e => .analysisFailure e.message

end AnalyzerError

end TokenizerHost
