import TokenizerHost.Text.Quoted

namespace TokenizerHost

inductive Fault where
  /-- The guest module could not be parsed, linked, instantiated or bound. -/
  | loadFailure (reason : String)
  | argvOverflow (base required limit : Nat)
  | unsupported (operation : String)
  /-- A host operation threw where no value can be handed back. -/
  | dispatchFailure (operation message : String)
  | alreadyExited (code : Int32)
  | alreadyStarted
  | missingExport (name : String)
  | memoryAccess (address length : Nat)
  | invalidHandle (id : UInt32)
  | trap (reason : String)
  deriving DecidableEq, Repr, Inhabited

namespace Fault

def message : Fault → String
  | .loadFailure reason => s!"failed to load guest module: {reason}"
  | .argvOverflow base required limit =>
    s!"argv and environment need {required} bytes past offset {base}, limit is {limit}"
  | .unsupported operation => s!"operation not supported: {operation}"
  | .dispatchFailure operation message => s!"host operation {operation} threw: {message}"
  | .alreadyExited code => s!"guest program has already exited with code {code.toInt}"
  | .alreadyStarted => "guest program has already been started"
  | .missingExport name => "guest module does not export `" ++ name ++ "`"
  | .memoryAccess address length =>
    s!"guest memory access out of bounds: {length} bytes at 0x" ++ Text.hexDigits address
  | .invalidHandle id => s!"guest referenced dead value handle {id.toNat}"
  | .trap reason => s!"guest trapped: {reason}"

def errno? : Fault → Option String
  | .unsupported _ => some "ENOSYS"
  | _ => none

/-- The trap of a computation that nests without bound. -/
def stackExhausted : Fault := .trap "call stack exhausted"

end Fault

end TokenizerHost
