import TokenizerHost.GuestCode

namespace TokenizerHost.Builtin

variable {σ : Type}

def argument (args : List Value) (i : Nat) : Value := args.getD i .undefined

def lastArgument (args : List Value) : Value := args.getLastD .undefined

/-- The stream that a value names: its integer part, -1 if it is no number. -/
def streamOf (v : Value) : Int :=
  (v.number?.getD (.ofInt (-1))).saturate Int64.minValue.toInt Int64.maxValue.toInt

def errorOf (e : Fault) : HeapM Value := Heap.newErrno (e.errno?.getD "EIO") "not implemented"

def notSupported : HeapM Value := errorOf (.unsupported "")

def complete (callback : Value) (args : List Value) : Code σ Outcome :=
  .call (.function callback .undefined args) fun
    | .ok (.returned _) => .done (.returned .undefined)
    | .ok (.thrown v) => .done (.thrown v)
    | .error e => Code.throwing (Heap.newError e.message)

def completeWith (callback : Value) (e : HeapM Value) : Code σ Outcome :=
  .heap e fun v => complete callback [v]

def writing (args : List Value) (next : Int → ByteArray → Code σ Outcome) : Code σ Outcome :=
  .observe fun w =>
    match w.heap.bytes? (argument args 1) with
    | some bytes => next (streamOf (argument args 0)) bytes
    | none => Code.throwing (Heap.newTypeError "write buffer must be a Uint8Array")

def isWhole (args : List Value) (size : Nat) : Bool :=
  (argument args 2).sameAs (.number .zero) && (argument args 3).sameAs (.ofNat size) &&
    argument args 4 == .null

def callbackId? (v : Value) : Option UInt32 :=
  match v.number?.bind Double.toInt? with
  | some n => if 0 ≤ n ∧ n < UInt32.size then some (UInt32.ofNat n.toNat) else none
  | none => none

/-- What a native function does, for a receiver and arguments. `functions` are those of the
embedding program. -/
def code (functions : String → Value → List Value → Code σ Outcome) (f : Native) (this : Value)
    (args : List Value) : Code σ Outcome :=
  match f with
  | .writeSync => writing args fun stream bytes => .print stream bytes fun
    | .ok n => .done (.returned (.ofNat n))
    | .error e => Code.throwing (errorOf e)
  | .write => writing args fun stream bytes =>
    let callback := argument args 5
    if isWhole args bytes.size then .print stream bytes fun
      | .ok n => complete callback [.null, .ofNat n]
      | .error e => completeWith callback (errorOf e)
    else completeWith callback notSupported
  | .fsync => complete (lastArgument args) [.null]
  | .unsupportedFile => completeWith (lastArgument args) notSupported
  | .unsupportedProcess => Code.throwing notSupported
  | .processId => .done (.returned (.number (.ofInt (-1))))
  | .resolvePath => .observe fun w =>
    match args.mapM w.heap.text? with
    | some segments => .done (.returned (.string ("/".intercalate segments)))
    | none => .fault .stackExhausted
  | .wrapCallback =>
    match callbackId? (argument args 0) with
    | some id => .heap (Heap.newCallback id) fun v => .done (.returned v)
    | none => Code.throwing (Heap.newTypeError "callback id must be a non-negative integer")
  | .getTime millis => .done (.returned (.number millis))
  | .getTimezoneOffset => .done (.returned (.number .zero))
  | .embedded name => functions name this args

end TokenizerHost.Builtin
