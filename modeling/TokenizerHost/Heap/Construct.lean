import TokenizerHost.Heap.Access

namespace TokenizerHost.Heap

def put (v : Value) (key : String) (x : Value) : HeapM Unit := modify (·.set v key x)

def newObjectWith (cls : Class) (props : List (String × Value)) : HeapM Value := do
  let v ← newObject cls
  props.forM fun (k, x) => put v k x
  pure v

def newErrorNamed (name message : String) : HeapM Value :=
  newObjectWith .error [("name", .string name), ("message", .string message)]

def newError (message : String) : HeapM Value := newErrorNamed "Error" message

def newTypeError (message : String) : HeapM Value := newErrorNamed "TypeError" message

def newErrno (code message : String) : HeapM Value :=
  newObjectWith .error [("name", .string "Error"), ("message", .string message),
    ("code", .string code)]

/-- The length that a number asks for, if it is a natural number within a limit. -/
def requestedLength? (n : Double) (limit : Nat) : Option Nat :=
  match n.toInt? with
  | some i => if 0 ≤ i ∧ i.toNat ≤ limit then some i.toNat else none
  | none => none

def throwRange (kind : String) : HeapM Outcome := do
  pure (.thrown (← newErrorNamed "RangeError" s!"Invalid {kind} length"))

def constructArray (args : List Value) : HeapM Outcome :=
  match args with
  | [.number n] =>
    match requestedLength? n maxArrayLength with
    | some length => return .returned (← newElements (.sparse length))
    | none => throwRange "array"
  | _ => return .returned (← newArray args)

def bytesOfElements (e : Elements) : ByteArray :=
  e.toList.foldl (fun bytes v => bytes.push (Buffer.byteOf v)) ByteArray.empty

/-- A byte array of a requested length, or with the content of another container. -/
def constructBytes (source : Value) : HeapM Outcome := do
  match source with
  | .number n =>
    match requestedLength? n maxBytesLength with
    | some length => return .returned (← newBytes (Buffer.zeros length))
    | none => throwRange "typed array"
  | .bytes _ => return .returned (← newBytes (((← getThe Heap).bytes? source).getD ByteArray.empty))
  | .array _ =>
    return .returned (← newBytes (((← getThe Heap).elements? source).elim ByteArray.empty bytesOfElements))
  | _ => return .returned (← newBytes ByteArray.empty)

def constructDate (millis : Double) : HeapM Outcome := do
  let v ← newObject .date
  put v "getTime" (← newNative "getTime" (.getTime millis))
  put v "getTimezoneOffset" (← newNative "getTimezoneOffset" .getTimezoneOffset)
  return .returned v

/-- A container is its own object; anything else makes a new one. -/
def constructObject (first : Value) : HeapM Outcome := do
  if first.isContainer then return .returned first
  else return .returned (← newObject .object)

end TokenizerHost.Heap
