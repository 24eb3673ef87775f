import TokenizerHost.GuestCode

namespace TokenizerHost

inductive Request where
  | exit (code : Int32)
  | write (stream : Int) (bytes : ByteArray)
  | resetMemoryView
  | nanotime
  | walltime
  | schedule (delay : Int)
  | clear (id : Int32)
  | fillRandom (target : Span)
  | finalize (id : UInt32)
  | intern (text : String)
  | get (v : Value) (key : String)
  | set (v : Value) (key : String) (x : Value)
  | delete (v : Value) (key : String)
  | index (v : Value) (i : Int)
  | setIndex (v : Value) (i : Int) (x : Value)
  | method (receiver : Value) (name : String) (args : List Value)
  | invoke (f : Value) (args : List Value)
  | construct (ctor : Value) (args : List Value)
  | length (v : Value)
  | prepareText (v : Value)
  | loadText (bytes : ByteArray) (target : Span)
  | instanceOf (v ctor : Value)
  | copyOut (source : Option (ByteArray × Span))
  | copyIn (target : Option (Value × ByteArray))
  deriving Inhabited

namespace Request

structure View where
  memory : Memory
  table : ValueTable
  heap : Heap

namespace View

def value (w : View) (address : Nat) : Except Fault Value := w.memory.loadValue w.table address

def values (w : View) (address : Nat) : Except Fault (List Value) :=
  w.memory.loadValues w.table address

/-- An address and a length as unsigned integers of 64 and 32 bits. -/
def rawSlice (w : View) (pointer : Int) (length : Int32) : Except Fault ByteArray :=
  w.memory.slice (pointer % UInt64.size).toNat length.toUInt32.toNat

end View

def decode (i : Import) (w : View) (sp : Nat) : Except Fault Request := do
  let m := w.memory
  match i with
  | .wasmExit => return .exit (← m.getI32 (sp + 8))
  | .wasmWrite =>
    let stream ← m.getI64 (sp + 8)
    let pointer ← m.getI64 (sp + 16)
    let length ← m.getI32 (sp + 24)
    return .write stream (← w.rawSlice pointer length)
  | .resetMemoryDataView => return .resetMemoryView
  | .nanotime => return .nanotime
  | .walltime => return .walltime
  | .scheduleTimeoutEvent => return .schedule (← m.getI64 (sp + 8))
  | .clearTimeoutEvent => return .clear (← m.getI32 (sp + 8))
  | .getRandomData => return .fillRandom (← m.loadRange (sp + 8))
  | .finalizeRef => return .finalize (← m.getU32 (sp + 8))
  | .stringVal => return .intern (← m.loadString (sp + 8))
  | .valueGet =>
    let v ← w.value (sp + 8)
    return .get v (← m.loadString (sp + 16))
  | .valueSet =>
    let v ← w.value (sp + 8)
    let key ← m.loadString (sp + 16)
    return .set v key (← w.value (sp + 32))
  | .valueDelete =>
    let v ← w.value (sp + 8)
    return .delete v (← m.loadString (sp + 16))
  | .valueIndex =>
    let v ← w.value (sp + 8)
    return .index v (← m.getI64 (sp + 16))
  | .valueSetIndex =>
    let v ← w.value (sp + 8)
    let x ← w.value (sp + 24)
    return .setIndex v (← m.getI64 (sp + 16)) x
  | .valueCall =>
    let receiver ← w.value (sp + 8)
    let name ← m.loadString (sp + 16)
    return .method receiver name (← w.values (sp + 32))
  | .valueInvoke =>
    let f ← w.value (sp + 8)
    return .invoke f (← w.values (sp + 16))
  | .valueNew =>
    let ctor ← w.value (sp + 8)
    return .construct ctor (← w.values (sp + 16))
  | .valueLength => return .length (← w.value (sp + 8))
  | .valuePrepareString => return .prepareText (← w.value (sp + 8))
  | .valueLoadString =>
    let staged ← w.value (sp + 8)
    match w.heap.bytes? staged with
    | some bytes => return .loadText bytes (← m.loadRange (sp + 16))
    | none =>
      throw (.dispatchFailure "valueLoadString"
        s!"expected staged string bytes, got {staged.typeName}")
  | .valueInstanceOf =>
    let v ← w.value (sp + 8)
    return .instanceOf v (← w.value (sp + 16))
  | .copyBytesOut =>
    let v ← w.value (sp + 32)
    match w.heap.bytes? v with
    | some bytes => return .copyOut (some (bytes, ← m.loadRange (sp + 8)))
    | none => return .copyOut none
  | .copyBytesIn =>
    let v ← w.value (sp + 8)
    match w.heap.bytes? v with
    | some _ => return .copyIn (some (v, ← m.loadSlice (sp + 16)))
    | none => return .copyIn none

end Request

end TokenizerHost
