namespace TokenizerHost

inductive Import where
  | wasmExit
  | wasmWrite
  | resetMemoryDataView
  | nanotime
  | walltime
  | scheduleTimeoutEvent
  | clearTimeoutEvent
  | getRandomData
  | finalizeRef
  | stringVal
  | valueGet
  | valueSet
  | valueDelete
  | valueIndex
  | valueSetIndex
  | valueCall
  | valueInvoke
  | valueNew
  | valueLength
  | valuePrepareString
  | valueLoadString
  | valueInstanceOf
  | copyBytesOut
  | copyBytesIn
  deriving DecidableEq, Repr, Inhabited

namespace Import

def all : List Import :=
  [.wasmExit, .wasmWrite, .resetMemoryDataView, .nanotime, .walltime, .scheduleTimeoutEvent,
    .clearTimeoutEvent, .getRandomData, .finalizeRef, .stringVal, .valueGet, .valueSet,
    .valueDelete, .valueIndex, .valueSetIndex, .valueCall, .valueInvoke, .valueNew, .valueLength,
    .valuePrepareString, .valueLoadString, .valueInstanceOf, .copyBytesOut, .copyBytesIn]

def name : Import → String
  | .wasmExit => "runtime.wasmExit"
  | .wasmWrite => "runtime.wasmWrite"
  | .resetMemoryDataView => "runtime.resetMemoryDataView"
  | .nanotime => "runtime.nanotime1"
  | .walltime => "runtime.walltime"
  | .scheduleTimeoutEvent => "runtime.scheduleTimeoutEvent"
  | .clearTimeoutEvent => "runtime.clearTimeoutEvent"
  | .getRandomData => "runtime.getRandomData"
  | .finalizeRef => "syscall/js.finalizeRef"
  | .stringVal => "syscall/js.stringVal"
  | .valueGet => "syscall/js.valueGet"
  | .valueSet => "syscall/js.valueSet"
  | .valueDelete => "syscall/js.valueDelete"
  | .valueIndex => "syscall/js.valueIndex"
  | .valueSetIndex => "syscall/js.valueSetIndex"
  | .valueCall => "syscall/js.valueCall"
  | .valueInvoke => "syscall/js.valueInvoke"
  | .valueNew => "syscall/js.valueNew"
  | .valueLength => "syscall/js.valueLength"
  | .valuePrepareString => "syscall/js.valuePrepareString"
  | .valueLoadString => "syscall/js.valueLoadString"
  | .valueInstanceOf => "syscall/js.valueInstanceOf"
  | .copyBytesOut => "syscall/js.copyBytesToGo"
  | .copyBytesIn => "syscall/js.copyBytesToJS"

def aliases : Import → List String
  | .walltime => ["runtime.walltime1"]
  | _ => []

def names (i : Import) : List String := i.name :: i.aliases

def ofName? (name : String) : Option Import := all.find? fun i => i.names.contains name

end Import

end TokenizerHost
