import TokenizerHost.Script.MemoryStep
import TokenizerHost.Script.Results
import TokenizerHost.Script.ValueStep
import TokenizerHost.Session

namespace TokenizerHost.Script

inductive SlotTerm where
  | bits (b : UInt64)
  | register (name : String)
  deriving Inhabited

namespace SlotTerm

/-- The slots that have a name, and registers for all other names. -/
def named : String → SlotTerm
  | "undefined" => .bits 0
  | "nan" => .bits (Slot.ref ValueTable.nanHandle .none).encode
  | "zero" => .bits (Slot.ref ValueTable.zeroHandle .none).encode
  | "null" => .bits (Slot.ref ValueTable.nullHandle .none).encode
  | "true" => .bits (Slot.ref ValueTable.trueHandle .none).encode
  | "false" => .bits (Slot.ref ValueTable.falseHandle .none).encode
  | "global" => .bits (Slot.ref ValueTable.globalHandle .object).encode
  | "bridge" => .bits (Slot.ref ValueTable.bridgeHandle .object).encode
  | name => .register name

end SlotTerm

inductive OperandTerm where
  | slot (s : SlotTerm)
  | slots (items : List SlotTerm)
  | plain (o : Operand)
  deriving Inhabited

inductive GuestStep where
  | setStackPointer (sp : UInt32)
  | stackPointer
  | reveal (s : SlotTerm)
  | state
  | memory (step : MemoryStep)
  | putSlot (address : Nat) (s : SlotTerm)
  | saveSlot (address : Nat) (register : String)
  | request (i : Import) (sp : Option Nat)
  | call (i : Import) (operands : List OperandTerm) (register : Option String)
  deriving Inhabited

inductive EndAction where
  | trap
  | exit (code : Int32)
  | invoke (name : String) (sp : Option UInt32)
  deriving Inhabited

structure FrameScript where
  steps : List GuestStep
  finish : List EndAction
  deriving Inhabited

inductive TraceEvent where
  | run (args : ArgumentTable)
  | resume (n : Nat)
  | step (a : Answer)
  | finished
  | cutShort (e : Fault)
  | record (args : List Snapshot)
  deriving Inhabited

structure State where
  sp : Nat
  slots : Assoc String UInt64
  resumes : List FrameScript
  resumed : Nat
  trace : Array TraceEvent
  values : Registers
  deriving Inhabited

abbrev Step := Code State

namespace State

def initialStackPointer : Nat := 32768

def new (resumes : List FrameScript) : State := ⟨initialStackPointer, .empty, resumes, 0, #[], .empty⟩

def log (s : State) (e : TraceEvent) : State := { s with trace := s.trace.push e }

def slotBits (s : State) : SlotTerm → UInt64
  | .bits b => b
  | .register name => (s.slots.find? name).getD 0

def keep (s : State) (register : Option String) (bits : Option UInt64) : State :=
  match register, bits with
  | some name, some b => { s with slots := s.slots.insert name b }
  | _, _ => s

def operand (s : State) : OperandTerm → Operand
  | .slot t => .slot (s.slotBits t)
  | .slots items => .slots (items.map s.slotBits)
  | .plain o => o

end State

def stagingBase : Nat := 40000

def writeDown (e : TraceEvent) : Step Unit := Code.modifyOwn (·.log e)

def exited? (w : World State) : Option Fault := w.exitCode?.map .alreadyExited

/-- Code that sees memory, handles and heap, unless the guest has exited. -/
def whileAlive (next : World State → ValueTable → Step Answer) : Step Answer :=
  .observe fun w =>
    match exited? w, w.table with
    | none, some t => next w t
    | some e, _ => .done (.fault e)
    | none, none => .done (.fault (.alreadyExited 0))

def changeMemory (w : World State) (change : MemoryM Unit) (next : Step Answer) : Step Answer :=
  match change w.memory with
  | .ok () m => .own w.own m next
  | .error e m => .own w.own m (.done (.fault e))

/-- Where a guest lays out its own calls of the embedding program: the last kilobyte of memory. -/
def controlBase (m : Memory) : Nat := m.size - 1024

/-- The call by which a frame has its steps played, and the one by which a slot is shown: their
places in the control area, and the places and lengths of the names they call. -/
def frameCall : Nat × Nat × Nat := (0, 300, 7)

def revealCall : Nat × Nat × Nat := (128, 316, 6)

def layOutCall (call : Nat × Nat × Nat) (m : Memory) : Memory :=
  let (offset, place, length) := call
  let base := controlBase m
  let write : MemoryM Unit := do
    Memory.storeSlot (base + offset + 8) (.ref ValueTable.globalHandle .object)
    Memory.setI64 (base + offset + 16) (base + place : Nat)
    Memory.setI64 (base + offset + 24) length
  match write m with
  | .ok () m | .error _ m => m

def returnFromFrame (m : Memory) : Memory :=
  let write : MemoryM Unit := do
    Memory.storeSlot (controlBase m + 56) .undefined
    Memory.setU8 (controlBase m + 64) 1
  match write m with
  | .ok () m | .error _ m => m

def readResults (i : Import) (target : Option (Int × Int)) (register : Option String) : Step Answer :=
  if i.resultCells = .nothing then .done .nothing
  else whileAlive fun w t =>
    match i.resultCells.read ⟨w.memory, t, w.heap⟩ w.own.sp target with
    | .ok (answer, bits) =>
      let m := if bits.isSome then layOutCall revealCall w.memory else w.memory
      .own (w.own.keep register bits) m (.done answer)
    | .error e => .done (.fault e)

def requestAt (i : Import) (sp : Nat) : Step Answer :=
  .request i sp fun
    | .ok () => .done .nothing
    | .error e => .done (.fault e)

namespace GuestStep

def code : GuestStep → Step Answer
  | .setStackPointer sp => whileAlive fun w _ =>
    .own { w.own with sp := sp.toNat } w.memory (.done .nothing)
  | .stackPointer => whileAlive fun w _ => .done (.integer w.own.sp)
  | .reveal s => whileAlive fun w t =>
    .own w.own (layOutCall revealCall w.memory)
      (.done (GuestView.reveal ⟨w.memory, t, w.heap⟩ (w.own.slotBits s)))
  | .state => .observe fun w =>
    .done (.record [("live", .integer w.liveHandles), ("global", .value (w.heap.snapshot w.global))])
  | .memory step => whileAlive fun w t =>
    let (answer, m) := step.run w.memory t w.heap
    .own w.own m (.done answer)
  | .putSlot address s => whileAlive fun w _ =>
    changeMemory w (Memory.setWord address 8 (w.own.slotBits s).toNat) (.done .nothing)
  | .saveSlot address register => whileAlive fun w _ =>
    match w.memory.getWord address 8 with
    | .ok n => .own (w.own.keep (some register) (some (.ofNat n))) w.memory (.done (.bits (.ofNat n)))
    | .error e => .done (.fault e)
  | .request i (some sp) => requestAt i sp
  | .request i none => whileAlive fun w _ => requestAt i w.own.sp
  | .call i operands register => whileAlive fun w _ =>
    let placed := i.operandCells.zip (operands.map w.own.operand)
    changeMemory w (Operand.writeAll w.own.sp stagingBase placed)
      (.request i w.own.sp fun
        | .ok () => readResults i (Operand.destination? placed) register
        | .error e => .done (.fault e))

end GuestStep

def play : List GuestStep → Step Unit
  | [] => .done ()
  | step :: rest => do
    writeDown (.step (← step.code))
    play rest

def writeExitCodes (sp : Nat) : List EndAction → MemoryM Unit
  | [] => return
  | .exit code :: rest => do
    Memory.setI32 (sp + 8) code
    writeExitCodes sp rest
  | _ :: rest => writeExitCodes sp rest

def finish (l : Linker) (space : String) (sp : Nat) : List EndAction → Step Unit
  | [] => .done ()
  | .trap :: _ => .fault (.trap "unreachable")
  | .exit _ :: rest => do
    l.invoke space Import.wasmExit.name sp
    finish l space sp rest
  | .invoke name given :: rest => do
    l.invoke space name ((given.map UInt32.toNat).getD sp)
    finish l space sp rest

def frame (l : Linker) (space : String) (opening : TraceEvent) (s : FrameScript) : Step Unit :=
  match l.resolve? space Import.valueCall.name with
  | none => .fault (Linker.unknownImport space Import.valueCall.name)
  | some _ => do
    writeDown opening
    Code.setMemory (layOutCall frameCall (← Code.world).memory)
    play s.steps
    let w ← Code.world
    match exited? w with
    | some e =>
      writeDown (.cutShort e)
      .fault e
    | none =>
      writeDown .finished
      let sp := w.own.sp
      match writeExitCodes sp s.finish (returnFromFrame w.memory) with
      | .ok () m | .error _ m => Code.setMemory m
      finish l space sp s.finish

def resumption (l : Linker) (space : String) : Step Unit := do
  let w ← Code.world
  let own := w.own
  Code.modifyOwn fun s => { s with resumes := s.resumes.tail, resumed := s.resumed + 1 }
  frame l space (.resume (own.resumed + 1)) (own.resumes.head?.getD ⟨[], []⟩)

def functions (name : String) (this : Value) (args : List Value) : Step Outcome :=
  let first := args.headD .undefined
  match name with
  | "echo" => .done (.returned first)
  | "this" => .done (.returned this)
  | "argc" => .done (.returned (.ofNat args.length))
  | "args" => .heap (Heap.newArray args) fun v => .done (.returned v)
  | "throw" => .done (.thrown first)
  | "boom" => Code.throwing (Heap.newError "boom")
  | "tag" => .heap (do Heap.put this "tag" first; return .undefined) fun v => .done (.returned v)
  | "record" => .observe fun w =>
    .own (w.own.log (.record (args.map w.heap.snapshot))) w.memory (.done (.returned .undefined))
  | "call0" => .call (.function first .undefined args.tail) fun
    | .ok o => .done o
    | .error e => Code.throwing (Heap.newError e.message)
  | _ => .done (.returned .undefined)

def program (run : FrameScript) (space : String) (l : Linker) : Program State where
  stackPointer := State.sp
  run args := frame l space (.run args) run
  resume := resumption l space
  functions := functions

def playOutside (p : Program State) (steps : List GuestStep) : Host State Unit := do
  Host.ensureNotExited
  execute p.calls (play steps)

end TokenizerHost.Script
