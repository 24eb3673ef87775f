import TokenizerHost.Import.Request

/-!
# What imports do

`dispatch` carries out one import: it reads the operands (`Request.decode`), does what is asked
(`Request.perform`), and writes the results at fixed offsets. Calls of functions go through `call`
and `construct`, which are given to it; they may run the guest again, so the results of an import
that calls, and of `valueGet`, are written relative to the stack pointer that the guest has then.

A value that a function throws is handed back with a flag, like a value it returns. Only faults
end the guest's frame.
-/

namespace TokenizerHost

/-- How functions are called while an import is carried out, and how these resume the guest. -/
structure Calls (σ : Type) where
  stackPointer : σ → Nat
  call : Value → Value → List Value → Host σ Outcome
  construct : Value → List Value → Host σ Outcome
  resume : Host σ Unit

namespace Import

variable {σ : Type}

def freshStackPointer (c : Calls σ) : Host σ Nat := do
  Host.ensureNotExited
  return c.stackPointer (← get).own

/-- Writes the outcome of a call: the value, and whether it was returned. A thrown value is put
into words for the log. -/
def storeOutcome (c : Calls σ) (offset : Nat) (outcome : Outcome) : Host σ Unit := do
  match outcome with
  | .returned _ => pure ()
  | .thrown v => discard (Host.textOf v)
  let sp ← freshStackPointer c
  Host.storeValue (sp + offset) outcome.value
  Host.onMemory (Memory.setU8 (sp + offset + 8) (if outcome.isReturned then 1 else 0))

def storeCopied (sp n : Nat) : Host σ Unit :=
  Host.onMemory do
    Memory.setI64 (sp + 40) n
    Memory.setU8 (sp + 48) 1

def nextEntropy (s : UInt64) : UInt64 := s * 6364136223846793005 + 1442695040888963407

def randomBytes (s : UInt64) : Nat → List UInt8 × UInt64
  | 0 => ([], s)
  | n + 1 =>
    let s := nextEntropy s
    let (rest, last) := randomBytes s n
    ((s >>> 56).toUInt8 :: rest, last)

def callMethod (c : Calls σ) (receiver : Value) (name : String) (args : List Value) :
    Host σ Outcome := do
  let f ← Host.fromHeap (·.get receiver name)
  if f.isFunction then c.call f receiver args
  else Host.throwTypeError s!"{receiver.typeName}.{name} is not a function"

def perform (c : Calls σ) (sp : Nat) : Request → Host σ Unit
  | .exit code => Host.exit code
  | .write stream bytes => discard (Host.print stream bytes)
  | .resetMemoryView => pure ()
  | .nanotime => do Host.onMemory (Memory.setI64 (sp + 8) ((← get).millis * 1000000))
  | .walltime => do
    let millis := (← get).millis
    Host.onMemory do
      Memory.setI64 (sp + 8) (millis / 1000 : Nat)
      Memory.setI32 (sp + 16) (Int32.ofNat (millis % 1000 * 1000000))
  | .schedule delay => do
    let w ← get
    let (id, scheduler) := w.scheduler.schedule delay
    set { w with scheduler }
    Host.onMemory (Memory.setI32 (sp + 16) id)
  | .clear id => Host.clearTimer id
  | .fillRandom target => do
    let w ← get
    let (bytes, entropy) := randomBytes w.entropy target.length
    set { w with entropy }
    Host.onMemory (Memory.write target.pointer bytes.toByteArray)
  | .finalize id => do
    modify fun w => { w with table := w.table.map (·.release id) }
    Host.record (.finalized id)
  | .intern text => Host.storeValue (sp + 24) (.string text)
  | .get v key => do
    let x ← Host.fromHeap (·.get v key)
    let sp ← freshStackPointer c
    Host.storeValue (sp + 32) x
  | .set v key x => Host.onHeap (modify (·.set v key x))
  | .delete v key => Host.onHeap (modify (·.delete v key))
  | .index v i => do Host.storeValue (sp + 24) (← Host.fromHeap (·.index v i))
  | .setIndex v i x => Host.onHeap (modify (·.setIndex v i x))
  | .method receiver name args => do storeOutcome c 56 (← callMethod c receiver name args)
  | .invoke f args => do storeOutcome c 40 (← c.call f .undefined args)
  | .construct ctor args => do storeOutcome c 40 (← c.construct ctor args)
  | .length v => do
    let n ← Host.fromHeap (·.length v)
    Host.onMemory (Memory.setI64 (sp + 16) (min (n : Int) Int64.maxValue.toInt))
  | .prepareText v => do
    let bytes := (← Host.textOf v).toUTF8
    let staged ← Host.onHeap (Heap.newBytes bytes)
    Host.storeValue (sp + 16) staged
    Host.onMemory (Memory.setI64 (sp + 24) bytes.size)
  | .loadText bytes target =>
    Host.onMemory (Memory.write target.pointer (bytes.extract 0 (min bytes.size target.length)))
  | .instanceOf v ctor => do
    let is ← Host.fromHeap (·.instanceOf v ctor)
    Host.onMemory (Memory.setU8 (sp + 24) (if is then 1 else 0))
  | .copyOut none | .copyIn none => Host.onMemory (Memory.setU8 (sp + 48) 0)
  | .copyOut (some (bytes, target)) => do
    let n := min bytes.size target.length
    Host.onMemory (Memory.write target.pointer (bytes.extract 0 n))
    storeCopied sp n
  | .copyIn (some (v, source)) => do
    let size ← Host.fromHeap fun h => ((h.bytes? v).elim 0 ByteArray.size)
    Host.onHeap (modify fun h => h.setBytes v (Buffer.overwrite ((h.bytes? v).getD .empty) source))
    storeCopied sp (min size source.size)

/-- What an import's operands are read from; faults if the guest has exited. -/
def view : Host σ Request.View := fun w =>
  match w.exitCode?, w.table with
  | none, some table => .ok ⟨w.memory, table, w.heap⟩ w
  | code, _ => .error (.alreadyExited (code.getD 0)) w

def dispatch (c : Calls σ) (i : Import) (sp : Nat) : Host σ Unit :=
  match i with
  | .resetMemoryDataView => pure ()
  | i => do
    let operands ← view
    let request ← Host.ofExcept (Request.decode i operands sp)
    perform c sp request

end Import

end TokenizerHost
