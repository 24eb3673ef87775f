import TokenizerHost.Arguments
import TokenizerHost.Console
import TokenizerHost.Heap.Construct
import TokenizerHost.Heap.Text
import TokenizerHost.Import
import TokenizerHost.Memory
import TokenizerHost.Scheduler

/-!
# The state of a guest and its host

Everything that a running guest and its host can change is one value, `World`. It is generic in
the guest's own state, which the host never touches. A step of the host is a computation over it
(`Host`) that may fault and keeps what it has done when it does.

The value table is dropped when the guest exits, so `table` is `none` from then on, and every step
that needs it answers that the guest has exited.

The host keeps a journal of what it does with handles, guest memory, frames and output, and a
timeline of what the guest is entered for and which timers are disarmed. Nothing reads them to
decide what to do next.
-/

namespace TokenizerHost

inductive LogLevel where
  | error
  | warn
  | info
  | debug
  | trace
  deriving DecidableEq, Repr, Inhabited

namespace LogLevel

def label : LogLevel → String
  | .error => "ERROR"
  | .warn => "WARN"
  | .info => "INFO"
  | .debug => "DEBUG"
  | .trace => "TRACE"

end LogLevel

/-- What the host reports about a guest, besides the guest's own output. -/
inductive Notice where
  | missedTimer (id : Int32) (attempt : Nat)
  | droppedTimer (id : Int32) (refires : Nat)
  | exited (code : Int32)
  | importTrapped (name : String)
  deriving DecidableEq, Repr

namespace Notice

def level : Notice → LogLevel
  | .missedTimer _ _ => .warn
  | .droppedTimer _ _ => .error
  | .exited code => if code = 0 then .info else .warn
  | .importTrapped _ => .warn

def message : Notice → String
  | .missedTimer id attempt => s!"missed timeout event timer_id={id.toInt} attempt={attempt}"
  | .droppedTimer id refires =>
    s!"timer never cleared by guest; dropping it timer_id={id.toInt} refires={refires}"
  | .exited code =>
    (if code = 0 then "guest program exited" else "guest program exited with non-zero code") ++
      s!" code={code.toInt}"
  | .importTrapped name => s!"host import trapped import={name}"

end Notice

inductive Event where
  | entered
  | wrote
  | printed (stream : Int)
  /-- A handle that named nothing was given to a value. -/
  | allocated (id : UInt32) (v : Value)
  /-- A slot was written for the guest. -/
  | handed (address : Nat) (slot : Slot)
  /-- The guest gave up one reference to a handle. -/
  | finalized (id : UInt32)
  | answered (i : Import) (fault : Option Fault)
  | exited (code : Int32)
  deriving DecidableEq

inductive Cause where
  | run
  | timer (id : Int32)
  | callback (id : UInt32)
  /-- A function of the embedding program resumes it. -/
  | embedded
  deriving DecidableEq, Repr

inductive Milestone where
  | entered (cause : Cause)
  | disarmed (id : Int32)
  deriving DecidableEq, Repr

structure World (σ : Type) where
  heap : Heap
  /-- Handed-out references, until the guest exits. -/
  table : Option ValueTable
  scheduler : Scheduler
  console : Console
  memory : Memory
  global : Value
  bridge : Value
  argv : List String
  env : Environment
  notices : Array Notice
  /-- What happened, the latest first. -/
  journal : List Event
  /-- Entries of the guest and timers disarmed, the latest first. -/
  timeline : List Milestone
  epoch : Nat
  entropy : UInt64
  own : σ

abbrev Host (σ : Type) := EStateM Fault (World σ)

namespace World

variable {σ : Type}

def state (w : World σ) : GuestState := w.scheduler.state

def exitCode? (w : World σ) : Option Int32 := w.scheduler.exitCode?

def liveHandles (w : World σ) : Nat := w.table.elim 0 ValueTable.liveHandles

def pendingTimers (w : World σ) : Nat := w.scheduler.pendingTimers

def notify (w : World σ) (n : Notice) : World σ := { w with notices := w.notices.push n }

def record (w : World σ) (e : Event) : World σ := { w with journal := e :: w.journal }

def mark (w : World σ) (m : Milestone) : World σ := { w with timeline := m :: w.timeline }

def clearTimer (w : World σ) (id : Int32) : World σ :=
  let (armed, scheduler) := w.scheduler.clear id
  { w with
    scheduler
    timeline := if armed then .disarmed id :: w.timeline else w.timeline }

def storing (w : World σ) (t : ValueTable) (v : Value) : World σ :=
  { w with
    table := some (t.store v).2
    journal :=
      match t.allocates? v with
      | some id => .allocated id v :: w.journal
      | none => w.journal }

def exitSignal (w : World σ) : Option Int32 := w.scheduler.announced

/-- Ends the guest: what it has written is printed, its references and armed timers are dropped. -/
def exit (w : World σ) (code : Int32) : World σ :=
  { w with
    console := w.console.flush
    table := none
    scheduler := w.scheduler.exit code
    notices := w.notices.push (.exited code)
    journal := .exited code :: w.journal }

def millis (w : World σ) : Nat := w.epoch + w.scheduler.now

def inspect (w : World σ) : String :=
  "BridgeState \x7b state: " ++ w.state.text ++ ", live_handles: " ++ toString w.liveHandles ++
    ", pending_timers: " ++ toString w.pendingTimers ++ ", has_guest: true, argv: " ++
    Text.quotedList w.argv ++ ", .. \x7d"

/-- How many log lines of a level contain a text: the notices, and what the guest printed (its
standard output at `info`, its standard error at `warn`). -/
def countLog (w : World σ) (level : LogLevel) (needle : String) : Nat :=
  let notices := w.notices.toList.filterMap fun n =>
    if n.level = level then some n.message else none
  let lines := w.console.lines.toList.filterMap fun l =>
    if level = (if l.stream = 2 then .warn else .info) then some l.text else none
  ((notices ++ lines).filter fun text => (text.splitOn needle).length ≠ 1).length

end World

namespace Host

variable {σ : Type}

def ofExcept {α : Type} (r : Except Fault α) : Host σ α := fun w =>
  match r with
  | .ok a => .ok a w
  | .error e => .error e w

def attempt {α : Type} (step : Host σ α) : Host σ (Except Fault α) := fun w =>
  match step w with
  | .ok a w => .ok (.ok a) w
  | .error e w => .ok (.error e) w

def onHeap {α : Type} (f : HeapM α) : Host σ α := fun w =>
  let (a, heap) := f w.heap
  .ok a { w with heap }

def onMemory {α : Type} (f : MemoryM α) : Host σ α := fun w =>
  match w.exitCode? with
  | some code => .error (.alreadyExited code) w
  | none =>
    match f w.memory with
    | .ok a memory => .ok a ({ w with memory }.record .wrote)
    | .error e memory => .error e ({ w with memory }.record .wrote)

def fromHeap {α : Type} (f : Heap → α) : Host σ α := fun w => .ok (f w.heap) w

def ensureNotExited : Host σ Unit := fun w =>
  match w.exitCode? with
  | some code => .error (.alreadyExited code) w
  | none => .ok () w

def record (e : Event) : Host σ Unit := modify (·.record e)

def storeInTable (v : Value) : Host σ Slot := fun w =>
  match w.table with
  | some t => .ok (t.store v).1 (w.storing t v)
  | none => .error (.alreadyExited (w.exitCode?.getD 0)) w

def storeValue (address : Nat) (v : Value) : Host σ Unit := do
  ensureNotExited
  let slot ← storeInTable v
  onMemory (Memory.storeSlot address slot)
  record (.handed address slot)

/-- The text of a value. One that holds itself has none, and the search for it ends in a trap. -/
def textOf (v : Value) : Host σ String := do
  match ← fromHeap (·.text? v) with
  | some text => pure text
  | none => throw .stackExhausted

def throwTypeError (message : String) : Host σ Outcome := do
  return .thrown (← onHeap (Heap.newTypeError message))

def construct (c : Class) (args : List Value) : Host σ Outcome := do
  let first := args.headD .undefined
  match c with
  | .object => onHeap (Heap.constructObject first)
  | .array => onHeap (Heap.constructArray args)
  | .uint8Array => onHeap (Heap.constructBytes first)
  | .date =>
    let now := Double.ofNat (← get).millis
    onHeap (Heap.constructDate (first.number?.getD now))
  | .error =>
    let message ← if first.isNullish then pure "" else textOf first
    return .returned (← onHeap (Heap.newError message))

def print (stream : Int) (bytes : ByteArray) : Host σ (Except Fault Nat) := fun w =>
  let (r, console) := w.console.write stream bytes
  .ok r ({ w with console }.record (.printed stream))

def notify (n : Notice) : Host σ Unit := modify (·.notify n)

def exit (code : Int32) : Host σ Unit := modify (·.exit code)

def clearTimer (id : Int32) : Host σ Unit := modify (·.clearTimer id)

end Host

end TokenizerHost
