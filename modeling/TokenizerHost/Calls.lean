import TokenizerHost.Builtin
import TokenizerHost.Import.Dispatch

/-!
# Calling functions and entering the guest

`execute` carries out code. `callsWithin` is how functions are called by code that is itself
nested: each level of nesting runs what it calls with the level below, and below the last one the
stack is exhausted.

A guest callback is called by an event: a fresh object with the callback's id, the receiver and
the arguments is put on the bridge object, the guest is resumed, and what it has set as `result`
on that object is the value returned.
-/

namespace TokenizerHost

variable {σ : Type}

def Host.answer (i : Import) (step : Host σ Unit) : Host σ (Except Fault Unit) := do
  match ← attempt step with
  | .ok () =>
    record (.answered i none)
    return .ok ()
  | .error e =>
    record (.answered i (some e))
    return .error e

def Callee.run (c : Calls σ) : Callee → Host σ Outcome
  | .function f this args => c.call f this args
  | .constructor ctor args => c.construct ctor args

def execute {α : Type} (c : Calls σ) : Code σ α → Host σ α
  | .done a => pure a
  | .fault e => throw e
  | .observe next => fun w => execute c (next w) w
  | .own state memory next => do
    modify fun w => { w with own := state, memory }
    execute c next
  | .heap f next => do execute c (next (← Host.onHeap f))
  | .print stream bytes next => do execute c (next (← Host.print stream bytes))
  | .note n next => do
    Host.notify n
    execute c next
  | .request i sp next => do execute c (next (← Host.answer i (Import.dispatch c i sp)))
  | .call callee next => do execute c (next (← Host.attempt (callee.run c)))
  | .resume next => do execute c (next (← Host.attempt c.resume))

namespace Host

def enterFrame (cause : Cause) : Host σ Unit := do
  let w ← get
  let scheduler ← ofExcept w.scheduler.enter
  set (({ w with scheduler }.record .entered).mark (.entered cause))

def leaveFrame : Host σ Unit := modify fun w => { w with scheduler := w.scheduler.leave }

/-- Runs guest code as a frame of its own. The frame is left also when the code faults. -/
def frame (c : Calls σ) (cause : Cause) (code : Code σ Unit) : Host σ Unit := do
  ensureNotExited
  enterFrame cause
  let result ← attempt (execute c code)
  leaveFrame
  ofExcept result

def publishEvent (id : UInt32) (this : Value) (args : List Value) : Host σ Value := do
  let event ← onHeap do
    let list ← Heap.newArray args
    Heap.newObjectWith .object [("id", .ofNat id.toNat), ("this", this), ("args", list)]
  let bridge := (← get).bridge
  onHeap (Heap.put bridge "_pendingEvent" event)
  return event

def callGuest (c : Calls σ) (resume : Code σ Unit) (id : UInt32) (this : Value)
    (args : List Value) : Host σ Outcome := do
  let event ← publishEvent id this args
  frame c (.callback id) resume
  return .returned (← fromHeap (·.get event "result"))

end Host

namespace Program

def callWith (p : Program σ) (c : Calls σ) (f this : Value) (args : List Value) :
    Host σ Outcome := do
  match ← Host.fromHeap (·.function? f) with
  | none => Host.throwTypeError s!"{f.typeName} is not a function"
  | some fn =>
    match fn.kind with
    | .native n => execute c (Builtin.code p.functions n this args)
    | .constructor .uint8Array => Host.throwTypeError "Constructor Uint8Array requires 'new'"
    | .constructor cls => Host.construct cls args
    | .guestCallback id => Host.callGuest c p.resume id this args

/-- Calls a value as a constructor. A native function is called on a fresh object, and makes that
object unless it returns a container. -/
def constructWith (p : Program σ) (c : Calls σ) (ctor : Value) (args : List Value) :
    Host σ Outcome := do
  match ← Host.fromHeap (·.function? ctor) with
  | none => Host.throwTypeError s!"{ctor.typeName} is not a constructor"
  | some fn =>
    match fn.kind with
    | .constructor cls => Host.construct cls args
    | .native n =>
      let this ← Host.onHeap (Heap.newObject .object)
      match ← execute c (Builtin.code p.functions n this args) with
      | .returned v => return .returned (if v.isContainer then v else this)
      | .thrown v => return .thrown v
    | .guestCallback _ =>
      let name := if fn.name.isEmpty then "function" else fn.name
      Host.throwTypeError s!"{name} is not a constructor"

def callsWithin (p : Program σ) : (depth : Nat) → Calls σ
  | 0 =>
    ⟨p.stackPointer, fun _ _ _ => throw .stackExhausted, fun _ _ => throw .stackExhausted,
      throw .stackExhausted⟩
  | depth + 1 =>
    ⟨p.stackPointer,
      fun f this args w => callWith p (callsWithin p depth) f this args w,
      fun ctor args w => constructWith p (callsWithin p depth) ctor args w,
      fun w => Host.frame (callsWithin p depth) .embedded p.resume w⟩

def maxDepth : Nat := 1 <<< 20

def calls (p : Program σ) : Calls σ := p.callsWithin maxDepth

end Program

end TokenizerHost
