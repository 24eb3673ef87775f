import TokenizerHost.Import
import TokenizerHost.World

/-!
# Guest code and host functions as data

What a guest frame or a host function does is a tree, `Code`: at each node it asks for one thing,
and goes on with the answer. It may look at everything, but it changes only the guest's own state
and memory, the heap, and the console; all else it reaches by calling imports and functions and by
resuming the guest. A frame that calls an import sees its fault as an answer, and the frames of
compiled guests pass that fault on (`Code.invokeImport`).

`Program` is a loaded guest: its entry points, and the functions that the embedding program adds.
-/

namespace TokenizerHost

inductive Callee where
  | function (f this : Value) (args : List Value)
  | constructor (ctor : Value) (args : List Value)

inductive Code (σ : Type) (α : Type) : Type where
  | done (result : α)
  | fault (e : Fault)
  | observe (next : World σ → Code σ α)
  | own (state : σ) (memory : Memory) (next : Code σ α)
  | heap (f : HeapM Value) (next : Value → Code σ α)
  | print (stream : Int) (bytes : ByteArray) (next : Except Fault Nat → Code σ α)
  | note (n : Notice) (next : Code σ α)
  | request (i : Import) (sp : Nat) (next : Except Fault Unit → Code σ α)
  | call (callee : Callee) (next : Except Fault Outcome → Code σ α)
  | resume (next : Except Fault Unit → Code σ α)

namespace Code

variable {σ α β : Type}

def bind : Code σ α → (α → Code σ β) → Code σ β
  | .done a, k => k a
  | .fault e, _ => .fault e
  | .observe next, k => .observe fun w => (next w).bind k
  | .own s m next, k => .own s m (next.bind k)
  | .heap f next, k => .heap f fun v => (next v).bind k
  | .print stream bytes next, k => .print stream bytes fun r => (next r).bind k
  | .note n next, k => .note n (next.bind k)
  | .request i sp next, k => .request i sp fun r => (next r).bind k
  | .call callee next, k => .call callee fun r => (next r).bind k
  | .resume next, k => .resume fun r => (next r).bind k

instance : Monad (Code σ) where
  pure := .done
  bind := .bind

def world : Code σ (World σ) := .observe .done

def throwing (v : HeapM Value) : Code σ Outcome := .heap v fun e => .done (.thrown e)

/-- Calls an import; its fault ends the frame. -/
def invokeImport (i : Import) (sp : Nat) : Code σ Unit :=
  .request i sp fun
    | .ok () => .done ()
    | .error e => .note (.importTrapped i.name) (.fault e)

def setMemory (m : Memory) : Code σ Unit := .observe fun w => .own w.own m (.done ())

def modifyOwn (f : σ → σ) : Code σ Unit := .observe fun w => .own (f w.own) w.memory (.done ())

end Code

structure Program (σ : Type) where
  stackPointer : σ → Nat
  run : ArgumentTable → Code σ Unit
  resume : Code σ Unit
  /-- The embedding program's functions, by name, for a receiver and arguments. -/
  functions : String → Value → List Value → Code σ Outcome

end TokenizerHost
