import TokenizerHost.Import.Dispatch
import TokenizerHost.Script.Answer
import TokenizerHost.Script.Literal

namespace TokenizerHost.Script

inductive ValueStep where
  | make (v : Literal)
  | get (v : Literal) (key : String)
  | set (v : Literal) (key : String) (x : Literal)
  | delete (v : Literal) (key : String)
  | index (v : Literal) (i : Int)
  | setIndex (v : Literal) (i : Int) (x : Literal)
  | length (v : Literal)
  | ownLength (v : Literal)
  | instanceOf (v ctor : Literal)
  | typeName (v : Literal)
  | text (v : Literal)
  | inspect (v : Literal)
  | same (a b : Literal)
  | isNullish (v : Literal)
  | isBytes (v : Literal)
  | number (v : Literal)
  | string (v : Literal)
  | push (v x : Literal)
  | sparse (length : Nat)
  | isEmpty (v : Literal)
  | contains (v : Literal) (key : String)
  | copyFrom (v : Literal) (source : ByteArray)
  | copyInto (v : Literal) (size : Nat)
  | call (f this : Literal) (args : List Literal)
  | construct (f : Literal) (args : List Literal)
  deriving Inhabited

def filler : UInt8 := 0xAA

variable {σ : Type}

def snapshotOf (v : Value) : Host σ Snapshot := Host.fromHeap (·.snapshot v)

def shown (v : Value) : Host σ (Answer × Option Value) :=
  return (.value (← snapshotOf v), some v)

def shownOutcome (o : Outcome) : Host σ (Answer × Option Value) :=
  return (.outcome o.isReturned (← snapshotOf o.value), some o.value)

def answered (a : Answer) : Host σ (Answer × Option Value) := return (a, none)

namespace ValueStep

def run (c : Calls σ) (r : Registers) (step : ValueStep) : Host σ (Answer × Option Value) := do
  let build (l : Literal) : Host σ Value := Host.onHeap (l.build r)
  match step with
  | .make v => shown (← build v)
  | .get v key =>
    let v ← build v
    shown (← Host.fromHeap (·.get v key))
  | .set v key x =>
    let v ← build v
    let x ← build x
    Host.onHeap (modify (·.set v key x))
    answered .nothing
  | .delete v key =>
    let v ← build v
    Host.onHeap (modify (·.delete v key))
    answered .nothing
  | .index v i =>
    let v ← build v
    shown (← Host.fromHeap (·.index v i))
  | .setIndex v i x =>
    let v ← build v
    let x ← build x
    Host.onHeap (modify (·.setIndex v i x))
    answered .nothing
  | .length v =>
    let v ← build v
    answered (.integer (← Host.fromHeap (·.length v)))
  | .ownLength v =>
    let v ← build v
    if v.isContainer || v.string?.isSome then
      answered (.ofOption (fun n => .integer (n : Nat)) (← Host.fromHeap (·.length? v)))
    else answered (.flag false)
  | .instanceOf v ctor =>
    let v ← build v
    let ctor ← build ctor
    answered (.flag (← Host.fromHeap (·.instanceOf v ctor)))
  | .typeName v => answered (.text (← build v).typeName)
  | .text v => answered (.text (← Host.textOf (← build v)))
  | .inspect v =>
    let v ← build v
    answered (.text (← Host.fromHeap (·.inspect v)))
  | .same a b =>
    let a ← build a
    answered (.flag (a.sameAs (← build b)))
  | .isNullish v => answered (.flag (← build v).isNullish)
  | .isBytes v => answered (.flag (← build v).isBytes)
  | .number v => answered (.ofOption .double (← build v).number?)
  | .string v => answered (.ofOption .text (← build v).string?)
  | .push v x =>
    let v ← build v
    let x ← build x
    let n ← Host.fromHeap (·.length v)
    Host.onHeap (modify (·.setElement v n x))
    answered (.integer (← Host.fromHeap (·.length v)))
  | .sparse n => shown (← Host.onHeap (Heap.newElements (.sparse n)))
  | .isEmpty v =>
    let v ← build v
    answered (.flag ((← Host.fromHeap (·.length v)) == 0))
  | .contains v key =>
    let v ← build v
    answered (.flag (← Host.fromHeap (·.hasOwn v key)))
  | .copyFrom v source =>
    let v ← build v
    let bytes ← Host.fromHeap fun h => (h.bytes? v).getD .empty
    Host.onHeap (modify (·.setBytes v (Buffer.overwrite bytes source)))
    answered (.integer (min bytes.size source.size : Nat))
  | .copyInto v size =>
    let v ← build v
    let bytes ← Host.fromHeap fun h => (h.bytes? v).getD .empty
    let target := (List.replicate size filler).toByteArray
    answered (.record [("n", .integer (min bytes.size size : Nat)),
      ("dst", .bytes (Buffer.overwrite target bytes))])
  | .call f this args =>
    let f ← build f
    let this ← build this
    let args ← Host.onHeap (Literal.buildAll r args)
    shownOutcome (← c.call f this args)
  | .construct f args =>
    let f ← build f
    let args ← Host.onHeap (Literal.buildAll r args)
    shownOutcome (← c.construct f args)

end ValueStep

end TokenizerHost.Script
