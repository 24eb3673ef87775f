import TokenizerHost.GuestModule
import TokenizerHost.Import.Cells

namespace TokenizerHost

inductive SampleGuest where
  | fixture
  | chars
  | silent
  | exitAtStart (code : Int32)
  | exitOnCall (code : Int32)
  | trapAtStart
  | trapOnCall
  /-- Arms a timer at the start and never clears it. -/
  | timer (millis : Int)
  /-- Calls an import with a stack pointer outside memory. -/
  | faultOnCall
  deriving DecidableEq, Repr, Inhabited

namespace SampleGuest

variable {σ : Type}

def importSpace : String := "gojs"

def stackPointer : Nat := 50000

def staging : Nat := 20000

def globalSlot : UInt64 := (Slot.ref ValueTable.globalHandle .object).encode

def bridgeSlot : UInt64 := (Slot.ref ValueTable.bridgeHandle .object).encode

def countSlot (n : Nat) : UInt64 :=
  if n = 0 then (Slot.ref ValueTable.zeroHandle .none).encode else (Double.ofNat n).bits

def callImport (l : Linker) (i : Import) (operands : List Operand) : Code σ Unit := do
  let w ← Code.world
  match Operand.writeAll stackPointer staging (i.operandCells.zip operands) w.memory with
  | .error e _ => .fault e
  | .ok () m =>
    Code.setMemory m
    l.invoke importSpace i.name stackPointer

def resultAt (offset : Nat) : Code σ UInt64 := do
  match (← Code.world).memory.getWord (stackPointer + offset) 8 with
  | .ok n => return .ofNat n
  | .error e => .fault e

def named (name : String) : Operand := .bytes name.toUTF8

def getProperty (l : Linker) (v : UInt64) (name : String) : Code σ UInt64 := do
  callImport l .valueGet [.slot v, named name]
  resultAt 32

def setProperty (l : Linker) (v : UInt64) (name : String) (x : UInt64) : Code σ Unit :=
  callImport l .valueSet [.slot v, named name, .slot x]

def getElement (l : Linker) (v : UInt64) (i : Nat) : Code σ UInt64 := do
  callImport l .valueIndex [.slot v, .integer i]
  resultAt 24

def stringSlot (l : Linker) (text : String) : Code σ UInt64 := do
  callImport l .stringVal [named text]
  resultAt 24

def newOf (l : Linker) (ctor : UInt64) : Code σ UInt64 := do
  callImport l .valueNew [.slot ctor, .slots []]
  resultAt 40

def publish (l : Linker) (name : String) : Code σ Unit := do
  callImport l .valueCall [.slot bridgeSlot, named "_makeFuncWrapper", .slots [countSlot 1]]
  setProperty l globalSlot name (← resultAt 56)

def takeEvent (l : Linker) : Code σ UInt64 := getProperty l bridgeSlot "_pendingEvent"

def answer (l : Linker) (event x : UInt64) : Code σ Unit := setProperty l event "result" x

def addToken (l : Linker) (object text out : UInt64) (i : Nat) : Code σ Unit := do
  let token ← newOf l object
  let unit ← getElement l text i
  setProperty l token "surface_form" unit
  setProperty l token "base_form" unit
  setProperty l token "pos" (← stringSlot l (if i % 2 = 0 then "名詞,一般" else "記号,一般"))
  setProperty l token "word_position" (countSlot i)
  callImport l .valueSetIndex [.slot out, .integer i, .slot token]

def answerChars (l : Linker) : Code σ Unit := do
  let event ← takeEvent l
  let args ← getProperty l event "args"
  let text ← getElement l args 0
  let object ← getProperty l globalSlot "Object"
  let array ← getProperty l globalSlot "Array"
  let out ← newOf l array
  callImport l .valueLength [.slot text]
  let length ← resultAt 16
  (List.range length.toNat).forM (addToken l object text out)
  answer l event out

def exitWith (l : Linker) (code : Int32) : Code σ Unit :=
  callImport l .wasmExit [.integer code.toInt]

def trap : Code σ Unit := .fault (.trap "unreachable")

def run (l : Linker) (functionName : String) : SampleGuest → Code σ Unit
  | .silent => .done ()
  | .exitAtStart code => exitWith l code
  | .trapAtStart => trap
  | .timer millis => do
    publish l functionName
    callImport l .scheduleTimeoutEvent [.integer millis]
  | _ => publish l functionName

def resume (l : Linker) : SampleGuest → Code σ Unit
  | .fixture => do
    let event ← takeEvent l
    answer l event (← getProperty l globalSlot "fixture")
  | .chars => answerChars l
  | .exitOnCall code => exitWith l code
  | .trapOnCall => trap
  | .faultOnCall => l.invoke importSpace Import.valueGet.name 70000
  | _ => .done ()

/-- The guest's program, with its function published under a name. The guest has no state of its
own; the embedding program may have both state and functions. -/
def program (g : SampleGuest) (functionName : String)
    (functions : String → Value → List Value → Code σ Outcome) (l : Linker) : Program σ where
  stackPointer _ := stackPointer
  run _ := g.run l functionName
  resume := g.resume l
  functions := functions

def toModule (g : SampleGuest) (functionName : String)
    (functions : String → Value → List Value → Code σ Outcome) (initial : σ) : GuestModule σ where
  pages := some 1
  memoryExports := ["mem"]
  entryPoints := requiredEntryPoints
  program := g.program functionName functions
  initial := initial

end SampleGuest

end TokenizerHost
