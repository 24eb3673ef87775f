import TokenizerHost.Import
import TokenizerHost.Memory

namespace TokenizerHost

inductive OperandKind where
  | slot
  /-- The handle in the low half of a slot. -/
  | handle
  | integer
  | word
  | bytes
  /-- A pointer to bytes and their number in 32 bits. -/
  | shortBytes
  | slots
  deriving DecidableEq, Repr

structure OperandCell where
  name : String
  kind : OperandKind
  offset : Nat

def Import.operandCells : Import → List OperandCell
  | .stringVal => [⟨"str", .bytes, 8⟩]
  | .valueGet => [⟨"v", .slot, 8⟩, ⟨"k", .bytes, 16⟩]
  | .valueSet => [⟨"v", .slot, 8⟩, ⟨"k", .bytes, 16⟩, ⟨"x", .slot, 32⟩]
  | .valueDelete => [⟨"v", .slot, 8⟩, ⟨"k", .bytes, 16⟩]
  | .valueIndex => [⟨"v", .slot, 8⟩, ⟨"i", .integer, 16⟩]
  | .valueSetIndex => [⟨"v", .slot, 8⟩, ⟨"i", .integer, 16⟩, ⟨"x", .slot, 24⟩]
  | .valueCall => [⟨"v", .slot, 8⟩, ⟨"k", .bytes, 16⟩, ⟨"args", .slots, 32⟩]
  | .valueInvoke | .valueNew => [⟨"v", .slot, 8⟩, ⟨"args", .slots, 16⟩]
  | .valueLength | .valuePrepareString => [⟨"v", .slot, 8⟩]
  | .valueLoadString => [⟨"v", .slot, 8⟩, ⟨"dst", .bytes, 16⟩]
  | .valueInstanceOf => [⟨"v", .slot, 8⟩, ⟨"t", .slot, 16⟩]
  | .copyBytesOut => [⟨"dst", .bytes, 8⟩, ⟨"v", .slot, 32⟩]
  | .copyBytesIn => [⟨"v", .slot, 8⟩, ⟨"src", .bytes, 16⟩]
  | .finalizeRef => [⟨"v", .handle, 8⟩]
  | .wasmExit => [⟨"code", .word, 8⟩]
  | .wasmWrite => [⟨"fd", .integer, 8⟩, ⟨"src", .shortBytes, 16⟩]
  | .scheduleTimeoutEvent => [⟨"ms", .integer, 8⟩]
  | .clearTimeoutEvent => [⟨"id", .word, 8⟩]
  | .getRandomData => [⟨"dst", .bytes, 8⟩]
  | .nanotime | .walltime | .resetMemoryDataView => []

/-- An operand, its slots already looked up. -/
inductive Operand where
  | slot (bits : UInt64)
  | integer (n : Int)
  | bytes (content : ByteArray)
  | slots (items : List UInt64)
  | span (pointer length : Int)
  deriving Inhabited

/-- The end of a chunk of so many bytes, rounded up. -/
def afterChunk (address size : Nat) : Nat := address + (size + 7) / 8 * 8

namespace Operand

def writeSpan (kind : OperandKind) (address : Nat) (pointer length : Int) : MemoryM Unit := do
  Memory.setI64 address pointer
  if kind = .shortBytes then Memory.setI32 (address + 8) (Int32.ofInt length)
  else Memory.setI64 (address + 8) length

def stage (kind : OperandKind) (address place : Nat) (data : ByteArray) (count : Nat) :
    MemoryM Nat := do
  Memory.write place data
  writeSpan kind address place count
  return afterChunk place data.size

def slotBytes (items : List UInt64) : ByteArray :=
  (items.flatMap fun bits => littleEndian 8 bits.toNat).toByteArray

def write (kind : OperandKind) (address place : Nat) : Operand → MemoryM Nat
  | .slot bits => do
    if kind = .handle then Memory.setU32 address (UInt32.ofNat (bits.toNat % UInt32.size))
    else Memory.setWord address 8 bits.toNat
    return place
  | .integer n => do
    if kind = .word then Memory.setI32 address (Int32.ofInt n) else Memory.setI64 address n
    return place
  | .bytes content => stage kind address place content content.size
  | .slots items => stage kind address place (slotBytes items) items.length
  | .span pointer length => do
    writeSpan kind address pointer length
    return place

def writeAll (sp place : Nat) : List (OperandCell × Operand) → MemoryM Unit
  | [] => return
  | (cell, operand) :: rest => do
    writeAll sp (← write cell.kind (sp + cell.offset) place operand) rest

def destinationName : String := "dst"

def destination? (operands : List (OperandCell × Operand)) : Option (Int × Int) :=
  operands.findSome? fun
    | (cell, .span pointer length) =>
      if cell.name == destinationName then some (pointer, length) else none
    | _ => none

end Operand

inductive ResultCells where
  | nothing
  | slot (offset : Nat)
  /-- A slot, and after it whether it was returned. -/
  | outcome (offset : Nat)
  | length
  | staged
  | loaded
  | flag
  | copied
  | timer
  deriving DecidableEq, Repr

def Import.resultCells : Import → ResultCells
  | .stringVal | .valueIndex => .slot 24
  | .valueGet => .slot 32
  | .valueCall => .outcome 56
  | .valueInvoke | .valueNew => .outcome 40
  | .valueLength => .length
  | .valuePrepareString => .staged
  | .valueLoadString => .loaded
  | .valueInstanceOf => .flag
  | .copyBytesOut | .copyBytesIn => .copied
  | .scheduleTimeoutEvent => .timer
  | _ => .nothing

end TokenizerHost
