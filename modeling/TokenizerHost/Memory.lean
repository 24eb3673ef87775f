import TokenizerHost.Fault
import TokenizerHost.Heap.Buffer
import TokenizerHost.Text.Replacement
import TokenizerHost.ValueTable

/-!
# Guest memory

Bounds-checked reads and writes of the guest's linear memory. Scalars are little-endian. A 64-bit
integer is two words of four bytes, each checked on its own, so a write may reach the first and
fault at the second. A span is a pointer and a length, two such integers, neither negative.

An address is a number of 64 bits. An access whose end is past the greatest one is refused like any
other that does not end within memory (`Memory.inBounds_eq`).
-/

namespace TokenizerHost

structure Memory where
  bytes : ByteArray
  deriving Inhabited

/-- A computation that writes memory and may fault, keeping what it has written. -/
abbrev MemoryM := EStateM Fault Memory

def littleEndian : (width : Nat) → Nat → List UInt8
  | 0, _ => []
  | width + 1, n => UInt8.ofNat n :: littleEndian width (n / 256)

def ofLittleEndian : List UInt8 → Nat
  | [] => 0
  | b :: rest => b.toNat + 256 * ofLittleEndian rest

theorem length_littleEndian (width n : Nat) : (littleEndian width n).length = width := by
  induction width generalizing n with
  | zero => rfl
  | succ width ih => simp [littleEndian, ih]

theorem ofLittleEndian_littleEndian (width n : Nat) :
    ofLittleEndian (littleEndian width n) = n % Nat.pow 256 width := by
  induction width generalizing n with
  | zero => simp [littleEndian, ofLittleEndian, Nat.mod_one]
  | succ width ih =>
    simp only [littleEndian, ofLittleEndian, ih, UInt8.toNat_ofNat']
    rw [show Nat.pow 256 (width + 1) = 256 * Nat.pow 256 width from Nat.pow_succ', Nat.mod_mul]

def maxAddress : Nat := UInt64.size - 1

/-- The address `k` past another, or the greatest one. -/
def addressAfter (address k : Nat) : Nat := min (address + k) maxAddress

/-- The end of a run of bytes, unless it is past the greatest address. -/
def endOf? (address length : Nat) : Option Nat :=
  if address + length ≤ maxAddress then some (address + length) else none

structure Span where
  pointer : Nat
  length : Nat
  deriving DecidableEq, Repr

namespace Memory

def zeros (size : Nat) : Memory := ⟨Buffer.zeros size⟩

/-- The number of bytes, which is one of 64 bits. -/
def size (m : Memory) : Nat := m.bytes.size.toUInt64.toNat

def inBounds (m : Memory) (address length : Nat) : Bool :=
  match endOf? address length with
  | some stop => stop ≤ m.size
  | none => false

theorem size_le (m : Memory) : m.size ≤ maxAddress :=
  Nat.le_sub_one_of_lt m.bytes.size.toUInt64.toNat_lt

theorem size_eq_mod (m : Memory) : m.size = m.bytes.size % UInt64.size := UInt64.toNat_ofNat'

theorem size_le_bytes (m : Memory) : m.size ≤ m.bytes.size := by
  rw [size_eq_mod]
  exact Nat.mod_le _ _

theorem inBounds_eq (m : Memory) (address length : Nat) :
    m.inBounds address length = decide (address + length ≤ m.size) := by
  have hsize := m.size_le
  unfold inBounds endOf?
  split
  next stop hstop =>
    split at hstop
    next => cases hstop; rfl
    next => cases hstop
  next hnone =>
    split at hnone
    next => cases hnone
    next hpast => exact (decide_eq_false fun hin => hpast (Nat.le_trans hin hsize)).symm

def slice (m : Memory) (address length : Nat) : Except Fault ByteArray :=
  if m.inBounds address length then .ok (m.bytes.extract address (address + length))
  else .error (.memoryAccess address length)

def overlay (m : Memory) (address : Nat) (data : ByteArray) : Memory :=
  ⟨data.copySlice 0 m.bytes address data.size⟩

def getWord (m : Memory) (address width : Nat) : Except Fault Nat := do
  let bytes ← m.slice address width
  .ok (ofLittleEndian bytes.data.toList)

def getU8 (m : Memory) (address : Nat) : Except Fault UInt8 :=
  (m.getWord address 1).map UInt8.ofNat

def getU32 (m : Memory) (address : Nat) : Except Fault UInt32 :=
  (m.getWord address 4).map UInt32.ofNat

def getI32 (m : Memory) (address : Nat) : Except Fault Int32 :=
  (m.getU32 address).map UInt32.toInt32

/-- A signed integer of 64 bits: an unsigned low word, then a signed high one. -/
def getI64 (m : Memory) (address : Nat) : Except Fault Int := do
  let low ← m.getU32 address
  let high ← m.getI32 (addressAfter address 4)
  .ok (low.toNat + high.toInt * UInt32.size)

def getDouble (m : Memory) (address : Nat) : Except Fault Double :=
  (m.getWord address 8).map fun n => ⟨UInt64.ofNat n⟩

def loadSlot (m : Memory) (address : Nat) : Except Fault Slot :=
  (m.getDouble address).map fun n => Slot.decode n.bits

def loadSpan (m : Memory) (address : Nat) : Except Fault Span := do
  let pointer ← m.getI64 address
  let length ← m.getI64 (addressAfter address 8)
  if pointer < 0 ∨ length < 0 then
    .error (.memoryAccess (pointer % UInt64.size).toNat (length % UInt64.size).toNat)
  else .ok ⟨pointer.toNat, length.toNat⟩

def loadRange (m : Memory) (address : Nat) : Except Fault Span := do
  let span ← m.loadSpan address
  if m.inBounds span.pointer span.length then .ok span
  else .error (.memoryAccess span.pointer span.length)

def loadSlice (m : Memory) (address : Nat) : Except Fault ByteArray := do
  let span ← m.loadSpan address
  m.slice span.pointer span.length

def loadString (m : Memory) (address : Nat) : Except Fault String :=
  (m.loadSlice address).map Text.ofBytes

def loadValue (m : Memory) (t : ValueTable) (address : Nat) : Except Fault Value := do
  t.resolve (← m.loadSlot address)

def loadValues (m : Memory) (t : ValueTable) (address : Nat) : Except Fault (List Value) := do
  let span ← m.loadSpan address
  if maxAddress < span.length * 8 then .error (.memoryAccess span.pointer span.length)
  else if !m.inBounds span.pointer (span.length * 8) then
    .error (.memoryAccess span.pointer (span.length * 8))
  else (List.range span.length).mapM fun i => m.loadValue t (span.pointer + i * 8)

def write (address : Nat) (data : ByteArray) : MemoryM Unit := fun m =>
  if m.inBounds address data.size then .ok () (m.overlay address data)
  else .error (.memoryAccess address data.size) m

def setWord (address width n : Nat) : MemoryM Unit :=
  write address (littleEndian width n).toByteArray

def setU8 (address : Nat) (n : UInt8) : MemoryM Unit := setWord address 1 n.toNat

def setU32 (address : Nat) (n : UInt32) : MemoryM Unit := setWord address 4 n.toNat

def setI32 (address : Nat) (n : Int32) : MemoryM Unit := setU32 address n.toUInt32

def setI64 (address : Nat) (n : Int) : MemoryM Unit := do
  setWord address 4 (n % UInt32.size).toNat
  setWord (addressAfter address 4) 4 (n / UInt32.size % UInt32.size).toNat

def setDouble (address : Nat) (n : Double) : MemoryM Unit := setWord address 8 n.bits.toNat

def storeSlot (address : Nat) (s : Slot) : MemoryM Unit := setDouble address ⟨s.encode⟩

end Memory

end TokenizerHost
