import TokenizerHost.Script.Answer
import TokenizerHost.Memory

namespace TokenizerHost.Script

inductive Scalar where
  | u8
  | u32
  | i32
  | i64
  | double
  deriving DecidableEq, Inhabited

inductive MemoryStep where
  | read (s : Scalar) (address : Nat)
  | writeInt (s : Scalar) (address : Nat) (x : Int)
  | writeDouble (address : Nat) (x : Double)
  | readSlot (address : Nat)
  | writeSlot (address : Nat) (bits : UInt64)
  | writeBytes (address : Nat) (bytes : ByteArray)
  | slice (address length : Nat)
  | fill (address length : Nat) (byte : UInt8)
  | spanBytes (address : Nat)
  | spanLength (address : Nat)
  | spanText (address : Nat)
  | readValue (address : Nat)
  | readValues (address : Nat)
  | size
  deriving Inhabited

def repeated (length : Nat) (byte : UInt8) : ByteArray :=
  Nat.fold length (fun _ _ bytes => bytes.push byte) (ByteArray.emptyWithCapacity length)

namespace MemoryStep

def write? : MemoryStep → Option (MemoryM Unit)
  | .writeInt .u8 a x => some (Memory.setU8 a (.ofNat (x % 256).toNat))
  | .writeInt .u32 a x => some (Memory.setU32 a (.ofNat (x % UInt32.size).toNat))
  | .writeInt .i32 a x => some (Memory.setI32 a (Int32.ofInt x))
  | .writeInt .i64 a x => some (Memory.setI64 a x)
  | .writeInt .double a x => some (Memory.setDouble a (.ofInt x))
  | .writeDouble a x => some (Memory.setDouble a x)
  | .writeSlot a bits => some (Memory.storeSlot a (Slot.decode bits))
  | .writeBytes a bytes => some (Memory.write a bytes)
  | .fill a n byte => some fun m =>
    if m.inBounds a n then Memory.write a (repeated n byte) m else .error (.memoryAccess a n) m
  | _ => none

def read? (m : Memory) (t : ValueTable) (h : Heap) : MemoryStep → Except Fault Answer
  | .read .u8 a => do return .integer (← m.getU8 a).toNat
  | .read .u32 a => do return .integer (← m.getU32 a).toNat
  | .read .i32 a => do return .integer (← m.getI32 a).toInt
  | .read .i64 a => do return .integer (← m.getI64 a)
  | .read .double a => do return .double (← m.getDouble a)
  | .readSlot a => do return .slot (← m.loadSlot a)
  | .slice a n => do return .bytes (← m.slice a n)
  | .spanBytes a => do return .bytes (← m.loadSlice a)
  | .spanLength a => do return .integer (← m.loadRange a).length
  | .spanText a => do return .text (← m.loadString a)
  | .readValue a => do return .value (h.snapshot (← m.loadValue t a))
  | .readValues a => do return .values ((← m.loadValues t a).map h.snapshot)
  | .size => .ok (.record [("len", .integer m.size), ("empty", .flag (m.size == 0))])
  | _ => .ok .nothing

def run (step : MemoryStep) (m : Memory) (t : ValueTable) (h : Heap) : Answer × Memory :=
  match step.write? with
  | some write =>
    match write m with
    | .ok () m => (.nothing, m)
    | .error e m => (.fault e, m)
  | none => (Answer.ofExcept id (step.read? m t h), m)

end MemoryStep

end TokenizerHost.Script
