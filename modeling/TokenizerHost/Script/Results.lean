import TokenizerHost.Import.Cells
import TokenizerHost.Script.Answer

namespace TokenizerHost

namespace Script

structure GuestView where
  memory : Memory
  table : ValueTable
  heap : Heap

namespace GuestView

def reveal (w : GuestView) (bits : UInt64) : Answer :=
  .ofExcept (fun v => .value (w.heap.snapshot v)) (w.table.resolve (Slot.decode bits))

def destination (w : GuestView) (target : Option (Int × Int)) : Except Fault (List (String × Answer)) :=
  match target with
  | some (pointer, length) => do return [("bytes", .bytes (← w.memory.slice pointer.toNat length.toNat))]
  | none => return []

def slotAt (w : GuestView) (address : Nat) : Except Fault (UInt64 × List (String × Answer)) := do
  let bits := UInt64.ofNat (← w.memory.getWord address 8)
  return (bits, [("slot", .bits bits), ("val", w.reveal bits)])

def flagAt (w : GuestView) (address : Nat) : Except Fault Answer := do
  return .integer (← w.memory.getU8 address).toNat

end GuestView

end Script

namespace ResultCells

open Script

def read (w : GuestView) (sp : Nat) (target : Option (Int × Int)) :
    ResultCells → Except Fault (Answer × Option UInt64)
  | .nothing => return (.nothing, none)
  | .slot offset => do
    let (bits, fields) ← w.slotAt (sp + offset)
    return (.record fields, bits)
  | .outcome offset => do
    let (bits, fields) ← w.slotAt (sp + offset)
    return (.record (("ok", ← w.flagAt (sp + offset + 8)) :: fields), bits)
  | .length => do return (.record [("n", .integer (← w.memory.getI64 (sp + 16)))], none)
  | .staged => do
    let (bits, fields) ← w.slotAt (sp + 16)
    return (.record (("n", .integer (← w.memory.getI64 (sp + 24))) :: fields), bits)
  | .loaded => do return (.record (← w.destination target), none)
  | .flag => do return (.record [("is", ← w.flagAt (sp + 24))], none)
  | .copied => do
    let ok ← w.memory.getU8 (sp + 48)
    if ok = 1 then
      let n ← w.memory.getI64 (sp + 40)
      return (.record ([("ok", .integer 1), ("n", .integer n)] ++ (← w.destination target)), none)
    else return (.record [("ok", .integer ok.toNat)], none)
  | .timer => do return (.record [("id", .integer (← w.memory.getI32 (sp + 16)).toInt)], none)

end ResultCells

end TokenizerHost
