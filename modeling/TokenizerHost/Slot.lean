import TokenizerHost.Double

/-!
# Slots

A slot is the eight bytes in which guest and host hand each other a value: either a number as it
is, or a reference, boxed in a NaN whose high word carries a tag and whose low word is a handle.
The pattern of all zeros is `undefined`, so a number zero travels as a reference to the handle
reserved for it.

`encode` writes a slot, `decode` reads any pattern whatever. `decode_encode` says that a canonical
slot survives; `Slot.Canonical` is what the value table produces.
-/

namespace TokenizerHost

inductive TypeTag where
  | none
  | object
  | string
  | symbol
  | function
  deriving DecidableEq, Repr, Inhabited

namespace TypeTag

def toNat : TypeTag → Nat
  | .none => 0
  | .object => 1
  | .string => 2
  | .symbol => 3
  | .function => 4

def ofBits : Nat → TypeTag
  | 1 => .object
  | 2 => .string
  | 3 => .symbol
  | 4 => .function
  | _ => .none

def ofTypeName : String → TypeTag
  | "object" => .object
  | "string" => .string
  | "symbol" => .symbol
  | "function" => .function
  | _ => .none

@[simp] theorem ofBits_toNat (t : TypeTag) : ofBits t.toNat = t := by cases t <;> rfl

theorem toNat_le (t : TypeTag) : t.toNat ≤ 4 := by cases t <;> decide

end TypeTag

inductive Slot where
  | undefined
  | number (n : Double)
  | ref (id : UInt32) (tag : TypeTag)
  deriving DecidableEq, Repr, Inhabited

namespace Slot

def boxHead : Nat := 0x7FF80000

def encode : Slot → UInt64
  | .undefined => 0
  | .number n => n.bits
  | .ref id tag => UInt64.ofNat ((boxHead + tag.toNat) * 0x100000000 + id.toNat)

/-- Every pattern is a slot: both zeros are `undefined`, every NaN is a reference. -/
def decode (bits : UInt64) : Slot :=
  let n : Double := ⟨bits⟩
  if n.isZero then .undefined
  else if n.isNaN then
    .ref (UInt32.ofNat (bits.toNat % 0x100000000)) (.ofBits (bits.toNat / 0x100000000 % 8))
  else .number n

/-- A slot whose number is neither a zero nor a NaN. -/
def Canonical : Slot → Prop
  | .number n => n.isZero = false ∧ n.isNaN = false
  | _ => True

theorem toNat_encode_ref (id : UInt32) (tag : TypeTag) :
    (encode (.ref id tag)).toNat = (boxHead + tag.toNat) * 0x100000000 + id.toNat := by
  have ht := tag.toNat_le
  have hi := id.toNat_lt
  simp only [encode, UInt64.toNat_ofNat', boxHead]
  omega

theorem decode_encode {s : Slot} (h : s.Canonical) : decode (encode s) = s := by
  cases s with
  | undefined => decide
  | number n => simp [decode, encode, h.1, h.2]
  | ref id tag =>
    have ht := tag.toNat_le
    have hi := id.toNat_lt
    have hn := toNat_encode_ref id tag
    have hz : (⟨encode (.ref id tag)⟩ : Double).isZero = false := by
      simp only [Double.isZero, Double.magnitudeBits, hn, boxHead, beq_eq_false_iff_ne]
      omega
    have hnan : (⟨encode (.ref id tag)⟩ : Double).isNaN = true := by
      simp only [Double.isNaN, Double.magnitudeBits, hn, boxHead, decide_eq_true_eq]
      omega
    have hlow : (encode (.ref id tag)).toNat % 0x100000000 = id.toNat := by rw [hn]; omega
    have hhigh : (encode (.ref id tag)).toNat / 0x100000000 % 8 = tag.toNat := by
      rw [hn]; simp only [boxHead]; omega
    have hid : UInt32.ofNat ((encode (.ref id tag)).toNat % 0x100000000) = id := by
      rw [hlow, UInt32.ofNat_toNat]
    have htag : TypeTag.ofBits ((encode (.ref id tag)).toNat / 0x100000000 % 8) = tag := by
      rw [hhigh, TypeTag.ofBits_toNat]
    simp only [decode, hz, hnan, hid, htag, Bool.false_eq_true, if_false, if_true]

end Slot

end TokenizerHost
