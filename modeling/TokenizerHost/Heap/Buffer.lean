import TokenizerHost.Value

namespace TokenizerHost

def maxBytesLength : Nat := 1 <<< 28

namespace Buffer

def zeros (length : Nat) : ByteArray :=
  Nat.fold length (fun _ _ bytes => bytes.push 0) (ByteArray.emptyWithCapacity length)

def byteOf (v : Value) : UInt8 :=
  match v.number?.bind Double.truncate with
  | some n => UInt8.ofNat (n % 256).toNat
  | none => 0

def get (bytes : ByteArray) (i : Nat) : Value :=
  match bytes[i]? with
  | some b => .ofNat b.toNat
  | none => .undefined

/-- Writes a byte; an index past the end is ignored. -/
def set (bytes : ByteArray) (i : Nat) (v : Value) : ByteArray :=
  if h : i < bytes.size then bytes.set i (byteOf v) h else bytes

/-- `bytes` with as much of `source` over its front as fits. -/
def overwrite (bytes source : ByteArray) : ByteArray :=
  let n := min bytes.size source.size
  source.extract 0 n ++ bytes.extract n bytes.size

def text (bytes : ByteArray) : String :=
  ",".intercalate (bytes.toList.map fun b => toString b.toNat)

theorem size_zeros (length : Nat) : (zeros length).size = length := by
  have hfold : ∀ (n : Nat) (bytes : ByteArray),
      (Nat.fold n (fun _ _ bytes => bytes.push 0) bytes).size = bytes.size + n := by
    intro n bytes
    induction n with
    | zero => rfl
    | succ n ih => rw [Nat.fold_succ, ByteArray.size_push, ih, Nat.add_assoc]
  exact (hfold length _).trans (Nat.zero_add length)

@[simp] theorem size_set (bytes : ByteArray) (i : Nat) (v : Value) :
    (set bytes i v).size = bytes.size := by
  unfold set
  split
  · rw [← ByteArray.size_data, ByteArray.data_set, Array.size_set, ByteArray.size_data]
  · rfl

end Buffer

end TokenizerHost
