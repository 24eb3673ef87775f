import TokenizerHost.Proofs.Memory.Bytes

set_option autoImplicit false

namespace TokenizerHost

theorem exists_map_ok_iff {ε α β : Type} {x : Except ε α} {f : α → β} :
    (∃ b, x.map f = .ok b) ↔ ∃ a, x = .ok a := by
  cases x with
  | error e => exact iff_of_false (fun ⟨_, h⟩ => by cases h) fun ⟨_, h⟩ => by cases h
  | ok a => exact iff_of_true ⟨f a, rfl⟩ ⟨a, rfl⟩

namespace Memory

variable {m m' : Memory} {address width length : Nat}

/-! ## Where words can be read and written -/

theorem exists_slice_iff :
    (∃ bytes, m.slice address length = .ok bytes) ↔ address + length ≤ m.size := by
  simp only [slice_eq_ok_iff, exists_and_left, exists_eq, and_true]

theorem exists_write_iff {data : ByteArray} :
    (∃ m', write address data m = .ok () m') ↔ address + data.size ≤ m.size := by
  simp only [write_eq_ok_iff, exists_and_left, exists_eq, and_true]

theorem getWord_eq_map (m : Memory) (address width : Nat) : m.getWord address width =
    (m.slice address width).map fun bytes => ofLittleEndian bytes.data.toList := by
  unfold getWord
  cases m.slice address width <;> rfl

theorem exists_getWord_iff :
    (∃ n, m.getWord address width = .ok n) ↔ address + width ≤ m.size := by
  rw [getWord_eq_map, exists_map_ok_iff, exists_slice_iff]

theorem exists_setWord_iff {n : Nat} :
    (∃ m', setWord address width n m = .ok () m') ↔ address + width ≤ m.size := by
  rw [setWord, exists_write_iff, size_word]

theorem exists_getU32_iff : (∃ n, m.getU32 address = .ok n) ↔ address + 4 ≤ m.size := by
  rw [getU32, exists_map_ok_iff, exists_getWord_iff]

theorem exists_getI32_iff : (∃ n, m.getI32 address = .ok n) ↔ address + 4 ≤ m.size := by
  rw [getI32, exists_map_ok_iff, exists_getU32_iff]

theorem getDouble_setDouble {x : Double} (h : setDouble address x m = .ok () m') :
    m'.getDouble address = .ok x := by
  have hword : Nat.pow 256 8 = UInt64.size := rfl
  rw [getDouble, getWord_setWord h, hword, Nat.mod_eq_of_lt x.bits.toNat_lt_size]
  exact congrArg (fun bits => Except.ok (Double.mk bits)) UInt64.ofNat_toNat

/-! ## Integers of 64 bits -/

theorem addressAfter_four (h : address + 4 ≤ m.size) :
    addressAfter address 4 = address + 4 := by
  exact Nat.min_eq_left (Nat.le_trans h m.size_le)

/-- The words of an integer, where both lie within memory. -/
theorem getI64_eq_ok_iff {n : Int} : m.getI64 address = .ok n ↔
    ∃ (low : UInt32) (high : Int32), m.getU32 address = .ok low ∧
      m.getI32 (address + 4) = .ok high ∧ n = low.toNat + high.toInt * 2 ^ 32 := by
  cases hlow : m.getU32 address with
  | error e =>
    rw [getI64, hlow]
    refine iff_of_false (fun h => by cases h) ?_
    rintro ⟨_, _, h, -⟩
    cases h
  | ok low =>
    have hnext := addressAfter_four (exists_getU32_iff.1 ⟨low, hlow⟩)
    cases hhigh : m.getI32 (address + 4) with
    | error e =>
      rw [getI64, hlow, hnext, hhigh]
      refine iff_of_false (fun h => by cases h) ?_
      rintro ⟨_, _, -, h, -⟩
      cases h
    | ok high =>
      rw [getI64, hlow, hnext, hhigh]
      constructor
      · intro h
        cases h
        exact ⟨low, high, rfl, rfl, rfl⟩
      · rintro ⟨_, _, hlow', hhigh', rfl⟩
        cases hlow'
        cases hhigh'
        rfl

theorem exists_getI64_iff :
    (∃ n, m.getI64 address = .ok n) ↔ address + 8 ≤ m.size := by
  simp only [getI64_eq_ok_iff]
  constructor
  · rintro ⟨_, _, high, -, hhigh, -⟩
    have hend := exists_getI32_iff.1 ⟨high, hhigh⟩
    omega
  · intro h
    obtain ⟨low, hlow⟩ := exists_getU32_iff.2 (show address + 4 ≤ m.size by omega)
    obtain ⟨high, hhigh⟩ := exists_getI32_iff.2 (show address + 4 + 4 ≤ m.size by omega)
    exact ⟨_, low, high, hlow, hhigh, rfl⟩

/-- Neither the shifted high word nor the sum of the words is too large for 64 bits. -/
theorem words_fit (low : UInt32) (high : Int32) :
    (-2 ^ 63 ≤ high.toInt * 2 ^ 32 ∧ high.toInt * 2 ^ 32 < 2 ^ 63) ∧
      -2 ^ 63 ≤ low.toNat + high.toInt * 2 ^ 32 ∧ low.toNat + high.toInt * 2 ^ 32 < 2 ^ 63 := by
  have hlow := low.toNat_lt
  have hleast := high.le_toInt
  have hgreatest := high.toInt_lt
  omega

theorem le_of_setI64_ok {n : Int} (h : setI64 address n m = .ok () m') :
    address + 4 ≤ m.size := by
  obtain ⟨_, m₁, hlow, -⟩ := exists_of_bind_ok h
  exact exists_setWord_iff.1 ⟨m₁, hlow⟩

theorem exists_setI64_iff {n : Int} :
    (∃ m', setI64 address n m = .ok () m') ↔ address + 8 ≤ m.size := by
  constructor
  · rintro ⟨m', h⟩
    have hnext := addressAfter_four (le_of_setI64_ok h)
    obtain ⟨_, m₁, hlow, hhigh⟩ := exists_of_bind_ok h
    rw [hnext] at hhigh
    -- The second word is checked against memory in which the first stands already.
    have hsize := (differs_setWord hlow).size
    have hend := exists_setWord_iff.1 ⟨m', hhigh⟩
    omega
  · intro h
    obtain ⟨m', hm', -⟩ : Fits (setI64 address n) m () := fits_setI64 h
    exact ⟨m', hm'⟩

end Memory

/-! ## Accessors -/

inductive Accessor where
  | u8
  | u32
  | i32
  | i64
  | double
  | bytes (length : Nat)

namespace Accessor

abbrev Value : Accessor → Type
  | u8 => UInt8
  | u32 => UInt32
  | i32 => Int32
  | i64 => Int
  | double => Double
  | bytes _ => ByteArray

def width : Accessor → Nat
  | u8 => 1
  | u32 | i32 => 4
  | i64 | double => 8
  | bytes length => length

/-- The integers that have 64 bits, the runs of the accessor's length; any other value fits. -/
def Fits : (a : Accessor) → a.Value → Prop
  | i64, n => -2 ^ 63 ≤ n ∧ n < 2 ^ 63
  | bytes length, data => data.size = length
  | u8, _ | u32, _ | i32, _ | double, _ => True

def read : (a : Accessor) → Memory → Nat → Except Fault a.Value
  | u8 => Memory.getU8
  | u32 => Memory.getU32
  | i32 => Memory.getI32
  | i64 => Memory.getI64
  | double => Memory.getDouble
  | bytes length => fun m address => m.slice address length

def write : (a : Accessor) → Nat → a.Value → MemoryM Unit
  | u8 => Memory.setU8
  | u32 => Memory.setU32
  | i32 => Memory.setI32
  | i64 => Memory.setI64
  | double => Memory.setDouble
  | bytes _ => Memory.write

open Memory

variable {m m' : Memory} {address : Nat}

theorem exists_read_iff (a : Accessor) :
    (∃ v, a.read m address = .ok v) ↔ address + a.width ≤ m.size := by
  cases a with
  | u8 => exact exists_map_ok_iff.trans exists_getWord_iff
  | u32 => exact exists_getU32_iff
  | i32 => exact exists_getI32_iff
  | i64 => exact exists_getI64_iff
  | double => exact exists_map_ok_iff.trans exists_getWord_iff
  | bytes length => exact exists_slice_iff

theorem fits_of_read (a : Accessor) {v : a.Value} (h : a.read m address = .ok v) : a.Fits v := by
  cases a with
  | i64 =>
    obtain ⟨low, high, -, -, rfl⟩ := getI64_eq_ok_iff.1 h
    exact (words_fit low high).2
  | bytes length =>
    obtain ⟨hin, rfl⟩ := slice_eq_ok_iff.1 h
    have hbytes := m.size_le_bytes
    change (m.bytes.extract address (address + length)).size = length
    rw [ByteArray.size_extract]
    omega
  | _ => trivial

theorem exists_write_iff (a : Accessor) {v : a.Value} (hv : a.Fits v) :
    (∃ m', a.write address v m = .ok () m') ↔ address + a.width ≤ m.size := by
  cases a with
  | i64 => exact exists_setI64_iff
  | bytes length =>
    have hlength : v.size = length := hv
    exact Memory.exists_write_iff.trans (by rw [hlength, width])
  | _ => exact exists_setWord_iff

theorem read_of_write (a : Accessor) {v : a.Value} (hv : a.Fits v)
    (h : a.write address v m = .ok () m') : a.read m' address = .ok v := by
  cases a with
  | u8 => exact getU8_setU8 h
  | u32 => exact getU32_setU32 h
  | i32 => exact getI32_setI32 h
  | i64 =>
    exact getI64_setI64 (Nat.le_trans (le_of_setI64_ok h) m.size_le) hv.1 hv.2 h
  | double => exact getDouble_setDouble h
  | bytes length =>
    obtain ⟨hin, rfl⟩ := write_eq_ok_iff.1 h
    have hlength : v.size = length := hv
    exact hlength ▸ slice_overlay hin

theorem differs_of_write (a : Accessor) {v : a.Value} (hv : a.Fits v)
    (h : a.write address v m = .ok () m') : DiffersWithin [⟨address, a.width⟩] m m' := by
  cases a with
  | i64 =>
    exact differs_setI64 (Nat.le_trans (le_of_setI64_ok h) m.size_le) h
  | bytes length =>
    have hlength : v.size = length := hv
    exact hlength ▸ differs_write h
  | _ => exact differs_setWord h

/-- An accessor reads, and writes what fits it, exactly where its bytes end within memory. Reading
gives what fits, and what was written where it was written; no other byte changes. The words of an
integer are put together within 64 bits. -/
theorem accessors_read_back (m : Memory) (address : Nat) :
    (∀ a : Accessor,
      ((∃ v, a.read m address = .ok v) ↔ address + a.width ≤ m.size) ∧
      (∀ v, a.read m address = .ok v → a.Fits v) ∧
      ∀ v, a.Fits v →
        ((∃ m', a.write address v m = .ok () m') ↔ address + a.width ≤ m.size) ∧
        ∀ m', a.write address v m = .ok () m' →
          a.read m' address = .ok v ∧ m'.size = m.size ∧
          ∀ b, b < address ∨ address + a.width ≤ b → m'.byte? b = m.byte? b) ∧
    ∀ n, m.getI64 address = .ok n → ∃ (low : UInt32) (high : Int32),
      m.getU32 address = .ok low ∧ m.getI32 (address + 4) = .ok high ∧
      (-2 ^ 63 ≤ high.toInt * 2 ^ 32 ∧ high.toInt * 2 ^ 32 < 2 ^ 63) ∧
      n = low.toNat + high.toInt * 2 ^ 32 := by
  refine ⟨fun a => ⟨a.exists_read_iff, fun v => a.fits_of_read, fun v hv => ?_⟩,
    fun n hn => ?_⟩
  · refine ⟨a.exists_write_iff hv, fun m' h => ?_⟩
    have hdiffers := a.differs_of_write hv h
    exact ⟨a.read_of_write hv h, hdiffers.size, fun b hb => hdiffers.byte?_beside hb⟩
  · obtain ⟨low, high, hlow, hhigh, rfl⟩ := getI64_eq_ok_iff.1 hn
    exact ⟨low, high, hlow, hhigh, (words_fit low high).1, rfl⟩

/-- The least integer of 64 bits in the last eight of nine bytes; one byte further there is no room
for it, and at the last address of all nothing wraps around. -/
theorem accessors_read_back_least :
    (∃ m', Memory.setI64 1 (-2 ^ 63) (.zeros 9) = .ok () m' ∧ m'.getI64 1 = .ok (-2 ^ 63) ∧
      m'.byte? 0 = (Memory.zeros 9).byte? 0) ∧
    (¬ ∃ m', Memory.setI64 2 (-2 ^ 63) (.zeros 9) = .ok () m') ∧
      ¬ ∃ n, (Memory.zeros 9).getI64 (2 ^ 64 - 1) = .ok n := by
  have hsize : (Memory.zeros 9).size = 9 := size_zeros (by decide)
  have hleast : i64.Fits (-2 ^ 63 : Int) := ⟨Int.le_refl _, by decide⟩
  refine ⟨?_, ?_, ?_⟩
  · have hwrites := ((accessors_read_back (.zeros 9) 1).1 .i64).2.2 _ hleast
    obtain ⟨m', hm'⟩ := hwrites.1.2 (by rw [hsize]; decide)
    obtain ⟨hread, -, hothers⟩ := hwrites.2 m' hm'
    exact ⟨m', hm', hread, hothers 0 (.inl (by decide))⟩
  · intro hwrites
    have hend := (((accessors_read_back (.zeros 9) 2).1 .i64).2.2 _ hleast).1.1 hwrites
    rw [hsize] at hend
    exact absurd hend (by decide)
  · intro hreads
    have hend := ((accessors_read_back (.zeros 9) (2 ^ 64 - 1)).1 .i64).1.1 hreads
    rw [hsize] at hend
    exact absurd hend (by decide)

end Accessor

end TokenizerHost
