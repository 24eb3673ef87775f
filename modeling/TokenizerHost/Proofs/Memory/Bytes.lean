import TokenizerHost.Proofs.Memory.Fits

set_option autoImplicit false

namespace TokenizerHost

def Span.Holds (s : Span) (a : Nat) : Prop := s.pointer ≤ a ∧ a < s.pointer + s.length

namespace Memory

variable {m m' : Memory} {address length : Nat} {data : ByteArray}

def byte? (m : Memory) (a : Nat) : Option UInt8 := m.bytes.data[a]?

/-! ## Writing bytes -/

theorem byte?_overlay (h : address + data.size ≤ m.size) (a : Nat) :
    (m.overlay address data).byte? a =
      if address ≤ a ∧ a < address + data.size then data.data[a - address]? else m.byte? a := by
  have hm : m.size ≤ m.bytes.data.size := m.size_le_bytes
  have hbytes : (m.overlay address data).byte? a = (m.bytes.data.extract 0 address ++
      data.data.extract 0 (0 + data.size) ++ m.bytes.data.extract
        (address + min data.size (data.data.size - 0)) m.bytes.data.size)[a]? := rfl
  have hfront : (m.bytes.data.extract 0 address).size = address := by
    rw [Array.size_extract]
    omega
  have hmiddle : data.data.extract 0 (0 + data.size) = data.data := by
    rw [Nat.zero_add]
    exact Array.extract_size
  have hlength : min data.size data.data.size = data.size := Nat.min_self _
  rw [hbytes, hmiddle, Nat.sub_zero, hlength]
  by_cases hbefore : a < address
  · have hnot : ¬ (address ≤ a ∧ a < address + data.size) := by omega
    rw [if_neg hnot, Array.append_assoc, Array.getElem?_append_left (by omega),
      Array.getElem?_extract, if_pos (by omega), Nat.zero_add, byte?]
  · by_cases hwithin : a < address + data.size
    · rw [if_pos ⟨by omega, hwithin⟩, Array.append_assoc, Array.getElem?_append_right (by omega),
        hfront, Array.getElem?_append_left (show a - address < data.data.size by
          have : data.data.size = data.size := rfl
          omega)]
    · have hnot : ¬ (address ≤ a ∧ a < address + data.size) := by omega
      have hsize : (m.bytes.data.extract 0 address ++ data.data).size = address + data.size := by
        rw [Array.size_append, hfront]
        rfl
      rw [if_neg hnot, Array.getElem?_append_right (by omega), hsize, Array.getElem?_extract, byte?,
        Nat.add_sub_of_le (show address + data.size ≤ a by omega)]
      split
      next => rfl
      next hpast => exact (Array.getElem?_eq_none (by omega)).symm

theorem write_eq_ok_iff {u : Unit} : write address data m = .ok u m' ↔
    address + data.size ≤ m.size ∧ m' = m.overlay address data := by
  simp only [write, inBounds_eq, decide_eq_true_eq]
  split
  next hin =>
    constructor
    · intro h
      cases h
      exact ⟨hin, rfl⟩
    · rintro ⟨-, rfl⟩
      rfl
  next hout => exact iff_of_false (fun h => by cases h) fun h => hout h.1

theorem eq_of_write_error {e : Fault} (h : write address data m = .error e m') : m' = m := by
  unfold write at h
  split at h
  · cases h
  · cases h
    rfl

theorem size_word (width n : Nat) : (littleEndian width n).toByteArray.size = width := by
  rw [List.size_toByteArray, length_littleEndian]

/-! ## Reading bytes -/

theorem slice_eq_ok_iff {bytes : ByteArray} : m.slice address length = .ok bytes ↔
    address + length ≤ m.size ∧ bytes = m.bytes.extract address (address + length) := by
  simp only [slice, inBounds_eq, decide_eq_true_eq]
  split
  next hin =>
    constructor
    · intro h
      cases h
      exact ⟨hin, rfl⟩
    · rintro ⟨-, rfl⟩
      rfl
  next hout => exact iff_of_false (fun h => by cases h) fun h => hout h.1

theorem slice_ok (h : address + length ≤ m.size) :
    m.slice address length = .ok (m.bytes.extract address (address + length)) :=
  slice_eq_ok_iff.2 ⟨h, rfl⟩

theorem getElem?_extract (h : address + length ≤ m.size) (i : Nat) :
    (m.bytes.extract address (address + length)).data[i]? =
      if i < length then m.byte? (address + i) else none := by
  have hm : m.size ≤ m.bytes.data.size := m.size_le_bytes
  rw [ByteArray.data_extract, Array.getElem?_extract, byte?,
    show min (address + length) m.bytes.data.size - address = length by omega]

theorem slice_congr (hsize : m'.size = m.size)
    (h : ∀ a, address ≤ a → a < address + length → m'.byte? a = m.byte? a) :
    m'.slice address length = m.slice address length := by
  by_cases hin : address + length ≤ m.size
  · have hin' : address + length ≤ m'.size := by omega
    rw [slice_ok hin, slice_ok hin']
    refine congrArg Except.ok (ByteArray.ext (Array.ext_getElem? fun i => ?_))
    rw [getElem?_extract hin, getElem?_extract hin']
    split
    next hi => exact h _ (by omega) (by omega)
    next => rfl
  · have hin' : ¬ address + length ≤ m'.size := by omega
    simp only [slice, inBounds_eq, decide_eq_true_eq, if_neg hin, if_neg hin']

theorem slice_overlay (h : address + data.size ≤ m.size) :
    (m.overlay address data).slice address data.size = .ok data := by
  have hin : address + data.size ≤ (m.overlay address data).size := by rwa [size_overlay h]
  rw [slice_ok hin]
  refine congrArg Except.ok (ByteArray.ext (Array.ext_getElem? fun i => ?_))
  rw [getElem?_extract hin, byte?_overlay h]
  split
  next hi => rw [if_pos (by omega), Nat.add_sub_cancel_left]
  next hi => exact (Array.getElem?_eq_none (Nat.le_of_not_lt hi)).symm

/-! ## Numbers and slots -/

theorem getWord_setWord {width n : Nat} {u : Unit} (h : setWord address width n m = .ok u m') :
    m'.getWord address width = .ok (n % Nat.pow 256 width) := by
  obtain ⟨hin, rfl⟩ := write_eq_ok_iff.1 h
  have hslice := slice_overlay hin
  rw [size_word] at hslice
  rw [getWord, hslice]
  change Except.ok (ofLittleEndian (littleEndian width n).toByteArray.data.toList) = _
  rw [List.toList_data_toByteArray, ofLittleEndian_littleEndian]

theorem getU8_setU8 {n : UInt8} {u : Unit} (h : setU8 address n m = .ok u m') :
    m'.getU8 address = .ok n := by
  rw [getU8, getWord_setWord h]
  refine congrArg Except.ok (UInt8.toNat_inj.1 ?_)
  have hn := n.toNat_lt
  rw [UInt8.toNat_ofNat', show Nat.pow 256 1 = 256 from rfl]
  omega

theorem getU32_setU32 {n : UInt32} {u : Unit} (h : setU32 address n m = .ok u m') :
    m'.getU32 address = .ok n := by
  have hn : n.toNat % Nat.pow 256 4 = n.toNat := Nat.mod_eq_of_lt n.toNat_lt
  rw [getU32, getWord_setWord h, hn]
  exact congrArg Except.ok UInt32.ofNat_toNat

theorem getI32_setI32 {n : Int32} {u : Unit} (h : setI32 address n m = .ok u m') :
    m'.getI32 address = .ok n := by
  rw [getI32, getU32_setU32 h]
  rfl

theorem loadSlot_storeSlot {s : Slot} {u : Unit} (h : storeSlot address s m = .ok u m') :
    m'.loadSlot address = .ok (.decode s.encode) := by
  have hbits := s.encode.toNat_lt
  have hword : m'.getWord address 8 = .ok s.encode.toNat := by
    rw [getWord_setWord h, show Nat.pow 256 8 = 2 ^ 64 from rfl]
    exact congrArg Except.ok (Nat.mod_eq_of_lt hbits)
  rw [loadSlot, getDouble, hword]
  exact congrArg (fun bits => Except.ok (Slot.decode bits)) (UInt64.ofNat_toNat)

theorem getWord_congr {width : Nat} (hsize : m'.size = m.size)
    (h : ∀ a, address ≤ a → a < address + width → m'.byte? a = m.byte? a) :
    m'.getWord address width = m.getWord address width := by
  rw [getWord, getWord, slice_congr hsize h]

theorem loadSlot_congr (hsize : m'.size = m.size)
    (h : ∀ a, address ≤ a → a < address + 8 → m'.byte? a = m.byte? a) :
    m'.loadSlot address = m.loadSlot address := by
  rw [loadSlot, loadSlot, getDouble, getDouble, getWord_congr hsize h]

theorem loadValue_of_slot {t : ValueTable} {s : Slot} {v : Value}
    (hslot : m.loadSlot address = .ok s) (hv : t.resolve s = .ok v) :
    m.loadValue t address = .ok v := by
  rw [loadValue, hslot]
  exact hv

/-! ## Where memories differ -/

/-- Two memories of one size that are the same but for the bytes of some spans. -/
structure DiffersWithin (spans : List Span) (m m' : Memory) : Prop where
  size : m'.size = m.size
  bytes : ∀ a, (∀ s ∈ spans, ¬ s.Holds a) → m'.byte? a = m.byte? a

namespace DiffersWithin

variable {spans : List Span} {m'' : Memory}

theorem refl (spans : List Span) (m : Memory) : DiffersWithin spans m m := ⟨rfl, fun _ _ => rfl⟩

theorem trans (h : DiffersWithin spans m m') (h' : DiffersWithin spans m' m'') :
    DiffersWithin spans m m'' :=
  ⟨h'.size.trans h.size, fun a ha => (h'.bytes a ha).trans (h.bytes a ha)⟩

theorem mono {spans' : List Span} (h : DiffersWithin spans m m') (hs : spans ⊆ spans') :
    DiffersWithin spans' m m' :=
  ⟨h.size, fun a ha => h.bytes a fun s hmem => ha s (hs hmem)⟩

theorem of_mem {s : Span} (h : DiffersWithin [s] m m') (hs : s ∈ spans) :
    DiffersWithin spans m m' := h.mono (List.cons_subset.2 ⟨hs, List.nil_subset _⟩)

theorem widen {s s' : Span} (h : DiffersWithin [s] m m') (hfirst : s'.pointer ≤ s.pointer)
    (hlast : s.pointer + s.length ≤ s'.pointer + s'.length) : DiffersWithin [s'] m m' := by
  refine ⟨h.size, fun a ha => h.bytes a fun r hr hholds => ha s' List.mem_cons_self ?_⟩
  rw [List.mem_singleton.1 hr] at hholds
  exact ⟨Nat.le_trans hfirst hholds.1, Nat.lt_of_lt_of_le hholds.2 hlast⟩

theorem byte?_beside {s : Span} {a : Nat} (h : DiffersWithin [s] m m')
    (ha : a < s.pointer ∨ s.pointer + s.length ≤ a) : m'.byte? a = m.byte? a := by
  refine h.bytes a fun r hr hholds => ?_
  rw [List.mem_singleton.1 hr] at hholds
  have hfirst := hholds.1
  have hlast := hholds.2
  omega

theorem loadSlot_beside {s : Span} (h : DiffersWithin [s] m m')
    (hs : address + 8 ≤ s.pointer ∨ s.pointer + s.length ≤ address) :
    m'.loadSlot address = m.loadSlot address :=
  loadSlot_congr h.size fun a hfirst hlast => h.byte?_beside (by omega)

end DiffersWithin

theorem differs_write {u : Unit} (h : write address data m = .ok u m') :
    DiffersWithin [⟨address, data.size⟩] m m' := by
  obtain ⟨hin, rfl⟩ := write_eq_ok_iff.1 h
  refine ⟨size_overlay hin, fun a ha => ?_⟩
  have hnot : ¬ (address ≤ a ∧ a < address + data.size) := ha _ List.mem_cons_self
  rw [byte?_overlay hin, if_neg hnot]

theorem differs_setWord {width n : Nat} {u : Unit} (h : setWord address width n m = .ok u m') :
    DiffersWithin [⟨address, width⟩] m m' := by
  have hdiffers := differs_write h
  rwa [size_word] at hdiffers

theorem differs_setI64 {n : Int} {u : Unit} (haddress : address + 4 ≤ maxAddress)
    (h : setI64 address n m = .ok u m') : DiffersWithin [⟨address, 8⟩] m m' := by
  obtain ⟨_, m₁, hlow, hhigh⟩ := exists_of_bind_ok h
  rw [addressAfter, Nat.min_eq_left haddress] at hhigh
  have hfirst : DiffersWithin [⟨address, 8⟩] m m₁ :=
    (differs_setWord hlow).widen (Nat.le_refl _) (by dsimp only; omega)
  have hsecond : DiffersWithin [⟨address, 8⟩] m₁ m' :=
    (differs_setWord hhigh).widen (Nat.le_add_right _ _) (by dsimp only; omega)
  exact hfirst.trans hsecond

theorem getI64_setI64 {n : Int} {u : Unit} (haddress : address + 4 ≤ maxAddress)
    (hlow : -2 ^ 63 ≤ n) (hhigh : n < 2 ^ 63) (h : setI64 address n m = .ok u m') :
    m'.getI64 address = .ok n := by
  obtain ⟨_, m₁, hfirst, hsecond⟩ := exists_of_bind_ok h
  rw [addressAfter, Nat.min_eq_left haddress] at hsecond
  have hafter := differs_setWord hsecond
  have hlowWord : m'.getWord address 4 = m₁.getWord address 4 :=
    getWord_congr hafter.size fun a _ ha => hafter.byte?_beside (.inl ha)
  rw [getI64, addressAfter, Nat.min_eq_left haddress, getI32, getU32, getU32, hlowWord,
    getWord_setWord hfirst, getWord_setWord hsecond]
  refine congrArg Except.ok ?_
  have hword : Nat.pow 256 4 = 4294967296 := rfl
  have hunsigned : UInt32.size = 4294967296 := rfl
  have hsigned : Int32.size = 4294967296 := rfl
  have hfits : ∀ k : Nat, (UInt32.ofNat (k % 4294967296)).toNat = k % 4294967296 := by
    intro k
    rw [UInt32.toNat_ofNat']
    omega
  rw [UInt32.toInt32_ofNat', Int32.toInt_ofNat', Int.bmod_def, hword, hunsigned, hsigned, hfits]
  omega

end Memory

end TokenizerHost
