import TokenizerHost.Proofs.Memory.Bytes
import TokenizerHost.Proofs.Table.Entries

set_option autoImplicit false

namespace TokenizerHost

/-! ## Patterns by their fields -/

namespace Double

theorem magnitudeBits_eq (x : Double) :
    x.magnitudeBits = x.exponentField * 0x10000000000000 + x.fraction := by
  unfold magnitudeBits exponentField fraction
  omega

theorem fraction_lt (x : Double) : x.fraction < 0x10000000000000 := Nat.mod_lt _ (by decide)

theorem exponentField_lt (x : Double) : x.exponentField < 0x800 := Nat.mod_lt _ (by decide)

theorem isNaN_iff (x : Double) :
    x.isNaN = true ↔ x.exponentField = 0x7FF ∧ x.fraction ≠ 0 := by
  have hfraction := x.fraction_lt
  have hexponent := x.exponentField_lt
  simp only [isNaN, magnitudeBits_eq, decide_eq_true_eq]
  omega

theorem isInfinite_iff (x : Double) :
    x.isInfinite = true ↔ x.exponentField = 0x7FF ∧ x.fraction = 0 := by
  have hfraction := x.fraction_lt
  simp only [isInfinite, magnitudeBits_eq, beq_iff_eq]
  omega

/-- An infinity is a number like any other. -/
theorem isNumber_of_isInfinite {x : Double} (h : x.isInfinite = true) :
    x.isZero = false ∧ x.isNaN = false := by
  simp only [isInfinite, beq_iff_eq] at h
  simp [isZero, isNaN, h]

end Double

theorem TypeTag.toNat_ofBits {n : Nat} (h : n ≤ 4) : (ofBits n).toNat = n := by
  match n, h with
  | 0, _ | 1, _ | 2, _ | 3, _ | 4, _ => rfl

namespace Slot

inductive Written (bits : UInt64) : Prop where
  | undefined (h : bits = 0)
  | number (hzero : (⟨bits⟩ : Double).isZero = false) (hnan : (⟨bits⟩ : Double).isNaN = false)
  | boxed (tag : Nat) (htag : tag ≤ 4) (h : bits.toNat / 0x100000000 = 0x7FF80000 + tag)

/-! ## Reading and writing again -/

section Decode

variable {bits : UInt64}

theorem decode_of_isZero (h : (⟨bits⟩ : Double).isZero = true) : decode bits = .undefined := by
  simp [decode, h]

theorem decode_of_isNaN (h : (⟨bits⟩ : Double).isNaN = true) :
    decode bits = .ref bits.toUInt32 (.ofBits (bits.toNat / 0x100000000 % 8)) := by
  have hzero : (⟨bits⟩ : Double).isZero = false := by
    simp only [Double.isNaN, decide_eq_true_eq] at h
    simp only [Double.isZero, beq_eq_false_iff_ne]
    omega
  have hlow : UInt32.ofNat (bits.toNat % 0x100000000) = bits.toUInt32 := by
    apply UInt32.toNat_inj.1
    simp
  simp [decode, hzero, h, hlow]

theorem decode_of_number (hzero : (⟨bits⟩ : Double).isZero = false)
    (hnan : (⟨bits⟩ : Double).isNaN = false) : decode bits = .number ⟨bits⟩ := by
  simp [decode, hzero, hnan]

theorem canonical_decode (bits : UInt64) : (decode bits).Canonical := by
  cases hzero : (⟨bits⟩ : Double).isZero with
  | true =>
    rw [decode_of_isZero hzero]
    trivial
  | false =>
    cases hnan : (⟨bits⟩ : Double).isNaN with
    | true =>
      rw [decode_of_isNaN hnan]
      trivial
    | false =>
      rw [decode_of_number hzero hnan]
      exact ⟨hzero, hnan⟩

theorem written_encode {s : Slot} (h : s.Canonical) : Written s.encode := by
  cases s with
  | undefined => exact .undefined rfl
  | number n => exact .number h.1 h.2
  | ref id tag =>
    refine .boxed tag.toNat tag.toNat_le ?_
    have hid := id.toNat_lt
    rw [toNat_encode_ref, boxHead]
    omega

theorem encode_inj {s s' : Slot} (h : s.Canonical) (h' : s'.Canonical)
    (heq : s.encode = s'.encode) : s = s' := by
  rw [← decode_encode h, heq, decode_encode h']

/-- The high word of a reference tells the tag, the low word the handle, and nothing is left. -/
theorem encode_decode_of_boxed {tag : Nat} (htag : tag ≤ 4)
    (h : bits.toNat / 0x100000000 = 0x7FF80000 + tag) : encode (decode bits) = bits := by
  have hnan : (⟨bits⟩ : Double).isNaN = true := by
    apply decide_eq_true
    change 0x7FF0000000000000 < bits.toNat % 0x8000000000000000
    omega
  have hbits : bits.toNat / 0x100000000 % 8 = tag := by omega
  apply UInt64.toNat_inj.1
  rw [decode_of_isNaN hnan, toNat_encode_ref, hbits, TypeTag.toNat_ofBits htag, boxHead,
    UInt64.toNat_toUInt32]
  omega

theorem encode_decode_eq_iff (bits : UInt64) : encode (decode bits) = bits ↔ Written bits := by
  constructor
  · intro h
    rw [← h]
    exact written_encode (canonical_decode bits)
  · intro h
    cases h with
    | undefined h =>
      rw [h]
      rfl
    | number hzero hnan =>
      rw [decode_of_number hzero hnan]
      rfl
    | boxed tag htag h => exact encode_decode_of_boxed htag h

end Decode

/-- What becomes of a pattern that is read, and of the slot that is written again. -/
structure Normalizes (bits : UInt64) : Prop where
  written : Written (decode bits).encode
  same : decode (decode bits).encode = decode bits
  fixed_iff : (decode bits).encode = bits ↔ Written bits
  /-- A NaN of either sign, whatever its payload, names the handle in its low word. -/
  nan : Double.exponentField ⟨bits⟩ = 0x7FF → Double.fraction ⟨bits⟩ ≠ 0 →
    ∃ tag, decode bits = .ref bits.toUInt32 tag
  infinite : Double.exponentField ⟨bits⟩ = 0x7FF → Double.fraction ⟨bits⟩ = 0 →
    decode bits = .number ⟨bits⟩

theorem normalizes (bits : UInt64) : Normalizes bits where
  written := written_encode (canonical_decode bits)
  same := decode_encode (canonical_decode bits)
  fixed_iff := encode_decode_eq_iff bits
  nan hexponent hfraction :=
    ⟨_, decode_of_isNaN ((Double.isNaN_iff _).2 ⟨hexponent, hfraction⟩)⟩
  infinite hexponent hfraction :=
    have hnumber := Double.isNumber_of_isInfinite
      ((Double.isInfinite_iff _).2 ⟨hexponent, hfraction⟩)
    decode_of_number hnumber.1 hnumber.2

/-- What the table hands out is canonical. A canonical slot is read back from its pattern, and from
memory where there is room for it, so no two are written alike; and every pattern has a normal form,
which reads the same. -/
theorem patterns_have_normal_forms :
    (∀ (t : ValueTable) (v : Value), (t.store v).1.Canonical) ∧
    (∀ s : Slot, s.Canonical → decode s.encode = s ∧
      (∀ s' : Slot, s'.Canonical → s.encode = s'.encode → s = s') ∧
      ∀ (address : Nat) (m : Memory), address + 8 ≤ m.size →
        ∃ m', Memory.storeSlot address s m = .ok () m' ∧ m'.loadSlot address = .ok s) ∧
    ∀ bits, Normalizes bits := by
  refine ⟨ValueTable.canonical_store, fun s hs => ⟨decode_encode hs, ?_, ?_⟩, normalizes⟩
  · intro s' hs' heq
    exact encode_inj hs hs' heq
  · intro address m hroom
    obtain ⟨m', hstore, -⟩ : Memory.Fits (Memory.storeSlot address s) m () :=
      Memory.fits_setWord hroom
    exact ⟨m', hstore, by rw [Memory.loadSlot_storeSlot hstore, decode_encode hs]⟩

/-- A signalling NaN with the sign set is read as a reference, and is not how that is written. -/
theorem patterns_have_normal_forms_signalling :
    (∃ m', Memory.storeSlot 0 (.ref 5 .symbol) (.zeros 8) = .ok () m' ∧
      m'.loadSlot 0 = .ok (.ref 5 .symbol)) ∧
    (∃ tag, decode 0xFFF0000300000005 = .ref 5 tag) ∧
      (decode 0xFFF0000300000005).encode ≠ 0xFFF0000300000005 := by
  obtain ⟨-, hcanonical, hpatterns⟩ := patterns_have_normal_forms
  refine ⟨?_, ?_, by decide⟩
  · exact (hcanonical (.ref 5 .symbol) trivial).2.2 0 (.zeros 8) (by rw [Memory.size_zeros (by decide)])
  · exact (hpatterns 0xFFF0000300000005).nan (by decide) (by decide)

end Slot

end TokenizerHost
