import TokenizerHost.Import.Cells
import TokenizerHost.Proofs.Memory.Bytes
import TokenizerHost.Proofs.Run.Dispatch

set_option autoImplicit false

/-!
# Operands that cannot be read

`Unreadable` lists what is wrong with an operand that faults: its cell or what it points to leaves
memory, a pointer or a length is negative, or a slot names a dead handle. `decode_fails_iff` says
that decoding fails at such an operand and at nothing else, but for staged text that is no byte
array. An import does nothing before its operands are decoded, so a fault there leaves the world as
it is, and what functions would have done does not matter (`operand_faults_are_atomic`).
-/

namespace TokenizerHost

/-! ## Computations that fail -/

def Fails {α : Type} (x : Except Fault α) : Prop := ∃ e, x = .error e

section Fails

variable {α β : Type}

@[simp] theorem fails_error (e : Fault) : Fails (.error e : Except Fault α) := ⟨e, rfl⟩

@[simp] theorem not_fails_ok (a : α) : ¬ Fails (.ok a : Except Fault α) := nofun

@[simp] theorem not_fails_pure (a : α) : ¬ Fails (pure a : Except Fault α) := nofun

theorem ok_of_not_fails {x : Except Fault α} (h : ¬ Fails x) : ∃ a, x = .ok a := by
  cases x with
  | ok a => exact ⟨a, rfl⟩
  | error e => exact absurd ⟨e, rfl⟩ h

theorem fails_bind (x : Except Fault α) (f : α → Except Fault β) :
    Fails (x >>= f) ↔ Fails x ∨ ∃ a, x = .ok a ∧ Fails (f a) := by
  cases x with
  | ok a =>
    refine ⟨fun h => .inr ⟨a, rfl, h⟩, ?_⟩
    rintro (⟨e, he⟩ | ⟨b, hb, h⟩)
    · cases he
    · cases hb
      exact h
  | error e => exact ⟨fun _ => .inl ⟨e, rfl⟩, fun _ => ⟨e, rfl⟩⟩

/-- What fails whatever the first computation gives. -/
theorem fails_bind_iff {x : Except Fault α} {f : α → Except Fault β} {P : Prop}
    (h : ∀ a, x = .ok a → (Fails (f a) ↔ P)) : Fails (x >>= f) ↔ Fails x ∨ P := by
  rw [fails_bind]
  by_cases hx : Fails x
  · simp only [hx, true_or]
  · obtain ⟨a, rfl⟩ := ok_of_not_fails hx
    have ha := h a rfl
    refine or_congr_right ⟨?_, fun hP => ⟨a, rfl, ha.2 hP⟩⟩
    rintro ⟨b, hb, hf⟩
    cases hb
    exact ha.1 hf

theorem fails_bind_pure (x : Except Fault α) (f : α → β) :
    Fails (x >>= fun a => pure (f a)) ↔ Fails x :=
  (fails_bind_iff fun _ _ => iff_of_false (not_fails_pure _) id).trans (or_iff_left id)

theorem fails_map (x : Except Fault α) (f : α → β) : Fails (x.map f) ↔ Fails x := by
  cases x with
  | ok a => exact iff_of_false (not_fails_ok _) (not_fails_ok _)
  | error e => exact iff_of_true (fails_error e) (fails_error e)

theorem fails_mapM (f : α → Except Fault β) (items : List α) :
    Fails (items.mapM f) ↔ ∃ a ∈ items, Fails (f a) := by
  induction items with
  | nil => simp only [List.mapM_nil, not_fails_pure, List.not_mem_nil, false_and, exists_false]
  | cons a rest ih =>
    rw [List.mapM_cons, fails_bind_iff fun b _ => (fails_bind_pure _ _).trans ih]
    simp only [List.mem_cons, exists_eq_or_imp]

end Fails

/-! ## Reading memory -/

namespace Memory

variable {m : Memory}

theorem fails_slice (address length : Nat) :
    Fails (m.slice address length) ↔ m.size < address + length := by
  unfold slice
  by_cases h : m.inBounds address length = true
  · rw [if_pos h]
    simp only [inBounds_eq, decide_eq_true_eq] at h
    exact iff_of_false (not_fails_ok _) (by omega)
  · rw [if_neg h]
    simp only [inBounds_eq, decide_eq_true_eq] at h
    exact iff_of_true (fails_error _) (by omega)

theorem fails_getWord (address width : Nat) :
    Fails (m.getWord address width) ↔ m.size < address + width :=
  (fails_bind_pure _ _).trans (fails_slice _ _)

theorem fails_getU32 (address : Nat) : Fails (m.getU32 address) ↔ m.size < address + 4 :=
  (fails_map _ _).trans (fails_getWord _ _)

theorem fails_getI32 (address : Nat) : Fails (m.getI32 address) ↔ m.size < address + 4 :=
  (fails_map _ _).trans (fails_getU32 _)

theorem addressAfter_eq {address k : Nat} (h : address + k ≤ maxAddress) :
    addressAfter address k = address + k := Nat.min_eq_left h

theorem fails_getI64 {address : Nat} (h : address + 4 ≤ maxAddress) :
    Fails (m.getI64 address) ↔ m.size < address + 8 := by
  have hhigh : ∀ low : UInt32, Fails (do
      let high ← m.getI32 (addressAfter address 4)
      .ok (low.toNat + high.toInt * UInt32.size)) ↔ m.size < address + 8 := fun low => by
    rw [← fails_getI32 (address + 4), addressAfter_eq h]
    exact fails_bind_pure _ _
  rw [getI64, fails_bind_iff fun low _ => hhigh low, fails_getU32]
  omega

theorem fails_loadSlot (address : Nat) : Fails (m.loadSlot address) ↔ m.size < address + 8 :=
  (fails_map _ _).trans ((fails_map _ _).trans (fails_getWord _ _))

/-- A span that is not to be had: its cell leaves memory, or one of its two integers is negative. -/
theorem fails_loadSpan {address : Nat} (h : address + 16 ≤ maxAddress) :
    Fails (m.loadSpan address) ↔ m.size < address + 16 ∨
      ∃ pointer length, m.getI64 address = .ok pointer ∧ m.getI64 (address + 8) = .ok length ∧
        (pointer < 0 ∨ length < 0) := by
  rw [loadSpan, addressAfter_eq (by omega)]
  by_cases hout : m.size < address + 16
  · refine iff_of_true ?_ (.inl hout)
    rw [fails_bind]
    by_cases hp : Fails (m.getI64 address)
    · exact .inl hp
    · obtain ⟨pointer, hpointer⟩ := ok_of_not_fails hp
      refine .inr ⟨pointer, hpointer, ?_⟩
      rw [fails_bind]
      exact .inl ((fails_getI64 (by omega)).2 (by omega))
  · obtain ⟨pointer, hpointer⟩ : ∃ pointer, m.getI64 address = .ok pointer :=
      ok_of_not_fails (mt (fails_getI64 (by omega)).1 (by omega))
    obtain ⟨length, hlength⟩ : ∃ length, m.getI64 (address + 8) = .ok length :=
      ok_of_not_fails (mt (fails_getI64 (by omega)).1 (by omega))
    rw [hpointer, hlength]
    change Fails (if pointer < 0 ∨ length < 0 then _ else _) ↔ _
    split
    next hneg => exact iff_of_true (fails_error _) (.inr ⟨pointer, length, rfl, rfl, hneg⟩)
    next hneg =>
      refine iff_of_false (not_fails_ok _) ?_
      rintro (h | ⟨_, _, hp, hl, hneg'⟩)
      · exact hout h
      · cases hp
        cases hl
        exact hneg hneg'

theorem loadSpan_eq_ok_iff {address : Nat} (h : address + 8 ≤ maxAddress) (span : Span) :
    m.loadSpan address = .ok span ↔
      m.getI64 address = .ok span.pointer ∧ m.getI64 (address + 8) = .ok span.length := by
  rw [loadSpan, addressAfter_eq h]
  constructor
  · intro hload
    obtain ⟨pointer, hpointer, hload⟩ := except_bind_ok hload
    obtain ⟨length, hlength, hload⟩ := except_bind_ok hload
    split at hload
    next => cases hload
    next hneg =>
      cases hload
      rw [hpointer, hlength, Int.toNat_of_nonneg (by omega), Int.toNat_of_nonneg (by omega)]
      exact ⟨rfl, rfl⟩
  · rintro ⟨hpointer, hlength⟩
    have hneg : ¬ ((span.pointer : Int) < 0 ∨ (span.length : Int) < 0) := by omega
    simp only [hpointer, hlength, bind, Except.bind, if_neg hneg, Int.toNat_natCast]

end Memory

namespace ValueTable

theorem fails_load (t : ValueTable) (id : UInt32) :
    Fails (t.load id) ↔ (t.lookup? id).bind (·.value) = none := by
  unfold load
  split
  next v hv => exact iff_of_false (not_fails_ok v) (by rw [hv]; exact nofun)
  next hv => exact iff_of_true (fails_error _) hv

end ValueTable

/-! ## Operands -/

def OperandKind.width : OperandKind → Nat
  | .handle | .word => 4
  | .slot | .integer => 8
  | .shortBytes => 12
  | .bytes | .slots => 16

open Request (View)

inductive Unreadable (v : View) : OperandKind → Nat → Prop where
  | outside {kind : OperandKind} {address : Nat} (h : v.memory.size < address + kind.width) :
      Unreadable v kind address
  /-- A slot names a handle that stands for no value. -/
  | dead {address : Nat} {id : UInt32} {tag : TypeTag}
      (hslot : v.memory.loadSlot address = .ok (.ref id tag))
      (hdead : (v.table.lookup? id).bind (·.value) = none) : Unreadable v .slot address
  | negative {kind : OperandKind} {address : Nat} {pointer length : Int}
      (hkind : kind = .bytes ∨ kind = .slots) (hpointer : v.memory.getI64 address = .ok pointer)
      (hlength : v.memory.getI64 (address + 8) = .ok length) (h : pointer < 0 ∨ length < 0) :
      Unreadable v kind address
  | beyond {address : Nat} {span : Span} (hpointer : v.memory.getI64 address = .ok span.pointer)
      (hlength : v.memory.getI64 (address + 8) = .ok span.length)
      (h : v.memory.size < span.pointer + span.length) : Unreadable v .bytes address
  /-- As `beyond`; pointer and length are taken as unsigned, so a negative one is a great one. -/
  | shortBeyond {address : Nat} {pointer : Int} {length : Int32}
      (hpointer : v.memory.getI64 address = .ok pointer)
      (hlength : v.memory.getI32 (address + 8) = .ok length)
      (h : v.memory.size < (pointer % UInt64.size).toNat + length.toUInt32.toNat) :
      Unreadable v .shortBytes address
  | slotsBeyond {address : Nat} {span : Span}
      (hpointer : v.memory.getI64 address = .ok span.pointer)
      (hlength : v.memory.getI64 (address + 8) = .ok span.length)
      (h : v.memory.size < span.pointer + span.length * 8 ∨ maxAddress < span.length * 8) :
      Unreadable v .slots address
  | item {address i : Nat} {span : Span} (hpointer : v.memory.getI64 address = .ok span.pointer)
      (hlength : v.memory.getI64 (address + 8) = .ok span.length) (hi : i < span.length)
      (h : Unreadable v .slot (span.pointer + i * 8)) : Unreadable v .slots address

section Readers

variable {v : View} {address : Nat}

theorem fails_value (v : View) (address : Nat) :
    Fails (v.value address) ↔ Unreadable v .slot address := by
  rw [View.value, Memory.loadValue, fails_bind, Memory.fails_loadSlot]
  constructor
  · rintro (hout | ⟨slot, hslot, hfails⟩)
    · exact .outside hout
    · cases slot with
      | undefined => exact absurd hfails (not_fails_ok _)
      | number n => exact absurd hfails (not_fails_ok _)
      | ref id tag => exact .dead hslot ((v.table.fails_load id).1 hfails)
  · intro h
    cases h with
    | outside hout => exact .inl hout
    | dead hslot hdead => exact .inr ⟨_, hslot, (v.table.fails_load _).2 hdead⟩
    | negative hkind => rcases hkind with hkind | hkind <;> cases hkind

theorem fails_loadSpan_bind {α : Type} {m : Memory} (h : address + 8 ≤ maxAddress)
    (f : Span → Except Fault α) : Fails (m.loadSpan address >>= f) ↔
      Fails (m.loadSpan address) ∨ ∃ span : Span, m.getI64 address = .ok span.pointer ∧
        m.getI64 (address + 8) = .ok span.length ∧ Fails (f span) := by
  simp only [fails_bind, Memory.loadSpan_eq_ok_iff h, and_assoc]

theorem fails_bytes {α : Type} (h : address + 16 ≤ maxAddress) {f : Span → Except Fault α}
    (hf : ∀ span, Fails (f span) ↔ v.memory.size < span.pointer + span.length) :
    Fails (v.memory.loadSpan address >>= f) ↔ Unreadable v .bytes address := by
  rw [fails_loadSpan_bind (by omega), Memory.fails_loadSpan h]
  constructor
  · rintro ((hout | ⟨_, _, hpointer, hlength, hneg⟩) | ⟨span, hpointer, hlength, hspan⟩)
    · exact .outside hout
    · exact .negative (.inl rfl) hpointer hlength hneg
    · exact .beyond hpointer hlength ((hf span).1 hspan)
  · intro hbad
    cases hbad with
    | outside hout => exact .inl (.inl hout)
    | negative _ hpointer hlength hneg => exact .inl (.inr ⟨_, _, hpointer, hlength, hneg⟩)
    | beyond hpointer hlength hspan => exact .inr ⟨_, hpointer, hlength, (hf _).2 hspan⟩

theorem fails_range (h : address + 16 ≤ maxAddress) :
    Fails (v.memory.loadRange address) ↔ Unreadable v .bytes address := by
  refine fails_bytes h fun span => ?_
  simp only [Memory.inBounds_eq, decide_eq_true_eq]
  split
  next hin => exact iff_of_false (not_fails_ok _) (by omega)
  next hin => exact iff_of_true (fails_error _) (by omega)

theorem fails_loadSlice (h : address + 16 ≤ maxAddress) :
    Fails (v.memory.loadSlice address) ↔ Unreadable v .bytes address :=
  fails_bytes h fun _ => Memory.fails_slice _ _

theorem fails_loadString (h : address + 16 ≤ maxAddress) :
    Fails (v.memory.loadString address) ↔ Unreadable v .bytes address :=
  (fails_map _ _).trans (fails_loadSlice h)

theorem fails_values (h : address + 16 ≤ maxAddress) :
    Fails (v.values address) ↔ Unreadable v .slots address := by
  have hitems : ∀ span : Span, Fails (if maxAddress < span.length * 8 then
        .error (.memoryAccess span.pointer span.length)
      else if !v.memory.inBounds span.pointer (span.length * 8) then
        .error (.memoryAccess span.pointer (span.length * 8))
      else (List.range span.length).mapM fun i =>
        v.memory.loadValue v.table (span.pointer + i * 8) : Except Fault (List Value)) ↔
      (v.memory.size < span.pointer + span.length * 8 ∨ maxAddress < span.length * 8) ∨
        ∃ i < span.length, Unreadable v .slot (span.pointer + i * 8) := by
    intro span
    simp only [Memory.inBounds_eq, Bool.not_eq_true', decide_eq_false_iff_not]
    split
    next hmany => exact iff_of_true (fails_error _) (.inl (.inr hmany))
    next hmany =>
      split
      next hout => exact iff_of_true (fails_error _) (.inl (.inl (by omega)))
      next hin =>
        have hspan : ¬ (v.memory.size < span.pointer + span.length * 8 ∨
            maxAddress < span.length * 8) := by omega
        rw [fails_mapM, or_iff_right hspan]
        simp only [List.mem_range]
        exact exists_congr fun i => and_congr_right fun _ => fails_value v _
  rw [View.values, Memory.loadValues, fails_loadSpan_bind (by omega), Memory.fails_loadSpan h]
  constructor
  · rintro ((hout | ⟨_, _, hpointer, hlength, hneg⟩) | ⟨span, hpointer, hlength, hspan⟩)
    · exact .outside hout
    · exact .negative (.inr rfl) hpointer hlength hneg
    · rcases (hitems span).1 hspan with hspan | ⟨i, hi, hbad⟩
      · exact .slotsBeyond hpointer hlength hspan
      · exact .item hpointer hlength hi hbad
  · intro hbad
    cases hbad with
    | outside hout => exact .inl (.inl hout)
    | negative _ hpointer hlength hneg => exact .inl (.inr ⟨_, _, hpointer, hlength, hneg⟩)
    | slotsBeyond hpointer hlength hspan =>
      exact .inr ⟨_, hpointer, hlength, (hitems _).2 (.inl hspan)⟩
    | item hpointer hlength hi hbad =>
      exact .inr ⟨_, hpointer, hlength, (hitems _).2 (.inr ⟨_, hi, hbad⟩)⟩

theorem unreadable_scalar {kind : OperandKind}
    (hkind : kind = .handle ∨ kind = .word ∨ kind = .integer) :
    Unreadable v kind address ↔ v.memory.size < address + kind.width := by
  refine ⟨fun h => ?_, .outside⟩
  cases h with
  | outside hout => exact hout
  | dead | beyond | shortBeyond | slotsBeyond | item => simp at hkind
  | negative hspan => rcases hspan with rfl | rfl <;> simp at hkind

theorem fails_handle : Fails (v.memory.getU32 address) ↔ Unreadable v .handle address :=
  (Memory.fails_getU32 _).trans (unreadable_scalar (.inl rfl)).symm

theorem fails_word : Fails (v.memory.getI32 address) ↔ Unreadable v .word address :=
  (Memory.fails_getI32 _).trans (unreadable_scalar (.inr (.inl rfl))).symm

theorem fails_integer (h : address + 4 ≤ maxAddress) :
    Fails (v.memory.getI64 address) ↔ Unreadable v .integer address :=
  (Memory.fails_getI64 h).trans (unreadable_scalar (.inr (.inr rfl))).symm

theorem fails_shortBytes {α : Type} (h : address + 4 ≤ maxAddress) (f : ByteArray → α) :
    Fails (do
      let pointer ← v.memory.getI64 address
      let length ← v.memory.getI32 (address + 8)
      let bytes ← v.rawSlice pointer length
      pure (f bytes)) ↔ Unreadable v .shortBytes address := by
  simp only [fails_bind, Memory.fails_getI64 h, Memory.fails_getI32, View.rawSlice,
    Memory.fails_slice, not_fails_pure, and_false, exists_false, or_false]
  constructor
  · rintro (hout | ⟨pointer, hpointer, hout | ⟨length, hlength, hbeyond⟩⟩)
    · exact .outside (by simp only [OperandKind.width]; omega)
    · exact .outside (by simp only [OperandKind.width]; omega)
    · exact .shortBeyond hpointer hlength hbeyond
  · intro hbad
    cases hbad with
    | outside hout =>
      simp only [OperandKind.width] at hout
      by_cases hfirst : v.memory.size < address + 8
      · exact .inl hfirst
      · obtain ⟨pointer, hpointer⟩ : ∃ pointer, v.memory.getI64 address = .ok pointer :=
          ok_of_not_fails (mt (Memory.fails_getI64 h).1 hfirst)
        exact .inr ⟨pointer, hpointer, .inl (by omega)⟩
    | shortBeyond hpointer hlength hbeyond =>
      exact .inr ⟨_, hpointer, .inr ⟨_, hlength, hbeyond⟩⟩
    | negative hkind => rcases hkind with hkind | hkind <;> cases hkind

end Readers

/-! ## Decoding -/

namespace Import

/-- The slot that has to name a byte array before an import looks at a span beside it. -/
def bytesSlot? : Import → Option Nat
  | .valueLoadString | .copyBytesIn => some 8
  | .copyBytesOut => some 32
  | _ => none

def Reads (i : Import) (v : View) (sp : Nat) (cell : OperandCell) : Prop :=
  cell ∈ i.operandCells ∧ ∀ offset, i.bytesSlot? = some offset → cell.kind = .bytes →
    ∃ x bytes, v.value (sp + offset) = .ok x ∧ v.heap.bytes? x = some bytes

/-- Text is asked for that has not been staged: the value is no byte array. -/
def Unstaged (i : Import) (v : View) (sp : Nat) : Prop :=
  i = .valueLoadString ∧ ∃ x, v.value (sp + 8) = .ok x ∧ v.heap.bytes? x = none

variable {i : Import} {v : View} {sp : Nat}

theorem reads_iff (h : i.bytesSlot? = none) (cell : OperandCell) :
    i.Reads v sp cell ↔ cell ∈ i.operandCells :=
  and_iff_left fun _ hoffset => nomatch h.symm.trans hoffset

theorem exists_reads_iff (slot span : OperandCell) (hslot : slot.kind = .slot)
    (hspan : span.kind = .bytes) (hi : i.bytesSlot? = some slot.offset)
    (hcells : ∀ cell, cell ∈ i.operandCells ↔ cell = slot ∨ cell = span) :
    (∃ cell, i.Reads v sp cell ∧ Unreadable v cell.kind (sp + cell.offset)) ↔
      Fails (v.value (sp + slot.offset)) ∨ ∃ x, v.value (sp + slot.offset) = .ok x ∧
        ∃ bytes, v.heap.bytes? x = some bytes ∧ Unreadable v .bytes (sp + span.offset) := by
  rw [fails_value]
  constructor
  · rintro ⟨cell, ⟨hcell, hread⟩, hbad⟩
    rcases (hcells cell).1 hcell with rfl | rfl
    · exact .inl (hslot ▸ hbad)
    · obtain ⟨x, bytes, hx, hbytes⟩ := hread _ hi hspan
      exact .inr ⟨x, hx, bytes, hbytes, hspan ▸ hbad⟩
  · rintro (hbad | ⟨x, hx, bytes, hbytes, hbad⟩)
    · refine ⟨slot, ⟨(hcells _).2 (.inl rfl), fun _ _ hkind => ?_⟩, hslot.symm ▸ hbad⟩
      cases hslot.symm.trans hkind
    · refine ⟨span, ⟨(hcells _).2 (.inr rfl), fun offset hoffset _ => ?_⟩, hspan.symm ▸ hbad⟩
      cases hi.symm.trans hoffset
      exact ⟨x, bytes, hx, hbytes⟩

def SomeUnreadable (v : View) (sp : Nat) : List OperandCell → Prop
  | [] => False
  | [cell] => Unreadable v cell.kind (sp + cell.offset)
  | cell :: rest => Unreadable v cell.kind (sp + cell.offset) ∨ SomeUnreadable v sp rest

theorem someUnreadable_iff (cells : List OperandCell) : SomeUnreadable v sp cells ↔
    ∃ cell ∈ cells, Unreadable v cell.kind (sp + cell.offset) := by
  induction cells with
  | nil => simp only [SomeUnreadable, List.not_mem_nil, false_and, exists_false]
  | cons cell rest ih =>
    cases rest with
    | nil => simp only [SomeUnreadable, List.mem_singleton, exists_eq_left]
    | cons next rest =>
      rw [SomeUnreadable, ih]
      · simp only [List.mem_cons, exists_eq_or_imp]
      · exact nofun

/-- Imports that read all their operands fail at any of them. -/
theorem decode_fails_of_all (h : i.bytesSlot? = none) (v : View) (hsp : sp + 48 ≤ maxAddress) :
    Fails (Request.decode i v sp) ↔ SomeUnreadable v sp i.operandCells := by
  have hstring : ∀ offset, offset ≤ 32 → (Fails (v.memory.loadString (sp + offset)) ↔
      Unreadable v .bytes (sp + offset)) := fun offset ho => fails_loadString (by omega)
  have hvalues : ∀ offset, offset ≤ 32 → (Fails (v.values (sp + offset)) ↔
      Unreadable v .slots (sp + offset)) := fun offset ho => fails_values (by omega)
  have hinteger : ∀ offset, offset ≤ 32 → (Fails (v.memory.getI64 (sp + offset)) ↔
      Unreadable v .integer (sp + offset)) := fun offset ho => fails_integer (by omega)
  have hvalue : ∀ offset, Fails (v.value (sp + offset)) ↔ Unreadable v .slot (sp + offset) :=
    fun offset => fails_value v _
  unfold Request.decode
  cases i with
  | nanotime | walltime | resetMemoryDataView => exact iff_of_false (not_fails_pure _) id
  | wasmExit | clearTimeoutEvent => exact (fails_bind_pure _ _).trans fails_word
  | scheduleTimeoutEvent => exact (fails_bind_pure _ _).trans (hinteger 8 (by omega))
  | getRandomData => exact (fails_bind_pure _ _).trans (fails_range (by omega))
  | finalizeRef => exact (fails_bind_pure _ _).trans fails_handle
  | stringVal => exact (fails_bind_pure _ _).trans (hstring 8 (by omega))
  | valueLength | valuePrepareString => exact (fails_bind_pure _ _).trans (hvalue 8)
  | wasmWrite =>
    exact (fails_bind_iff fun stream _ => fails_shortBytes (by omega) (Request.write stream)).trans
      (or_congr_left (hinteger 8 (by omega)))
  | valueGet | valueDelete =>
    have hkey := hstring 16 (by omega)
    exact (fails_bind_iff fun _ _ => (fails_bind_pure _ _).trans hkey).trans
      (or_congr_left (hvalue 8))
  | valueIndex =>
    have hindex := hinteger 16 (by omega)
    exact (fails_bind_iff fun _ _ => (fails_bind_pure _ _).trans hindex).trans
      (or_congr_left (hvalue 8))
  | valueInvoke | valueNew =>
    have hargs := hvalues 16 (by omega)
    exact (fails_bind_iff fun _ _ => (fails_bind_pure _ _).trans hargs).trans
      (or_congr_left (hvalue 8))
  | valueInstanceOf =>
    exact (fails_bind_iff fun _ _ => (fails_bind_pure _ _).trans (hvalue 16)).trans
      (or_congr_left (hvalue 8))
  | valueSet =>
    have hkey := hstring 16 (by omega)
    refine (fails_bind_iff fun _ _ => ?_).trans (or_congr_left (hvalue 8))
    exact (fails_bind_iff fun _ _ => (fails_bind_pure _ _).trans (hvalue 32)).trans
      (or_congr_left hkey)
  | valueSetIndex =>
    -- The new value is read before the index, though its cell lies after it.
    have hindex := hinteger 16 (by omega)
    refine (fails_bind_iff fun _ _ => ?_).trans (or_congr_left (hvalue 8))
    exact (fails_bind_iff fun _ _ => (fails_bind_pure _ _).trans hindex).trans
      ((or_congr_left (hvalue 24)).trans or_comm)
  | valueCall =>
    have hkey := hstring 16 (by omega)
    have hargs := hvalues 32 (by omega)
    refine (fails_bind_iff fun _ _ => ?_).trans (or_congr_left (hvalue 8))
    exact (fails_bind_iff fun _ _ => (fails_bind_pure _ _).trans hargs).trans
      (or_congr_left hkey)
  | valueLoadString | copyBytesOut | copyBytesIn => cases h

theorem fails_beside {α : Type} {address : Nat} {x : Except Fault Value} {y : Except Fault α}
    (hy : Fails y ↔ Unreadable v .bytes address) {f : Value → ByteArray → α → Request}
    {P : Value → Prop} {other : Value → Except Fault Request} (hother : ∀ a, Fails (other a) ↔ P a) :
    Fails (x >>= fun a =>
      match v.heap.bytes? a with
      | some bytes => y >>= fun b => pure (f a bytes b)
      | none => other a) ↔
    (Fails x ∨ ∃ a, x = .ok a ∧ ∃ bytes, v.heap.bytes? a = some bytes ∧
      Unreadable v .bytes address) ∨ ∃ a, x = .ok a ∧ v.heap.bytes? a = none ∧ P a := by
  rw [fails_bind, or_assoc, ← exists_or]
  refine or_congr_right (exists_congr fun a => ?_)
  cases hbytes : v.heap.bytes? a with
  | some bytes =>
    simp only [fails_bind_pure, hy, Option.some.injEq, exists_eq_left', reduceCtorEq, false_and,
      and_false, or_false]
  | none =>
    simp only [hother, reduceCtorEq, false_and, exists_false, and_false, true_and, false_or]

/-- Decoding fails at an operand that is read and cannot be, and where staged text is none. -/
theorem decode_fails_iff (i : Import) (v : View) (hsp : sp + 48 ≤ maxAddress) :
    Fails (Request.decode i v sp) ↔
      (∃ cell, i.Reads v sp cell ∧ Unreadable v cell.kind (sp + cell.offset)) ∨
        i.Unstaged v sp := by
  by_cases hall : i.bytesSlot? = none
  · have hstaged : ¬ i.Unstaged v sp := by
      rintro ⟨rfl, -⟩
      cases hall
    rw [decode_fails_of_all hall v hsp, someUnreadable_iff, or_iff_left hstaged]
    simp only [reads_iff hall]
  · cases i with
    | valueLoadString =>
      rw [exists_reads_iff ⟨"v", .slot, 8⟩ ⟨"dst", .bytes, 16⟩ rfl rfl rfl
        fun cell => by simp only [operandCells, List.mem_cons, List.not_mem_nil, or_false]]
      refine (fails_beside (fails_range (by omega)) (P := fun _ => True)
        fun _ => iff_of_true (fails_error _) trivial).trans (or_congr_right ?_)
      simp only [Unstaged, true_and, and_true]
    | copyBytesOut =>
      rw [exists_reads_iff ⟨"v", .slot, 32⟩ ⟨"dst", .bytes, 8⟩ rfl rfl rfl
        fun cell => by
          simp only [operandCells, List.mem_cons, List.not_mem_nil, or_false]
          exact or_comm]
      refine (fails_beside (fails_range (by omega)) (P := fun _ => False)
        fun _ => iff_of_false (not_fails_pure _) id).trans (or_congr_right ?_)
      simp only [Unstaged, and_false, exists_false, reduceCtorEq, false_and]
    | copyBytesIn =>
      rw [exists_reads_iff ⟨"v", .slot, 8⟩ ⟨"src", .bytes, 16⟩ rfl rfl rfl
        fun cell => by simp only [operandCells, List.mem_cons, List.not_mem_nil, or_false]]
      refine (fails_beside (fails_loadSlice (by omega)) (P := fun _ => False)
        fun _ => iff_of_false (not_fails_pure _) id).trans (or_congr_right ?_)
      simp only [Unstaged, and_false, exists_false, reduceCtorEq, false_and]
    | _ => exact absurd rfl hall

/-- What is done comes after decoding: where that fails nothing is done, whatever functions would
do. -/
theorem dispatch_of_decode_error {σ : Type} {w : World σ} {e : Fault} (hv : view w = .ok v w)
    (h : Request.decode i v sp = .error e) :
    i.callee? sp w = none ∧ ∀ c : Calls σ, dispatch c i sp w = .error e w := by
  refine ⟨?_, fun c => ?_⟩
  · unfold callee?
    rw [hv]
    dsimp only
    rw [h]
  · unfold dispatch
    split
    · cases h
    · rw [bind_ok hv, h]
      rfl

end Import

/-- Operand faults are atomic. Of an import of a running guest, decoding fails exactly if an operand
that it reads cannot be read, or staged text is asked for and there is none. The import then answers
with that fault in the very world it was called in: memory, handles and their counts, host objects,
timers, output and journal are as they were, and no function has been called, so that the answer is
the same for all `Calls`. -/
theorem operand_faults_are_atomic {σ : Type} (i : Import) (sp : UInt32) {w : World σ}
    {t : ValueTable} (hrun : w.exitCode? = none) (ht : w.table = some t) :
    let v : View := ⟨w.memory, t, w.heap⟩
    ((∃ e, Request.decode i v sp.toNat = .error e) ↔
      (∃ cell, i.Reads v sp.toNat cell ∧ Unreadable v cell.kind (sp.toNat + cell.offset)) ∨
        i.Unstaged v sp.toNat) ∧
    ∀ e, Request.decode i v sp.toNat = .error e → i.callee? sp.toNat w = none ∧
      ∀ c : Calls σ, Import.dispatch c i sp.toNat w = .error e w := by
  intro v
  have hview : Import.view w = .ok v w := by
    simp only [Import.view, hrun, ht, v]
  have hsp : sp.toNat + 48 ≤ maxAddress := by
    have := sp.toNat_lt
    simp only [maxAddress, UInt64.size]
    omega
  exact ⟨Import.decode_fails_iff i v hsp, fun e h => Import.dispatch_of_decode_error hview h⟩

/-- A world in whose memory the slot at 32 names a handle that was never given out. -/
def dangling : World Unit :=
  .atRest .empty (.object 0) (.object 1) .standard
    ((Memory.zeros 64).overlay 32 (littleEndian 8 (Slot.ref 9 .object).encode.toNat).toByteArray)
    ⟨0, 0⟩ ()

theorem operand_faults_are_atomic_dangling : ∃ e, ∀ c : Calls Unit,
    Import.dispatch c .valueSet 0 dangling = .error e dangling := by
  let v : View := ⟨dangling.memory, .new (.object 0) (.object 1), dangling.heap⟩
  have hreads : Import.valueSet.Reads v 0 ⟨"x", .slot, 32⟩ :=
    (Import.reads_iff rfl _).2 (by simp [Import.operandCells])
  have hfits : 32 + (littleEndian 8 (Slot.ref 9 .object).encode.toNat).toByteArray.size ≤
      (Memory.zeros 64).size := by
    rw [Memory.size_word, Memory.size_zeros (by decide)]
    decide
  have hslot : v.memory.loadSlot 32 = .ok (.ref 9 .object) :=
    (Memory.loadSlot_storeSlot (u := ()) (Memory.write_eq_ok_iff.2 ⟨hfits, rfl⟩)).trans
      (congrArg Except.ok (Slot.decode_encode trivial))
  have hdead : (v.table.lookup? 9).bind (·.value) = none := by decide +kernel
  have hfault := operand_faults_are_atomic .valueSet 0 (w := dangling)
    (t := .new (.object 0) (.object 1)) rfl rfl
  obtain ⟨e, he⟩ := hfault.1.2 (.inl ⟨_, hreads, .dead hslot hdead⟩)
  exact ⟨e, (hfault.2 e he).2⟩

end TokenizerHost
