import TokenizerHost.Proofs.Heap.Limits
import TokenizerHost.Proofs.Import.Texts

set_option autoImplicit false

namespace TokenizerHost

open Host

/-! ## Byte arrays -/

theorem Buffer.getElem?_overwrite (bytes source : ByteArray) (i : Nat) :
    (overwrite bytes source).data[i]? =
      if i < min bytes.size source.size then source.data[i]? else bytes.data[i]? := by
  have hbytes : bytes.data.size = bytes.size := rfl
  have hsource : source.data.size = source.size := rfl
  let n := min bytes.size source.size
  have hdata : (overwrite bytes source).data =
      source.data.extract 0 n ++ bytes.data.extract n bytes.size := by
    rw [overwrite, ByteArray.data_append, ByteArray.data_extract, ByteArray.data_extract]
  have hfront : (source.data.extract 0 n).size = n := by
    rw [Array.size_extract]
    omega
  rw [hdata]
  split
  next hi =>
    rw [Array.getElem?_append_left (by omega), Array.getElem?_extract, if_pos (by omega),
      Nat.zero_add]
  next hi =>
    rw [Array.getElem?_append_right (by omega), hfront, Array.getElem?_extract,
      Nat.add_sub_of_le (by omega)]
    split
    next => rfl
    next hpast => exact (Array.getElem?_eq_none (by omega)).symm

theorem Heap.bytes?_setBytes {h : Heap} {v : Value} {bytes : ByteArray}
    (hbytes : h.bytes? v = some bytes) (after : ByteArray) :
    (h.setBytes v after).bytes? v = some after := by
  cases v with
  | bytes id =>
    obtain ⟨hid, -⟩ := Array.getElem?_eq_some_iff.1 hbytes
    simp [setBytes, bytes?, hid]
  | _ => cases hbytes

namespace Memory

variable {m m' : Memory} {address sp n : Nat}

theorem loadSlice_of_loadRange {source : Span} (h : m.loadRange address = .ok source) :
    m.loadSlice address =
      .ok (m.bytes.extract source.pointer (source.pointer + source.length)) := by
  rw [loadSlice, loadSpan_of_loadRange h]
  exact slice_ok (inBounds_of_loadRange h)

theorem size_slice (h : address + n ≤ m.size) :
    (m.bytes.extract address (address + n)).size = n := by
  have hm := m.size_le_bytes
  rw [ByteArray.size_extract]
  omega

theorem DiffersWithin.getI64_beside {s : Span} (h : DiffersWithin [s] m m')
    (haddress : address + 4 ≤ maxAddress)
    (hs : address + 8 ≤ s.pointer ∨ s.pointer + s.length ≤ address) :
    m'.getI64 address = m.getI64 address := by
  have hword : ∀ a, address ≤ a → a ≤ address + 4 → m'.getWord a 4 = m.getWord a 4 :=
    fun a hfirst hlast => getWord_congr h.size fun b _ _ => h.byte?_beside (by omega)
  rw [getI64, getI64, addressAfter, Nat.min_eq_left haddress, getI32, getI32, getU32, getU32, getU32,
    getU32, hword address (by omega) (by omega), hword (address + 4) (by omega) (by omega)]

theorem getI64_bounds {n : Int} (h : m.getI64 address = .ok n) : -2 ^ 63 ≤ n ∧ n < 2 ^ 63 := by
  obtain ⟨low, -, h⟩ := except_bind_ok h
  obtain ⟨high, -, h⟩ := except_bind_ok h
  cases h
  have hlow := low.toNat_lt
  have hfirst := high.le_toInt
  have hlast := high.toInt_lt
  have hword : UInt32.size = 2 ^ 32 := rfl
  rw [hword]
  omega

theorem length_lt_of_loadSpan {s : Span} (h : m.loadSpan address = .ok s) : s.length < 2 ^ 63 := by
  obtain ⟨pointer, -, h⟩ := except_bind_ok h
  obtain ⟨length, hlength, h⟩ := except_bind_ok h
  have hbounds := getI64_bounds hlength
  split at h
  next => cases h
  next =>
    cases h
    dsimp only
    omega

/-! ## Answers -/

/-- The cells in which the guest is told how many bytes were copied, and whether any could be. -/
def answerCells (sp : Nat) : Span := ⟨sp + 40, 9⟩

structure TellsCopied (m : Memory) (sp n : Nat) : Prop where
  count : m.getI64 (sp + 40) = .ok n
  flag : m.getU8 (sp + 48) = .ok 1

def ApartFromAnswer (sp : Nat) (s : Span) : Prop := ∀ a, s.Holds a → ¬ (answerCells sp).Holds a

end Memory

def Import.arrayOffset? : Import → Option Nat
  | .copyBytesIn => some 8
  | .copyBytesOut => some 32
  | _ => none

section Copying

variable {σ : Type} {c : Calls σ} {w u : World σ} {t : ValueTable} {v : Value} {slot : Slot}
  {bytes : ByteArray} {sp : Nat}

namespace World

/-- The bytes of a span of memory are copied to the front of a byte array. -/
structure CopiedIn (w u : World σ) (sp : Nat) (v : Value) (bytes : ByteArray) (source : Span) :
    Prop where
  told : u.memory.TellsCopied sp (min bytes.size source.length)
  memory : Memory.DiffersWithin [Memory.answerCells sp] w.memory u.memory
  array : ∃ after, u.heap = w.heap.setBytes v after ∧ u.heap.bytes? v = some after ∧
    after.size = bytes.size ∧ ∀ i, after.data[i]? =
      if i < min bytes.size source.length then w.memory.byte? (source.pointer + i)
      else bytes.data[i]?
  nothing_else : u = { w with memory := u.memory, heap := u.heap, journal := u.journal }

/-- The bytes of a byte array are copied to the front of a span of memory. Where the span lies over
the cells of the answer, the answer is what is read there. -/
structure CopiedOut (w u : World σ) (sp : Nat) (bytes : ByteArray) (target : Span) : Prop where
  told : u.memory.TellsCopied sp (min bytes.size target.length)
  copied : ∀ i, i < min bytes.size target.length →
    ¬ (Memory.answerCells sp).Holds (target.pointer + i) →
    u.memory.byte? (target.pointer + i) = bytes.data[i]?
  memory : Memory.DiffersWithin [Memory.answerCells sp, target.take bytes.size] w.memory u.memory
  nothing_else : u = { w with memory := u.memory, journal := u.journal }

structure CopiedNothing (w u : World σ) (sp : Nat) : Prop where
  flag : u.memory.getU8 (sp + 48) = .ok 0
  memory : Memory.DiffersWithin [⟨sp + 48, 1⟩] w.memory u.memory
  nothing_else : u = { w with memory := u.memory, journal := u.journal }

/-- Wherever the guest puts a slot beside a destination for so many bytes, they are copied there. -/
def GivesBack (c : Calls σ) (w : World σ) (slot : Slot) (data : ByteArray) : Prop :=
  ∀ (own : σ) (m : Memory) (sp : UInt32) (target : Span),
    m.loadSlot (sp.toNat + 32) = .ok slot → m.loadRange (sp.toNat + 8) = .ok target →
    target.length = data.size → Memory.ApartFromAnswer sp.toNat target → sp.toNat + 49 ≤ m.size →
    ∃ u, Import.dispatch c .copyBytesOut sp.toNat (w.laidOut own m) = .ok () u ∧
      u.memory.slice target.pointer target.length = .ok data

end World

theorem storeCopied_ok (sp n : Nat) (hrun : w.exitCode? = none) (hsp : sp + 44 ≤ maxAddress)
    (hn : n < 2 ^ 63) (hin : sp + 49 ≤ w.memory.size) :
    ∃ m, Import.storeCopied sp n w = .ok () ({ w with memory := m }.record .wrote) ∧
      m.TellsCopied sp n ∧ Memory.DiffersWithin [Memory.answerCells sp] w.memory m := by
  obtain ⟨m₁, hcount, hsize⟩ : Memory.Fits (Memory.setI64 (sp + 40) n) w.memory () :=
    Memory.fits_setI64 (by omega)
  obtain ⟨m₂, hflag, -⟩ : Memory.Fits (Memory.setU8 (sp + 48) 1) m₁ () :=
    Memory.fits_setWord (by omega)
  have hanswer : (Memory.answerCells sp).pointer = sp + 40 ∧ (Memory.answerCells sp).length = 9 :=
    ⟨rfl, rfl⟩
  have hfirst : Memory.DiffersWithin [Memory.answerCells sp] w.memory m₁ :=
    (Memory.differs_setI64 hsp hcount).widen (by dsimp only; omega) (by dsimp only; omega)
  have hsecond : Memory.DiffersWithin [Memory.answerCells sp] m₁ m₂ :=
    (Memory.differs_setWord hflag).widen (by dsimp only; omega) (by dsimp only; omega)
  refine ⟨m₂, onMemory_ok hrun ((bind_ok hcount).trans hflag), ⟨?_, Memory.getU8_setU8 hflag⟩,
    hfirst.trans hsecond⟩
  rw [(Memory.differs_setWord hflag).getI64_beside hsp (.inl (Nat.le_refl _))]
  exact Memory.getI64_setI64 hsp (by omega) (by omega) hcount

/-- Addresses of cells on the stack are far below the greatest one. -/
theorem toNat_le_maxAddress (sp : UInt32) : sp.toNat + 48 ≤ maxAddress := by
  have := sp.toNat_lt
  simp only [maxAddress, UInt64.size]
  omega

theorem copiedIn_dispatch {sp : UInt32} {source : Span} (c : Calls σ) (hrun : w.exitCode? = none)
    (ht : w.table = some t) (hv : w.memory.loadValue t (sp.toNat + 8) = .ok v)
    (hbytes : w.heap.bytes? v = some bytes)
    (hsource : w.memory.loadRange (sp.toNat + 16) = .ok source)
    (hin : sp.toNat + 49 ≤ w.memory.size) :
    ∃ u, Import.dispatch c .copyBytesIn sp.toNat w = .ok () u ∧
      w.CopiedIn u sp.toNat v bytes source := by
  have hsp := toNat_le_maxAddress sp
  have hshort := Memory.length_lt_of_loadSpan (loadSpan_of_loadRange hsource)
  let data := w.memory.bytes.extract source.pointer (source.pointer + source.length)
  have hreach := inBounds_of_loadRange hsource
  have hsize : data.size = source.length := Memory.size_slice hreach
  have hrequest : Request.decode .copyBytesIn ⟨w.memory, t, w.heap⟩ sp.toNat =
      .ok (.copyIn (some (v, data))) := by
    simp only [Request.decode, Request.View.value, hv, bind, Except.bind, hbytes,
      Memory.loadSlice_of_loadRange hsource]
    rfl
  let after := Buffer.overwrite bytes data
  let x : World σ := { w with heap := w.heap.setBytes v after }
  have hperform : Import.perform c sp.toNat (.copyIn (some (v, data))) w =
      Import.storeCopied sp.toNat (min bytes.size source.length) x := by
    rw [Import.perform, fromHeap_bind]
    simp only [hbytes, Option.elim_some]
    have hcopied : onHeap (modify fun h =>
        h.setBytes v (Buffer.overwrite ((h.bytes? v).getD .empty) data)) w = .ok () x := by
      change EStateM.Result.ok () { w with
        heap := w.heap.setBytes v (Buffer.overwrite ((w.heap.bytes? v).getD .empty) data) } = _
      rw [hbytes, Option.getD_some]
    rw [bind_ok hcopied, hsize]
  obtain ⟨m, hm, htold, hdiffers⟩ := storeCopied_ok (w := x) sp.toNat
    (min bytes.size source.length) hrun (by omega) (by omega) hin
  rw [dispatch_of_decode_ok (Import.view_running hrun ht) hrequest (by decide), hperform]
  refine ⟨_, hm, htold, hdiffers, ⟨after, rfl, Heap.bytes?_setBytes hbytes after,
    Buffer.size_overwrite _ _, fun i => ?_⟩, rfl⟩
  rw [Buffer.getElem?_overwrite, hsize]
  split
  next hi => rw [Memory.getElem?_extract hreach, if_pos (by omega)]
  next => rfl

theorem copiedOut_dispatch {sp : UInt32} {target : Span} (c : Calls σ) (hrun : w.exitCode? = none)
    (ht : w.table = some t) (hv : w.memory.loadValue t (sp.toNat + 32) = .ok v)
    (hbytes : w.heap.bytes? v = some bytes)
    (htarget : w.memory.loadRange (sp.toNat + 8) = .ok target)
    (hin : sp.toNat + 49 ≤ w.memory.size) :
    ∃ u, Import.dispatch c .copyBytesOut sp.toNat w = .ok () u ∧
      w.CopiedOut u sp.toNat bytes target := by
  have hsp := toNat_le_maxAddress sp
  have hshort := Memory.length_lt_of_loadSpan (loadSpan_of_loadRange htarget)
  have hreach := inBounds_of_loadRange htarget
  have hrequest : Request.decode .copyBytesOut ⟨w.memory, t, w.heap⟩ sp.toNat =
      .ok (.copyOut (some (bytes, target))) := by
    simp only [Request.decode, Request.View.value, hv, bind, Except.bind, hbytes, htarget]
    rfl
  let n := min bytes.size target.length
  let front := bytes.extract 0 n
  have hfront : front.size = min target.length bytes.size := size_front bytes target.length
  obtain ⟨m₁, hwrite, hsize⟩ : Memory.Fits (Memory.write target.pointer front) w.memory () :=
    Memory.fits_write (by omega)
  let x : World σ := { w with memory := m₁ }.record .wrote
  have hcopied : onMemory (Memory.write target.pointer front) w = .ok () x := onMemory_ok hrun hwrite
  obtain ⟨m₂, hm, htold, hanswer⟩ := storeCopied_ok (w := x) sp.toNat n hrun (by omega) (by omega)
    (by change sp.toNat + 49 ≤ m₁.size; omega)
  have hfirst := Memory.differs_write hwrite
  rw [hfront] at hfirst
  rw [dispatch_of_decode_ok (Import.view_running hrun ht) hrequest (by decide), Import.perform,
    bind_ok hcopied]
  refine ⟨_, hm, htold, fun i hi hbeside => ?_, ?_, rfl⟩
  · have hkept : m₂.byte? (target.pointer + i) = m₁.byte? (target.pointer + i) :=
      hanswer.bytes _ fun s hs => List.mem_singleton.1 hs ▸ hbeside
    obtain ⟨hfits, rfl⟩ := Memory.write_eq_ok_iff.1 hwrite
    refine hkept.trans ?_
    rw [Memory.byte?_overlay hfits, if_pos (by omega), Nat.add_sub_cancel_left,
      ByteArray.data_extract, Array.getElem?_extract, Nat.zero_add, if_pos (by
        have : bytes.data.size = bytes.size := rfl
        omega)]
  · exact (hfirst.mono (List.subset_cons_self _ _)).trans
      (hanswer.mono (List.cons_subset.2 ⟨List.mem_cons_self, List.nil_subset _⟩))

theorem copiedNothing {sp : UInt32} (hrun : w.exitCode? = none)
    (hin : sp.toNat + 49 ≤ w.memory.size) :
    ∃ u, onMemory (Memory.setU8 (sp.toNat + 48) 0) w = .ok () u ∧ w.CopiedNothing u sp.toNat := by
  obtain ⟨m, hm, -⟩ : Memory.Fits (Memory.setU8 (sp.toNat + 48) 0) w.memory () :=
    Memory.fits_setWord (by omega)
  exact ⟨_, onMemory_ok hrun hm, Memory.getU8_setU8 hm, Memory.differs_setWord hm, rfl⟩

theorem bytes?_eq_none (hv : v.isBytes = false) (h : Heap) : h.bytes? v = none := by
  cases v with
  | bytes id => cases hv
  | _ => rfl

theorem copiedNothing_dispatch {sp : UInt32} {i : Import} {offset : Nat} (c : Calls σ)
    (hrun : w.exitCode? = none) (ht : w.table = some t) (hi : i.arrayOffset? = some offset)
    (hv : w.memory.loadValue t (sp.toNat + offset) = .ok v) (hbytes : v.isBytes = false)
    (hin : sp.toNat + 49 ≤ w.memory.size) :
    ∃ u, Import.dispatch c i sp.toNat w = .ok () u ∧ w.CopiedNothing u sp.toNat := by
  have hnone := bytes?_eq_none hbytes w.heap
  obtain ⟨r, hdecode, hreset, hperform⟩ : ∃ r,
      Request.decode i ⟨w.memory, t, w.heap⟩ sp.toNat = .ok r ∧ i ≠ .resetMemoryDataView ∧
      Import.perform c sp.toNat r = onMemory (Memory.setU8 (sp.toNat + 48) 0) := by
    cases i with
    | copyBytesIn | copyBytesOut =>
      cases hi
      simp only [Request.decode, Request.View.value, hv, bind, Except.bind, hnone]
      exact ⟨_, rfl, by decide, rfl⟩
    | _ => cases hi
  rw [dispatch_of_decode_ok (Import.view_running hrun ht) hdecode hreset, hperform]
  exact copiedNothing hrun hin

/-! ## There and back -/

/-- An array that begins with some bytes gives them back where there is room for just them. -/
theorem givesBack_of_prefix {data : ByteArray} (c : Calls σ) (hrun : w.exitCode? = none)
    (ht : w.table = some t) (hv : t.resolve slot = .ok v) (hbytes : w.heap.bytes? v = some bytes)
    (hroom : data.size ≤ bytes.size) (hdata : ∀ i < data.size, bytes.data[i]? = data.data[i]?) :
    w.GivesBack c slot data := by
  intro own m sp target hslot htarget hlength hapart hin
  obtain ⟨u, hu, -, hcopied, hmemory, -⟩ := copiedOut_dispatch (w := w.laidOut own m) c hrun ht
    (Memory.loadValue_of_slot hslot hv) hbytes htarget hin
  refine ⟨u, hu, ?_⟩
  have hreach : target.pointer + target.length ≤ u.memory.size := by
    rw [hmemory.size]
    exact inBounds_of_loadRange htarget
  rw [Memory.slice_ok hreach]
  refine congrArg Except.ok (ByteArray.ext (Array.ext_getElem? fun i => ?_))
  rw [Memory.getElem?_extract hreach]
  split
  next hi =>
    rw [hcopied i (by omega) (hapart _ ⟨by omega, by omega⟩), hdata i (by omega)]
  next hi =>
    have hsize : data.data.size = data.size := rfl
    exact (Array.getElem?_eq_none (by omega)).symm

theorem World.CopiedIn.givesBack {source : Span} (c : Calls σ) (hrun : w.exitCode? = none)
    (ht : w.table = some t) (hv : t.resolve slot = .ok v) (h : w.CopiedIn u sp v bytes source)
    (hreach : source.pointer + source.length ≤ w.memory.size) (hroom : source.length ≤ bytes.size) :
    u.GivesBack c slot (w.memory.bytes.extract source.pointer (source.pointer + source.length)) := by
  obtain ⟨-, -, ⟨after, -, hafter, hsize, hdata⟩, hrest⟩ := h
  have hlength := Memory.size_slice hreach
  have hrun' : u.exitCode? = none := by rw [hrest]; exact hrun
  have ht' : u.table = some t := by rw [hrest]; exact ht
  refine givesBack_of_prefix c hrun' ht' hv hafter (by omega) fun i hi => ?_
  rw [hdata, if_pos (by omega), Memory.getElem?_extract hreach, if_pos (by omega)]

end Copying

/-- Copies of bytes clamp to the shorter side, in either direction, and what was copied into an array
that has room for it is given back unchanged. What is no byte array is not copied, and that is all
that the guest is told. Where a span does not lie over the cells of the answer, its bytes beyond the
copy are as before. -/
theorem byte_copies_clamp_and_round_trip {σ : Type} (c : Calls σ) {w : World σ} {t : ValueTable}
    (hrun : w.exitCode? = none) (ht : w.table = some t) (sp : UInt32)
    (hin : sp.toNat + 49 ≤ w.memory.size) :
    (∀ slot v bytes source, w.memory.loadSlot (sp.toNat + 8) = .ok slot →
      t.resolve slot = .ok v → w.heap.bytes? v = some bytes →
      w.memory.loadRange (sp.toNat + 16) = .ok source →
      ∃ u, Import.dispatch c .copyBytesIn sp.toNat w = .ok () u ∧
        w.CopiedIn u sp.toNat v bytes source ∧
        (Memory.ApartFromAnswer sp.toNat source →
          u.memory.slice source.pointer source.length =
            w.memory.slice source.pointer source.length) ∧
        (source.length ≤ bytes.size → ∃ data,
          w.memory.slice source.pointer source.length = .ok data ∧ u.GivesBack c slot data)) ∧
    (∀ slot v bytes target, w.memory.loadSlot (sp.toNat + 32) = .ok slot →
      t.resolve slot = .ok v → w.heap.bytes? v = some bytes →
      w.memory.loadRange (sp.toNat + 8) = .ok target →
      ∃ u, Import.dispatch c .copyBytesOut sp.toNat w = .ok () u ∧
        w.CopiedOut u sp.toNat bytes target ∧
        (Memory.ApartFromAnswer sp.toNat target →
          (∀ i < target.length, u.memory.byte? (target.pointer + i) =
            if i < bytes.size then bytes.data[i]? else w.memory.byte? (target.pointer + i)))) ∧
    ∀ i offset v, i.arrayOffset? = some offset →
      w.memory.loadValue t (sp.toNat + offset) = .ok v → v.isBytes = false →
      ∃ u, Import.dispatch c i sp.toNat w = .ok () u ∧ w.CopiedNothing u sp.toNat := by
  refine ⟨?_, ?_, ?_⟩
  · intro slot v bytes source hslot hv hbytes hsource
    have hreach := inBounds_of_loadRange hsource
    obtain ⟨u, hu, hcopied⟩ := copiedIn_dispatch c hrun ht (Memory.loadValue_of_slot hslot hv) hbytes
      hsource hin
    refine ⟨u, hu, hcopied, fun hapart => ?_, fun hroom => ?_⟩
    · refine Memory.slice_congr hcopied.memory.size fun a hfirst hlast => ?_
      refine hcopied.memory.bytes a fun s hs => ?_
      rw [List.mem_singleton.1 hs]
      exact hapart a ⟨hfirst, hlast⟩
    · exact ⟨_, Memory.slice_ok hreach, hcopied.givesBack c hrun ht hv hreach hroom⟩
  · intro slot v bytes target hslot hv hbytes htarget
    obtain ⟨u, hu, hcopied⟩ := copiedOut_dispatch c hrun ht (Memory.loadValue_of_slot hslot hv)
      hbytes htarget hin
    refine ⟨u, hu, hcopied, fun hapart i hi => ?_⟩
    have hanswer := hapart (target.pointer + i) ⟨by omega, by omega⟩
    split
    next hlt => exact hcopied.copied i (by omega) hanswer
    next hpast =>
      refine hcopied.memory.bytes _ fun s hs => ?_
      rcases List.mem_cons.1 hs with rfl | hs
      · exact hanswer
      · rw [List.mem_singleton.1 hs]
        rintro ⟨-, hlast⟩
        simp only [Span.take] at hlast
        omega
  · exact fun i offset v hi hv hbytes => copiedNothing_dispatch c hrun ht hi hv hbytes hin

/-- A world whose guest holds the slot of three bytes, beside the span of two bytes of its own. -/
def withBuffer : World Unit :=
  { blank with
    heap := { blank.heap with buffers := #[⟨#[9, 9, 9]⟩] }
    table := some ((ValueTable.new (.object 0) (.object 5)).store (.bytes 0)).2
    memory := ⟨⟨#[0, 0, 0, 0, 0, 0, 0, 0, 7, 0, 0, 0, 1, 0, 0xF8, 0x7F, 49, 0, 0, 0, 0, 0, 0, 0,
      2, 0, 0, 0, 0, 0, 0, 0, 0, 0, 0, 0, 0, 0, 0, 0, 0, 0, 0, 0, 0, 0, 0, 0, 0, 0x68, 0x69]⟩⟩ }

theorem byte_copies_clamp_and_round_trip_with_buffer : ∃ u,
    Import.dispatch (askingTwice.callsWithin 1) .copyBytesIn 0 withBuffer = .ok () u ∧
      withBuffer.CopiedIn u 0 (.bytes 0) ⟨#[9, 9, 9]⟩ ⟨49, 2⟩ ∧
      u.GivesBack (askingTwice.callsWithin 1) (.ref 7 .object) ⟨#[0x68, 0x69]⟩ := by
  have hblank : blank.exitCode? = none := congrArg Scheduler.exitCode? (scheduler_fresh _ _ _ _)
  have hrun : withBuffer.exitCode? = none := by simpa only [withBuffer, World.exitCode?] using hblank
  have ht : withBuffer.table = some ((ValueTable.new (.object 0) (.object 5)).store (.bytes 0)).2 := rfl
  have hin : (0 : UInt32).toNat + 49 ≤ withBuffer.memory.size := by decide +kernel
  obtain ⟨hcopies, -⟩ := byte_copies_clamp_and_round_trip (askingTwice.callsWithin 1) hrun ht 0 hin
  obtain ⟨u, hu, hcopied, -, hback⟩ := hcopies (.ref 7 .object) (.bytes 0) ⟨#[9, 9, 9]⟩ ⟨49, 2⟩
    (by decide +kernel) (by decide +kernel) rfl (by decide +kernel)
  obtain ⟨data, hdata, hgives⟩ := hback (show 2 ≤ 3 by decide)
  have hslice : withBuffer.memory.slice 49 2 = .ok ⟨#[0x68, 0x69]⟩ := by decide +kernel
  obtain rfl := Except.ok.inj (hslice.symm.trans hdata)
  exact ⟨u, hu, hcopied, hgives⟩

end TokenizerHost
