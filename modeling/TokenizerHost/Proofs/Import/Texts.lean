import TokenizerHost.Proofs.Heap.Circles
import TokenizerHost.Proofs.Import.Footprint

set_option autoImplicit false

namespace TokenizerHost

open Host

variable {σ : Type} {c : Calls σ}

namespace World

variable {w : World σ} {t : ValueTable} {slot : Slot} {bytes : ByteArray}

def laidOut (w : World σ) (own : σ) (m : Memory) : World σ := { w with own, memory := m }

def NamesBytes (w : World σ) (slot : Slot) (bytes : ByteArray) : Prop :=
  ∃ t v, w.table = some t ∧ t.resolve slot = .ok v ∧ w.heap.bytes? v = some bytes

/-- Wherever the guest puts a slot beside a destination in bounds, `valueLoadString` copies bytes to
its front, as many as there is room for, and leaves all other bytes of memory alone. -/
def Loads (c : Calls σ) (w : World σ) (slot : Slot) (bytes : ByteArray) : Prop :=
  ∀ (own : σ) (m : Memory) (sp : UInt32) (target : Span),
    m.loadSlot (sp.toNat + 8) = .ok slot → m.loadRange (sp.toNat + 16) = .ok target →
    ∃ u, Import.dispatch c .valueLoadString sp.toNat (w.laidOut own m) = .ok () u ∧
      u.memory.slice target.pointer (min target.length bytes.size) =
        .ok (bytes.extract 0 (min bytes.size target.length)) ∧
      (target.length = bytes.size → u.memory.slice target.pointer target.length = .ok bytes) ∧
      Memory.DiffersWithin [target.take bytes.size] m u.memory

/-- Wherever the guest puts a slot, `valuePrepareString` says how many bytes there are and stages
them, unless the handles have run out, and then they can be loaded. -/
def Delivers (c : Calls σ) (w : World σ) (slot : Slot) (bytes : ByteArray) : Prop :=
  ∀ (own : σ) (m : Memory) (sp : UInt32),
    m.loadSlot (sp.toNat + 8) = .ok slot → sp.toNat + 32 ≤ m.size →
    ∃ u t staged, Import.dispatch c .valuePrepareString sp.toNat (w.laidOut own m) = .ok () u ∧
      u.memory.getI64 (sp.toNat + 24) = .ok bytes.size ∧
      u.memory.loadSlot (sp.toNat + 16) = .ok staged ∧ u.table = some t ∧
      (t.entries.size ≤ 2 ^ 32 → u.NamesBytes staged bytes ∧ u.Loads c staged bytes)

end World

theorem Import.view_running {w : World σ} {t : ValueTable} (hrun : w.exitCode? = none)
    (ht : w.table = some t) : view w = .ok ⟨w.memory, t, w.heap⟩ w := by
  simp only [view, hrun, ht]

section Loading

variable {w : World σ} {slot : Slot} {bytes : ByteArray}

theorem inBounds_of_loadRange {m : Memory} {address : Nat} {target : Span}
    (h : m.loadRange address = .ok target) : target.pointer + target.length ≤ m.size := by
  obtain ⟨span, -, h⟩ := except_bind_ok h
  split at h
  next hin =>
    cases h
    exact of_decide_eq_true (Memory.inBounds_eq .. ▸ hin)
  next => cases h

theorem loads_of_namesBytes (c : Calls σ) (hrun : w.exitCode? = none)
    (h : w.NamesBytes slot bytes) : w.Loads c slot bytes := by
  intro own m sp target hslot hrange
  obtain ⟨t, v, ht, hv, hbytes⟩ := h
  have hview := Import.view_running (w := w.laidOut own m) hrun ht
  have hrequest : Request.decode .valueLoadString ⟨m, t, w.heap⟩ sp.toNat =
      .ok (.loadText bytes target) := by
    have hvalue : m.loadValue t (sp.toNat + 8) = .ok v := Memory.loadValue_of_slot hslot hv
    simp only [Request.decode, Request.View.value, hvalue, bind, Except.bind, hbytes, hrange]
    rfl
  rw [dispatch_of_decode_ok hview hrequest (by decide)]
  have hsize := size_front bytes target.length
  have hin := inBounds_of_loadRange hrange
  obtain ⟨m', hm', -⟩ : Memory.Fits (Memory.write target.pointer
      (bytes.extract 0 (min bytes.size target.length))) m () := Memory.fits_write (by omega)
  have hwritten := Memory.slice_overlay (Memory.write_eq_ok_iff.1 hm').1
  rw [← (Memory.write_eq_ok_iff.1 hm').2, hsize] at hwritten
  have hwhole : target.length = bytes.size → m'.slice target.pointer target.length = .ok bytes := by
    intro hroom
    rw [hroom, Nat.min_self] at hwritten
    rw [hroom]
    simpa using hwritten
  have hdiffers := Memory.differs_write hm'
  rw [hsize] at hdiffers
  exact ⟨_, onMemory_ok hrun hm', hwritten, hwhole, hdiffers⟩

end Loading

section Staging

variable {w : World σ} {t : ValueTable} {v : Value} {text : String} {sp : Nat}

def World.staging (w : World σ) (bytes : ByteArray) : World σ :=
  { w with heap := { w.heap with buffers := w.heap.buffers.push bytes } }

def World.textStaged (w : World σ) (t : ValueTable) (text : String) (address : Nat)
    (m m' : Memory) : World σ :=
  let v : Value := .bytes w.heap.buffers.size
  let handed := ((w.staging text.toUTF8).stored t v m).record (.handed address (t.store v).1)
  { handed with memory := m' }.record .wrote

theorem prepareText_ok (c : Calls σ) (hrun : w.exitCode? = none) (ht : w.table = some t)
    (htext : w.heap.text? v = some text) (hin : sp + 32 ≤ w.memory.size) :
    ∃ m m', Memory.storeSlot (sp + 16) (t.store (.bytes w.heap.buffers.size)).1 w.memory =
        .ok () m ∧
      Memory.setI64 (sp + 24) text.toUTF8.size m = .ok () m' ∧
      Import.perform c sp (.prepareText v) w = .ok () (w.textStaged t text (sp + 16) m m') := by
  obtain ⟨m, hm, hsize⟩ : Memory.Fits (Memory.storeSlot (sp + 16)
      (t.store (.bytes w.heap.buffers.size)).1) w.memory () := Memory.fits_setWord (by omega)
  obtain ⟨m', hm', -⟩ : Memory.Fits (Memory.setI64 (sp + 24) text.toUTF8.size) m () :=
    Memory.fits_setI64 (by omega)
  refine ⟨m, m', hm, hm', ?_⟩
  have hstaged : onHeap (Heap.newBytes text.toUTF8) w =
      .ok (.bytes w.heap.buffers.size) (w.staging text.toUTF8) := rfl
  have hstored := storeValue_ok (show (w.staging text.toUTF8).exitCode? = none from hrun) ht hm
  rw [Import.perform, bind_ok (textOf_of_text htext), bind_ok hstaged, bind_ok hstored]
  exact onMemory_ok hrun hm'

theorem namesBytes_textStaged {global bridge : Value} (hw : w.TableConsistent global bridge)
    (ht : w.table = some t) (hsize : (t.store (.bytes w.heap.buffers.size)).2.entries.size ≤ 2 ^ 32)
    (address : Nat) (m m' : Memory) : (w.textStaged t text address m m').NamesBytes
      (t.store (.bytes w.heap.buffers.size)).1 text.toUTF8 := by
  have hconsistent : t.Consistent global bridge :=
    hw t ht ((ValueTable.size_le_store t _).trans hsize)
  exact ⟨_, _, rfl, hconsistent.resolve_store hsize, Array.getElem?_push_size⟩

theorem delivers_of_text {global bridge : Value} {slot : Slot} (c : Calls σ)
    (hw : w.TableConsistent global bridge) (hrun : w.exitCode? = none) (ht : w.table = some t)
    (hv : t.resolve slot = .ok v) (htext : w.heap.text? v = some text)
    (hlength : text.toUTF8.size < 2 ^ 63) : w.Delivers c slot text.toUTF8 := by
  intro own m sp hslot hin
  have hview := Import.view_running (w := w.laidOut own m) hrun ht
  have hrequest : Request.decode .valuePrepareString ⟨m, t, w.heap⟩ sp.toNat =
      .ok (.prepareText v) := by
    have hvalue : m.loadValue t (sp.toNat + 8) = .ok v := Memory.loadValue_of_slot hslot hv
    change ((m.loadValue t (sp.toNat + 8) >>= fun v => _) : Except Fault Request) = _
    rw [hvalue]
    rfl
  obtain ⟨m₁, m₂, hm₁, hm₂, hprepared⟩ := prepareText_ok (w := w.laidOut own m) c hrun ht htext hin
  have hsp := sp.toNat_lt
  have haddress : sp.toNat + 24 + 4 ≤ maxAddress := by
    simp only [maxAddress, UInt64.size]
    omega
  rw [dispatch_of_decode_ok hview hrequest (by decide)]
  have hstaged : m₂.loadSlot (sp.toNat + 16) = .ok (t.store (.bytes w.heap.buffers.size)).1 := by
    rw [(Memory.differs_setI64 haddress hm₂).loadSlot_beside (.inl (Nat.le_refl _)),
      Memory.loadSlot_storeSlot hm₁, Slot.decode_encode (ValueTable.canonical_store t _)]
    rfl
  refine ⟨_, _, _, hprepared, ?_, hstaged, rfl, fun hsize => ?_⟩
  · exact Memory.getI64_setI64 haddress (by omega) (by omega) hm₂
  · have hnames : ((w.laidOut own m).textStaged t text (sp.toNat + 16) m₁ m₂).NamesBytes
        (t.store (.bytes w.heap.buffers.size)).1 text.toUTF8 :=
      namesBytes_textStaged (w := w.laidOut own m) hw ht hsize (sp.toNat + 16) m₁ m₂
    exact ⟨hnames, loads_of_namesBytes c hrun hnames⟩

end Staging

/-- Bytes after the host has read them as text: what is no UTF-8 has been replaced. -/
def Text.repaired (data : ByteArray) : ByteArray := (Text.ofBytes data).toUTF8

/-- The host takes the bytes of a span as a string, whose slot it writes. -/
theorem delivers_of_stringVal {global bridge : Value} {w : World σ} {t : ValueTable} {own : σ}
    {m : Memory} {sp : Nat} {data : ByteArray} (c : Calls σ)
    (hw : w.TableConsistent global bridge) (hrun : w.exitCode? = none) (ht : w.table = some t)
    (hdata : m.loadSlice (sp + 8) = .ok data) (hin : sp + 32 ≤ m.size)
    (hlength : (Text.repaired data).size < 2 ^ 63) :
    ∃ u t' slot, Import.dispatch c .stringVal sp (w.laidOut own m) = .ok () u ∧
      u.memory.loadSlot (sp + 24) = .ok slot ∧ u.table = some t' ∧
      (t'.entries.size ≤ 2 ^ 32 → u.Delivers c slot (Text.repaired data)) := by
  have hview := Import.view_running (w := w.laidOut own m) hrun ht
  have hrequest : Request.decode .stringVal ⟨m, t, w.heap⟩ sp =
      .ok (.intern (Text.ofBytes data)) := by
    have hstring : m.loadString (sp + 8) = .ok (Text.ofBytes data) := by
      rw [Memory.loadString, hdata]
      rfl
    change ((m.loadString (sp + 8) >>= fun text => _) : Except Fault Request) = _
    rw [hstring]
    rfl
  obtain ⟨m', hm', -⟩ : Memory.Fits (Memory.storeSlot (sp + 24)
      (t.store (.string (Text.ofBytes data))).1) m () := Memory.fits_setWord (by omega)
  have hstored := storeValue_ok (w := w.laidOut own m) hrun ht hm'
  have hslot : m'.loadSlot (sp + 24) = .ok (t.store (.string (Text.ofBytes data))).1 := by
    rw [Memory.loadSlot_storeSlot hm', Slot.decode_encode (ValueTable.canonical_store t _)]
  rw [dispatch_of_decode_ok hview hrequest (by decide)]
  refine ⟨_, _, _, hstored, hslot, rfl, fun hsize => ?_⟩
  have hconsistent : t.Consistent global bridge :=
    hw t ht ((ValueTable.size_le_store t _).trans hsize)
  have hnext := World.TableConsistent.stored (w := w.laidOut own m) hw ht
    (.string (Text.ofBytes data)) m'
  exact delivers_of_text c (hnext.congr rfl) hrun rfl (hconsistent.resolve_store hsize)
    (by simp [Value.canonical, Heap.text?, Heap.textWithin]) hlength

/-- Texts arrive as they are. At every moment of every run until the guest exits, the text of every
value that has one is delivered to the guest that holds the value's slot, all its UTF-8 bytes and no
others. Bytes that the guest sends itself are delivered back with what is no UTF-8 replaced: a
string's own bytes as they are, and others so that sending them once more changes nothing. A text is
less than 2^63 bytes long, as every string is. -/
theorem string_transfer_round_trip (p : Program σ) (o : HostOptions) (memory : Memory)
    (around : Surroundings) (own : σ) {control : Control σ} {w : World σ}
    (h : Moment p (.fresh o memory around own) control w) (hrun : w.exitCode? = none)
    (depth : Nat) :
    (∀ t slot v levels text, w.table = some t → t.resolve slot = .ok v →
      w.heap.textWithin levels v = some text → text.toUTF8.size < 2 ^ 63 →
      w.Delivers (p.callsWithin depth) slot text.toUTF8) ∧
    (∀ (own' : σ) (m : Memory) (sp : UInt32) (data : ByteArray),
      m.loadSlice (sp.toNat + 8) = .ok data → sp.toNat + 32 ≤ m.size →
      (Text.repaired data).size < 2 ^ 63 →
      ∃ u t slot, Import.dispatch (p.callsWithin depth) .stringVal sp.toNat (w.laidOut own' m) =
          .ok () u ∧
        u.memory.loadSlot (sp.toNat + 24) = .ok slot ∧ u.table = some t ∧
        (t.entries.size ≤ 2 ^ 32 →
          u.Delivers (p.callsWithin depth) slot (Text.repaired data))) ∧
    (∀ s : String, Text.repaired s.toUTF8 = s.toUTF8) ∧
    ∀ data, Text.repaired (Text.repaired data) = Text.repaired data := by
  have hconsistent := h.reaches.tableConsistent (tableConsistent_fresh o memory around own)
  obtain ⟨t, ht⟩ := Option.isSome_iff_exists.1
    ((h.settled (settled_fresh o memory around own)).running hrun).1
  refine ⟨?_, ?_, fun s => ?_, fun data => ?_⟩
  · intro t slot v levels text ht hv htext hlength
    exact delivers_of_text _ hconsistent hrun ht hv (Heap.text?_eq_some_iff.2 ⟨levels, htext⟩)
      hlength
  · intro own' m sp data hdata hin hlength
    exact delivers_of_stringVal _ hconsistent hrun ht hdata hin hlength
  · exact congrArg String.toUTF8 (Text.ofBytes_toByteArray s)
  · exact congrArg String.toUTF8 (Text.ofBytes_idem data)

/-- A memory with two characters of three bytes, and their span where imports look for it. -/
def greeting : Memory :=
  ⟨⟨#[0, 0, 0, 0, 0, 0, 0, 0, 32, 0, 0, 0, 0, 0, 0, 0, 3, 0, 0, 0, 0, 0, 0, 0,
    0, 0, 0, 0, 0, 0, 0, 0, 0x68, 0xC3, 0xA9]⟩⟩

theorem string_transfer_round_trip_greeting : ∃ u t slot,
    Import.dispatch (askingTwice.callsWithin 1) .stringVal 0 (blank.laidOut () greeting) =
      .ok () u ∧ u.memory.loadSlot 24 = .ok slot ∧ u.table = some t ∧
      (t.entries.size ≤ 2 ^ 32 →
        u.Delivers (askingTwice.callsWithin 1) slot "hé".toUTF8) := by
  have hrun : blank.exitCode? = none := congrArg Scheduler.exitCode? (scheduler_fresh _ _ _ _)
  obtain ⟨-, hsend, hsame, -⟩ :=
    string_transfer_round_trip askingTwice .standard (.zeros 64) ⟨0, 0⟩ () .start hrun 1
  have hdata : greeting.loadSlice ((0 : UInt32).toNat + 8) = .ok "hé".toUTF8 := by decide +kernel
  have hrepaired := hsame "hé"
  have hsent := hsend () greeting 0 "hé".toUTF8 hdata (by decide) (by rw [hrepaired]; decide)
  rwa [hrepaired] at hsent

end TokenizerHost
