import TokenizerHost.Proofs.Import.Outcome

set_option autoImplicit false

namespace TokenizerHost

open Host

variable {σ : Type} {c : Calls σ}

inductive Exchange where
  | hand (address : Nat) (v : Value)
  | giveUp (id : UInt32)
  deriving DecidableEq

namespace Exchange

def perform (c : Calls σ) : Exchange → Host σ Unit
  | .hand address v => storeValue address v
  | .giveUp id => Import.perform c 0 (.finalize id)

def tableCall : Exchange → TableCall
  | .hand _ v => .store v
  | .giveUp id => .release id

def reach : Exchange → List Span
  | .hand address _ => [⟨address, 8⟩]
  | .giveUp _ => []

theorem retain_not_mem (exchanges : List Exchange) (id : UInt32) :
    .retain id ∉ exchanges.map tableCall := by
  intro hmem
  obtain ⟨e, -, he⟩ := List.mem_map.1 hmem
  cases e <;> cases he

end Exchange

def World.Reads (w : World σ) (address : Nat) (v : Value) : Prop :=
  ∃ t, w.table = some t ∧ w.memory.loadValue t address = .ok v

/-- The world after some exchanges, those included that fault because their slot does not fit into
memory. -/
def World.trade (c : Calls σ) (w : World σ) (exchanges : List Exchange) : World σ :=
  exchanges.foldl (fun w e => after (e.perform c w)) w

structure Traded (t : ValueTable) (exchanges : List Exchange) (w u : World σ) : Prop where
  running : u.exitCode? = none
  table : u.table = some (t.run (exchanges.map Exchange.tableCall))
  memory : Memory.DiffersWithin (exchanges.flatMap Exchange.reach) w.memory u.memory

namespace Traded

variable {t : ValueTable} {w u : World σ}

theorem storeValue (hrun : w.exitCode? = none) (ht : w.table = some t) (address : Nat)
    (v : Value) : Traded t [.hand address v] w (after (storeValue address v w)) := by
  rw [Host.storeValue, bind_ok (ensureNotExited_running hrun), bind_ok (storeInTable_some ht v)]
  have hstoring : (w.storing t v).exitCode? = none := hrun
  cases hm : Memory.storeSlot address (t.store v).1 (w.storing t v).memory with
  | ok a m =>
    rw [bind_ok (onMemory_ok hstoring hm)]
    exact ⟨hrun, rfl, Memory.differs_setWord hm⟩
  | error e m =>
    rw [bind_error (onMemory_error hstoring hm)]
    have hm' : m = w.memory := Memory.eq_of_write_error hm
    exact ⟨hrun, rfl, hm' ▸ .refl _ _⟩

theorem perform (hrun : w.exitCode? = none) (ht : w.table = some t) (e : Exchange) :
    Traded t [e] w (after (e.perform c w)) := by
  cases e with
  | hand address v => exact storeValue hrun ht address v
  | giveUp id => exact ⟨hrun, congrArg (Option.map (ValueTable.release · id)) ht, .refl _ _⟩

theorem trade (hrun : w.exitCode? = none) (ht : w.table = some t) (exchanges : List Exchange) :
    Traded t exchanges w (w.trade c exchanges) := by
  induction exchanges generalizing w t with
  | nil => exact ⟨hrun, ht, .refl _ _⟩
  | cons e rest ih =>
    have hfirst : Traded t [e] w (after (e.perform c w)) := perform hrun ht e
    have hrest := ih hfirst.running hfirst.table
    refine ⟨hrest.running, hrest.table, ?_⟩
    have hreach : e.reach = [e].flatMap Exchange.reach := by simp
    rw [List.flatMap_cons, hreach]
    exact (hfirst.memory.mono (List.subset_append_left _ _)).trans
      (hrest.memory.mono (List.subset_append_right _ _))

end Traded

/-- What a slot stands for does not change while its handle, if it has one, is held. -/
theorem ValueTable.Consistent.resolve_run {global bridge v : Value} {t : ValueTable}
    (h : t.Consistent global bridge) {calls : List TableCall} (hcalls : RetainsHeld t calls)
    (hsize : (t.run calls).entries.size ≤ 2 ^ 32) {slot : Slot} (hslot : t.resolve slot = .ok v)
    (hheld : ∀ id, slot.handle? = some id → HeldThrough id t calls) :
    (t.run calls).resolve slot = .ok v := by
  cases slot with
  | undefined | number => exact hslot
  | ref id tag => exact h.load_run hcalls hsize hslot (hheld id rfl)

/-- A value that is handed over is read back at its address: the same object, array, run of bytes,
symbol or function, an equal string, the same number unless it is a NaN or a zero, and of these the
canonical one. However many values are handed over elsewhere afterwards and references given up, it
is read back still, as long as its handle is held. All this holds of every table that storing and
releasing lead to, until it has more entries than there are handles. -/
theorem marshalling_round_trip (c : Calls σ) {global bridge : Nat} (hdistinct : global ≠ bridge)
    {before : List TableCall} (hbefore : ∀ id, .retain id ∉ before) {t : ValueTable}
    (hbuilt : (ValueTable.new (.object global) (.object bridge)).run before = t) {w : World σ}
    (hrun : w.exitCode? = none) (htable : w.table = some t) {address : Nat}
    (hin : address + 8 ≤ w.memory.size) (v : Value)
    (hhandles : (t.store v).2.entries.size ≤ 2 ^ 32) :
    ∃ u, storeValue address v w = .ok () u ∧ u.Reads address v.canonical ∧
      ∀ later : List Exchange,
        (∀ address' x, .hand address' x ∈ later →
          address' + 8 ≤ address ∨ address + 8 ≤ address') →
        ((t.store v).2.run (later.map Exchange.tableCall)).entries.size ≤ 2 ^ 32 →
        (∀ id, (t.store v).1.handle? = some id →
          ValueTable.HeldThrough id (t.store v).2 (later.map Exchange.tableCall)) →
        (u.trade c later).Reads address v.canonical := by
  have hconsistent : t.Consistent (.object global) (.object bridge) := by
    rw [← hbuilt]
    refine (ValueTable.new_consistent hdistinct).run before
      (ValueTable.retainsHeld_of_no_retain _ _ hbefore) ?_
    rw [hbuilt]
    exact (ValueTable.size_le_store t v).trans hhandles
  obtain ⟨m, hm, -⟩ : Memory.Fits (Memory.storeSlot address (t.store v).1) w.memory () :=
    Memory.fits_setWord hin
  have hslot : m.loadSlot address = .ok (t.store v).1 := by
    rw [Memory.loadSlot_storeSlot hm, Slot.decode_encode (ValueTable.canonical_store t v)]
  have hresolve := hconsistent.resolve_store hhandles
  refine ⟨_, storeValue_eq_ok_iff.2 ⟨hrun, t, m, htable, hm, rfl⟩, ⟨_, rfl, ?_⟩, ?_⟩
  · exact Memory.loadValue_of_slot hslot hresolve
  · intro later hapart hfits hheld
    have hnone : ∀ id, TableCall.retain id ∉ later.map Exchange.tableCall :=
      Exchange.retain_not_mem later
    have htraded := Traded.trade (c := c) (t := (t.store v).2)
      (w := (w.stored t v m).record (.handed address (t.store v).1)) hrun rfl later
    refine ⟨_, htraded.table, Memory.loadValue_of_slot ?_ ((hconsistent.store v hhandles).resolve_run
      (ValueTable.retainsHeld_of_no_retain _ _ hnone) hfits hresolve hheld)⟩
    refine (Memory.loadSlot_congr htraded.memory.size fun a hfirst hlast => ?_).trans hslot
    refine htraded.memory.bytes a fun s hs hholds => ?_
    obtain ⟨e, he, hse⟩ := List.mem_flatMap.1 hs
    cases e with
    | giveUp => cases hse
    | hand address' x =>
      rw [List.mem_singleton.1 hse] at hholds
      have := hapart address' x he
      have := hholds.1
      have := hholds.2
      dsimp only at *
      omega

/-- The table in which an object has come and gone. -/
def recycled : ValueTable :=
  (ValueTable.new (.object 0) (.object 5)).run [.store (.object 2), .release 7]

/-- A string is given the handle that an object had. It is handed over once more, another value is
handed over, a third does not fit into memory, and one reference to the string is given up. -/
theorem marshalling_round_trip_recycled : ∃ u : World Unit,
    storeValue 8 (.string "text") { blank with table := some recycled } = .ok () u ∧
      (u.trade (askingTwice.callsWithin 0)
        [.hand 16 (.string "text"), .hand 24 (.object 3), .hand 60 .null, .giveUp 7]).Reads 8
        (.string "text") := by
  have hfrom : ∀ w : World Unit, w.exitCode? = none → 8 + 8 ≤ w.memory.size →
      ∃ u, storeValue 8 (.string "text") { w with table := some recycled } = .ok () u ∧
        (u.trade (askingTwice.callsWithin 0)
          [.hand 16 (.string "text"), .hand 24 (.object 3), .hand 60 .null, .giveUp 7]).Reads 8
          (.string "text") := by
    intro w hrun hin
    have hbuilt : (ValueTable.new (.object 0) (.object 5)).run [.store (.object 2), .release 7] =
        recycled := rfl
    obtain ⟨u, hu, -, hlater⟩ := marshalling_round_trip (askingTwice.callsWithin 0) (by decide)
      (by simp) hbuilt (w := { w with table := some recycled }) hrun rfl hin (.string "text")
      (by decide +kernel)
    refine ⟨u, hu, hlater _ ?_ (by decide +kernel) fun id hid => ?_⟩
    · intro address' x hx
      simp at hx
      omega
    · have h7 : id = 7 := Option.some.inj (hid.symm.trans (by decide +kernel))
      subst h7
      exact ⟨.inr ⟨1, by decide +kernel, by decide⟩, .inr ⟨2, by decide +kernel, by decide⟩,
        .inr ⟨2, by decide +kernel, by decide⟩, .inr ⟨2, by decide +kernel, by decide⟩,
        .inr ⟨1, by decide +kernel, by decide⟩⟩
  refine hfrom blank (congrArg Scheduler.exitCode? (scheduler_fresh _ _ _ _)) ?_
  rw [show blank.memory = .zeros 64 from (arguments_fresh _ _ _ _).2.2]
  decide

end TokenizerHost
