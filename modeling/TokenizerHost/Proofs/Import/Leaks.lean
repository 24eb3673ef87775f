import TokenizerHost.Proofs.Import.Footprint

set_option autoImplicit false

/-!
# What a guest is charged for a result it is not told

An import counts the reference that it hands back, or arms the timer whose id it tells, before it
writes its results. Each step that writes results either succeeds or ends with a memory fault
(`Host.Delivers`), and the guest is charged the same in both cases. So where a result does not lie
in guest memory, a reference to the value that was to be handed back stays counted, and the timer
stays armed (`result_faults_charge`). Only imports that tell numbers and flags, and values that need
no counted handle, cost the guest nothing.
-/

namespace TokenizerHost

open Host

variable {σ : Type}

/-! ## Charging -/

namespace ValueTable

variable {global bridge : Value} {t : ValueTable} {v : Value} {id : UInt32}

/-- Handing a value out counts one reference more: its handle is not reserved, and its count not as
high as it goes. -/
def Charges (t : ValueTable) (v : Value) : Prop :=
  ∃ id, (t.store v).1.handle? = some id ∧ reservedHandles ≤ id.toNat ∧
    ∀ n, t.refcount? id = some n → n.toNat + 1 < UInt32.size

theorem refcount?_of_lookup? {w : Option Value} {n : UInt32}
    (h : t.lookup? id = some ⟨w, .live n⟩) : t.refcount? id = some n := by
  simp only [refcount?, h]

theorem setEntry_self {e : TableEntry} (h : t.lookup? id = some e) : t.setEntry id e = t := by
  have hentries : t.entries.setIfInBounds id.toNat e = t.entries := by
    refine Array.ext_getElem? fun j => ?_
    rw [Array.getElem?_setIfInBounds]
    split
    next hj =>
      rw [if_pos (lt_size_of_lookup? h), ← hj]
      exact h.symm
    next => rfl
  rw [setEntry, hentries]

theorem succSaturating_cases (n : UInt32) :
    (n.toNat + 1 < UInt32.size ∧ succSaturating n ≠ n) ∨
      (¬ n.toNat + 1 < UInt32.size ∧ succSaturating n = n) := by
  by_cases hn : n.toNat + 1 < UInt32.size
  · refine .inl ⟨hn, fun hsame => ?_⟩
    rw [← UInt32.toNat_inj, toNat_succSaturating hn] at hsame
    omega
  · exact .inr ⟨hn, if_neg hn⟩

theorem size_store_le (t : ValueTable) (v : Value) :
    (t.store v).2.entries.size ≤ t.entries.size + 1 := by
  cases hv : v.identity? with
  | none =>
    rw [store_of_no_identity hv]
    exact Nat.le_succ _
  | some k =>
    rw [store_of_identity hv]
    cases hk : t.ids.find? k with
    | some id =>
      rw [intern_known hk, size_retain]
      exact Nat.le_succ _
    | none =>
      rw [size_intern_fresh hk]
      split <;> omega

/-- A count goes up if there is room; otherwise the table stays as it is. -/
theorem charges_of_recount {tag : TypeTag} {n : UInt32} (hslot : (t.store v).1 = .ref id tag)
    (hid : reservedHandles ≤ id.toNat) (hlookup : t.lookup? id = some ⟨some v, .live n⟩)
    (ht : (t.store v).2 = t.setEntry id ⟨some v, .live (succSaturating n)⟩) :
    (t.Charges v ∧ (t.store v).2.refcount? id ≠ t.refcount? id) ∨
      (¬ t.Charges v ∧ (t.store v).2 = t) := by
  have hhandle : (t.store v).1.handle? = some id := by rw [hslot, Slot.handle?]
  have hcount := refcount?_of_lookup? hlookup
  rcases succSaturating_cases n with ⟨hn, hmore⟩ | ⟨hn, hsame⟩
  · refine .inl ⟨⟨id, hhandle, hid, fun m hm => ?_⟩, ?_⟩
    · cases hcount.symm.trans hm
      exact hn
    · have hstored : (t.store v).2.lookup? id = some ⟨some v, .live (succSaturating n)⟩ := by
        rw [ht, lookup?_setEntry (lt_size_of_lookup? hlookup), if_pos rfl]
      rw [refcount?_of_lookup? hstored, hcount]
      exact fun heq => hmore (Option.some.inj heq)
  · refine .inr ⟨?_, by rw [ht, hsame, setEntry_self hlookup]⟩
    rintro ⟨id', hhandle', -, hroom⟩
    cases hhandle.symm.trans hhandle'
    exact hn (hroom n hcount)

namespace Consistent

/-- A handle that is allocated was not counted, or its count was zero. -/
theorem charges_of_allocates (h : Consistent global bridge t) {tag : TypeTag} {k : Identity}
    (hslot : (t.store v).1 = .ref id tag) (ha : Allocates t v k id (t.store v).2) :
    t.Charges v ∧ (t.store v).2.refcount? id ≠ t.refcount? id := by
  have hhandle : (t.store v).1.handle? = some id := by rw [hslot, Slot.handle?]
  have hbefore : t.refcount? id = none ∨ t.refcount? id = some 0 := by
    rcases ha.source with ⟨hhead, -⟩ | ⟨-, hend, -⟩
    · exact .inr (refcount?_of_lookup? (h.entry_of_mem_free (List.mem_of_mem_head? hhead)))
    · have hnone : t.lookup? id = none := Array.getElem?_eq_none (Nat.le_of_eq hend.symm)
      exact .inl (by simp only [refcount?, hnone])
  have hstored : (t.store v).2.refcount? id = some 1 :=
    refcount?_of_lookup? ((ha.lookup? id).trans (if_pos rfl))
  refine ⟨⟨id, hhandle, (h.allocated_source ha).1, fun n hn => ?_⟩, ?_⟩
  · rcases hbefore with hnone | hzero
    · cases hnone.symm.trans hn
    · cases hzero.symm.trans hn
      decide
  · rcases hbefore with hnone | hzero
    · rw [hstored, hnone]
      exact Option.some_ne_none 1
    · rw [hstored, hzero]
      decide

/-- Storing a value changes the count of its handle, or nothing at all. -/
theorem charges_cases (h : Consistent global bridge t) (hsize : t.entries.size < 2 ^ 32)
    (v : Value) :
    (t.Charges v ∧ ∃ id, (t.store v).2.refcount? id ≠ t.refcount? id) ∨
      (¬ t.Charges v ∧ (t.store v).2 = t) := by
  rcases h.store_cases v ((size_store_le t v).trans hsize) with ⟨ht, hreserved⟩ |
    ⟨id, n, hslot, hid, -, hlookup, -, ht⟩ | ⟨id, k, hslot, -, -, -, ha⟩
  · refine .inr ⟨?_, ht⟩
    rintro ⟨id, hhandle, hid, -⟩
    exact absurd (hreserved id hhandle).1 (Nat.not_lt.2 hid)
  · exact (charges_of_recount hslot hid hlookup ht).imp_left fun hc => ⟨hc.1, id, hc.2⟩
  · obtain ⟨hcharges, hcount⟩ := h.charges_of_allocates hslot ha
    exact .inl ⟨hcharges, id, hcount⟩

end Consistent

end ValueTable

namespace World

/-- The guest is charged for a reference to a value, if there is one, and for a timer, if there is
one. -/
structure Charged (value? : Option Value) (delay? : Option Int) (w u : World σ) : Prop where
  table : u.table = w.table.map fun t => value?.elim t fun v => (t.store v).2
  scheduler : u.scheduler = delay?.elim w.scheduler fun delay => (w.scheduler.schedule delay).2
  timeline : u.timeline = w.timeline

/-- No reference is counted that was not, no handle is live that was not, and no timer is armed that
was not. -/
structure Uncharged (w u : World σ) : Prop where
  counts : ∀ id, (u.table.bind (·.refcount? id)) = w.table.bind (·.refcount? id)
  handles : u.liveHandles = w.liveHandles
  timers : u.scheduler = w.scheduler

variable {w u x : World σ} {value? : Option Value} {delay? : Option Int}

theorem Charged.of_eq (htable : u.table = w.table) (hscheduler : u.scheduler = w.scheduler)
    (htimeline : u.timeline = w.timeline) : w.Charged none none u :=
  ⟨by rw [htable]; exact Option.map_id'.symm, hscheduler, htimeline⟩

theorem Charged.trans (hwu : w.Charged value? delay? u) (hux : u.Charged none none x) :
    w.Charged value? delay? x := by
  obtain ⟨htable, hscheduler, htimeline⟩ := hux
  refine ⟨?_, hscheduler.trans hwu.scheduler, htimeline.trans hwu.timeline⟩
  rw [htable, ← hwu.table]
  exact Option.map_id'

theorem Charged.exitCode? (h : w.Charged value? delay? u) : u.exitCode? = w.exitCode? := by
  have hstate : u.scheduler.state = w.scheduler.state := by
    rw [h.scheduler]
    cases delay? with
    | none => rfl
    | some delay => rfl
  exact congrArg GuestState.exitCode? hstate

theorem Charged.isSome_table (h : w.Charged value? delay? u) :
    u.table.isSome = w.table.isSome := by
  rw [h.table, Option.isSome_map]

theorem Charged.uncharged_iff {global bridge : Value} {t : ValueTable}
    (h : w.Charged value? delay? u) (ht : w.table = some t) (hw : w.TableConsistent global bridge)
    (hsize : t.entries.size < 2 ^ 32) :
    w.Uncharged u ↔ delay? = none ∧ ∀ v, value? = some v → ¬ t.Charges v := by
  have htimers : u.scheduler = w.scheduler ↔ delay? = none := by
    rw [h.scheduler]
    cases delay? with
    | none => exact iff_of_true rfl rfl
    | some delay =>
      refine iff_of_false (fun hsame => ?_) nofun
      exact Nat.succ_ne_self _ (congrArg Scheduler.nextSerial hsame)
  have hconsistent : t.Consistent global bridge := hw t ht (Nat.le_of_lt hsize)
  have htable := h.table
  rw [ht, Option.map_some] at htable
  constructor
  · rintro ⟨hcounts, -, hscheduler⟩
    refine ⟨htimers.1 hscheduler, ?_⟩
    rintro v rfl hcharges
    rcases hconsistent.charges_cases hsize v with ⟨-, id, hid⟩ | ⟨hnot, -⟩
    · have hcount := hcounts id
      rw [htable, ht] at hcount
      exact hid hcount
    · exact hnot hcharges
  · rintro ⟨hdelay, hfree⟩
    have hsame : u.table = w.table := by
      rw [htable, ht]
      cases value? with
      | none => rfl
      | some v =>
        rcases hconsistent.charges_cases hsize v with ⟨hcharges, -⟩ | ⟨-, hstored⟩
        · exact absurd hcharges (hfree v rfl)
        · exact congrArg some hstored
    exact ⟨fun id => by rw [hsame], by rw [liveHandles, hsame, liveHandles], htimers.2 hdelay⟩

end World

/-! ## Delivering -/

def Span.EndsBy (size : Nat) (s : Span) : Prop := s.pointer + s.length ≤ size

/-- A step that writes cells succeeds if all of them lie in memory, and ends with a memory fault
otherwise. -/
def Memory.Delivers (cells : List Span) (step : MemoryM Unit) : Prop :=
  ∀ m, (∃ m', step m = .ok () m' ∧ m'.size = m.size ∧ ∀ s ∈ cells, s.EndsBy m.size) ∨
    ∃ a n m', step m = .error (.memoryAccess a n) m'

/-- The same of a step of the host, which charges the guest in either case. -/
def Host.Delivers (value? : Option Value) (delay? : Option Int) (cells : List Span)
    (step : Host σ Unit) : Prop :=
  ∀ w : World σ, w.exitCode? = none → w.table.isSome = true →
    (∃ u, step w = .ok () u ∧ w.Charged value? delay? u ∧ u.memory.size = w.memory.size ∧
      ∀ s ∈ cells, s.EndsBy w.memory.size) ∨
    ∃ a n u, step w = .error (.memoryAccess a n) u ∧ w.Charged value? delay? u

namespace Memory

variable {cells cells' : List Span} {step next : MemoryM Unit}

theorem Delivers.bind (hs : Delivers cells step) (hn : Delivers cells' next) :
    Delivers (cells ++ cells') (step >>= fun _ => next) := by
  intro m
  rcases hs m with ⟨m₁, h₁, hsize₁, hin⟩ | ⟨a, n, m₁, h₁⟩
  · rw [bind_ok h₁]
    rcases hn m₁ with ⟨m₂, h₂, hsize₂, hin'⟩ | hfault
    · rw [hsize₁] at hsize₂ hin'
      exact .inl ⟨m₂, h₂, hsize₂, List.forall_mem_append.2 ⟨hin, hin'⟩⟩
    · exact .inr hfault
  · exact .inr ⟨a, n, m₁, bind_error h₁⟩

theorem delivers_write (address : Nat) (data : ByteArray) :
    Delivers [⟨address, data.size⟩] (write address data) := by
  intro m
  by_cases hin : address + data.size ≤ m.size
  · obtain ⟨m', hm', hsize⟩ := fits_write hin
    exact .inl ⟨m', hm', hsize, List.forall_mem_singleton.2 hin⟩
  · refine .inr ⟨address, data.size, m, ?_⟩
    simp only [write, inBounds_eq, decide_eq_true_eq, if_neg hin]

theorem delivers_setWord (address width n : Nat) :
    Delivers [⟨address, width⟩] (setWord address width n) := by
  have h := delivers_write address (littleEndian width n).toByteArray
  rwa [size_word] at h

theorem delivers_setI64 {address : Nat} (haddress : address + 4 ≤ maxAddress) (n : Int) :
    Delivers [⟨address, 8⟩] (setI64 address n) := by
  have hnext : addressAfter address 4 = address + 4 := Nat.min_eq_left haddress
  have hwords := (delivers_setWord address 4 (n % UInt32.size).toNat).bind
    (delivers_setWord (addressAfter address 4) 4 (n / UInt32.size % UInt32.size).toNat)
  intro m
  rcases hwords m with ⟨m', hm', hsize, hin⟩ | hfault
  · refine .inl ⟨m', hm', hsize, List.forall_mem_singleton.2 ?_⟩
    have hhigh : addressAfter address 4 + 4 ≤ m.size :=
      hin ⟨addressAfter address 4, 4⟩ (List.mem_cons_of_mem _ List.mem_cons_self)
    rw [hnext] at hhigh
    exact hhigh
  · exact .inr hfault

end Memory

namespace Host

variable {value? : Option Value} {delay? : Option Int} {cells cells' : List Span}
  {step next : Host σ Unit}

theorem Delivers.bind (hs : Delivers value? delay? cells step)
    (hn : Delivers none none cells' next) :
    Delivers value? delay? (cells ++ cells') (step >>= fun _ => next) := by
  intro w hrun htable
  rcases hs w hrun htable with ⟨u, hu, hcharged, hsize, hin⟩ | ⟨a, n, u, hu, hcharged⟩
  · rw [bind_ok hu]
    rcases hn u (hcharged.exitCode?.trans hrun) (hcharged.isSome_table.trans htable) with
      ⟨x, hx, hsame, hsize', hin'⟩ | ⟨a, n, x, hx, hsame⟩
    · rw [hsize] at hsize' hin'
      exact .inl ⟨x, hx, hcharged.trans hsame, hsize', List.forall_mem_append.2 ⟨hin, hin'⟩⟩
    · exact .inr ⟨a, n, x, hx, hcharged.trans hsame⟩
  · exact .inr ⟨a, n, u, bind_error hu, hcharged⟩

theorem Delivers.mono (hs : Delivers value? delay? cells step) (hcells : ∀ s ∈ cells', s ∈ cells) :
    Delivers value? delay? cells' step := by
  intro w hrun htable
  rcases hs w hrun htable with ⟨u, hu, hcharged, hsize, hin⟩ | hfault
  · exact .inl ⟨u, hu, hcharged, hsize, fun s hmem => hin s (hcells s hmem)⟩
  · exact .inr hfault

/-- What is done before does not touch memory, and may be what the guest is charged for. -/
theorem Delivers.prepared (f : World σ → World σ) (step : World σ → Host σ Unit)
    (hf : ∀ w : World σ, w.Charged value? delay? (f w)) (hmemory : ∀ w, (f w).memory = w.memory)
    (hs : ∀ w, Delivers none none cells (step w)) :
    Delivers value? delay? cells (fun w => step w (f w)) := by
  intro w hrun htable
  have hcharged := hf w
  rcases hs w (f w) (hcharged.exitCode?.trans hrun) (hcharged.isSome_table.trans htable) with
    ⟨u, hu, hsame, hsize, hin⟩ | ⟨a, n, u, hu, hsame⟩
  · rw [hmemory] at hsize hin
    exact .inl ⟨u, hu, hcharged.trans hsame, hsize, hin⟩
  · exact .inr ⟨a, n, u, hu, hcharged.trans hsame⟩

theorem delivers_onMemory {f : MemoryM Unit} (hf : Memory.Delivers cells f) :
    Delivers none none cells (onMemory f : Host σ Unit) := by
  intro w hrun _
  rcases hf w.memory with ⟨m, hm, hsize, hin⟩ | ⟨a, n, m, hm⟩
  · exact .inl ⟨_, onMemory_ok hrun hm, .of_eq rfl rfl rfl, hsize, hin⟩
  · exact .inr ⟨a, n, _, onMemory_error hrun hm, .of_eq rfl rfl rfl⟩

/-- The reference is counted before the slot is written. -/
theorem delivers_storeValue (address : Nat) (v : Value) :
    Delivers (some v) none [⟨address, 8⟩] (storeValue address v : Host σ Unit) := by
  intro w hrun htable
  obtain ⟨t, ht⟩ := Option.isSome_iff_exists.1 htable
  have hcharged : ∀ m, w.Charged (some v) none (w.stored t v m) := fun m => by
    refine ⟨?_, rfl, rfl⟩
    rw [ht]
    rfl
  have hslot : Memory.Delivers [⟨address, 8⟩] (Memory.storeSlot address (t.store v).1) :=
    Memory.delivers_setWord address 8 _
  rcases hslot w.memory with ⟨m, hm, hsize, hin⟩ | ⟨a, n, m, hm⟩
  · exact .inl ⟨_, storeValue_ok hrun ht hm, (hcharged m).trans (.of_eq rfl rfl rfl), hsize, hin⟩
  · refine .inr ⟨a, n, w.stored t v m, ?_, hcharged m⟩
    rw [storeValue, bind_ok (ensureNotExited_running hrun), bind_ok (storeInTable_some ht v)]
    exact bind_error (onMemory_error (w := w.storing t v) hrun hm)

end Host

/-! ## Requests -/

namespace Request

def delay? : Request → Option Int
  | .schedule delay => some delay
  | _ => none

def settle (step : Host σ Outcome) : Host σ (Option Value) := do
  let outcome ← step
  match outcome with
  | .returned _ => pure ()
  | .thrown v => discard (Host.textOf v)
  return some outcome.value

/-- What a request does before the guest is charged and its results are written. Gives the value
that is then handed back, if one is. -/
def produce (c : Calls σ) : Request → Host σ (Option Value)
  | .intern text => pure (some (.string text))
  | .get v key => Host.fromHeap fun h => some (h.get v key)
  | .index v i => Host.fromHeap fun h => some (h.index v i)
  | .method receiver name args => settle (Import.callMethod c receiver name args)
  | .invoke f args => settle (c.call f .undefined args)
  | .construct ctor args => settle (c.construct ctor args)
  | .prepareText v => do
    let bytes := (← Host.textOf v).toUTF8
    return some (← Host.onHeap (Heap.newBytes bytes))
  | _ => pure none

theorem settle_ok {step : Host σ Outcome} {w u : World σ} {value? : Option Value}
    (h : settle step w = .ok value? u) : ∃ outcome, step w = .ok outcome u ∧
      ¬ outcome.Wordless u.heap ∧ value? = some outcome.value := by
  obtain ⟨outcome, x, hstep, h⟩ := exists_of_bind_ok h
  cases outcome with
  | returned v =>
    cases h
    exact ⟨.returned v, hstep, id, rfl⟩
  | thrown v =>
    obtain ⟨_, y, hwords, h⟩ := exists_of_bind_ok h
    cases htext : x.heap.text? v with
    | none => cases (discard_error (textOf_of_no_text htext)).symm.trans hwords
    | some text =>
      cases (discard_ok (textOf_of_text htext)).symm.trans hwords
      cases h
      refine ⟨.thrown v, hstep, ?_, rfl⟩
      rw [Outcome.Wordless, htext]
      exact nofun

variable {c : Calls σ} {sp : Nat} {r : Request} {w u : World σ} {value? : Option Value}

theorem produce_of_call {step : Host σ Outcome} (hcall : r.call? c = some step) :
    r.produce c = settle step := by
  cases r with
  | method | invoke | construct =>
    cases hcall
    rfl
  | _ => cases hcall

/-- An outcome that has been put into words is delivered relative to the stack pointer that the
guest has then. -/
theorem delivers_of_call {step : Host σ Outcome} (hcall : r.call? c = some step)
    (hproduced : r.produce c w = .ok value? u) (hrun : u.exitCode? = none) :
    ∃ deliver : Host σ Unit, Import.perform c sp r w = deliver u ∧
      Delivers value? none (r.footprint (c.stackPointer u.own)) deliver := by
  rw [produce_of_call hcall] at hproduced
  obtain ⟨outcome, hstep, hwords, rfl⟩ := settle_ok hproduced
  let address := c.stackPointer u.own + r.import.outcomeOffset
  have hvalue : Delivers (some outcome.value) none [⟨address, 8⟩]
      (storeValue address outcome.value : Host σ Unit) := delivers_storeValue _ _
  have hflag : Delivers none none [⟨address + 8, 1⟩]
      (onMemory (Memory.setU8 (address + 8) outcome.flag) : Host σ Unit) :=
    delivers_onMemory (Memory.delivers_setWord _ 1 _)
  refine ⟨_, ?_, (hvalue.bind hflag).mono ?_⟩
  · rw [perform_of_call sp hcall, bind_ok hstep, storeOutcome_eq hrun hwords]
  · cases r with
    | method | invoke | construct => exact fun s hs => hs
    | _ => cases hcall

/-- Whatever request has been produced, its results are delivered in one step. -/
theorem delivers_of_produce (hsp : sp + 48 ≤ maxAddress)
    (hproduced : r.produce c w = .ok value? u) (hrun : u.exitCode? = none) :
    let base := if r.import.movesResults then c.stackPointer u.own else sp
    r.footprint base ≠ [] → ∃ deliver : Host σ Unit, Import.perform c sp r w = deliver u ∧
      Delivers value? r.delay? (r.footprint base) deliver := by
  intro base hcells
  have hcell : ∀ offset, offset ≤ 40 → sp + offset + 4 ≤ maxAddress := fun _ _ => by omega
  have hcopied : ∀ n : Nat, Delivers none none [⟨sp + 40, 8⟩, ⟨sp + 48, 1⟩]
      (Import.storeCopied sp n : Host σ Unit) := fun n =>
    delivers_onMemory ((Memory.delivers_setI64 (hcell 40 (by decide)) n).bind
      (Memory.delivers_setWord _ 1 _))
  cases r with
  | exit | write | resetMemoryView | clear | finalize | set | delete | setIndex =>
    exact absurd rfl hcells
  | method | invoke | construct => exact delivers_of_call rfl hproduced hrun
  | intern text =>
    cases hproduced
    exact ⟨_, rfl, delivers_storeValue _ _⟩
  | get v key =>
    cases hproduced
    refine ⟨storeValue (c.stackPointer w.own + 32) (w.heap.get v key), ?_, delivers_storeValue _ _⟩
    rw [Import.perform, fromHeap_bind]
    exact bind_ok (freshStackPointer_eq_ok_iff.2 ⟨hrun, rfl, rfl⟩)
  | index v i =>
    cases hproduced
    exact ⟨storeValue (sp + 24) (w.heap.index v i), rfl, delivers_storeValue _ _⟩
  | prepareText v =>
    obtain ⟨text, x, htext, hmade⟩ := exists_of_bind_ok hproduced
    cases hmade
    let staged := (Heap.newBytes text.toUTF8 x.heap).1
    refine ⟨do
      storeValue (sp + 16) staged
      onMemory (Memory.setI64 (sp + 24) text.toUTF8.size), bind_ok htext, ?_⟩
    exact (delivers_storeValue _ staged).bind
      (delivers_onMemory (Memory.delivers_setI64 (hcell 24 (by decide)) _))
  | nanotime =>
    cases hproduced
    exact ⟨onMemory (Memory.setI64 (sp + 8) (w.millis * 1000000)), rfl,
      delivers_onMemory (Memory.delivers_setI64 (hcell 8 (by decide)) _)⟩
  | walltime =>
    cases hproduced
    exact ⟨onMemory do
        Memory.setI64 (sp + 8) (w.millis / 1000 : Nat)
        Memory.setI32 (sp + 16) (Int32.ofNat (w.millis % 1000 * 1000000)), rfl,
      delivers_onMemory ((Memory.delivers_setI64 (hcell 8 (by decide)) _).bind
        (Memory.delivers_setWord _ 4 _))⟩
  | schedule delay =>
    cases hproduced
    exact ⟨_, rfl, Delivers.prepared
      (fun y => { y with scheduler := (y.scheduler.schedule delay).2 })
      (fun y => onMemory (Memory.setI32 (sp + 16) (y.scheduler.schedule delay).1))
      (fun y => ⟨Option.map_id'.symm, rfl, rfl⟩) (fun y => rfl)
      fun y => delivers_onMemory (Memory.delivers_setWord _ 4 _)⟩
  | fillRandom target =>
    cases hproduced
    refine ⟨_, rfl, Delivers.prepared
      (fun y => { y with entropy := (Import.randomBytes y.entropy target.length).2 })
      (fun y => onMemory (Memory.write target.pointer
        (Import.randomBytes y.entropy target.length).1.toByteArray))
      (fun y => .of_eq rfl rfl rfl) (fun y => rfl) fun y => ?_⟩
    have hbytes := Memory.delivers_write target.pointer
      (Import.randomBytes y.entropy target.length).1.toByteArray
    rw [List.size_toByteArray, length_randomBytes] at hbytes
    exact delivers_onMemory hbytes
  | length v =>
    cases hproduced
    exact ⟨onMemory (Memory.setI64 (sp + 16)
        (min ((w.heap.length v : Nat) : Int) Int64.maxValue.toInt)), rfl,
      delivers_onMemory (Memory.delivers_setI64 (hcell 16 (by decide)) _)⟩
  | loadText bytes target =>
    cases hproduced
    have hbytes := Memory.delivers_write target.pointer
      (bytes.extract 0 (min bytes.size target.length))
    rw [size_front] at hbytes
    exact ⟨_, rfl, delivers_onMemory hbytes⟩
  | instanceOf v ctor =>
    cases hproduced
    exact ⟨onMemory (Memory.setU8 (sp + 24) (if w.heap.instanceOf v ctor then 1 else 0)), rfl,
      delivers_onMemory (Memory.delivers_setWord _ 1 _)⟩
  | copyOut source =>
    cases hproduced
    cases source with
    | none => exact ⟨_, rfl, delivers_onMemory (Memory.delivers_setWord _ 1 _)⟩
    | some source =>
      obtain ⟨bytes, target⟩ := source
      have hbytes := Memory.delivers_write target.pointer
        (bytes.extract 0 (min bytes.size target.length))
      rw [size_front] at hbytes
      refine ⟨_, rfl, ((delivers_onMemory hbytes).bind (hcopied _)).mono fun s hs => ?_⟩
      have hsplit : s ∈ [⟨sp + 40, 8⟩, ⟨sp + 48, 1⟩] ++ [target.take bytes.size] := hs
      exact List.mem_append.2 (List.mem_append.1 hsplit).symm
  | copyIn target =>
    cases hproduced
    cases target with
    | none => exact ⟨_, rfl, delivers_onMemory (Memory.delivers_setWord _ 1 _)⟩
    | some target =>
      obtain ⟨v, source⟩ := target
      exact ⟨_, rfl, Delivers.prepared
        (fun y => { y with
          heap := y.heap.setBytes v (Buffer.overwrite ((y.heap.bytes? v).getD .empty) source) })
        (fun y => Import.storeCopied sp (min ((y.heap.bytes? v).elim 0 ByteArray.size) source.size))
        (fun y => .of_eq rfl rfl rfl) (fun y => rfl) fun y => hcopied _⟩

/-- Nothing but the functions that are called, and what they make, becomes of a request until it is
produced. -/
theorem keeps_produce {R : World σ → World σ → Prop} [Mild R] (hc : c.Keeping R) (r : Request) :
    Keeps R (r.produce c) := by
  have hsettle : ∀ step : Host σ Outcome, Keeps R step → Keeps R (settle step) := by
    intro step hstep
    refine hstep.bind fun outcome => ?_
    cases outcome with
    | returned v => exact (keeps_pure _).bind fun _ => keeps_pure _
    | thrown v => exact ((keeps_textOf v).bind fun _ => keeps_pure _).bind fun _ => keeps_pure _
  cases r with
  | get | index => exact fun w => Chains.refl w
  | method receiver name args => exact hsettle _ (Import.keeps_callMethod hc receiver name args)
  | invoke f args => exact hsettle _ (hc.call f .undefined args)
  | construct ctor args => exact hsettle _ (hc.construct ctor args)
  | prepareText v =>
    exact (keeps_textOf v).bind fun _ =>
      (keeps_making (Heap.keepsObjects_newBytes _)).bind fun _ => keeps_pure _
  | _ => exact keeps_pure _

end Request

/-! ## Faults -/

structure World.SparedBooks (w u : World σ) : Prop where
  timeline : w.timeline <:+ u.timeline
  books : u.entries = w.entries → u.table = w.table ∧ u.scheduler = w.scheduler

namespace World.SparedBooks

variable {w u x : World σ}

theorem of_eq (htimeline : u.timeline = w.timeline) (htable : u.table = w.table)
    (hscheduler : u.scheduler = w.scheduler) : w.SparedBooks u :=
  ⟨htimeline ▸ List.suffix_refl _, fun _ => ⟨htable, hscheduler⟩⟩

theorem trans (hwu : w.SparedBooks u) (hux : u.SparedBooks x) : w.SparedBooks x := by
  refine ⟨hwu.timeline.trans hux.timeline, fun hentries => ?_⟩
  have hfirst := Spared.entries_le hwu.timeline
  have hsecond := Spared.entries_le hux.timeline
  obtain ⟨htable, hscheduler⟩ := hwu.books (by omega)
  obtain ⟨htable', hscheduler'⟩ := hux.books (by omega)
  exact ⟨htable'.trans htable, hscheduler'.trans hscheduler⟩

end World.SparedBooks

instance : Mild (World.SparedBooks (σ := σ)) where
  refl _ := .of_eq rfl rfl rfl
  trans := .trans
  makes _ := .of_eq rfl rfl rfl
  publishes _ _ := .of_eq rfl rfl rfl
  prints _ _ _ := .of_eq rfl rfl rfl
  notifies _ _ := .of_eq rfl rfl rfl

theorem sparedBooks_frame (p : Program σ) (depth : Nat) (cause : Cause) (code : Code σ Unit) :
    Keeps World.SparedBooks (frame (p.callsWithin depth) cause code) := by
  intro w
  cases hrun : w.exitCode? with
  | some exit =>
    rw [frame_exited hrun]
    exact .of_eq rfl rfl rfl
  | none =>
    obtain ⟨hsuffix, hentered⟩ := entries_frame p depth cause code hrun
    exact ⟨hsuffix, fun hentries => absurd hentries hentered⟩

def Program.SparesBooks (p : Program σ) : Prop :=
  ∀ c : Calls σ, c.Keeping World.SparedBooks →
    ∀ name this args, Keeps World.SparedBooks (execute c (p.functions name this args))

theorem footprint_of_request {i : Import} {sp fresh : Nat} {w : World σ} {operands : Request.View}
    {r : Request} (hv : Import.view w = .ok operands w)
    (hr : Request.decode i operands sp = .ok r) :
    i.footprint w sp fresh = r.footprint (if r.import.movesResults then fresh else sp) := by
  obtain rfl := Request.import_of_decode hr
  cases hmoves : r.import.movesResults with
  | false => exact footprint_of_decode hmoves hv hr fresh
  | true =>
    cases r with
    | get | method | invoke | construct => rfl
    | _ => cases hmoves

/-- At every moment of every run, an import whose operands decode and that has a result outside of
guest memory ends with a memory fault, once what it calls has come back. Still the guest has been
charged: one reference to the value that was to be handed back is counted, or the timer is armed.
Nothing has been charged exactly if no timer was asked for and nothing counted was to be handed
back. If the guest has not been entered meanwhile, and the functions of the embedding program leave
references and timers to it, then the guest has not been charged for anything else. -/
theorem result_faults_charge (p : Program σ) (o : HostOptions) (memory : Memory)
    (around : Surroundings) (own : σ) {control : Control σ} {w : World σ}
    (h : Moment p (.fresh o memory around own) control w) (depth : Nat) {i : Import} {sp : UInt32}
    {operands : Request.View} {r : Request} {value? : Option Value} {u : World σ}
    (hv : Import.view w = .ok operands w) (hr : Request.decode i operands sp.toNat = .ok r)
    (hproduced : r.produce (p.callsWithin depth) w = .ok value? u) (hrun : u.exitCode? = none)
    (hout : ∃ s ∈ i.footprint w sp.toNat (p.stackPointer u.own),
      u.memory.size < s.pointer + s.length) :
    ∃ a n x, Import.dispatch (p.callsWithin depth) i sp.toNat w = .error (.memoryAccess a n) x ∧
      u.Charged value? r.delay? x ∧
      (∀ t, u.table = some t → t.entries.size < 2 ^ 32 →
        (u.Uncharged x ↔ i ≠ .scheduleTimeoutEvent ∧ ∀ v, value? = some v → ¬ t.Charges v)) ∧
      (p.SparesBooks → u.entries = w.entries →
        u.table = w.table ∧ u.scheduler = w.scheduler) := by
  have hsp : sp.toNat + 48 ≤ maxAddress := by
    have := sp.toNat_lt
    simp only [maxAddress, UInt64.size]
    omega
  have hreaches : Reaches (.fresh o memory around own) u :=
    h.reaches.trans ((Request.keeps_produce (p.keeping_callsWithin depth) r).ok hproduced)
  have hsettled := hreaches.keeps (fun _ _ haction => haction.settled)
    (settled_fresh o memory around own)
  have hconsistent := hreaches.tableConsistent (tableConsistent_fresh o memory around own)
  rw [footprint_of_request hv hr, ← p.stackPointer_callsWithin depth] at hout
  obtain ⟨s, hs, hpast⟩ := hout
  obtain ⟨deliver, hperform, hdelivers⟩ :=
    Request.delivers_of_produce hsp hproduced hrun (List.ne_nil_of_mem hs)
  have hdispatch : Import.dispatch (p.callsWithin depth) i sp.toNat w = deliver u := by
    rw [← hperform]
    refine dispatch_of_decode_ok hv hr ?_
    rintro rfl
    cases hr
    exact List.not_mem_nil hs
  rcases hdelivers u hrun (hsettled.running hrun).1 with ⟨x, -, -, -, hin⟩ | ⟨a, n, x, hx, hcharged⟩
  · exact absurd (hin s hs) (Nat.not_le.2 hpast)
  · refine ⟨a, n, x, hdispatch.trans hx, hcharged, fun t ht hsize => ?_, fun hspares => ?_⟩
    · have hdelay : r.delay? = none ↔ i ≠ .scheduleTimeoutEvent := by
        obtain rfl := Request.import_of_decode hr
        cases r <;> simp [Request.delay?, Request.import]
      rw [hcharged.uncharged_iff ht hconsistent hsize, hdelay]
    · have hkeeping : (p.callsWithin depth).Keeping World.SparedBooks :=
        Program.keeping_callsWithin_of hspares (fun depth _ _ _ => sparedBooks_frame p depth _ _)
          depth
      exact ((Request.keeps_produce hkeeping r).ok hproduced).books

def blankView : Request.View := ⟨.zeros 64, .new (.object 0) (.object 5), blank.heap⟩

theorem view_blank : Import.view blank = .ok blankView blank := by
  have hmemory : blank.memory = .zeros 64 := (arguments_fresh _ _ _ _).2.2
  have hrun : blank.exitCode? = none := congrArg Scheduler.exitCode? (scheduler_fresh _ _ _ _)
  simp only [Import.view, hrun, show blank.table = _ from table_fresh _ _ _ _, hmemory, blankView]

theorem decode_text_blank :
    Request.decode .stringVal blankView (40 : UInt32).toNat = .ok (.intern "") := rfl

theorem decode_timer_blank :
    Request.decode .scheduleTimeoutEvent blankView 48 = .ok (.schedule 0) := rfl

/-- The span of a text ends where memory does, so there is no place for the slot. -/
theorem result_faults_charge_blank : ∃ a n x,
    Import.dispatch (askingTwice.callsWithin 1) .stringVal 40 blank = .error (.memoryAccess a n) x ∧
      blank.Charged (some (.string "")) none x ∧ ¬ blank.Uncharged x := by
  have hrun : blank.exitCode? = none := congrArg Scheduler.exitCode? (scheduler_fresh _ _ _ _)
  have hout : ∃ s ∈ Import.stringVal.footprint blank (40 : UInt32).toNat 0,
      blank.memory.size < s.pointer + s.length := by
    refine ⟨⟨64, 8⟩, List.mem_cons_self, ?_⟩
    rw [show blank.memory = .zeros 64 from (arguments_fresh _ _ _ _).2.2]
    decide
  obtain ⟨a, n, x, hfault, hcharged, huncharged, -⟩ := result_faults_charge askingTwice .standard
    (.zeros 64) ⟨0, 0⟩ () .start 1 view_blank decode_text_blank rfl hrun hout
  refine ⟨a, n, x, hfault, hcharged, fun hnot => ?_⟩
  have hcharges : (ValueTable.new (.object 0) (.object 5)).Charges (.string "") :=
    ⟨7, by decide, by decide, nofun⟩
  exact ((huncharged _ (table_fresh _ _ _ _) (by decide)).1 hnot).2 _ rfl hcharges

/-- Whether a step ends with a memory fault and leaves a world that passes a check. -/
def Host.strays (check : World σ → Bool) : EStateM.Result Fault (World σ) Unit → Bool
  | .error (.memoryAccess _ _) w => check w
  | _ => false

theorem Host.exists_of_strays {check : World σ → Bool} {r : EStateM.Result Fault (World σ) Unit}
    (h : strays check r = true) : ∃ a n w, r = .error (.memoryAccess a n) w ∧ check w = true := by
  unfold strays at h
  split at h
  next a n w => exact ⟨a, n, w, rfl, h⟩
  next => cases h

/-- From no handle and no timer a guest gets to one of each by an import that ends with a memory
fault, though it is not entered. -/
theorem faulting_imports_charge :
    blank.liveHandles = 0 ∧ blank.pendingTimers = 0 ∧
    (∃ operands r a n x, Import.view blank = .ok operands blank ∧
      Request.decode .stringVal operands 40 = .ok r ∧
      Import.dispatch (askingTwice.callsWithin 1) .stringVal 40 blank =
        .error (.memoryAccess a n) x ∧ x.entries = blank.entries ∧ x.liveHandles = 1) ∧
    ∃ operands r a n x, Import.view blank = .ok operands blank ∧
      Request.decode .scheduleTimeoutEvent operands 48 = .ok r ∧
      Import.dispatch (askingTwice.callsWithin 1) .scheduleTimeoutEvent 48 blank =
        .error (.memoryAccess a n) x ∧ x.entries = blank.entries ∧ x.pendingTimers = 1 := by
  have hnothing : blank.liveHandles = 0 ∧ blank.pendingTimers = 0 := by
    decide +kernel
  have htext : strays (fun x => x.entries == blank.entries && x.liveHandles == 1)
      (Import.dispatch (askingTwice.callsWithin 1) .stringVal 40 blank) = true := by
    decide +kernel
  have htimer : strays (fun x => x.entries == blank.entries && x.pendingTimers == 1)
      (Import.dispatch (askingTwice.callsWithin 1) .scheduleTimeoutEvent 48 blank) = true := by
    decide +kernel
  obtain ⟨a, n, x, hfault, hx⟩ := exists_of_strays htext
  obtain ⟨a', n', y, hfault', hy⟩ := exists_of_strays htimer
  simp only [Bool.and_eq_true, beq_iff_eq] at hx hy
  exact ⟨hnothing.1, hnothing.2, ⟨_, _, a, n, x, view_blank, decode_text_blank, hfault, hx⟩,
    _, _, a', n', y, view_blank, decode_timer_blank, hfault', hy⟩

end TokenizerHost
