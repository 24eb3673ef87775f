import TokenizerHost.Proofs.Import.Outcome
import TokenizerHost.Proofs.Run.Native

set_option autoImplicit false

namespace TokenizerHost

open Host

variable {σ α β : Type}

/-! ## The footprint of an import -/

namespace Span

def shift (s : Span) (base : Nat) : Span := ⟨base + s.pointer, s.length⟩

def take (s : Span) (count : Nat) : Span := ⟨s.pointer, min s.length count⟩

end Span

def Import.resultSpans : Import → List Span
  | .nanotime => [⟨8, 8⟩]
  | .walltime => [⟨8, 8⟩, ⟨16, 4⟩]
  | .scheduleTimeoutEvent => [⟨16, 4⟩]
  | .stringVal | .valueIndex => [⟨24, 8⟩]
  | .valueGet => [⟨32, 8⟩]
  | .valueCall => [⟨56, 8⟩, ⟨64, 1⟩]
  | .valueInvoke | .valueNew => [⟨40, 8⟩, ⟨48, 1⟩]
  | .valueLength => [⟨16, 8⟩]
  | .valuePrepareString => [⟨16, 8⟩, ⟨24, 8⟩]
  | .valueInstanceOf => [⟨24, 1⟩]
  | .copyBytesOut | .copyBytesIn => [⟨40, 8⟩, ⟨48, 1⟩]
  | .wasmExit | .wasmWrite | .resetMemoryDataView | .clearTimeoutEvent | .getRandomData
  | .finalizeRef | .valueSet | .valueDelete | .valueSetIndex | .valueLoadString => []

namespace World

def bytesAt? (w : World σ) (address : Nat) : Option ByteArray := do
  let t ← w.table
  let v ← (w.memory.loadValue t address).toOption
  w.heap.bytes? v

def spanAt (w : World σ) (address : Nat) : List Span :=
  (w.memory.loadSpan address).toOption.toList

end World

/-- What an import called at a stack pointer may write. Four write relative to the stack pointer
that the guest has afterwards. -/
def Import.footprint (i : Import) (w : World σ) (sp fresh : Nat) : List Span :=
  match i with
  | .valueGet | .valueCall | .valueInvoke | .valueNew => i.resultSpans.map (·.shift fresh)
  | .copyBytesOut =>
    match w.bytesAt? (sp + 32) with
    | some bytes => i.resultSpans.map (·.shift sp) ++ (w.spanAt (sp + 8)).map (·.take bytes.size)
    | none => [⟨sp + 48, 1⟩]
  | .copyBytesIn =>
    match w.bytesAt? (sp + 8) with
    | some _ => i.resultSpans.map (·.shift sp)
    | none => [⟨sp + 48, 1⟩]
  | .valueLoadString =>
    match w.bytesAt? (sp + 8) with
    | some bytes => (w.spanAt (sp + 16)).map (·.take bytes.size)
    | none => []
  | .getRandomData => w.spanAt (sp + 8)
  | i => i.resultSpans.map (·.shift sp)

def Request.footprint (sp : Nat) : Request → List Span
  | .fillRandom target => [target]
  | .loadText bytes target => [target.take bytes.size]
  | .copyOut none | .copyIn none => [⟨sp + 48, 1⟩]
  | .copyOut (some (bytes, target)) => [⟨sp + 40, 8⟩, ⟨sp + 48, 1⟩, target.take bytes.size]
  | r => r.import.resultSpans.map (·.shift sp)

/-- Whether results are written relative to the stack pointer that the guest has afterwards. -/
def Import.movesResults : Import → Bool
  | .valueGet | .valueCall | .valueInvoke | .valueNew => true
  | _ => false

section Decoded

variable {w : World σ} {v : Request.View} {sp : Nat}

theorem loadSpan_of_loadRange {m : Memory} {address : Nat} {target : Span}
    (h : m.loadRange address = .ok target) : m.loadSpan address = .ok target := by
  obtain ⟨span, hspan, h⟩ := except_bind_ok h
  split at h
  next =>
    cases h
    exact hspan
  next => cases h

theorem bytesAt?_of_view {x : Value} {address : Nat} (hv : Import.view w = .ok v w)
    (hx : v.value address = .ok x) : w.bytesAt? address = v.heap.bytes? x := by
  obtain ⟨t, ht, rfl⟩ := Import.view_eq hv
  change w.memory.loadValue t address = .ok x at hx
  rw [World.bytesAt?, ht]
  change ((w.memory.loadValue t address).toOption.bind fun v => w.heap.bytes? v) = _
  rw [hx]
  rfl

theorem spanAt_of_view {target : Span} {address : Nat} (hv : Import.view w = .ok v w)
    (h : v.memory.loadRange address = .ok target) : w.spanAt address = [target] := by
  obtain ⟨t, -, rfl⟩ := Import.view_eq hv
  rw [World.spanAt, loadSpan_of_loadRange h]
  rfl

theorem footprint_of_decode {i : Import} {r : Request} (hi : i.movesResults = false)
    (hv : Import.view w = .ok v w) (h : Request.decode i v sp = .ok r) (fresh : Nat) :
    i.footprint w sp fresh = r.footprint sp := by
  obtain rfl := Request.import_of_decode h
  cases r with
  | get | method | invoke | construct => cases hi
  | fillRandom target =>
    obtain ⟨_, hrange, h⟩ := except_bind_ok h
    cases h
    exact spanAt_of_view hv hrange
  | loadText bytes target =>
    obtain ⟨x, hx, h⟩ := except_bind_ok h
    have hbytes := bytesAt?_of_view hv hx
    split at h
    next bytes hsome =>
      obtain ⟨_, hrange, h⟩ := except_bind_ok h
      cases h
      simp only [Request.import, Import.footprint, hbytes, hsome, spanAt_of_view hv hrange,
        List.map_cons, List.map_nil, Request.footprint]
    next => cases h
  | copyOut source =>
    obtain ⟨x, hx, h⟩ := except_bind_ok h
    have hbytes := bytesAt?_of_view hv hx
    split at h
    next bytes hsome =>
      obtain ⟨_, hrange, h⟩ := except_bind_ok h
      cases h
      simp only [Request.import, Import.footprint, hbytes, hsome, spanAt_of_view hv hrange]
      rfl
    next hnone =>
      cases h
      simp only [Request.import, Import.footprint, hbytes, hnone, Request.footprint]
  | copyIn target =>
    obtain ⟨x, hx, h⟩ := except_bind_ok h
    have hbytes := bytesAt?_of_view hv hx
    split at h
    next bytes hsome =>
      obtain ⟨_, _, h⟩ := except_bind_ok h
      cases h
      simp only [Request.import, Import.footprint, hbytes, hsome]
      rfl
    next hnone =>
      cases h
      simp only [Request.import, Import.footprint, hbytes, hnone, Request.footprint]
  | _ => rfl

end Decoded

/-! ## Steps that write within spans -/

/-- Guest memory changed within spans only, and the guest's own state not at all. -/
structure World.WroteWithin (spans : List Span) (w u : World σ) : Prop where
  memory : Memory.DiffersWithin spans w.memory u.memory
  own : u.own = w.own

variable {spans : List Span}

instance : Chains (World.WroteWithin (σ := σ) spans) where
  refl _ := ⟨.refl _ _, rfl⟩
  trans hwu hux := ⟨hwu.memory.trans hux.memory, hux.own.trans hwu.own⟩

theorem World.WroteWithin.of_eq {w u : World σ} (hmemory : u.memory = w.memory)
    (hown : u.own = w.own) : w.WroteWithin spans u := ⟨by rw [hmemory]; exact .refl _ _, hown⟩

def Memory.Writes (spans : List Span) (step : MemoryM α) : Prop :=
  ∀ m a m', step m = .ok a m' → Memory.DiffersWithin spans m m'

def Host.Writes (spans : List Span) (step : Host σ α) : Prop :=
  ∀ w a u, step w = .ok a u → w.WroteWithin spans u

theorem Memory.Writes.bind {step : MemoryM α} {f : α → MemoryM β} (hs : Memory.Writes spans step)
    (hf : ∀ a, Memory.Writes spans (f a)) : Memory.Writes spans (step >>= f) := by
  intro m b m' h
  obtain ⟨a, m₁, hstep, h⟩ := exists_of_bind_ok h
  exact (hs m a m₁ hstep).trans (hf a m₁ b m' h)

namespace Host

theorem Writes.bind {step : Host σ α} {f : α → Host σ β} (hs : Writes spans step)
    (hf : ∀ a, Writes spans (f a)) : Writes spans (step >>= f) := by
  intro w b u h
  obtain ⟨a, x, hstep, h⟩ := exists_of_bind_ok h
  exact Chains.trans (hs w a x hstep) (hf a x b u h)

theorem writes_of_keeps {step : Host σ α} (h : Keeps (World.WroteWithin spans) step) :
    Writes spans step := fun _ _ _ hw => h.ok hw

theorem writes_modify {f : World σ → World σ} (hmemory : ∀ w, (f w).memory = w.memory)
    (hown : ∀ w, (f w).own = w.own) : Writes spans (modify f : Host σ Unit) :=
  writes_of_keeps (keeps_modify fun w => .of_eq (hmemory w) (hown w))

theorem writes_onHeap (f : HeapM α) : Writes spans (onHeap f : Host σ α) :=
  writes_of_keeps fun _ => .of_eq rfl rfl

theorem writes_onMemory {f : MemoryM α} (h : Memory.Writes spans f) :
    Writes spans (onMemory f : Host σ α) := by
  intro w a u hw
  obtain ⟨-, m, hm, rfl⟩ := onMemory_eq_ok_iff.1 hw
  exact ⟨h _ _ _ hm, rfl⟩

theorem writes_storeValue {address : Nat} (h : ⟨address, 8⟩ ∈ spans) (v : Value) :
    Writes spans (storeValue address v : Host σ Unit) := by
  intro w a u hw
  obtain ⟨-, t, m, -, hm, rfl⟩ := storeValue_eq_ok_iff.1 hw
  exact ⟨(Memory.differs_setWord hm).of_mem h, rfl⟩

end Host

/-! ## Requests -/

section Requests

variable {address width : Nat}

theorem writes_setWord (h : ⟨address, width⟩ ∈ spans) (n : Nat) :
    Memory.Writes spans (Memory.setWord address width n) := fun _ _ _ hm =>
  (Memory.differs_setWord hm).of_mem h

theorem writes_setI64 (haddress : address + 4 ≤ maxAddress) (h : ⟨address, 8⟩ ∈ spans) (n : Int) :
    Memory.Writes spans (Memory.setI64 address n) := fun _ _ _ hm =>
  (Memory.differs_setI64 haddress hm).of_mem h

theorem writes_write {data : ByteArray} (h : ⟨address, data.size⟩ ∈ spans) :
    Memory.Writes spans (Memory.write address data) := fun _ _ _ hm =>
  (Memory.differs_write hm).of_mem h

variable (c : Calls σ) {sp : Nat}

theorem length_randomBytes (s : UInt64) (n : Nat) : (Import.randomBytes s n).1.length = n := by
  induction n generalizing s with
  | zero => rfl
  | succ n ih => exact congrArg (· + 1) (ih _)

theorem size_front (bytes : ByteArray) (n : Nat) :
    (bytes.extract 0 (min bytes.size n)).size = min n bytes.size := by
  rw [ByteArray.size_extract]
  omega

theorem writes_storeCopied (hsp : sp + 44 ≤ maxAddress) (hcount : ⟨sp + 40, 8⟩ ∈ spans)
    (hflag : ⟨sp + 48, 1⟩ ∈ spans) (n : Nat) :
    Writes spans (Import.storeCopied sp n : Host σ Unit) :=
  writes_onMemory ((writes_setI64 (by omega) hcount _).bind fun _ => writes_setWord hflag _)

/-- Every request that writes relative to the stack pointer it was made at. -/
theorem writes_perform (hsp : sp + 48 ≤ maxAddress) {r : Request}
    (hr : r.import.movesResults = false) : Writes (r.footprint sp) (Import.perform c sp r) := by
  have hget : ∀ spans : List Span, Writes spans (get : Host σ (World σ)) := fun _ =>
    writes_of_keeps keeps_get
  have hheap : ∀ {γ : Type} (spans : List Span) (f : Heap → γ),
      Writes spans (fromHeap f : Host σ γ) := fun _ f => writes_of_keeps (keeps_fromHeap f)
  have hcell : ∀ offset, offset ≤ 40 → sp + offset + 4 ≤ maxAddress := fun _ _ => by omega
  have hsecond : ∀ (s s' : Span) (rest : List Span), s' ∈ s :: s' :: rest := fun _ _ _ =>
    List.mem_cons_of_mem _ List.mem_cons_self
  unfold Import.perform
  cases r with
  | get | method | invoke | construct => cases hr
  | exit code => exact writes_modify (fun _ => rfl) fun _ => rfl
  | write stream bytes => exact writes_of_keeps fun _ => .of_eq rfl rfl
  | resetMemoryView => exact writes_of_keeps (keeps_pure _)
  | nanotime =>
    exact (hget _).bind fun _ =>
      writes_onMemory (writes_setI64 (hcell 8 (by decide)) List.mem_cons_self _)
  | walltime =>
    refine (hget _).bind fun _ => writes_onMemory (Memory.Writes.bind ?_ fun _ => ?_)
    · exact writes_setI64 (hcell 8 (by decide)) List.mem_cons_self _
    · exact writes_setWord (hsecond _ _ _) _
  | schedule delay =>
    intro w a u h
    have harm : w.WroteWithin (Request.footprint sp (.schedule delay))
        { w with scheduler := (w.scheduler.schedule delay).2 } := .of_eq rfl rfl
    exact Chains.trans harm (writes_onMemory (writes_setWord List.mem_cons_self _) _ a u h)
  | clear id => exact writes_modify (fun _ => rfl) fun _ => rfl
  | fillRandom target =>
    intro w a u h
    have hdrawn : w.WroteWithin (Request.footprint sp (.fillRandom target))
        { w with entropy := (Import.randomBytes w.entropy target.length).2 } := .of_eq rfl rfl
    refine Chains.trans hdrawn (writes_onMemory (writes_write ?_) _ a u h)
    rw [List.size_toByteArray, length_randomBytes]
    exact List.mem_cons_self
  | finalize id =>
    exact writes_of_keeps fun _ => .of_eq rfl rfl
  | intern text => exact writes_storeValue List.mem_cons_self _
  | set | delete | setIndex => exact writes_onHeap _
  | index v i => exact (hheap _ _).bind fun _ => writes_storeValue List.mem_cons_self _
  | length v =>
    exact (hheap _ _).bind fun _ =>
      writes_onMemory (writes_setI64 (hcell 16 (by decide)) List.mem_cons_self _)
  | prepareText v =>
    refine (writes_of_keeps (keeps_textOf v)).bind fun _ => (writes_onHeap _).bind fun _ => ?_
    refine (writes_storeValue List.mem_cons_self _).bind fun _ => writes_onMemory ?_
    exact writes_setI64 (hcell 24 (by decide)) (hsecond _ _ _) _
  | loadText bytes target =>
    refine writes_onMemory (writes_write ?_)
    rw [size_front]
    exact List.mem_cons_self
  | instanceOf v ctor =>
    exact (hheap _ _).bind fun _ => writes_onMemory (writes_setWord List.mem_cons_self _)
  | copyOut source =>
    cases source with
    | none => exact writes_onMemory (writes_setWord List.mem_cons_self _)
    | some source =>
      refine Writes.bind (writes_onMemory (writes_write ?_)) fun _ => ?_
      · rw [size_front]
        exact List.mem_cons_of_mem _ (hsecond _ _ _)
      · exact writes_storeCopied (hcell 40 (by decide)) List.mem_cons_self (hsecond _ _ _) _
  | copyIn target =>
    cases target with
    | none => exact writes_onMemory (writes_setWord List.mem_cons_self _)
    | some target =>
      refine (hheap _ _).bind fun _ => (writes_onHeap _).bind fun _ => ?_
      exact writes_storeCopied (hcell 40 (by decide)) List.mem_cons_self (hsecond _ _ _) _

theorem wrote_storeOutcome {offset : Nat} {outcome : Outcome} {w u : World σ}
    (h : Import.storeOutcome c offset outcome w = .ok () u) :
    let sp := c.stackPointer u.own
    w.WroteWithin [⟨sp + offset, 8⟩, ⟨sp + (offset + 8), 1⟩] u := by
  obtain ⟨-, -, t, m, m', -, hm, hm', rfl⟩ := storeOutcome_eq_ok_iff.1 h
  have hslot := Memory.differs_setWord hm
  have hflag := Memory.differs_setWord hm'
  exact ⟨(hslot.of_mem List.mem_cons_self).trans
    (hflag.of_mem (List.mem_cons_of_mem _ List.mem_cons_self)), rfl⟩

/-- The world that an import comes back to from the function that it calls, if it calls any. -/
def Import.afterCall (i : Import) (sp : Nat) (w : World σ) : World σ :=
  match i.callee? sp w with
  | some callee => after (callee.run c w)
  | none => w

theorem writes_throwTypeError (message : String) :
    Writes spans (throwTypeError message : Host σ Outcome) :=
  (writes_onHeap _).bind fun _ => writes_of_keeps (keeps_pure _)

/-- Requests whose results are written relative to the stack pointer that the guest has afterwards,
and that call nothing. -/
theorem wrote_moved {r : Request} {w u : World σ} (hr : r.import.movesResults = true)
    (hcallee : r.callee? w.heap = none) (h : Import.perform c sp r w = .ok () u) :
    w.WroteWithin (r.import.resultSpans.map (·.shift (c.stackPointer u.own))) u := by
  cases r with
  | get v key =>
    rw [Import.perform, fromHeap_bind] at h
    obtain ⟨fresh, x, hfresh, hstore⟩ := exists_of_bind_ok h
    obtain ⟨-, rfl, rfl⟩ := freshStackPointer_eq_ok_iff.1 hfresh
    have hwrote : x.WroteWithin [⟨c.stackPointer x.own + 32, 8⟩] u :=
      writes_storeValue List.mem_cons_self _ x () u hstore
    rw [hwrote.own]
    exact hwrote
  | method receiver name args =>
    obtain ⟨outcome, x, hx, hstore⟩ := exists_of_bind_ok h
    rw [Import.callMethod_misfit hcallee] at hx
    exact Chains.trans (writes_throwTypeError _ w outcome x hx) (wrote_storeOutcome c hstore)
  | invoke | construct => cases hcallee
  | _ => cases hr

/-- An import that succeeds has written nothing outside its footprint since the function that it
calls came back. -/
theorem wrote_dispatch {i : Import} {w u : World σ} (hsp : sp + 48 ≤ maxAddress)
    (h : Import.dispatch c i sp w = .ok () u) :
    (i.afterCall c sp w).WroteWithin (i.footprint w sp (c.stackPointer u.own)) u := by
  unfold Import.afterCall
  cases hcallee : i.callee? sp w with
  -- the stack pointer is asked for again when the call has come back
  | some callee =>
    rw [Import.dispatch_of_callee hcallee] at h
    obtain ⟨outcome, x, hx, h⟩ := exists_of_bind_ok h
    obtain ⟨v, r, -, hr, hrequest⟩ := Import.request_of_callee hcallee
    have hwrote := wrote_storeOutcome c h
    rw [← Request.import_of_decode hr] at hwrote ⊢
    dsimp only
    rw [hx]
    cases r with
    | method | invoke | construct => exact hwrote
    | _ => cases hrequest
  | none =>
    rcases Import.dispatch_cases c i sp w with ⟨rfl, hok⟩ | ⟨e, herror, -⟩ | ⟨v, r, hv, hr, hok⟩
    · cases hok.symm.trans h
      exact .of_eq rfl rfl
    · cases herror.symm.trans h
    · rw [hok] at h
      have hrequest : r.callee? w.heap = none := by
        unfold Import.callee? at hcallee
        rw [hv] at hcallee
        dsimp only at hcallee
        rwa [hr] at hcallee
      cases hmoves : i.movesResults with
      | true =>
        obtain rfl := Request.import_of_decode hr
        have hwrote := wrote_moved c hmoves hrequest h
        cases r with
        | get | method | invoke | construct => exact hwrote
        | _ => cases hmoves
      | false =>
        rw [footprint_of_decode hmoves hv hr]
        obtain rfl := Request.import_of_decode hr
        exact writes_perform c hsp hmoves w () u h

end Requests

/-! ## Entries of the guest -/

def Milestone.isEntry : Milestone → Bool
  | .entered _ => true
  | .disarmed _ => false

def World.entries (w : World σ) : Nat := w.timeline.countP Milestone.isEntry

/-- Guest memory changed only if the guest was entered. -/
structure World.Spared (w u : World σ) : Prop where
  timeline : w.timeline <:+ u.timeline
  memory : u.entries = w.entries → u.memory = w.memory

namespace World.Spared

variable {w u x : World σ}

theorem of_eq (htimeline : u.timeline = w.timeline) (hmemory : u.memory = w.memory) : w.Spared u :=
  ⟨htimeline ▸ List.suffix_refl _, fun _ => hmemory⟩

theorem entries_le (h : w.timeline <:+ u.timeline) : w.entries ≤ u.entries :=
  h.sublist.countP_le

theorem trans (hwu : w.Spared u) (hux : u.Spared x) : w.Spared x := by
  refine ⟨hwu.timeline.trans hux.timeline, fun hentries => ?_⟩
  have hfirst := entries_le hwu.timeline
  have hsecond := entries_le hux.timeline
  exact (hux.memory (by omega)).trans (hwu.memory (by omega))

end World.Spared

instance : Mild (World.Spared (σ := σ)) where
  refl _ := .of_eq rfl rfl
  trans := .trans
  makes _ := .of_eq rfl rfl
  publishes _ _ := .of_eq rfl rfl
  prints _ _ _ := .of_eq rfl rfl
  notifies _ _ := .of_eq rfl rfl

theorem entries_frame (p : Program σ) (depth : Nat) (cause : Cause) (code : Code σ Unit)
    {w : World σ} (hrun : w.exitCode? = none) :
    w.timeline <:+ (after (frame (p.callsWithin depth) cause code w)).timeline ∧
      (after (frame (p.callsWithin depth) cause code w)).entries ≠ w.entries := by
  have hsuffix : .entered cause :: w.timeline <:+
      (after (frame (p.callsWithin depth) cause code w)).timeline :=
    frame_timeline_suffix depth hrun
  refine ⟨(List.suffix_cons _ _).trans hsuffix, fun hentries => ?_⟩
  have hcount := hsuffix.sublist.countP_le (p := Milestone.isEntry)
  rw [List.countP_cons_of_pos rfl] at hcount
  exact absurd hentries (Nat.ne_of_gt hcount)

theorem spared_frame (p : Program σ) (depth : Nat) (cause : Cause) (code : Code σ Unit) :
    Keeps World.Spared (frame (p.callsWithin depth) cause code) := by
  intro w
  cases hrun : w.exitCode? with
  | some exit =>
    rw [frame_exited hrun]
    exact .of_eq rfl rfl
  | none =>
    obtain ⟨hsuffix, hentered⟩ := entries_frame p depth cause code hrun
    exact ⟨hsuffix, fun hentries => absurd hentries hentered⟩

def Program.SparesMemory (p : Program σ) : Prop :=
  ∀ c : Calls σ, c.Keeping World.Spared →
    ∀ name this args, Keeps World.Spared (execute c (p.functions name this args))

/-- Imports write within their footprints. An import that succeeds has changed guest memory only at
the bytes of its footprint since the function that it calls, if any, came back. If the guest has not
been entered meanwhile, and the functions of the embedding program leave guest memory to it, then
that is all that the import has changed. -/
theorem imports_write_within_footprints (p : Program σ) (depth : Nat) (i : Import) (sp : UInt32)
    {w u : World σ} (h : Import.dispatch (p.callsWithin depth) i sp.toNat w = .ok () u) :
    let footprint := i.footprint w sp.toNat (p.stackPointer u.own)
    Memory.DiffersWithin footprint (i.afterCall (p.callsWithin depth) sp.toNat w).memory u.memory ∧
    (i.callee? sp.toNat w = none → Memory.DiffersWithin footprint w.memory u.memory) ∧
    (p.SparesMemory → u.entries = w.entries →
      Memory.DiffersWithin footprint w.memory u.memory) := by
  intro footprint
  have hsp : sp.toNat + 48 ≤ maxAddress := by
    have := sp.toNat_lt
    simp only [maxAddress, UInt64.size]
    omega
  have hwrote := wrote_dispatch _ hsp h
  rw [p.stackPointer_callsWithin] at hwrote
  cases hcallee : i.callee? sp.toNat w with
  | none =>
    have hnone : i.afterCall (p.callsWithin depth) sp.toNat w = w := by
      rw [Import.afterCall, hcallee]
    rw [hnone] at hwrote ⊢
    exact ⟨hwrote.memory, fun _ => hwrote.memory, fun _ _ => hwrote.memory⟩
  | some callee =>
    refine ⟨hwrote.memory, nofun, fun hspares hentries => ?_⟩
    have hkeeping : (p.callsWithin depth).Keeping World.Spared :=
      Program.keeping_callsWithin_of hspares (fun depth _ _ _ => spared_frame p depth _ _) depth
    rw [Import.dispatch_of_callee hcallee] at h
    obtain ⟨outcome, x, hx, hstore⟩ := exists_of_bind_ok h
    have hcall : w.Spared x := (Callee.keeps_run hkeeping callee).ok hx
    have hstored : Aside x u := (Import.keeps_storeOutcome _ _ outcome).ok hstore
    have hmemory : x.memory = w.memory :=
      hcall.memory ((congrArg (List.countP Milestone.isEntry) hstored.timeline).symm.trans hentries)
    have hafter : i.afterCall (p.callsWithin depth) sp.toNat w = x := by
      rw [Import.afterCall, hcallee]
      dsimp only
      rw [hx]
      rfl
    rw [hafter] at hwrote
    exact hmemory ▸ hwrote.memory

theorem imports_write_within_footprints_blank : ∃ u,
    Import.dispatch (askingTwice.callsWithin 1) .valueInvoke 0 blank = .ok () u ∧
      Memory.DiffersWithin [⟨40, 8⟩, ⟨48, 1⟩] blank.memory u.memory := by
  have hspares : askingTwice.SparesMemory := fun _ _ _ _ _ => keeps_pure _
  have hend : endsIn (·.entries == blank.entries)
      (Import.dispatch (askingTwice.callsWithin 1) .valueInvoke 0 blank) = true := by
    decide +kernel
  obtain ⟨_, u, hok, hentries⟩ := exists_of_endsIn hend
  have hwithin := imports_write_within_footprints askingTwice 1 .valueInvoke 0 hok
  exact ⟨u, hok, hwithin.2.2 hspares (beq_iff_eq.1 hentries)⟩

end TokenizerHost
