import TokenizerHost.Proofs.Console.Lines
import TokenizerHost.Proofs.Import.Outcome
import TokenizerHost.Proofs.Run.Native

set_option autoImplicit false

namespace TokenizerHost

open Host

variable {σ α β : Type}

/-! ## What code asks for -/

inductive Ask where
  | call (callee : Callee)
  | resume
  | request (i : Import) (sp : Nat)

/-- Two ways to carry out calls give the same answer in a world. -/
def Ask.SameAnswer (c c' : Calls σ) (w : World σ) : Ask → Prop
  | .call callee => callee.run c w = callee.run c' w
  | .resume => c.resume w = c'.resume w
  | .request i sp => Import.dispatch c i sp w = Import.dispatch c' i sp w

namespace Code

def asksAfter (r : EStateM.Result Fault (World σ) β) (next : β → World σ → List (Ask × World σ)) :
    List (Ask × World σ) :=
  match r with
  | .ok b w => next b w
  | .error _ _ => []

/-- What code asks for when it is carried out, in order, each with the world in which it does. -/
def asks (c : Calls σ) : Code σ α → World σ → List (Ask × World σ)
  | .done _, _ => []
  | .fault _, _ => []
  | .observe next, w => (next w).asks c w
  | .own state memory next, w => next.asks c { w with own := state, memory }
  | .heap f next, w => asksAfter (onHeap f w) fun v => (next v).asks c
  | .print stream bytes next, w => asksAfter (Host.print stream bytes w) fun r => (next r).asks c
  | .note n next, w => next.asks c (w.notify n)
  | .request i sp next, w =>
    (.request i sp, w) :: asksAfter (answer i (Import.dispatch c i sp) w) fun r => (next r).asks c
  | .call callee next, w =>
    (.call callee, w) :: asksAfter (attempt (callee.run c) w) fun r => (next r).asks c
  | .resume next, w => (.resume, w) :: asksAfter (attempt c.resume w) fun r => (next r).asks c

end Code

theorem attempt_congr_at {step step' : Host σ α} {w : World σ} (h : step w = step' w) :
    attempt step w = attempt step' w := by
  rw [attempt, attempt, h]

/-- Computations agree if their first steps do and they go on alike from there. -/
theorem bind_congr_after {step step' : Host σ β} {f f' : β → Host σ α} {w : World σ}
    (hstep : step w = step' w) (hrest : ∀ b u, step w = .ok b u → f b u = f' b u) :
    (step >>= f) w = (step' >>= f') w := by
  cases h : step w with
  | ok b u => rw [bind_ok h, bind_ok (hstep.symm.trans h), hrest b u h]
  | error e u => rw [bind_error h, bind_error (hstep.symm.trans h)]

/-- How calls are carried out matters to code only in what it asks for. -/
theorem execute_congr_asks {c c' : Calls σ} (code : Code σ α) (w : World σ)
    (h : ∀ a ∈ code.asks c w, a.1.SameAnswer c c' a.2) : execute c code w = execute c' code w := by
  induction code generalizing w with
  | done a => rfl
  | fault e => rfl
  | observe next ih => exact ih w w h
  | own state memory next ih => exact ih _ h
  | heap f next ih => exact ih _ _ h
  | print stream bytes next ih => exact ih _ _ h
  | note n next ih => exact ih _ h
  | request i sp next ih =>
    obtain ⟨hfirst, hrest⟩ := List.forall_mem_cons.1 h
    refine bind_congr_after (bind_congr_at (attempt_congr_at hfirst)) fun r u hr => ih r u ?_
    rwa [hr] at hrest
  | call callee next ih =>
    obtain ⟨hfirst, hrest⟩ := List.forall_mem_cons.1 h
    refine bind_congr_after (attempt_congr_at hfirst) fun r u hr => ih r u ?_
    rwa [hr] at hrest
  | resume next ih =>
    obtain ⟨hfirst, hrest⟩ := List.forall_mem_cons.1 h
    refine bind_congr_after (attempt_congr_at hfirst) fun r u hr => ih r u ?_
    rwa [hr] at hrest

/-! ## Errors -/

namespace Heap

structure GainsObjects (h h' : Heap) : Prop where
  kept : h.KeepsObjects h'
  nothing_else : h' = { h with objects := h'.objects }

theorem gainsObjects_newObjectWith (cls : Class) (props : List (String × Value)) (h : Heap) :
    h.GainsObjects (newObjectWith cls props h).2 :=
  ⟨keepsObjects_newObjectWith cls props h, by rw [newObjectWith_eq]⟩

theorem gainsObjects_newTypeError (message : String) (h : Heap) :
    h.GainsObjects (newTypeError message h).2 := gainsObjects_newObjectWith .error _ h

structure SaysNotImplemented (h : Heap) (e : Value) : Prop where
  cls : h.classOf? e = some .error
  code : h.get e "code" = .string "ENOSYS"

theorem saysNotImplemented_notSupported (h : Heap) :
    (Builtin.notSupported h).2.SaysNotImplemented (Builtin.notSupported h).1 :=
  ⟨classOf?_newObjectWith .error _ h, get_newObjectWith _ _ h "code"⟩

theorem gainsObjects_notSupported (h : Heap) : h.GainsObjects (Builtin.notSupported h).2 :=
  gainsObjects_newObjectWith .error _ h

end Heap

/-! ## Completion -/

def World.printing (w : World σ) (stream : Int) (bytes : ByteArray) : World σ :=
  { w with console := (w.console.write stream bytes).2 }.record (.printed stream)

theorem print_eq (stream : Int) (bytes : ByteArray) (w : World σ) :
    Host.print stream bytes w =
      .ok (w.console.write stream bytes).1 (w.printing stream bytes) := rfl

/-- Code that asks for one thing, the call of a completion callback. What the callback throws it
throws on, and a fault inside of it is thrown as an error. -/
structure Code.CompletesOnce (c : Calls σ) (code : Code σ Outcome) (w : World σ) (callback : Value)
    (answer : List Value) (u : World σ) : Prop where
  once : code.asks c w = [(.call (.function callback .undefined answer), u)]
  returned : ∀ v x, c.call callback .undefined answer u = .ok (.returned v) x →
    execute c code w = .ok (.returned .undefined) x
  thrown : ∀ v x, c.call callback .undefined answer u = .ok (.thrown v) x →
    execute c code w = .ok (.thrown v) x
  faulted : ∀ e x, c.call callback .undefined answer u = .error e x →
    execute c code w = .ok (.thrown (Heap.newError e.message x.heap).1)
      { x with heap := (Heap.newError e.message x.heap).2 }

namespace Code.CompletesOnce

variable {c : Calls σ} {w u : World σ} {callback : Value} {answer : List Value}

theorem observe {next : World σ → Code σ Outcome}
    (h : (next w).CompletesOnce c w callback answer u) :
    (Code.observe next).CompletesOnce c w callback answer u :=
  ⟨h.once, h.returned, h.thrown, h.faulted⟩

theorem heap {f : HeapM Value} {next : Value → Code σ Outcome}
    (h : (next (f w.heap).1).CompletesOnce c { w with heap := (f w.heap).2 } callback answer u) :
    (Code.heap f next).CompletesOnce c w callback answer u :=
  ⟨h.once, h.returned, h.thrown, h.faulted⟩

theorem print {stream : Int} {bytes : ByteArray} {next : Except Fault Nat → Code σ Outcome}
    (h : (next (w.console.write stream bytes).1).CompletesOnce c (w.printing stream bytes) callback
      answer u) : (Code.print stream bytes next).CompletesOnce c w callback answer u :=
  ⟨h.once, h.returned, h.thrown, h.faulted⟩

end Code.CompletesOnce

namespace Builtin

variable {c : Calls σ}

theorem completesOnce_complete (callback : Value) (answer : List Value) (w : World σ) :
    (complete callback answer).CompletesOnce c w callback answer w := by
  refine ⟨?_, fun v x h => bind_ok (attempt_ok h), fun v x h => bind_ok (attempt_ok h),
    fun e x h => bind_ok (attempt_error h)⟩
  rw [complete, Code.asks]
  refine congrArg _ ?_
  cases attempt ((Callee.function callback .undefined answer).run c) w with
  | error e u => rfl
  | ok r u =>
    cases r with
    | ok outcome => cases outcome <;> rfl
    | error e => rfl

/-- The callback is handed the error that is made for it. -/
theorem completesOnce_completeWith (callback : Value) (e : HeapM Value) (w : World σ) :
    (completeWith callback e).CompletesOnce c w callback [(e w.heap).1]
      { w with heap := (e w.heap).2 } :=
  (completesOnce_complete callback _ _).heap

/-! ## What a write asks for -/

/-- The arguments ask to write all of a buffer to one of the two streams. -/
structure WholeWrite (args : List Value) (stream : Int) (size : Nat) : Prop where
  isStream : Console.IsStream stream
  named : ∃ fd, argument args 0 = .number fd ∧ fd.truncate = some stream
  offset : ∃ x, argument args 2 = .number x ∧ x.isZero = true
  length : ∃ x, argument args 3 = .number x ∧ x.numEq (.ofNat size) = true
  position : argument args 4 = .null

theorem numEq_zero (x : Double) : x.numEq .zero = x.isZero := by
  cases hx : x.isZero with
  | true =>
    have hmagnitude : x.magnitudeBits = 0 := beq_iff_eq.1 hx
    have hnumber : x.isNaN = false := by simp [Double.isNaN, hmagnitude]
    rw [Double.numEq, hx, hnumber, show Double.zero.isZero = true from rfl,
      show Double.zero.isNaN = false from rfl, Bool.true_and, Bool.or_true]
    rfl
  | false =>
    have hbits : (x.bits == Double.zero.bits) = false := by
      refine beq_eq_false_iff_ne.2 fun h => ?_
      rw [show x = .zero from congrArg Double.mk h] at hx
      cases hx
    rw [Double.numEq, hx, hbits, Bool.false_and, Bool.false_or, Bool.and_false]

theorem isWhole_iff {args : List Value} {size : Nat} : isWhole args size = true ↔
    (∃ x, argument args 2 = .number x ∧ x.isZero = true) ∧
    (∃ x, argument args 3 = .number x ∧ x.numEq (.ofNat size) = true) ∧
    argument args 4 = .null := by
  have hsame : ∀ (v : Value) (y : Double),
      v.sameAs (.number y) = true ↔ ∃ x, v = .number x ∧ x.numEq y = true := by
    intro v y
    cases v with
    | number x => simp [Value.sameAs]
    | _ => simp [Value.sameAs]
  simp only [isWhole, Bool.and_eq_true, hsame, Value.ofNat, numEq_zero, beq_iff_eq, and_assoc]

theorem streamOf_eq_iff {v : Value} {stream : Int} (h : Console.IsStream stream) :
    streamOf v = stream ↔ ∃ fd, v = .number fd ∧ fd.truncate = some stream := by
  have hstream : stream = 1 ∨ stream = 2 := h
  have hlo : Int64.minValue.toInt = -2 ^ 63 := rfl
  have hhi : Int64.maxValue.toInt = 2 ^ 63 - 1 := rfl
  have hnumber : ∀ fd : Double, fd.saturate Int64.minValue.toInt Int64.maxValue.toInt = stream ↔
      fd.truncate = some stream := by
    intro fd
    rw [Double.saturate, hlo, hhi]
    cases fd.truncate with
    | some n =>
      rw [Option.some.injEq]
      dsimp only
      omega
    | none =>
      refine iff_of_false ?_ nofun
      dsimp only
      split
      · omega
      · split <;> omega
  cases v with
  | number fd => simpa [streamOf, Value.number?] using hnumber fd
  | _ =>
    refine iff_of_false (fun hnone => ?_) nofun
    change streamOf .undefined = stream at hnone
    rw [show streamOf .undefined = -1 by decide] at hnone
    omega

variable {functions : String → Value → List Value → Code σ Outcome} {this : Value}
  {args : List Value} {bytes : ByteArray} {stream : Int} {w : World σ}

theorem completesOnce_of_wholeWrite (c : Calls σ)
    (hbytes : w.heap.bytes? (argument args 1) = some bytes)
    (h : WholeWrite args stream bytes.size) :
    (code functions .write this args).CompletesOnce c w (argument args 5)
      [.null, .ofNat bytes.size] (w.printing stream bytes) := by
  obtain rfl := (streamOf_eq_iff h.isStream).2 h.named
  have hwhole : isWhole args bytes.size = true := isWhole_iff.2 ⟨h.offset, h.length, h.position⟩
  refine .observe ?_
  simp only [hbytes, hwhole, if_true]
  refine .print ?_
  rw [Console.write_of_isStream h.isStream]
  exact completesOnce_complete _ _ _

/-- What is refused is answered with an error, and nothing has been written. -/
structure Refusal (w u : World σ) (e : Value) : Prop where
  error : u.heap.SaysNotImplemented e
  console : u.console = w.console
  heap : w.heap.GainsObjects u.heap
  nothing_else : u = { w with heap := u.heap, journal := u.journal }

theorem completesOnce_of_not_wholeWrite (c : Calls σ)
    (hbytes : w.heap.bytes? (argument args 1) = some bytes)
    (h : ∀ stream, ¬ WholeWrite args stream bytes.size) : ∃ e u, Refusal w u e ∧
      (code functions .write this args).CompletesOnce c w (argument args 5) [e] u := by
  have hrefusal : ∀ v : World σ, v.heap = w.heap → v.console = w.console →
      v = { w with journal := v.journal } → Refusal w { v with heap := (notSupported w.heap).2 }
        (notSupported w.heap).1 := fun v hheap hconsole hv =>
    ⟨Heap.saysNotImplemented_notSupported _, hconsole, Heap.gainsObjects_notSupported _, by
      rw [hv]⟩
  by_cases hwhole : isWhole args bytes.size = true
  · let stream := streamOf (argument args 0)
    have hstream : ¬ Console.IsStream stream := fun hstream => by
      obtain ⟨hoffset, hlength, hposition⟩ := isWhole_iff.1 hwhole
      exact h stream ⟨hstream, (streamOf_eq_iff hstream).1 rfl, hoffset, hlength, hposition⟩
    have hwrite := Console.write_of_not_isStream hstream w.console bytes
    refine ⟨_, _, hrefusal (w.printing stream bytes) rfl (congrArg Prod.snd hwrite) ?_, ?_⟩
    · rw [World.printing, hwrite]
      rfl
    · refine .observe ?_
      simp only [hbytes, hwhole, if_true]
      refine .print ?_
      rw [hwrite]
      exact completesOnce_completeWith _ _ _
  · refine ⟨_, _, hrefusal w rfl rfl rfl, .observe ?_⟩
    simp only [hbytes, hwhole, if_false, Bool.false_eq_true]
    exact completesOnce_completeWith _ _ _

theorem throws_of_no_bytes (c : Calls σ) (hbytes : w.heap.bytes? (argument args 1) = none) :
    (code functions .write this args).asks c w = [] ∧
    ∃ e u, execute c (code functions .write this args) w = .ok (.thrown e) u ∧
      u.heap.IsTypeError e "write buffer must be a Uint8Array" ∧
      w.heap.GainsObjects u.heap ∧ u = { w with heap := u.heap } := by
  let message := "write buffer must be a Uint8Array"
  simp only [code, writing, Code.asks, execute, hbytes]
  exact ⟨rfl, (Heap.newTypeError message w.heap).1,
    { w with heap := (Heap.newTypeError message w.heap).2 }, rfl,
    Heap.isTypeError_newTypeError message w.heap,
    Heap.gainsObjects_newTypeError message w.heap, rfl⟩

theorem execute_writeSync (c : Calls σ) (hbytes : w.heap.bytes? (argument args 1) = some bytes)
    (hstream : streamOf (argument args 0) = stream) : ∃ outcome u,
      execute c (code functions .writeSync this args) w = .ok outcome u ∧
      u.console = (w.printing stream bytes).console ∧
      (Console.IsStream stream → outcome = .returned (.ofNat bytes.size)) := by
  obtain ⟨next, hok, herror, hcode⟩ : ∃ next : Except Fault Nat → Code σ Outcome,
      (∀ n, next (.ok n) = .done (.returned (.ofNat n))) ∧
      (∀ e, next (.error e) = Code.throwing (errorOf e)) ∧
      execute c (code functions .writeSync this args) w =
        (Host.print stream bytes >>= fun r => execute c (next r)) w := by
    simp only [code, writing, execute, hbytes, hstream]
    exact ⟨_, fun _ => rfl, fun _ => rfl, rfl⟩
  rw [hcode, bind_ok (print_eq stream bytes w)]
  by_cases h : Console.IsStream stream
  · rw [Console.write_of_isStream h, hok]
    exact ⟨_, _, rfl, rfl, fun _ => rfl⟩
  · rw [Console.write_of_not_isStream h, herror]
    exact ⟨_, _, rfl, rfl, fun hstream => absurd hstream h⟩

theorem callWith_native (p : Program σ) (c : Calls σ) {f : Value} {n : Native}
    (hf : (w.heap.function? f).map (·.kind) = some (.native n)) (this : Value) (args : List Value) :
    p.callWith c f this args w = execute c (code p.functions n this args) w := by
  obtain ⟨fn, hfn, hkind⟩ := Option.map_eq_some_iff.1 hf
  rw [Program.callWith, fromHeap_bind, hfn]
  simp only [hkind]

end Builtin

def World.fileFunction? (w : World σ) (name : String) : Option FunctionKind :=
  (w.heap.function? (w.heap.get (w.heap.get w.global "fs") name)).map (·.kind)

theorem fileFunction?_fresh (o : HostOptions) (memory : Memory) (around : Surroundings) (own : σ) :
    (World.fresh o memory around own).fileFunction? "write" = some (.native .write) ∧
    (World.fresh o memory around own).fileFunction? "writeSync" = some (.native .writeSync) := by
  have hobjects : ∀ name, (World.fresh o memory around own).fileFunction? name =
      (Heap.firstObjects.2.function? (Heap.firstObjects.2.get
        (Heap.firstObjects.2.get Heap.firstObjects.1.1 "fs") name)).map (·.kind) := fun name => by
    unfold World.fresh
    generalize Heap.firstObjects = x
    obtain ⟨⟨global, bridge⟩, heap⟩ := x
    rfl
  rw [hobjects, hobjects]
  decide +kernel

/-- A write to a file calls its completion callback once and asks for nothing else. It has taken all
bytes of its buffer by then, and says how many, if it was asked to write just these to a stream.
Otherwise it has written nothing, and says so. Without a buffer it throws and asks for nothing. The
same bytes come to the same lines if they are written in either of the other ways. -/
theorem file_writes_complete_once (p : Program σ) (c : Calls σ) (w : World σ) (this : Value)
    (args : List Value) :
    let write := Builtin.code p.functions .write this args
    let buffer? := w.heap.bytes? (Builtin.argument args 1)
    let callback := Builtin.argument args 5
    (∀ o memory around (own : σ),
      (World.fresh o memory around own).fileFunction? "write" = some (.native .write) ∧
      (World.fresh o memory around own).fileFunction? "writeSync" = some (.native .writeSync)) ∧
    (∀ f, (w.heap.function? f).map (·.kind) = some (.native .write) →
      p.callWith c f this args w = execute c write w) ∧
    (∀ bytes stream, buffer? = some bytes → Builtin.WholeWrite args stream bytes.size →
      write.CompletesOnce c w callback [.null, .ofNat bytes.size] (w.printing stream bytes) ∧
      ∀ written, w.console.Shows stream written →
        (w.printing stream bytes).console.Shows stream (written ++ bytes.data.toList)) ∧
    (∀ bytes, buffer? = some bytes → (∀ stream, ¬ Builtin.WholeWrite args stream bytes.size) →
      ∃ e u, Builtin.Refusal w u e ∧ write.CompletesOnce c w callback [e] u) ∧
    (buffer? = none → write.asks c w = [] ∧ ∃ e u, execute c write w = .ok (.thrown e) u ∧
      u.heap.IsTypeError e "write buffer must be a Uint8Array" ∧ w.heap.GainsObjects u.heap ∧
      u = { w with heap := u.heap }) ∧
    (∀ bytes stream args', w.heap.bytes? (Builtin.argument args' 1) = some bytes →
      Builtin.streamOf (Builtin.argument args' 0) = stream →
      ∃ outcome u, execute c (Builtin.code p.functions .writeSync this args') w = .ok outcome u ∧
        u.console = (w.printing stream bytes).console ∧
        (Console.IsStream stream → outcome = .returned (.ofNat bytes.size))) ∧
    ∀ bytes stream operands sp, Import.view w = .ok operands w →
      Request.decode .wasmWrite operands sp = .ok (.write stream bytes) →
      Import.dispatch c .wasmWrite sp w = .ok () (w.printing stream bytes) := by
  intro write buffer? callback
  refine ⟨fileFunction?_fresh, fun f hf => Builtin.callWith_native p c hf this args,
    fun bytes stream hbytes h => ?_,
    fun bytes hbytes h => Builtin.completesOnce_of_not_wholeWrite c hbytes h,
    fun hbytes => Builtin.throws_of_no_bytes c hbytes,
    fun bytes stream args' hbytes hstream => Builtin.execute_writeSync c hbytes hstream,
    fun bytes stream operands sp hv hr => ?_⟩
  · refine ⟨Builtin.completesOnce_of_wholeWrite c hbytes h, fun written hshows => ?_⟩
    have hshown := hshows.write h.isStream stream bytes
    rwa [Console.added, if_pos rfl] at hshown
  · rw [dispatch_of_decode_ok hv hr (by decide)]
    exact discard_ok (print_eq stream bytes w)

def withGreeting : World Unit :=
  .atRest ⟨#[], #[], #[], #[⟨#[0x68, 0x69]⟩], #[]⟩ (.object 0) (.object 1) .standard (.zeros 0)
    ⟨0, 0⟩ ()

/-- Arguments that ask to write two bytes from an offset on. -/
def greetingFrom (offset : Nat) : List Value :=
  [.ofNat 1, .bytes 0, .ofNat offset, .ofNat 2, .null, .undefined]

theorem file_writes_complete_once_greeting : ∃ e u,
    let c := askingTwice.callsWithin 1
    let write args := Builtin.code askingTwice.functions .write .undefined args
    let printed := withGreeting.printing 1 ⟨#[0x68, 0x69]⟩
    ((write (greetingFrom 0)).CompletesOnce c withGreeting .undefined [.null, .ofNat 2] printed ∧
      printed.console.Shows 1 [0x68, 0x69]) ∧
    Builtin.Refusal withGreeting u e ∧
      (write (greetingFrom 1)).CompletesOnce c withGreeting .undefined [e] u := by
  have hbuffer : withGreeting.heap.bytes? (.bytes 0) = some ⟨#[0x68, 0x69]⟩ := rfl
  have hwhole : Builtin.WholeWrite (greetingFrom 0) 1 2 :=
    ⟨.inl rfl, ⟨_, rfl, by decide⟩, ⟨_, rfl, by decide⟩, ⟨_, rfl, by decide⟩, rfl⟩
  have hrefused : ∀ stream, ¬ Builtin.WholeWrite (greetingFrom 1) stream 2 := fun stream h => by
    obtain ⟨x, hx, hzero⟩ := h.offset
    obtain rfl : Double.ofNat 1 = x := Value.number.inj hx
    exact absurd hzero (by decide)
  have hshows : withGreeting.console.Shows 1 [] := Console.shows_empty 1
  obtain ⟨-, -, hwrites, -⟩ := file_writes_complete_once askingTwice (askingTwice.callsWithin 1)
    withGreeting .undefined (greetingFrom 0)
  obtain ⟨-, -, -, hrefuses, -⟩ := file_writes_complete_once askingTwice (askingTwice.callsWithin 1)
    withGreeting .undefined (greetingFrom 1)
  obtain ⟨hcompletes, hshown⟩ := hwrites _ 1 hbuffer hwhole
  obtain ⟨e, u, hrefusal, honce⟩ := hrefuses _ hbuffer hrefused
  exact ⟨e, u, ⟨hcompletes, hshown [] hshows⟩, hrefusal, honce⟩

end TokenizerHost
