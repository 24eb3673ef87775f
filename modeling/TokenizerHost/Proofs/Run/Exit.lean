import TokenizerHost.Proofs.Console.Lines
import TokenizerHost.Proofs.Run.Moment

set_option autoImplicit false

namespace TokenizerHost

open Host

variable {σ α : Type}

def Event.FollowsExit : Event → Prop
  | .printed _ | .answered _ _ => True
  | _ => False

namespace World

structure Ended (w : World σ) (code : Int32) : Prop where
  table : w.table = none
  announced : w.exitSignal = some code
  /-- One exit, and after it neither a frame nor a write nor a handle. -/
  journal : ∃ later earlier, w.journal = later ++ .exited code :: earlier ∧
    (∀ e ∈ later, e.FollowsExit) ∧ (∀ c, .exited c ∉ earlier) ∧
    ((∀ stream, .printed stream ∉ later) → ∀ stream, w.console.pending stream = [])

structure Settled (w : World σ) : Prop where
  running : w.exitCode? = none →
    w.table.isSome = true ∧ w.exitSignal = none ∧ ∀ c, .exited c ∉ w.journal
  ended : ∀ code, w.exitCode? = some code → w.Ended code

namespace Settled

variable {w u : World σ}

theorem still_running (h : w.Settled) (hrun : w.exitCode? = none) (hrun' : u.exitCode? = none)
    (ht : w.table.isSome = true → u.table.isSome = true) (hsignal : u.exitSignal = w.exitSignal)
    (hj : ∀ c, .exited c ∈ u.journal → .exited c ∈ w.journal) : u.Settled := by
  refine ⟨fun _ => ?_, fun code hcode => ?_⟩
  · obtain ⟨htable, hnone, hnot⟩ := h.running hrun
    exact ⟨ht htable, hsignal.trans hnone, fun c hc => hnot c (hj c hc)⟩
  · rw [hrun'] at hcode
    cases hcode

theorem recorded (h : w.Settled) (hrun : w.exitCode? = none) (hrun' : u.exitCode? = none)
    (ht : w.table.isSome = true → u.table.isSome = true) (hsignal : u.exitSignal = w.exitSignal)
    {e : Event} (hj : u.journal = e :: w.journal) (he : ∀ c, e ≠ .exited c) : u.Settled := by
  refine h.still_running hrun hrun' ht hsignal fun c hc => ?_
  rw [hj] at hc
  rcases List.mem_cons.1 hc with hc | hc
  · exact absurd hc.symm (he c)
  · exact hc

theorem rescheduled (h : w.Settled) (ht : u.table = w.table) (hconsole : u.console = w.console)
    (hj : u.journal = w.journal) (hstate : u.exitCode? = w.exitCode?)
    (hsignal : u.exitSignal = w.exitSignal) : u.Settled := by
  refine ⟨fun hrun => ?_, fun code hcode => ?_⟩
  · rw [hstate] at hrun
    rw [ht, hsignal, hj]
    exact h.running hrun
  · rw [hstate] at hcode
    have hended := h.ended code hcode
    refine ⟨ht.trans hended.table, hsignal.trans hended.announced, ?_⟩
    rw [hj, hconsole]
    exact hended.journal

/-- Output, and imports coming back, may follow an exit. -/
theorem noted (h : w.Settled) (e : Event) (he : e.FollowsExit) (ht : u.table = w.table)
    (hscheduler : u.scheduler = w.scheduler) (hj : u.journal = e :: w.journal)
    (hconsole : u.console = w.console ∨ ∃ stream, e = .printed stream) : u.Settled := by
  have hstate : u.exitCode? = w.exitCode? := by rw [exitCode?, exitCode?, hscheduler]
  have hsignal : u.exitSignal = w.exitSignal := by rw [exitSignal, exitSignal, hscheduler]
  refine ⟨fun hrun => ?_, fun code hcode => ?_⟩
  · rw [hstate] at hrun
    obtain ⟨htable, hnone, hnot⟩ := h.running hrun
    refine ⟨by rwa [ht], hsignal.trans hnone, fun c hc => ?_⟩
    rw [hj] at hc
    rcases List.mem_cons.1 hc with rfl | hc
    · exact he
    · exact hnot c hc
  · rw [hstate] at hcode
    obtain ⟨htable, hannounced, later, earlier, hw, hlater, hearlier, hpending⟩ :=
      h.ended code hcode
    refine ⟨ht.trans htable, hsignal.trans hannounced, e :: later, earlier, ?_, ?_, hearlier, ?_⟩
    · rw [hj, hw]
      rfl
    · intro x hx
      rcases List.mem_cons.1 hx with rfl | hx
      · exact he
      · exact hlater x hx
    · intro hnone
      rcases hconsole with hconsole | ⟨stream, rfl⟩
      · rw [hconsole]
        exact hpending fun stream hmem => hnone stream (List.mem_cons_of_mem _ hmem)
      · exact absurd List.mem_cons_self (hnone stream)

end Settled

end World

namespace Scheduler

theorem exitCode?_leave (s : Scheduler) : s.leave.exitCode? = s.exitCode? := by
  unfold leave exitCode?
  dsimp only
  split
  next h => rw [h.2]; rfl
  next => rfl

theorem enter_ok {s s' : Scheduler} (h : s.enter = .ok s') :
    s.exitCode? = none ∧ s'.exitCode? = none ∧ s'.announced = s.announced := by
  unfold enter at h
  split at h
  · cases h
  next hstate =>
    cases h
    refine ⟨?_, rfl, rfl⟩
    unfold exitCode? GuestState.exitCode?
    split
    next code hcode => exact absurd hcode (hstate code)
    next => rfl

end Scheduler

variable {w u : World σ}

theorem Minor.settled (h : Minor w u) (hw : w.Settled) : u.Settled := by
  cases h with
  | quiet h =>
    refine hw.rescheduled h.table h.console h.journal ?_ ?_
    · rw [World.exitCode?, World.exitCode?, h.scheduler]
    · rw [World.exitSignal, World.exitSignal, h.scheduler]
  | printed stream console => exact hw.noted (.printed stream) trivial rfl rfl rfl (.inr ⟨stream, rfl⟩)
  | wrote memory hrun => exact hw.recorded hrun hrun id rfl rfl fun c hc => nomatch hc
  | ticked s h =>
    exact hw.rescheduled rfl rfl rfl (congrArg GuestState.exitCode? h.state) h.announced

theorem stored_settled {t : ValueTable} {v : Value} {m : Memory} (hrun : w.exitCode? = none)
    (hw : w.Settled) : (w.stored t v m).Settled := by
  refine hw.still_running hrun hrun (fun _ => rfl) rfl fun c hc => ?_
  simp only [World.stored, World.storing, World.record] at hc
  cases ha : t.allocates? v with
  | some i => simpa [ha] using hc
  | none => simpa [ha] using hc

theorem Lost.settled (h : Lost w u) (hw : w.Settled) : u.Settled := by
  cases h with
  | nothing => exact hw
  | slot t v m hrun ht => exact stored_settled hrun hw

theorem Action.settled (h : Action w u) (hw : w.Settled) : u.Settled := by
  cases h with
  | minor h => exact h.settled hw
  | owned s m => exact hw.rescheduled rfl rfl rfl rfl rfl
  | handed t v m address hrun ht =>
    have hrun' : (w.stored t v m).exitCode? = none := hrun
    exact (stored_settled hrun hw).recorded hrun' hrun' id rfl rfl fun c hc => nomatch hc
  | finalized i hrun =>
    refine hw.recorded hrun hrun (fun ht => ?_) rfl rfl fun c hc => nomatch hc
    simpa [World.record] using ht
  | answered i => exact hw.noted (.answered i none) trivial rfl rfl rfl (.inl rfl)
  | failed i e h => exact (h.settled hw).noted (.answered i (some e)) trivial rfl rfl rfl (.inl rfl)
  | entered s h =>
    obtain ⟨hrun, hrun', hannounced⟩ := Scheduler.enter_ok h
    exact hw.recorded hrun hrun' id hannounced rfl fun c hc => nomatch hc
  | left =>
    exact hw.rescheduled rfl rfl rfl (Scheduler.exitCode?_leave w.scheduler) rfl
  | exited code hrun =>
    refine ⟨(fun hrun' => nomatch hrun'), fun code' hcode => ?_⟩
    cases hcode
    refine ⟨rfl, rfl, [], w.journal, rfl, ?_, (hw.running hrun).2.2, ?_⟩
    · exact fun e he => nomatch he
    · exact fun _ stream => Console.pending_flush w.console stream

theorem settled_fresh (o : HostOptions) (memory : Memory) (around : Surroundings) (own : σ) :
    (World.fresh o memory around own).Settled := by
  unfold World.fresh
  generalize Heap.firstObjects = x
  obtain ⟨⟨global, bridge⟩, heap⟩ := x
  exact ⟨fun _ => ⟨rfl, rfl, fun c hc => nomatch hc⟩, fun code hcode => nomatch hcode⟩

theorem Moment.settled {p : Program σ} {start : World σ} {control : Control σ}
    (h : Moment p start control w) (hstart : start.Settled) : w.Settled :=
  h.reaches.keeps (fun _ _ haction hsettled => haction.settled hsettled) hstart

theorem Action.tended (h : Action w u) (hw : w.scheduler.Tended) : u.scheduler.Tended := by
  cases h with
  | minor h =>
    cases h with
    | quiet h => rwa [h.scheduler]
    | ticked s h => exact h.tended hw
    | printed | wrote => exact hw
  | failed i e h => cases h <;> exact hw
  | entered s h =>
    obtain ⟨-, hrun, -⟩ := Scheduler.enter_ok h
    unfold Scheduler.enter at h
    split at h
    next => cases h
    next =>
      cases h
      exact hw.reframe fun hexit => absurd hrun hexit
  | left =>
    refine hw.reframe fun hexit => ?_
    rwa [← Scheduler.exitCode?_leave]
  | exited code hrun => exact hw.exit code
  | owned | handed | finalized | answered => exact hw

theorem Moment.tended {p : Program σ} {start : World σ} {control : Control σ}
    (h : Moment p start control w) (hstart : start.scheduler.Tended) : w.scheduler.Tended :=
  h.reaches.keeps (P := fun w => w.scheduler.Tended) (fun _ _ haction => haction.tended) hstart

theorem World.Settled.ended_of_mem (h : w.Settled) {code : Int32} (hexit : .exited code ∈ w.journal) :
    w.exitCode? = some code := by
  cases hstate : w.exitCode? with
  | none => exact absurd hexit ((h.running hstate).2.2 code)
  | some code' =>
    obtain ⟨-, -, later, earlier, hj, hlater, hearlier, -⟩ := h.ended code' hstate
    rw [hj] at hexit
    rcases List.mem_append.1 hexit with hmem | hmem
    · exact (hlater _ hmem).elim
    · rcases List.mem_cons.1 hmem with heq | hmem
      · cases heq
        rfl
      · exact absurd hmem (hearlier code)

/-! ## What an exited guest is asked to do is refused -/

section Refusals

variable {code : Int32}

theorem ensureNotExited_exited (h : w.exitCode? = some code) :
    ensureNotExited w = .error (.alreadyExited code) w := by
  simp only [ensureNotExited, h]

theorem state_of_exitCode? (h : w.exitCode? = some code) : w.state = .exited code := by
  unfold World.exitCode? Scheduler.exitCode? GuestState.exitCode? at h
  split at h
  next c hstate =>
    cases h
    exact hstate
  next => cases h

namespace Import

theorem dispatch_exited (h : w.exitCode? = some code) (c : Calls σ) {i : Import}
    (hi : i ≠ .resetMemoryDataView) (sp : Nat) :
    dispatch c i sp w = .error (.alreadyExited code) w := by
  have hview : view w = .error (.alreadyExited code) w := by
    simp only [view, h]
    rfl
  unfold dispatch
  split
  · exact absurd rfl hi
  · exact bind_error hview

end Import

def Outcome.refusal (outcome : Outcome) (heap : Heap) (code : Int32) : Fault :=
  match outcome with
  | .returned _ => .alreadyExited code
  | .thrown v => if (heap.text? v).isSome then .alreadyExited code else .stackExhausted

theorem textOf_of_text {v : Value} {text : String} (h : w.heap.text? v = some text) :
    textOf v w = .ok text w := by
  rw [textOf, fromHeap_bind, h]
  rfl

theorem textOf_of_no_text {v : Value} (h : w.heap.text? v = none) :
    textOf v w = .error .stackExhausted w := by
  rw [textOf, fromHeap_bind, h]
  rfl

theorem Import.storeOutcome_exited (h : w.exitCode? = some code) (c : Calls σ) (offset : Nat)
    (outcome : Outcome) :
    storeOutcome c offset outcome w = .error (outcome.refusal w.heap code) w := by
  have hfresh : freshStackPointer c w = .error (.alreadyExited code) w :=
    bind_error (ensureNotExited_exited h)
  cases outcome with
  | returned v => exact bind_error hfresh
  | thrown v =>
    cases htext : w.heap.text? v with
    | some text =>
      have hwords : (discard (textOf v) : Host σ Unit) w = .ok () w :=
        discard_ok (textOf_of_text htext)
      have hrefusal : (Outcome.thrown v).refusal w.heap code = .alreadyExited code := by
        simp [Outcome.refusal, htext]
      rw [hrefusal]
      exact (bind_ok hwords).trans (bind_error hfresh)
    | none =>
      have hwords : (discard (textOf v) : Host σ Unit) w = .error .stackExhausted w :=
        discard_error (textOf_of_no_text htext)
      have hrefusal : (Outcome.thrown v).refusal w.heap code = .stackExhausted := by
        simp [Outcome.refusal, htext]
      rw [hrefusal]
      exact bind_error hwords

/-- Every import but one and every call of the embedding program is answered that the guest has
exited, and leaves everything as it is. -/
structure Refuses (p : Program σ) (w : World σ) (code : Int32) : Prop where
  imports : ∀ (c : Calls σ) (i : Import) (sp : Nat), i ≠ .resetMemoryDataView →
    Import.dispatch c i sp w = .error (.alreadyExited code) w
  start : p.start w = .error (.alreadyExited code) w
  fireTimer : ∀ id, p.fireTimer id w = .error (.alreadyExited code) w
  serviceTimers : p.serviceTimers w = .error (.alreadyExited code) w
  nextTimer : ∀ horizon, p.nextTimer horizon w = .error (.alreadyExited code) w
  callGlobal : ∀ name args, p.callGlobal name args w = .error (.alreadyExited code) w
  invoke : ∀ f this args, p.invoke f this args w = .error (.alreadyExited code) w

theorem refuses_exited (p : Program σ) (h : w.exitCode? = some code) : Refuses p w code := by
  have hensure := ensureNotExited_exited h
  have hstart : w.scheduler.checkStartable = .error (.alreadyExited code) := by
    unfold Scheduler.checkStartable
    rw [show w.scheduler.state = .exited code from state_of_exitCode? h]
  refine ⟨fun c i sp hi => Import.dispatch_exited h c hi sp, ?_, fun id => bind_error hensure,
    bind_error hensure, fun horizon => bind_error hensure, fun name args => bind_error hensure,
    fun f this args => bind_error hensure⟩
  rw [Program.start, get_bind, hstart]
  rfl

end Refusals

/-! ## Imports that end in an exited guest -/

def SameExit (w u : World σ) : Prop := u.exitCode? = w.exitCode?

instance : Tolerant (SameExit : World σ → World σ → Prop) where
  refl _ := rfl
  trans hwu hux := hux.trans hwu
  minor h := by
    cases h with
    | quiet h => exact congrArg Scheduler.exitCode? h.scheduler
    | printed stream console => rfl
    | wrote memory hrun => rfl
    | ticked s h => exact congrArg GuestState.exitCode? h.state

theorem SameExit.of_aside (w u : World σ) (h : Aside w u) : SameExit w u :=
  congrArg Scheduler.exitCode? h.scheduler

theorem sameExit_storeValue (address : Nat) (v : Value) :
    Keeps SameExit (storeValue address v : Host σ Unit) :=
  (keeps_storeValue address v).mono SameExit.of_aside

theorem sameExit_storeOutcome (c : Calls σ) (offset : Nat) (outcome : Outcome) :
    Keeps SameExit (Import.storeOutcome c offset outcome) :=
  (Import.keeps_storeOutcome c offset outcome).mono SameExit.of_aside

/-- A request that calls nothing ends the guest only if that is what it asks for. -/
theorem sameExit_perform (c : Calls σ) (sp : Nat) {r : Request} (hw : w.exitCode? = none)
    (hcallee : r.callee? w.heap = none) (hr : ∀ code, r ≠ .exit code) :
    SameExit w (after (Import.perform c sp r w)) := by
  by_cases hminor : r.isMinor = true
  · exact Import.perform_minor c sp hminor hw
  · unfold Import.perform
    cases r with
    | exit code => exact absurd rfl (hr code)
    | finalize id => rfl
    | intern text => exact sameExit_storeValue _ _ w
    | get v key =>
      refine ((keeps_fromHeap _).bind fun _ => ?_) w
      exact (keeps_freshStackPointer c).bind fun _ => sameExit_storeValue _ _
    | index v i => exact ((keeps_fromHeap _).bind fun _ => sameExit_storeValue _ _) w
    | method receiver name args =>
      have hf : ¬ (w.heap.get receiver name).isFunction = true := by
        intro hf
        simp [Request.callee?, hf] at hcallee
      have hcall : Import.callMethod c receiver name args w = throwTypeError
          s!"{receiver.typeName}.{name} is not a function" w := by
        rw [Import.callMethod, fromHeap_bind, if_neg hf]
      have hthrow := ((keeps_throwTypeError s!"{receiver.typeName}.{name} is not a function").bind
        fun outcome => sameExit_storeOutcome c 56 outcome) w
      rwa [← bind_congr_at hcall] at hthrow
    | invoke f args => cases hcallee
    | construct ctor args => cases hcallee
    | prepareText v =>
      refine ((keeps_textOf v).bind fun _ => (keeps_onHeap _).bind fun _ => ?_) w
      exact (sameExit_storeValue _ _).bind fun _ => keeps_onMemory _
    | write | resetMemoryView | nanotime | walltime | schedule | clear | fillRandom | set | delete
    | setIndex | length | loadText | instanceOf | copyOut | copyIn => exact absurd rfl hminor

/-- An import that calls nothing ends the guest only if it is the one made for that. -/
theorem sameExit_dispatch (c : Calls σ) {i : Import} {sp : Nat} (hrun : w.exitCode? = none)
    (hcallee : i.callee? sp w = none) (hi : i ≠ .wasmExit) :
    SameExit w (after (Import.dispatch c i sp w)) := by
  rcases Import.dispatch_cases c i sp w with ⟨-, h⟩ | ⟨e, h, -⟩ | ⟨operands, r, hv, hr, h⟩
  · rw [h]
    rfl
  · rw [h]
    rfl
  · rw [h]
    have hrequest : r.callee? w.heap = none := by
      unfold Import.callee? at hcallee
      rw [hv] at hcallee
      dsimp only at hcallee
      rw [hr] at hcallee
      exact hcallee
    refine sameExit_perform c sp hrun hrequest ?_
    rintro code rfl
    exact hi (Request.import_of_decode hr).symm

/-- How an import that calls a function comes back when the guest has exited meanwhile: the fault of
the call is passed on, and an outcome of the call cannot be written. -/
inductive FailsAfterCall (c : Calls σ) (callee : Callee) (code : Int32) (w : World σ) :
    EStateM.Result Fault (World σ) Unit → Prop where
  | faulted {e : Fault} {u : World σ} (h : callee.run c w = .error e u) :
      FailsAfterCall c callee code w (.error e u)
  | unwritten {outcome : Outcome} {u : World σ} (h : callee.run c w = .ok outcome u) :
      FailsAfterCall c callee code w (.error (outcome.refusal u.heap code) u)

theorem dispatch_ends_exited (c : Calls σ) {i : Import} {sp : Nat} {code : Int32}
    (hrun : w.exitCode? = none)
    (hexit : (after (Import.dispatch c i sp w)).exitCode? = some code) :
    i = .wasmExit ∨ ∃ callee, i.callee? sp w = some callee ∧
      FailsAfterCall c callee code w (Import.dispatch c i sp w) := by
  cases hcallee : i.callee? sp w with
  | some callee =>
    refine .inr ⟨callee, rfl, ?_⟩
    rw [Import.dispatch_of_callee hcallee] at hexit ⊢
    cases hcall : callee.run c w with
    | error e u =>
      rw [bind_error hcall]
      exact .faulted hcall
    | ok outcome u =>
      rw [bind_ok hcall] at hexit ⊢
      have hu : u.exitCode? = some code := by
        rw [← hexit]
        exact (sameExit_storeOutcome c i.outcomeOffset outcome u).symm
      rw [Import.storeOutcome_exited hu]
      exact .unwritten hcall
  | none =>
    by_cases hi : i = .wasmExit
    · exact .inl hi
    · have hsame := sameExit_dispatch c hrun hcallee hi
      rw [SameExit, hexit, hrun] at hsame
      cases hsame

theorem dispatch_wasmExit (c : Calls σ) {sp : Nat} {code : Int32} (hrun : w.exitCode? = none)
    (ht : w.table.isSome = true) (hcode : w.memory.getI32 (sp + 8) = .ok code) :
    Import.dispatch c .wasmExit sp w = .ok () (w.exit code) := by
  obtain ⟨t, ht⟩ := Option.isSome_iff_exists.1 ht
  have hview : Import.view w = .ok ⟨w.memory, t, w.heap⟩ w := by
    simp only [Import.view, hrun, ht]
  have hrequest : Request.decode .wasmExit ⟨w.memory, t, w.heap⟩ sp = .ok (.exit code) := by
    simp only [Request.decode, hcode]
    rfl
  change (Import.view >>= fun operands =>
    Host.ofExcept (Request.decode .wasmExit operands sp) >>= Import.perform c sp) w = _
  rw [bind_ok hview, hrequest]
  rfl

end TokenizerHost
