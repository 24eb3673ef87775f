import Mathlib.Data.List.TakeWhile
import TokenizerHost.Linker
import TokenizerHost.Proofs.Run.Numbering

set_option autoImplicit false

namespace TokenizerHost

open Host

variable {σ : Type} {w u : World σ} {p : Program σ} {code : Int32}

theorem Action.exitCode?_kept (h : Action w u) (hexit : w.exitCode? = some code) :
    u.exitCode? = some code := by
  have hlive : w.exitCode? ≠ none := by
    rw [hexit]
    exact Option.some_ne_none code
  cases h with
  | minor h => exact (Tolerant.minor h : SameExit w u).trans hexit
  | owned | answered => exact hexit
  | handed _ _ _ _ hrun | finalized _ hrun | exited _ hrun => exact absurd hrun hlive
  | failed i e h =>
    cases h with
    | nothing => exact hexit
    | slot _ _ _ hrun => exact absurd hrun hlive
  | entered s h => exact absurd (Scheduler.enter_ok h).1 hlive
  | left => exact (Scheduler.exitCode?_leave w.scheduler).trans hexit

/-- The embedding program cannot bring a guest back that has exited. -/
theorem exitCode?_session (p : Program σ) (calls : List HostCall)
    (hexit : w.exitCode? = some code) : (p.session calls w).exitCode? = some code := by
  have hmoment : Moment p w .host (p.session calls w) := Moment.start.session calls
  exact hmoment.reaches.keeps (P := fun u => u.exitCode? = some code)
    (fun _ _ haction => haction.exitCode?_kept) hexit

/-- A guest that has exited, and what calls of imports come to that its frames still make. -/
structure World.Terminal (p : Program σ) (w : World σ) (code : Int32) : Prop where
  state : w.state = .exited code
  ended : w.Ended code
  spent : w.scheduler.Spent
  nothing : w.scheduler.nextSerial ≤ UInt32.size →
    w.scheduler.sleeping = [] ∧ w.scheduler.reports = []
  liveHandles : w.liveHandles = 0
  pendingTimers : w.pendingTimers = 0
  refuses : Refuses p w code
  linked : ∀ (c : Calls σ) (l : Linker) (space name : String) (sp : Nat) (i : Import),
    l.resolve? space name = some (.host i) → i ≠ .resetMemoryDataView →
      ∃ u, execute c (l.invoke space name sp) w = .error (.alreadyExited code) u
  unlinked : ∀ (c : Calls σ) (l : Linker) (space name : String) (sp : Nat),
    l.resolve? space name = none →
      execute c (l.invoke space name sp) w = .error (Linker.unknownImport space name) w

theorem World.Settled.terminal (h : w.Settled) (htended : w.scheduler.Tended) (p : Program σ)
    (hexit : w.exitCode? = some code) : w.Terminal p code := by
  have hended := h.ended code hexit
  have hspent : w.scheduler.Spent := htended.spent (by
    rw [show w.scheduler.exitCode? = some code from hexit]
    exact Option.some_ne_none code)
  refine ⟨state_of_exitCode? hexit, hended, hspent, hspent.nothing, ?_, ?_, refuses_exited p hexit,
    fun c l space name sp i hi hreset => ?_, fun c l space name sp hnone => ?_⟩
  · rw [World.liveHandles, hended.table]
    rfl
  · rw [World.pendingTimers, Scheduler.pendingTimers, hspent.armed]
    rfl
  · rw [Linker.invoke, hi]
    exact ⟨_, bind_ok (answer_error i (Import.dispatch_exited hexit c hreset sp))⟩
  · rw [Linker.invoke, hnone]
    rfl

/-- Exit is terminal at every moment of every run, but for timers whose ids have been given again.
The import that ends a guest prints what the guest has not finished, and leaves no report and no
other timer. From then on the guest stays exited with its code, whatever the embedding program
calls. An import that finds the guest running and leaves it exited is the one that ends it, or has
called a function meanwhile and fails. -/
theorem exit_is_terminal (p : Program σ) (o : HostOptions) (memory : Memory)
    (around : Surroundings) (own : σ) {control : Control σ} {w : World σ}
    (h : Moment p (.fresh o memory around own) control w) :
    (∀ (c : Calls σ) (sp : Nat) (code : Int32), w.exitCode? = none →
      w.memory.getI32 (sp + 8) = .ok code →
      ∃ u, Import.dispatch c .wasmExit sp w = .ok () u ∧ u.journal = .exited code :: w.journal ∧
        (∀ stream, u.console.pending stream = [] ∧
          u.console.printed stream = w.console.printed stream ++ w.console.unfinished stream) ∧
        u.scheduler.reports = [] ∧
        ∀ t, t ∈ u.scheduler.sleeping ↔
          t ∈ w.scheduler.sleeping ∧ w.scheduler.Reissued t.serial) ∧
    (∀ code, .exited code ∈ w.journal → w.Terminal p code ∧
      (control = .host → ∀ calls, (p.session calls w).Terminal p code)) ∧
    ∀ depth i sp code, w.exitCode? = none →
      (after (Import.dispatch (p.callsWithin depth) i sp w)).exitCode? = some code →
      i = .wasmExit ∨ ∃ callee, i.callee? sp w = some callee ∧
        FailsAfterCall (p.callsWithin depth) callee code w
          (Import.dispatch (p.callsWithin depth) i sp w) := by
  have hsettled : ∀ {control : Control σ} {u : World σ},
      Moment p (.fresh o memory around own) control u → u.Settled := fun hu =>
    hu.settled (settled_fresh o memory around own)
  have htended : ∀ {control : Control σ} {u : World σ},
      Moment p (.fresh o memory around own) control u → u.scheduler.Tended := fun hu =>
    hu.tended (scheduler_fresh o memory around own ▸ .new o.maxTimerRefires)
  refine ⟨fun c sp code hrun hcode => ?_, fun code hexit => ?_,
    fun depth i sp code hrun hexit => ?_⟩
  · refine ⟨w.exit code, dispatch_wasmExit c hrun ((hsettled h).running hrun).1 hcode, rfl,
      fun stream => ⟨?_, ?_⟩, rfl, fun t => (htended h).mem_exit_iff code⟩
    · exact Console.pending_flush w.console stream
    · exact Console.printed_flush w.console stream
  · have hcode := (hsettled h).ended_of_mem hexit
    refine ⟨(hsettled h).terminal (htended h) p hcode, ?_⟩
    rintro rfl calls
    have hlater := h.session calls
    exact (hsettled hlater).terminal (htended hlater) p (exitCode?_session p calls hcode)
  · exact dispatch_ends_exited (p.callsWithin depth) hrun hexit

def exiting : Program Unit where
  stackPointer _ := 0
  run _ := .request .wasmExit 0 fun _ => .done ()
  resume := .done ()
  functions _ _ _ := .done (.returned .undefined)

def exitedAtOnce : World Unit :=
  after ((Drive.run ⟨0, 0⟩).step exiting (.fresh .standard (.zeros 64) ⟨0, 0⟩ ()))

theorem exit_is_terminal_at_once : .exited 0 ∈ exitedAtOnce.journal ∧
    ∀ calls, (exiting.session calls exitedAtOnce).Terminal exiting 0 := by
  have hexit : .exited 0 ∈ exitedAtOnce.journal := by
    decide +kernel
  obtain ⟨-, hterminal, -⟩ := exit_is_terminal exiting .standard (.zeros 64) ⟨0, 0⟩ ()
    (Moment.start.drive (.run ⟨0, 0⟩))
  exact ⟨hexit, (hterminal 0 hexit).2 rfl⟩

/-! ## What outlasts an exit -/

namespace Scheduler

/-- So many timers have been armed, all of them due at once, and none has reported. -/
structure Rearmed (s : Scheduler) (count : Nat) : Prop where
  nextId : s.nextId = idOf count
  nextSerial : s.nextSerial = count
  now : s.now = 0
  due : ∀ t ∈ s.sleeping, t.deadline = 0
  first : 0 < count → ⟨1, 0, 0⟩ ∈ s.sleeping

theorem Rearmed.schedule {s : Scheduler} {count : Nat} (h : s.Rearmed count) :
    (s.schedule 0).2.Rearmed (count + 1) := by
  refine ⟨?_, congrArg (· + 1) h.nextSerial, h.now, fun t ht => ?_, fun _ => ?_⟩
  · rw [idOf_succ, ← h.nextId]
    rfl
  · rcases mem_insertSleeping.1 ht with rfl | hold
    · exact h.now
    · exact h.due t hold
  · refine mem_insertSleeping.2 ?_
    cases count with
    | zero =>
      refine .inl ?_
      rw [h.nextId, h.now, h.nextSerial]
      rfl
    | succ count => exact .inr (h.first (Nat.succ_pos count))

theorem mem_reports_advance {s : Scheduler} {t : SleepingTimer} (ht : t ∈ s.sleeping)
    (hdue : ∀ u ∈ s.sleeping, u.deadline ≤ s.now) : t.id ∈ (s.advance 0).reports := by
  have hall : s.sleeping.takeWhile (fun u => u.deadline ≤ s.now + 0) = s.sleeping :=
    List.takeWhile_eq_self_iff.2 fun u hu => decide_eq_true (hdue u hu)
  refine List.mem_append_right _ (List.mem_map_of_mem ?_)
  rwa [hall]

end Scheduler

def rearmingCode : Nat → Code Unit Unit
  | 0 => .own () (.zeros 32) (.request .wasmExit 0 fun _ => .done ())
  | count + 1 => .own () (.zeros 32) (.request .scheduleTimeoutEvent 0 fun _ => rearmingCode count)

def rearming (count : Nat) : Program Unit where
  stackPointer _ := 0
  run _ := rearmingCode count
  resume := .done ()
  functions _ _ _ := .done (.returned .undefined)

section Arming

variable {w : World Unit} {armed : Nat}

def World.zeroed (w : World Unit) : World Unit := { w with own := (), memory := .zeros 32 }

theorem arms_one (c : Calls Unit) (hsettled : w.Settled) (hrun : w.exitCode? = none)
    (harmed : w.scheduler.Rearmed armed) : ∃ u : World Unit,
      Import.dispatch c .scheduleTimeoutEvent 0 w.zeroed = .ok () u ∧ u.exitCode? = none ∧
      u.scheduler.Rearmed (armed + 1) := by
  obtain ⟨t, ht⟩ := Option.isSome_iff_exists.1 (hsettled.running hrun).1
  have hview : Import.view w.zeroed = .ok ⟨.zeros 32, t, w.heap⟩ w.zeroed := by
    simp only [Import.view, show w.zeroed.exitCode? = none from hrun,
      show w.zeroed.table = some t from ht]
    rfl
  have hdecode : Request.decode .scheduleTimeoutEvent ⟨.zeros 32, t, w.heap⟩ 0 =
      .ok (.schedule 0) := by
    have hdelay : (Memory.zeros 32).getI64 (0 + 8) = .ok 0 := by
      decide +kernel
    simp only [Request.decode, hdelay]
    rfl
  rcases dispatch_scheduleTimeoutEvent (c := c) hview hdecode with
    ⟨u, hu, -, hscheduler, -⟩ | ⟨-, -, -, hout, -, -⟩
  · refine ⟨u, hu, ?_, hscheduler ▸ harmed.schedule⟩
    rw [World.exitCode?, hscheduler]
    exact hrun
  · rw [show w.zeroed.memory.size = 32 from Memory.size_zeros (by decide)] at hout
    omega

theorem arms_all {p : Program Unit} {start : World Unit} (hstart : start.Settled) (count : Nat)
    (h : Moment p start (.code Program.maxDepth (rearmingCode count)) w) (hrun : w.exitCode? = none)
    (harmed : w.scheduler.Rearmed armed) : ∃ u : World Unit,
      Moment p start (.code Program.maxDepth (rearmingCode 0)) u ∧ u.exitCode? = none ∧
      u.scheduler.Rearmed (armed + count) ∧
      execute p.calls (rearmingCode count) w = execute p.calls (rearmingCode 0) u := by
  induction count generalizing w armed with
  | zero => exact ⟨w, h, hrun, harmed, rfl⟩
  | succ count ih =>
    obtain ⟨u, hu, hrun', harmed'⟩ := arms_one p.calls (h.settled hstart) hrun harmed
    have hzeroed : (rearmingCode (count + 1)).advance p.calls w =
        .ok (.request .scheduleTimeoutEvent 0 fun _ => rearmingCode count) w.zeroed := rfl
    have hanswered : (Code.request .scheduleTimeoutEvent 0 fun _ => rearmingCode count).advance
        p.calls w.zeroed =
          .ok (rearmingCode count) (u.record (.answered .scheduleTimeoutEvent none)) :=
      bind_ok (answer_ok .scheduleTimeoutEvent hu)
    obtain ⟨v, hv, hrunning, hall, hexecute⟩ :=
      ih ((h.advances hzeroed).advances hanswered) hrun' harmed'
    refine ⟨v, hv, hrunning, ?_, ?_⟩
    · rw [Nat.add_right_comm] at hall
      exact hall
    · rw [execute_of_advance hzeroed, execute_of_advance hanswered, hexecute]

theorem exits_at_last (c : Calls Unit) (hsettled : w.Settled) (hrun : w.exitCode? = none) :
    execute c (rearmingCode 0) w =
      .ok () ((w.zeroed.exit 0).record (.answered .wasmExit none)) := by
  have hcode : w.zeroed.memory.getI32 (0 + 8) = .ok 0 := by
    change (Memory.zeros 32).getI32 (0 + 8) = .ok 0
    decide +kernel
  have hexit := dispatch_wasmExit c (w := w.zeroed) hrun (hsettled.running hrun).1 hcode
  exact bind_ok (answer_ok .wasmExit hexit)

end Arming

/-- The first timer's id has been given again when the guest exits, so the timer sleeps on. -/
theorem rearmed_sleeps_on {start : World Unit} (hscheduler : start.scheduler = .new 16)
    (hsettled : start.Settled) : ∃ x : World Unit,
      Moment (rearming (UInt32.size + 1)) start .host x ∧ .exited 0 ∈ x.journal ∧
      ⟨1, 0, 0⟩ ∈ x.scheduler.sleeping ∧
      ∀ t ∈ x.scheduler.sleeping, t.deadline ≤ x.scheduler.now := by
  let p := rearming (UInt32.size + 1)
  have hrun : start.exitCode? = none := congrArg Scheduler.exitCode? hscheduler
  have hentered : Moment p start (.code Program.maxDepth (rearmingCode (UInt32.size + 1)))
      (start.entering .run) := Moment.start.runs ⟨0, 0⟩ (enterFrame_eq hrun)
  have hnone : (start.entering .run).scheduler.Rearmed 0 := by
    simp only [World.entering, World.mark, World.record, hscheduler]
    exact ⟨rfl, rfl, rfl, fun t ht => absurd ht List.not_mem_nil,
      fun hnone => absurd hnone (Nat.lt_irrefl 0)⟩
  obtain ⟨u, hu, hurun, harmed, hexecute⟩ := arms_all hsettled _ hentered rfl hnone
  let x : World Unit := ((u.zeroed.exit 0).record (.answered .wasmExit none)).leaving
  have hx : after ((Drive.run ⟨0, 0⟩).step p start) = x := by
    refine (after_frame hrun).trans (congrArg World.leaving ?_)
    exact congrArg after (hexecute.trans (exits_at_last p.calls (hu.settled hsettled) hurun))
  have htended : u.scheduler.Tended := hu.tended (hscheduler ▸ .new 16)
  have hreissued : u.scheduler.Reissued 0 := by
    rw [Scheduler.Reissued, harmed.nextSerial]
    decide
  refine ⟨x, hx ▸ Moment.start.drive (.run ⟨0, 0⟩), List.mem_cons_of_mem _ List.mem_cons_self,
    (htended.mem_exit_iff 0).2 ⟨harmed.first (by decide), hreissued⟩, fun t ht => ?_⟩
  rw [harmed.due t ((htended.mem_exit_iff 0).1 ht).1]
  exact Nat.zero_le _

/-- A guest that arms 2³² timers after its first one, and exits, leaves the first one asleep, and it
reports after the exit. An import that the host does not know traps after an exit as before. -/
theorem reissued_timer_outlasts_exit :
    (∃ w : World Unit, Moment (rearming (UInt32.size + 1)) (.fresh .standard (.zeros 32) ⟨0, 0⟩ ())
      .host w ∧ .exited 0 ∈ w.journal ∧ 1 ∈ w.scheduler.reports) ∧
    ∃ l, Linker.ofNamespaces? ["gojs"] = some l ∧ exitedAtOnce.exitCode? = some 0 ∧
      execute exiting.calls (l.invoke "gojs" "runtime.unknown" 0) exitedAtOnce =
        .error (Linker.unknownImport "gojs" "runtime.unknown") exitedAtOnce := by
  refine ⟨?_, ?_⟩
  · obtain ⟨x, hx, hexit, hslept, hdue⟩ :=
      rearmed_sleeps_on (scheduler_fresh .standard (.zeros 32) ⟨0, 0⟩ ()) (settled_fresh _ _ _ _)
    exact ⟨_, hx.session [.advance 0], hexit, Scheduler.mem_reports_advance hslept hdue⟩
  · cases hl : Linker.ofNamespaces? ["gojs"] with
    | none => exact absurd hl (by decide +kernel)
    | some l =>
      have hnone : l.resolve? "gojs" "runtime.unknown" = none := by
        have hnowhere : (Linker.ofNamespaces? ["gojs"]).bind (·.resolve? "gojs" "runtime.unknown") =
            none := by
          decide +kernel
        rwa [hl] at hnowhere
      refine ⟨l, rfl, by decide +kernel, ?_⟩
      rw [Linker.invoke, hnone]
      rfl

end TokenizerHost
