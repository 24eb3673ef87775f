import TokenizerHost.Proofs.Run.Exit

set_option autoImplicit false

/-!
# Frames

A frame is entered, carried out and left, whatever comes of it (`frame_ok`, `frame_error`). An
invariant of frames speaks of a world and of what its active frames were entered for, the innermost
first. `FrameInvariant` lists what it has to survive; it then survives all that guest code and host
functions do, with the frames that are entered and left meanwhile.
-/

namespace TokenizerHost

open Host

variable {σ α : Type}

namespace Scheduler

theorem enter_eq {s : Scheduler} (h : s.exitCode? = none) :
    s.enter = .ok { s with depth := s.depth + 1, state := .running } := by
  unfold enter
  split
  next code hstate =>
    rw [exitCode?, hstate] at h
    cases h
  next => rfl

end Scheduler

namespace World

def entering (w : World σ) (cause : Cause) : World σ :=
  let running := { w.scheduler with depth := w.scheduler.depth + 1, state := .running }
  ({ w with scheduler := running }.record .entered).mark (.entered cause)

def leaving (w : World σ) : World σ := { w with scheduler := w.scheduler.leave }

def disarming (w : World σ) (id : Int32) (serial : Nat) : World σ :=
  { w with scheduler := w.scheduler.disarm id serial }.mark (.disarmed id)

theorem clearTimer_armed {w : World σ} {id : Int32} {serial : Nat}
    (h : w.scheduler.armed.find? id = some serial) : w.clearTimer id = w.disarming id serial := by
  simp only [clearTimer, Scheduler.clear_armed h, disarming, mark, if_true]

theorem clearTimer_idle {w : World σ} {id : Int32} (h : w.scheduler.armed.find? id = none) :
    w.clearTimer id = w := by
  simp only [clearTimer, Scheduler.clear_idle h, Bool.false_eq_true, if_false]

theorem exitCode?_entering (w : World σ) (cause : Cause) : (w.entering cause).exitCode? = none := rfl

theorem exitCode?_leaving (w : World σ) : w.leaving.exitCode? = w.exitCode? :=
  Scheduler.exitCode?_leave w.scheduler

end World

namespace Host

variable {c : Calls σ} {cause : Cause} {code : Code σ Unit} {w u : World σ}

theorem enterFrame_eq (hrun : w.exitCode? = none) :
    enterFrame cause w = .ok () (w.entering cause) :=
  enterFrame_ok cause (Scheduler.enter_eq hrun)

theorem frame_exited {exit : Int32} (h : w.exitCode? = some exit) :
    frame c cause code w = .error (.alreadyExited exit) w :=
  bind_error (ensureNotExited_exited h)

theorem ensureNotExited_running (hrun : w.exitCode? = none) : ensureNotExited w = .ok () w := by
  simp only [ensureNotExited, hrun]

theorem frame_ok (hrun : w.exitCode? = none)
    (h : execute c code (w.entering cause) = .ok () u) :
    frame c cause code w = .ok () u.leaving := by
  rw [frame, bind_ok (ensureNotExited_running hrun), bind_ok (enterFrame_eq hrun),
    bind_ok (attempt_ok h)]
  rfl

theorem frame_error {e : Fault} (hrun : w.exitCode? = none)
    (h : execute c code (w.entering cause) = .error e u) :
    frame c cause code w = .error e u.leaving := by
  rw [frame, bind_ok (ensureNotExited_running hrun), bind_ok (enterFrame_eq hrun),
    bind_ok (attempt_error h)]
  rfl

theorem after_frame (hrun : w.exitCode? = none) :
    after (frame c cause code w) = (after (execute c code (w.entering cause))).leaving := by
  cases h : execute c code (w.entering cause) with
  | ok a u =>
    rw [frame_ok hrun h]
    rfl
  | error e u =>
    rw [frame_error hrun h]
    rfl

end Host

/-- A property of a world and its active frames, each given by what it was entered for, that nested
code cannot break. -/
class FrameInvariant (P : List Cause → World σ → Prop) : Prop where
  aside {frames : List Cause} {w u : World σ} (h : Aside w u) : P frames w → P frames u
  schedule {frames : List Cause} {w : World σ} (hrun : w.exitCode? = none) (delay : Int) :
    P frames w → P frames { w with scheduler := (w.scheduler.schedule delay).2 }
  disarm {frames : List Cause} {w : World σ} {id : Int32} {serial : Nat}
    (h : w.scheduler.armed.find? id = some serial) :
    P frames w → P frames (w.disarming id serial)
  exit {frames : List Cause} {w : World σ} (hrun : w.exitCode? = none) (code : Int32) :
    P frames w → P frames (w.exit code)
  inner {frames : List Cause} {w : World σ} {cause : Cause} (hcause : cause.IsInner)
    (hrun : w.exitCode? = none) : P frames w → P (cause :: frames) (w.entering cause)
  leave {cause : Cause} {frames : List Cause} {w : World σ} :
    P (cause :: frames) w → P frames w.leaving

theorem FrameInvariant.clear {P : List Cause → World σ → Prop} [FrameInvariant P]
    {frames : List Cause} {w : World σ} (id : Int32) (h : P frames w) :
    P frames (w.clearTimer id) := by
  cases hfind : w.scheduler.armed.find? id with
  | none =>
    rw [World.clearTimer_idle hfind]
    exact h
  | some serial =>
    rw [World.clearTimer_armed hfind]
    exact FrameInvariant.disarm hfind h

def Survives (P : List Cause → World σ → Prop) (w u : World σ) : Prop :=
  ∀ frames, P frames w → P frames u

section Survives

variable {P : List Cause → World σ → Prop} [FrameInvariant P]

theorem Survives.of_aside (w u : World σ) (h : Aside w u) : Survives P w u :=
  fun _ => FrameInvariant.aside h

instance : Lenient (Survives P) where
  refl _ _ h := h
  trans hwu hux frames h := hux frames (hwu frames h)
  slight _ hscheduler htimeline := .of_aside _ _ ⟨hscheduler, htimeline⟩

theorem survives_storeValue (address : Nat) (v : Value) :
    Keeps (Survives P) (storeValue address v : Host σ Unit) :=
  (keeps_storeValue address v).mono Survives.of_aside

theorem survives_storeOutcome (c : Calls σ) (offset : Nat) (outcome : Outcome) :
    Keeps (Survives P) (Import.storeOutcome c offset outcome) :=
  (Import.keeps_storeOutcome c offset outcome).mono Survives.of_aside

variable {c : Calls σ}

theorem survives_perform (hc : c.Keeping (Survives P)) (sp : Nat) (r : Request) {w : World σ}
    (hrun : w.exitCode? = none) : Survives P w (after (Import.perform c sp r w)) := by
  by_cases hslight : r.isMinor = true ∧ r.setsTimer = false
  · exact Import.perform_slight c sp hslight.1 hslight.2 w
  · unfold Import.perform
    cases r with
    | exit code => exact fun frames => FrameInvariant.exit hrun code
    | schedule delay =>
      have harm : Survives P w { w with scheduler := (w.scheduler.schedule delay).2 } :=
        fun frames => FrameInvariant.schedule hrun delay
      exact Lenient.trans harm
        (keeps_onMemory (Memory.setI32 (sp + 16) (w.scheduler.schedule delay).1) _)
    | clear id => exact fun frames => FrameInvariant.clear id
    | finalize id => exact .of_aside _ _ ⟨rfl, rfl⟩
    | intern text => exact survives_storeValue _ _ w
    | get v key =>
      refine ((keeps_fromHeap _).bind fun _ => ?_) w
      exact (keeps_freshStackPointer c).bind fun _ => survives_storeValue _ _
    | index v i => exact ((keeps_fromHeap _).bind fun _ => survives_storeValue _ _) w
    | method receiver name args =>
      exact ((Import.keeps_callMethod hc receiver name args).bind
        fun outcome => survives_storeOutcome c 56 outcome) w
    | invoke f args =>
      exact ((hc.call f .undefined args).bind fun outcome => survives_storeOutcome c 40 outcome) w
    | construct ctor args =>
      exact ((hc.construct ctor args).bind fun outcome => survives_storeOutcome c 40 outcome) w
    | prepareText v =>
      refine ((keeps_textOf v).bind fun _ => (keeps_onHeap _).bind fun _ => ?_) w
      exact (survives_storeValue _ _).bind fun _ => keeps_onMemory _
    | write | resetMemoryView | nanotime | walltime | fillRandom | set | delete | setIndex | length
    | loadText | instanceOf | copyOut | copyIn => exact absurd ⟨rfl, rfl⟩ hslight

theorem survives_dispatch (hc : c.Keeping (Survives P)) (i : Import) (sp : Nat) :
    Keeps (Survives P) (Import.dispatch c i sp) := by
  intro w
  rcases Import.dispatch_cases c i sp w with ⟨-, h⟩ | ⟨e, h, -⟩ | ⟨operands, r, hv, -, h⟩
  · rw [h]
    exact Lenient.refl w
  · rw [h]
    exact Lenient.refl w
  · rw [h]
    exact survives_perform hc sp r (Import.view_ok hv).2.1

theorem survives_answer {step : Host σ Unit} (h : Keeps (Survives P) step) (i : Import) :
    Keeps (Survives P) (answer i step) := by
  intro w
  cases hw : step w with
  | ok a u =>
    rw [answer_ok i hw]
    exact Lenient.trans (h.ok hw) (.of_aside _ _ ⟨rfl, rfl⟩)
  | error e u =>
    rw [answer_error i hw]
    exact Lenient.trans (h.error hw) (.of_aside _ _ ⟨rfl, rfl⟩)

theorem holds_after_frame {w : World σ} {cause : Cause} {code : Code σ Unit} {frames : List Cause}
    (hcode : Keeps (Survives P) (execute c code)) (hrun : w.exitCode? = none)
    (h : P (cause :: frames) (w.entering cause)) : P frames (after (frame c cause code w)) := by
  rw [after_frame hrun]
  exact FrameInvariant.leave (hcode _ _ h)

/-- A frame that may be entered is left with the frames around it as they were. -/
theorem survives_frame {w : World σ} {cause : Cause} {code : Code σ Unit} {frames : List Cause}
    (hcode : Keeps (Survives P) (execute c code))
    (henter : w.exitCode? = none → P frames w → P (cause :: frames) (w.entering cause))
    (h : P frames w) : P frames (after (frame c cause code w)) := by
  cases hrun : w.exitCode? with
  | some exit =>
    rw [frame_exited hrun]
    exact h
  | none => exact holds_after_frame hcode hrun (henter hrun h)

instance : Lasting (Survives P) where
  own _ _ _ := .of_aside _ _ ⟨rfl, rfl⟩
  answer hc i sp := survives_answer (survives_dispatch hc i sp) i
  frame hcause hcode _ _ := survives_frame hcode fun hrun => FrameInvariant.inner hcause hrun

end Survives

end TokenizerHost
