import TokenizerHost.GuestModule

namespace TokenizerHost

inductive TimerOutcome where
  /-- The guest handled it, after it had been fired again `refires` times. -/
  | fired (id : Int32) (refires : Nat)
  | canceled (id : Int32)
  /-- The guest never cleared it, and it was dropped. -/
  | exhausted (id : Int32) (refires : Nat)
  deriving DecidableEq, Repr

inductive TimerWait where
  | served (o : TimerOutcome)
  | idle
  | expired
  deriving DecidableEq, Repr

inductive RunEnd where
  | exited (code : Int32)
  | pending
  deriving DecidableEq, Repr

namespace Host

variable {σ : Type}

def isPending (id : Int32) : Host σ Bool := return (← get).scheduler.isPending id

def takeReport : Host σ (Option Int32) := fun w =>
  let (report, scheduler) := w.scheduler.takeReport
  .ok report { w with scheduler }

def advance (millis : Nat) : Host σ Unit :=
  modify fun w => { w with scheduler := w.scheduler.advance millis }

def elapse (millis : Nat) : Host σ Unit :=
  modify fun w => { w with scheduler := w.scheduler.elapse millis }

end Host

namespace Program

variable {σ : Type}

def resumeGuest (p : Program σ) (id : Int32) : Host σ Unit :=
  Host.frame p.calls (.timer id) p.resume

def start (p : Program σ) : Host σ Unit := do
  let w ← get
  Host.ofExcept w.scheduler.checkStartable
  let table ← Host.onMemory (Memory.writeArguments w.argv w.env)
  Host.frame p.calls .run (p.run table)

/-- Fires a timer again until it is no longer armed, but at most `left` times more. -/
def refire (p : Program σ) (id : Int32) : (left attempts : Nat) → Host σ TimerOutcome
  | left, attempts => do
    if ← Host.isPending id then
      match left with
      | 0 =>
        Host.notify (.droppedTimer id attempts)
        Host.clearTimer id
        return .exhausted id attempts
      | left + 1 =>
        Host.notify (.missedTimer id (attempts + 1))
        p.resumeGuest id
        p.refire id left (attempts + 1)
    else return .fired id attempts

def fireTimer (p : Program σ) (id : Int32) : Host σ TimerOutcome := do
  Host.ensureNotExited
  if ← Host.isPending id then
    p.resumeGuest id
    p.refire id (← get).scheduler.maxRefires 0
  else return .canceled id

def fireReports (p : Program σ) : (count : Nat) → Host σ (List TimerOutcome)
  | 0 => return []
  | count + 1 => do
    if (← get).exitCode?.isSome then return []
    match ← Host.takeReport with
    | none => return []
    | some id =>
      let outcome ← p.fireTimer id
      return outcome :: (← p.fireReports count)

/-- Fires every timer that has reported. No timer reports meanwhile, as no time passes. -/
def serviceTimers (p : Program σ) : Host σ (List TimerOutcome) := do
  Host.ensureNotExited
  p.fireReports (← get).scheduler.reports.length

def nextTimer (p : Program σ) (horizon : Nat) : Host σ TimerWait := do
  Host.ensureNotExited
  let w ← get
  let (wait, scheduler) := w.scheduler.awaitReport horizon
  set { w with scheduler }
  match wait with
  | .report id => return .served (← p.fireTimer id)
  | .idle => return .idle
  | .expired => return .expired

def callGlobal (p : Program σ) (name : String) (args : List Value) : Host σ Outcome := do
  Host.ensureNotExited
  let global := (← get).global
  let f ← Host.fromHeap (·.get global name)
  if f.isFunction then p.calls.call f global args
  else throw (.missingExport name)

def invoke (p : Program σ) (f this : Value) (args : List Value) : Host σ Outcome := do
  Host.ensureNotExited
  p.calls.call f this args

/-- Fires timers until the guest exits, none is armed, or the time `deadline` has come. -/
def drive (p : Program σ) (deadline : Nat) : (rounds : Nat) → Host σ Unit
  | 0 => return
  | rounds + 1 => do
    let w ← get
    if w.exitCode?.isSome then return
    match ← p.nextTimer (deadline - w.scheduler.now) with
    | .served _ => p.drive deadline rounds
    | .idle | .expired => return

/-- Starts the guest unless it has been started, and serves its timers, at most `rounds` of them,
until it exits or `horizon` milliseconds have passed. -/
def runToEnd (p : Program σ) (horizon rounds : Nat) : Host σ RunEnd := do
  let deadline := (← get).scheduler.now + horizon
  if (← get).state = .notStarted then p.start
  p.drive deadline rounds
  let w ← get
  match w.exitCode? with
  | some code => return .exited code
  | none =>
    Host.elapse (deadline - w.scheduler.now)
    return .pending

end Program

def World.inspectSession {σ : Type} (w : World σ) : String :=
  "ModuleBridge \x7b state: " ++ w.inspect ++ " \x7d"

end TokenizerHost
