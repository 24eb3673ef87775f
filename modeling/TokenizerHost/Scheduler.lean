import TokenizerHost.Assoc
import TokenizerHost.Fault

/-!
# Guest state and timers

The guest runs only when it is entered, and may be entered again while it runs. Timers do not run
it: an armed timer sleeps until its deadline and then puts its report into a queue, and whoever
drives the guest takes reports from there. Deadlines are reached only as time passes.

Sleeping timers are kept in the order of their reports, by deadline and then by arming. A timer
that is cleared before its deadline never reports; a report in the queue stays there. Ids come round
again after 2³² armings, and a timer is then armed in the place of the one that has its id. The older
one can no longer be cleared, so it sleeps until its deadline and reports.
-/

namespace TokenizerHost

inductive GuestState where
  | notStarted
  | running
  | suspended
  | exited (code : Int32)
  deriving DecidableEq, Repr, Inhabited

namespace GuestState

def text : GuestState → String
  | .notStarted => "NotStarted"
  | .running => "Running"
  | .suspended => "Suspended"
  | .exited code => s!"Exited({code.toInt})"

def exitCode? : GuestState → Option Int32
  | .exited code => some code
  | _ => none

end GuestState

structure SleepingTimer where
  id : Int32
  deadline : Nat
  /-- Which arming this was, counted from the first. -/
  serial : Nat
  deriving DecidableEq, Repr

structure Scheduler where
  state : GuestState
  depth : Nat
  armed : Assoc Int32 Nat
  sleeping : List SleepingTimer
  /-- Reports not yet taken, the oldest first. -/
  reports : List Int32
  nextId : Int32
  nextSerial : Nat
  /-- How often a timer may be fired again before it is dropped. -/
  maxRefires : Nat
  now : Nat
  /-- What every exit signal shows, whenever it was taken. -/
  announced : Option Int32
  deriving Inhabited

inductive Wait where
  | report (id : Int32)
  | idle
  | expired
  deriving DecidableEq, Repr

namespace Scheduler

def defaultMaxRefires : Nat := 16

def new (maxRefires : Nat) : Scheduler where
  state := .notStarted
  depth := 0
  armed := .empty
  sleeping := []
  reports := []
  nextId := 1
  nextSerial := 0
  maxRefires := maxRefires
  now := 0
  announced := none

def exitCode? (s : Scheduler) : Option Int32 := s.state.exitCode?

def checkStartable (s : Scheduler) : Except Fault Unit :=
  match s.state with
  | .notStarted => .ok ()
  | .exited code => .error (.alreadyExited code)
  | .running | .suspended => .error .alreadyStarted

def enter (s : Scheduler) : Except Fault Scheduler :=
  match s.state with
  | .exited code => .error (.alreadyExited code)
  | _ => .ok { s with depth := s.depth + 1, state := .running }

def leave (s : Scheduler) : Scheduler :=
  let depth := s.depth - 1
  { s with depth, state := if depth = 0 ∧ s.state = .running then .suspended else s.state }

/-- Puts a timer behind those that report no later. -/
def insertSleeping (t : SleepingTimer) : List SleepingTimer → List SleepingTimer
  | [] => [t]
  | u :: rest => if u.deadline ≤ t.deadline then u :: insertSleeping t rest else t :: u :: rest

/-- Arms a timer; a negative delay counts as none. Gives its id. -/
def schedule (s : Scheduler) (delay : Int) : Int32 × Scheduler :=
  let timer : SleepingTimer := ⟨s.nextId, s.now + delay.toNat, s.nextSerial⟩
  (s.nextId,
    { s with
      armed := s.armed.insert s.nextId s.nextSerial
      sleeping := insertSleeping timer s.sleeping
      nextId := s.nextId + 1
      nextSerial := s.nextSerial + 1 })

def isPending (s : Scheduler) (id : Int32) : Bool := s.armed.contains id

def clear (s : Scheduler) (id : Int32) : Bool × Scheduler :=
  match s.armed.find? id with
  | some serial =>
    (true,
      { s with
        armed := s.armed.erase id
        sleeping := s.sleeping.filter fun t => t.serial != serial })
  | none => (false, s)

def pendingTimers (s : Scheduler) : Nat := s.armed.size

def advance (s : Scheduler) (millis : Nat) : Scheduler :=
  let now := s.now + millis
  let due := s.sleeping.takeWhile fun t => t.deadline ≤ now
  let later := s.sleeping.dropWhile fun t => t.deadline ≤ now
  { s with now, sleeping := later, reports := s.reports ++ due.map (·.id) }

/-- Lets time pass while somebody waits for it to be over. Whoever waits goes on before the timers
that are due at the end, so these report only when time passes again, be it for no time at all. -/
def elapse (s : Scheduler) (millis : Nat) : Scheduler :=
  let now := s.now + millis
  let due := s.sleeping.takeWhile fun t => t.deadline < now
  let later := s.sleeping.dropWhile fun t => t.deadline < now
  { s with now, sleeping := later, reports := s.reports ++ due.map (·.id) }

def takeReport (s : Scheduler) : Option Int32 × Scheduler :=
  match s.reports with
  | id :: reports => (some id, { s with reports })
  | [] => (none, s)

/-- Takes a report, letting time pass to the next deadline if there is none yet, but less than
`horizon`. -/
def awaitReport (s : Scheduler) (horizon : Nat) : Wait × Scheduler :=
  match s.takeReport with
  | (some id, s) => (.report id, s)
  | (none, s) =>
    if s.pendingTimers = 0 then (.idle, s)
    else
      match s.sleeping.head? with
      | some first =>
        if first.deadline < s.now + horizon then
          match (s.advance (first.deadline - s.now)).takeReport with
          | (some id, s) => (.report id, s)
          | (none, s) => (.idle, s)
        else (.expired, s.elapse horizon)
      | none => (.expired, s.elapse horizon)

/-- Ends the guest: the armed timers are cleared, the queue is emptied and the exit announced. A
timer whose id has been given again since is not among the armed ones, and sleeps on. -/
def exit (s : Scheduler) (code : Int32) : Scheduler :=
  { s with
    state := .exited code
    armed := .empty
    sleeping := s.sleeping.filter fun t => s.armed.find? t.id != some t.serial
    reports := []
    announced := some code }

end Scheduler

end TokenizerHost
