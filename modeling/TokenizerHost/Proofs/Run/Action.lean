import Mathlib.Logic.Relation
import TokenizerHost.Proofs.Heap.Objects
import TokenizerHost.Proofs.Run.Ids
import TokenizerHost.World

set_option autoImplicit false

/-!
# What a step of the host can do

`Action` lists the changes that a run can make to a world, each with the guard under which it is
made. A run is a chain of them (`Reaches`), so what every action keeps, every run keeps
(`Reaches.keeps`). `Minor` are the actions that most imports confine themselves to.

An import that faults may have stored a value whose slot was never written (`Lost`). That world is
seen by nobody before the fault is answered, which is one action together with it.
-/

namespace TokenizerHost

namespace Scheduler

structure Ticks (s s' : Scheduler) : Prop where
  state : s'.state = s.state
  announced : s'.announced = s.announced
  tended : s.Tended → s'.Tended

theorem ticks_schedule {s : Scheduler} (h : s.exitCode? = none) (delay : Int) :
    s.Ticks (s.schedule delay).2 :=
  ⟨rfl, rfl, fun htended => htended.schedule h delay⟩

theorem ticks_clear (s : Scheduler) (id : Int32) : s.Ticks (s.clear id).2 := by
  refine ⟨?_, ?_, fun htended => htended.clear id⟩
  all_goals
    unfold clear
    split <;> rfl

theorem Ages.ticks {s s' : Scheduler} (h : s.Ages s') : s.Ticks s' :=
  ⟨h.state, h.announced, fun htended => htended.ages h⟩

end Scheduler

variable {σ : Type}

namespace World

/-- Nothing changes that is booked: no handle, no timer, no frame, no output, no guest memory. -/
structure SameBooks (w u : World σ) : Prop where
  memory : u.memory = w.memory
  table : u.table = w.table
  scheduler : u.scheduler = w.scheduler
  console : u.console = w.console
  journal : u.journal = w.journal

def stored (w : World σ) (t : ValueTable) (v : Value) (m : Memory) : World σ :=
  { w.storing t v with memory := m }.record .wrote

end World

/-- What an import that faults leaves behind. -/
inductive Lost : World σ → World σ → Prop where
  | nothing (w : World σ) : Lost w w
  | slot (w : World σ) (t : ValueTable) (v : Value) (m : Memory) (hrun : w.exitCode? = none)
      (ht : w.table = some t) : Lost w (w.stored t v m)

inductive Minor : World σ → World σ → Prop where
  | quiet {w u : World σ} (h : w.SameBooks u) : Minor w u
  | printed (w : World σ) (stream : Int) (console : Console) :
      Minor w ({ w with console }.record (.printed stream))
  | wrote (w : World σ) (memory : Memory) (hrun : w.exitCode? = none) :
      Minor w ({ w with memory }.record .wrote)
  | ticked (w : World σ) (s : Scheduler) (h : w.scheduler.Ticks s) :
      Minor w { w with scheduler := s }

inductive Action : World σ → World σ → Prop where
  | minor {w u : World σ} (h : Minor w u) : Action w u
  | owned (w : World σ) (state : σ) (memory : Memory) :
      Action w { w with own := state, memory }
  | handed (w : World σ) (t : ValueTable) (v : Value) (m : Memory) (address : Nat)
      (hrun : w.exitCode? = none) (ht : w.table = some t) :
      Action w ((w.stored t v m).record (.handed address (t.store v).1))
  | finalized (w : World σ) (id : UInt32) (hrun : w.exitCode? = none) :
      Action w ({ w with table := w.table.map (ValueTable.release · id) }.record (.finalized id))
  | answered (w : World σ) (i : Import) : Action w (w.record (.answered i none))
  | failed {w u : World σ} (i : Import) (e : Fault) (h : Lost w u) :
      Action w (u.record (.answered i (some e)))
  | entered (w : World σ) (s : Scheduler) (h : w.scheduler.enter = .ok s) :
      Action w ({ w with scheduler := s }.record .entered)
  | left (w : World σ) : Action w { w with scheduler := w.scheduler.leave }
  | exited (w : World σ) (code : Int32) (hrun : w.exitCode? = none) : Action w (w.exit code)

class Tolerant (R : World σ → World σ → Prop) : Prop where
  refl (w : World σ) : R w w
  trans {w u x : World σ} : R w u → R u x → R w x
  minor {w u : World σ} : Minor w u → R w u

/-- A relation between worlds that allows any chain of minor changes that leave frames and timers
as they are. -/
class Lenient (R : World σ → World σ → Prop) : Prop where
  refl (w : World σ) : R w w
  trans {w u x : World σ} : R w u → R u x → R w x
  slight {w u : World σ} : Minor w u → u.scheduler = w.scheduler → u.timeline = w.timeline → R w u

class Chains (R : World σ → World σ → Prop) : Prop where
  refl (w : World σ) : R w w
  trans {w u x : World σ} : R w u → R u x → R w x

/-- A relation between worlds that allows what the host does of its own accord while code is carried
out: it makes values, takes output and gives notice. -/
class Gentle (R : World σ → World σ → Prop) : Prop extends Chains R where
  makes {w : World σ} {heap : Heap} (h : w.heap.KeepsObjects heap) : R w { w with heap }
  prints (w : World σ) (stream : Int) (console : Console) :
    R w ({ w with console }.record (.printed stream))
  notifies (w : World σ) (n : Notice) : R w (w.notify n)

/-- A relation between worlds that allows what the host does of its own accord while a function is
called: it also puts an event on the bridge object. -/
class Mild (R : World σ → World σ → Prop) : Prop extends Gentle R where
  publishes (w : World σ) (event : Value) :
    R w { w with heap := w.heap.set w.bridge "_pendingEvent" event }

instance (R : World σ → World σ → Prop) [Lenient R] : Mild R where
  refl := Lenient.refl
  trans := Lenient.trans
  makes _ := Lenient.slight (.quiet ⟨rfl, rfl, rfl, rfl, rfl⟩) rfl rfl
  publishes _ _ := Lenient.slight (.quiet ⟨rfl, rfl, rfl, rfl, rfl⟩) rfl rfl
  prints w stream console := Lenient.slight (.printed w stream console) rfl rfl
  notifies _ _ := Lenient.slight (.quiet ⟨rfl, rfl, rfl, rfl, rfl⟩) rfl rfl

/-- A relation between worlds that allows whatever becomes of handles, guest memory and the journal
while heap, frames and timers are as they were. -/
class Booking (R : World σ → World σ → Prop) : Prop extends Chains R where
  books {w u : World σ} (hheap : u.heap = w.heap) (hbridge : u.bridge = w.bridge)
    (hscheduler : u.scheduler = w.scheduler) (htimeline : u.timeline = w.timeline) : R w u

structure Aside (w u : World σ) : Prop where
  scheduler : u.scheduler = w.scheduler
  timeline : u.timeline = w.timeline

instance : Lenient (Aside : World σ → World σ → Prop) where
  refl _ := ⟨rfl, rfl⟩
  trans hwu hux := ⟨hux.scheduler.trans hwu.scheduler, hux.timeline.trans hwu.timeline⟩
  slight _ hscheduler htimeline := ⟨hscheduler, htimeline⟩

instance : Booking (Aside : World σ → World σ → Prop) where
  refl := Lenient.refl
  trans := Lenient.trans
  books _ _ hscheduler htimeline := ⟨hscheduler, htimeline⟩

instance (R : World σ → World σ → Prop) [Tolerant R] : Lenient R where
  refl := Tolerant.refl
  trans := Tolerant.trans
  slight h _ _ := Tolerant.minor h

def Reaches : World σ → World σ → Prop := Relation.ReflTransGen Action

instance : Tolerant (Reaches : World σ → World σ → Prop) where
  refl _ := Relation.ReflTransGen.refl
  trans := Relation.ReflTransGen.trans
  minor h := Relation.ReflTransGen.single (.minor h)

namespace Reaches

variable {w u x : World σ}

theorem refl (w : World σ) : Reaches w w := Relation.ReflTransGen.refl

theorem trans (hwu : Reaches w u) (hux : Reaches u x) : Reaches w x :=
  Relation.ReflTransGen.trans hwu hux

theorem of_action (h : Action w u) : Reaches w u := Relation.ReflTransGen.single h

theorem keeps {P : World σ → Prop} (hstep : ∀ w u : World σ, Action w u → P w → P u)
    (h : Reaches w u) (hw : P w) : P u := by
  induction h with
  | refl => exact hw
  | tail _ hlast ih => exact hstep _ _ hlast ih

end Reaches

end TokenizerHost
