import TokenizerHost.Proofs.Run.Dispatch

set_option autoImplicit false

namespace TokenizerHost

open Host

variable {σ α : Type}

/-- Whether a request leaves handles, frames and the guest's life alone. -/
def Request.isMinor : Request → Bool
  | .exit _ | .finalize _ | .intern _ | .get _ _ | .index _ _ | .method _ _ _ | .invoke _ _
  | .construct _ _ | .prepareText _ => false
  | _ => true

def Request.setsTimer : Request → Bool
  | .schedule _ | .clear _ => true
  | _ => false

structure Calls.Keeping (R : World σ → World σ → Prop) (c : Calls σ) : Prop where
  call : ∀ f this args, Keeps R (c.call f this args)
  construct : ∀ ctor args, Keeps R (c.construct ctor args)
  resume : Keeps R c.resume

abbrev Calls.Proper (c : Calls σ) : Prop := c.Keeping Reaches

theorem Callee.keeps_run {R : World σ → World σ → Prop} {c : Calls σ} (hc : c.Keeping R)
    (callee : Callee) : Keeps R (callee.run c) := by
  cases callee with
  | function f this args => exact hc.call f this args
  | constructor ctor args => exact hc.construct ctor args

def Cause.IsInner : Cause → Prop
  | .callback _ | .embedded => True
  | .run | .timer _ => False

theorem Cause.IsInner.ne_run {cause : Cause} (h : cause.IsInner) : cause ≠ .run := by
  rintro rfl
  exact h

theorem Cause.IsInner.ne_timer {cause : Cause} (h : cause.IsInner) (id : Int32) :
    cause ≠ .timer id := by
  rintro rfl
  exact h

namespace Import

variable {c : Calls σ}

theorem keeps_callMethod {R : World σ → World σ → Prop} [Mild R] (hc : c.Keeping R)
    (receiver : Value) (name : String) (args : List Value) :
    Keeps R (callMethod c receiver name args) := by
  refine (keeps_fromHeap _).bind fun f => ?_
  split
  · exact hc.call f receiver args
  · exact keeps_throwTypeError _

theorem careful_storeOutcome (c : Calls σ) (offset : Nat) (outcome : Outcome) (w : World σ) :
    Careful (storeOutcome c offset outcome) w := by
  have hwrite : ∀ u : World σ, Careful (do
      let sp ← freshStackPointer c
      storeValue (sp + offset) outcome.value
      onMemory (Memory.setU8 (sp + offset + 8) (if outcome.isReturned then 1 else 0))) u := by
    intro u
    refine (Keeps.careful (keeps_freshStackPointer c) u).bind fun sp x _ => ?_
    exact (careful_storeValue _ _ x).bind fun _ y _ => Keeps.careful (keeps_onMemory _) y
  cases outcome with
  | returned v => exact hwrite w
  | thrown v =>
    refine (Keeps.careful ?_ w).bind fun _ u _ => hwrite u
    exact (keeps_textOf v).bind fun _ => keeps_pure _

theorem keeps_storeOutcome {R : World σ → World σ → Prop} [Booking R] (c : Calls σ) (offset : Nat)
    (outcome : Outcome) : Keeps R (storeOutcome c offset outcome) := by
  have hwrite : Keeps R (do
      let sp ← freshStackPointer c
      storeValue (sp + offset) outcome.value
      onMemory (Memory.setU8 (sp + offset + 8) (if outcome.isReturned then 1 else 0))) := by
    refine (keeps_freshStackPointer c).bind fun _ => ?_
    exact (keeps_storeValue _ _).bind fun _ => keeps_writing _
  cases outcome with
  | returned v => exact hwrite
  | thrown v => exact ((keeps_textOf v).bind fun _ => keeps_pure _).bind fun _ => hwrite

/-- A request that is minor and sets no timer makes minor changes only, none of them to timers. -/
theorem perform_slight {R : World σ → World σ → Prop} [Lenient R] (c : Calls σ) (sp : Nat)
    {r : Request} (hr : r.isMinor = true) (htimer : r.setsTimer = false) (w : World σ) :
    R w (after (perform c sp r w)) := by
  unfold perform
  cases r with
  | write stream bytes => exact ((keeps_print stream bytes).bind fun _ => keeps_pure _) w
  | resetMemoryView => exact keeps_pure _ w
  | nanotime => exact (keeps_get.bind fun _ => keeps_onMemory _) w
  | walltime => exact (keeps_get.bind fun _ => keeps_onMemory _) w
  | fillRandom target =>
    have hquiet : R w { w with entropy := (randomBytes w.entropy target.length).2 } :=
      Lenient.slight (.quiet ⟨rfl, rfl, rfl, rfl, rfl⟩) rfl rfl
    exact Lenient.trans hquiet (keeps_onMemory (Memory.write target.pointer
      (randomBytes w.entropy target.length).1.toByteArray) _)
  | set v key x => exact keeps_onHeap _ w
  | delete v key => exact keeps_onHeap _ w
  | setIndex v i x => exact keeps_onHeap _ w
  | length v => exact ((keeps_fromHeap _).bind fun _ => keeps_onMemory _) w
  | loadText bytes target => exact keeps_onMemory _ w
  | instanceOf v ctor => exact ((keeps_fromHeap _).bind fun _ => keeps_onMemory _) w
  | copyOut source =>
    cases source with
    | none => exact keeps_onMemory _ w
    | some source => exact ((keeps_onMemory _).bind fun _ => keeps_onMemory _) w
  | copyIn target =>
    cases target with
    | none => exact keeps_onMemory _ w
    | some target =>
      refine ((keeps_fromHeap _).bind fun _ => ?_) w
      exact (keeps_onHeap _).bind fun _ => keeps_onMemory _
  | schedule | clear => cases htimer
  | exit | finalize | intern | get | index | method | invoke | construct | prepareText => cases hr

/-- A request that is minor makes minor changes only. -/
theorem perform_minor {R : World σ → World σ → Prop} [Tolerant R] (c : Calls σ) (sp : Nat)
    {r : Request} (hr : r.isMinor = true) {w : World σ} (hrun : w.exitCode? = none) :
    R w (after (perform c sp r w)) := by
  by_cases htimer : r.setsTimer = true
  · unfold perform
    cases r with
    | schedule delay =>
      have hticks : R w { w with scheduler := (w.scheduler.schedule delay).2 } :=
        Tolerant.minor (.ticked w _ (Scheduler.ticks_schedule hrun delay))
      exact Tolerant.trans hticks
        (keeps_onMemory (Memory.setI32 (sp + 16) (w.scheduler.schedule delay).1) _)
    | clear id => exact keeps_clearTimer id w
    | _ => cases htimer
  · exact perform_slight c sp hr (Bool.eq_false_iff.2 htimer) w

theorem careful_perform (hc : c.Proper) (sp : Nat) (r : Request) {w : World σ}
    (hrun : w.exitCode? = none) : Careful (perform c sp r) w := by
  by_cases hr : r.isMinor = true
  · have hsteps : Reaches w (after (perform c sp r w)) := perform_minor c sp hr hrun
    refine ⟨fun a u hu => by rwa [hu] at hsteps, fun e u hu => ⟨u, ?_, .nothing u⟩⟩
    rwa [hu] at hsteps
  · unfold perform
    cases r with
    | exit code =>
      refine ⟨fun _ u hu => ?_, fun _ u hu => nomatch hu⟩
      cases hu
      exact .of_action (.exited w code hrun)
    | finalize id =>
      refine ⟨fun _ u hu => ?_, fun _ u hu => nomatch hu⟩
      cases hu
      exact .of_action (.finalized w id hrun)
    | intern text => exact careful_storeValue _ _ w
    | get v key =>
      refine (Keeps.careful (keeps_fromHeap _) w).bind fun x u _ => ?_
      refine (Keeps.careful (keeps_freshStackPointer c) u).bind fun sp y _ => ?_
      exact careful_storeValue _ x y
    | index v i =>
      exact (Keeps.careful (keeps_fromHeap _) w).bind fun x u _ => careful_storeValue _ x u
    | method receiver name args =>
      refine ((keeps_callMethod hc receiver name args).careful w).bind fun outcome u _ => ?_
      exact careful_storeOutcome c 56 outcome u
    | invoke f args =>
      refine ((hc.call f .undefined args).careful w).bind fun outcome u _ => ?_
      exact careful_storeOutcome c 40 outcome u
    | construct ctor args =>
      refine ((hc.construct ctor args).careful w).bind fun outcome u _ => ?_
      exact careful_storeOutcome c 40 outcome u
    | prepareText v =>
      refine (Keeps.careful (keeps_textOf v) w).bind fun text u _ => ?_
      refine (Keeps.careful (keeps_onHeap _) u).bind fun staged x _ => ?_
      exact (careful_storeValue _ staged x).bind fun _ y _ => Keeps.careful (keeps_onMemory _) y
    | write | resetMemoryView | nanotime | walltime | schedule | clear | fillRandom | set | delete
    | setIndex | length | loadText | instanceOf | copyOut | copyIn => exact absurd rfl hr

theorem careful_dispatch (hc : c.Proper) (i : Import) (sp : Nat) (w : World σ) :
    Careful (dispatch c i sp) w := by
  rcases dispatch_cases c i sp w with ⟨-, h⟩ | ⟨e, h, -⟩ | ⟨operands, r, hv, -, h⟩
  · refine ⟨fun a u hu => ?_, fun e u hu => ?_⟩
    · cases h.symm.trans hu
      exact .refl w
    · cases h.symm.trans hu
  · refine ⟨fun a u hu => ?_, fun e u hu => ?_⟩
    · cases h.symm.trans hu
    · cases h.symm.trans hu
      exact ⟨w, .refl w, .nothing w⟩
  · unfold Careful
    rw [h]
    exact careful_perform hc sp r (view_ok hv).2.1

end Import

namespace Host

variable {c : Calls σ}

theorem answer_ok (i : Import) {step : Host σ Unit} {w u : World σ} {a : Unit}
    (h : step w = .ok a u) : answer i step w = .ok (.ok ()) (u.record (.answered i none)) := by
  rw [answer, bind_ok (attempt_ok h)]
  rfl

theorem answer_error (i : Import) {step : Host σ Unit} {w u : World σ} {e : Fault}
    (h : step w = .error e u) :
    answer i step w = .ok (.error e) (u.record (.answered i (some e))) := by
  rw [answer, bind_ok (attempt_error h)]
  rfl

theorem steps_answer {step : Host σ Unit} (i : Import) (hs : ∀ w, Careful step w) :
    Steps (answer i step) := by
  intro w
  cases hw : step w with
  | ok a u =>
    rw [answer_ok i hw]
    exact ((hs w).1 a u hw).trans (.of_action (.answered u i))
  | error e u =>
    rw [answer_error i hw]
    obtain ⟨x, hx, hlost⟩ := (hs w).2 e u hw
    exact hx.trans (.of_action (.failed i e hlost))

end Host

/-- A relation between worlds that outlasts whatever guest code and host functions do. -/
class Lasting (R : World σ → World σ → Prop) : Prop extends Lenient R where
  own (w : World σ) (state : σ) (memory : Memory) : R w { w with own := state, memory }
  answer {c : Calls σ} (hc : c.Keeping R) (i : Import) (sp : Nat) :
    Keeps R (answer i (Import.dispatch c i sp))
  frame {c : Calls σ} {code : Code σ Unit} {cause : Cause} (hcause : cause.IsInner)
    (hcode : Keeps R (execute c code)) : Keeps R (Host.frame c cause code)

section Lasting

variable {R : World σ → World σ → Prop}

section Mild

variable [Mild R] {c : Calls σ}

theorem keeps_publishEvent (id : UInt32) (this : Value) (args : List Value) :
    Keeps R (publishEvent id this args : Host σ Value) := by
  refine (keeps_making fun h => Heap.keepsObjects_bind (Heap.keepsObjects_newElements _ h)
    fun _ => Heap.keepsObjects_newObjectWith _ _).bind fun event w => ?_
  exact Mild.publishes w event

/-- A guest callback is called as its frame is carried out. -/
theorem keeps_callGuest_of {resume : Code σ Unit} {id : UInt32}
    (hframe : Keeps R (frame c (.callback id) resume)) (this : Value) (args : List Value) :
    Keeps R (callGuest c resume id this args) :=
  (keeps_publishEvent id this args).bind fun _ => hframe.bind fun _ =>
    (keeps_fromHeap _).bind fun _ => keeps_pure _

namespace Program

/-- A function is called as native functions and frames of callbacks are carried out. -/
theorem keeps_callWith_of (p : Program σ)
    (hnative : ∀ n this args, Keeps R (execute c (Builtin.code p.functions n this args)))
    (hframe : ∀ id, Keeps R (frame c (.callback id) p.resume)) (f this : Value)
    (args : List Value) : Keeps R (p.callWith c f this args) := by
  refine (keeps_fromHeap _).bind fun fn => ?_
  split
  · exact keeps_throwTypeError _
  · split
    · exact hnative _ _ _
    · exact keeps_throwTypeError _
    · exact Host.keeps_construct _ args
    · exact keeps_callGuest_of (hframe _) this args

theorem keeps_constructWith_of (p : Program σ)
    (hnative : ∀ n this args, Keeps R (execute c (Builtin.code p.functions n this args)))
    (ctor : Value) (args : List Value) : Keeps R (p.constructWith c ctor args) := by
  refine (keeps_fromHeap _).bind fun fn => ?_
  split
  · exact keeps_throwTypeError _
  · split
    · exact Host.keeps_construct _ args
    · refine (keeps_making (Heap.keepsObjects_newObject _)).bind fun this => ?_
      refine (hnative _ _ _).bind fun outcome => ?_
      cases outcome with
      | returned v => exact keeps_pure _
      | thrown v => exact keeps_pure _
    · exact keeps_throwTypeError _

end Program

end Mild

variable [Lasting R] {c : Calls σ}

theorem keeps_own (state : σ) (memory : Memory) :
    Keeps R (modify fun w : World σ => { w with own := state, memory }) :=
  keeps_modify fun w => Lasting.own w state memory

theorem keeps_execute (hc : c.Keeping R) (code : Code σ α) : Keeps R (execute c code) := by
  induction code with
  | done a => exact keeps_pure a
  | fault e => exact keeps_throw e
  | observe next ih => exact fun w => ih w w
  | own s m next ih => exact (keeps_own s m).bind fun _ => ih
  | heap f next ih => exact (keeps_onHeap f).bind ih
  | print stream bytes next ih => exact (keeps_print stream bytes).bind ih
  | note n next ih => exact (keeps_notify n).bind fun _ => ih
  | request i sp next ih => exact (Lasting.answer hc i sp).bind ih
  | call callee next ih => exact (callee.keeps_run hc).attempt.bind ih
  | resume next ih => exact hc.resume.attempt.bind ih

namespace Program

theorem keeps_callWith (p : Program σ) (hc : c.Keeping R) (f this : Value) (args : List Value) :
    Keeps R (p.callWith c f this args) :=
  p.keeps_callWith_of (fun _ _ _ => keeps_execute hc _)
    (fun _ => Lasting.frame trivial (keeps_execute hc p.resume)) f this args

theorem keeps_constructWith (p : Program σ) (hc : c.Keeping R) (ctor : Value) (args : List Value) :
    Keeps R (p.constructWith c ctor args) :=
  p.keeps_constructWith_of (fun _ _ _ => keeps_execute hc _) ctor args

theorem keeping_callsWithin (p : Program σ) (depth : Nat) : (p.callsWithin depth).Keeping R := by
  induction depth with
  | zero => exact ⟨fun _ _ _ => keeps_throw _, fun _ _ => keeps_throw _, keeps_throw _⟩
  | succ depth ih =>
    exact ⟨p.keeps_callWith ih, p.keeps_constructWith ih,
      Lasting.frame trivial (keeps_execute ih p.resume)⟩

theorem keeping_calls (p : Program σ) : p.calls.Keeping R := p.keeping_callsWithin maxDepth

end Program

end Lasting

namespace Host

variable {c : Calls σ}

theorem enterFrame_ok (cause : Cause) {w : World σ} {s : Scheduler}
    (h : w.scheduler.enter = .ok s) : enterFrame cause w =
      .ok () (({ w with scheduler := s }.record .entered).mark (.entered cause)) := by
  rw [enterFrame, get_bind, h]
  rfl

theorem enterFrame_error (cause : Cause) {w : World σ} {e : Fault}
    (h : w.scheduler.enter = .error e) : enterFrame cause w = .error e w := by
  rw [enterFrame, get_bind, h]
  rfl

theorem steps_enterFrame (cause : Cause) : Steps (enterFrame cause : Host σ Unit) := by
  intro w
  cases hs : w.scheduler.enter with
  | ok s =>
    rw [enterFrame_ok cause hs]
    exact (Reaches.of_action (.entered w s hs)).trans
      (.of_action (.minor (.quiet ⟨rfl, rfl, rfl, rfl, rfl⟩)))
  | error e =>
    rw [enterFrame_error cause hs]
    exact .refl w

theorem steps_leaveFrame : Steps (leaveFrame : Host σ Unit) := fun w => .of_action (.left w)

theorem steps_frame {code : Code σ Unit} (hcode : Steps (execute c code)) (cause : Cause) :
    Steps (frame c cause code) :=
  keeps_ensureNotExited.bind fun _ => (steps_enterFrame cause).bind fun _ =>
    hcode.attempt.bind fun _ => steps_leaveFrame.bind fun _ => keeps_ofExcept _

end Host

instance : Lasting (Reaches : World σ → World σ → Prop) where
  own w s m := .of_action (.owned w s m)
  answer hc i sp := steps_answer i (Import.careful_dispatch hc i sp)
  frame _ hcode := steps_frame hcode _

end TokenizerHost
