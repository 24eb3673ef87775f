import TokenizerHost.Proofs.Run.Calls

set_option autoImplicit false

/-!
# The moments of a run

A claim about every state of a guest is a claim about every `Moment`: a world together with what is
carried out next, be it a frame of the guest, a native function, a call, or the embedding program.
The rules follow `execute`, `dispatch`, `callWith` and `constructWith` into every nested frame.
The embedding program may enter the guest in any way (`Drive`) and make minor changes, in any order.
-/

namespace TokenizerHost

open Host

variable {σ α : Type}

namespace Code

def advance (c : Calls σ) : Code σ α → Host σ (Code σ α)
  | .done a => pure (.done a)
  | .fault e => throw e
  | .observe next => fun w => .ok (next w) w
  | .own state memory next => do
    modify fun w => { w with own := state, memory }
    return next
  | .heap f next => do return next (← Host.onHeap f)
  | .print stream bytes next => do return next (← Host.print stream bytes)
  | .note n next => do
    Host.notify n
    return next
  | .request i sp next => do return next (← Host.answer i (Import.dispatch c i sp))
  | .call callee next => do return next (← Host.attempt (callee.run c))
  | .resume next => do return next (← Host.attempt c.resume)

def callee? : Code σ α → World σ → Option Callee
  | .request i sp _, w => i.callee? sp w
  | .call callee _, _ => some callee
  | _, _ => none

end Code

inductive Drive where
  | run (a : ArgumentTable)
  | resume (id : Int32)
  | call (f this : Value) (args : List Value)

def Drive.step (p : Program σ) : Drive → Host σ Unit
  | .run a => Host.frame p.calls .run (p.run a)
  | .resume id => p.resumeGuest id
  | .call f this args => discard (p.calls.call f this args)

/-- What is carried out next; code and calls, with how deep further calls may nest. -/
inductive Control (σ : Type) : Type 1 where
  | host
  | code {α : Type} (depth : Nat) (code : Code σ α)
  | call (depth : Nat) (callee : Callee)
  | back

inductive Moment (p : Program σ) (start : World σ) : Control σ → World σ → Prop where
  | start : Moment p start .host start
  | minor {w u : World σ} (h : Moment p start .host w) (hminor : Minor w u) :
      Moment p start .host u
  | drive {w : World σ} (h : Moment p start .host w) (d : Drive) :
      Moment p start .host (after (d.step p w))
  | runs {w u : World σ} (h : Moment p start .host w) (a : ArgumentTable)
      (henter : enterFrame .run w = .ok () u) :
      Moment p start (.code Program.maxDepth (p.run a)) u
  | resumes {w u : World σ} (h : Moment p start .host w) (id : Int32)
      (henter : enterFrame (.timer id) w = .ok () u) :
      Moment p start (.code Program.maxDepth p.resume) u
  | invokes {w : World σ} (h : Moment p start .host w) (callee : Callee) :
      Moment p start (.call Program.maxDepth callee) w
  | advances {α : Type} {w u : World σ} {depth : Nat} {code rest : Code σ α}
      (h : Moment p start (.code depth code) w)
      (hstep : code.advance (p.callsWithin depth) w = .ok rest u) :
      Moment p start (.code depth rest) u
  | calls {α : Type} {w : World σ} {depth : Nat} {code : Code σ α} {callee : Callee}
      (h : Moment p start (.code depth code) w) (hcallee : code.callee? w = some callee) :
      Moment p start (.call depth callee) w
  | native {w : World σ} {depth : Nat} {f this : Value} {args : List Value} {fn : HostFunction}
      {n : Native} (h : Moment p start (.call (depth + 1) (.function f this args)) w)
      (hfn : w.heap.function? f = some fn) (hkind : fn.kind = .native n) :
      Moment p start (.code depth (Builtin.code p.functions n this args)) w
  | callback {w x u : World σ} {depth : Nat} {f this event : Value} {args : List Value}
      {fn : HostFunction} {id : UInt32}
      (h : Moment p start (.call (depth + 1) (.function f this args)) w)
      (hfn : w.heap.function? f = some fn) (hkind : fn.kind = .guestCallback id)
      (hevent : publishEvent id this args w = .ok event x)
      (henter : enterFrame (.callback id) x = .ok () u) :
      Moment p start (.code depth p.resume) u
  | embedded {α : Type} {w u : World σ} {depth : Nat} {next : Except Fault Unit → Code σ α}
      (h : Moment p start (.code (depth + 1) (.resume next)) w)
      (henter : enterFrame .embedded w = .ok () u) : Moment p start (.code depth p.resume) u
  | makes {w u : World σ} {depth : Nat} {ctor this : Value} {args : List Value} {fn : HostFunction}
      {n : Native} (h : Moment p start (.call (depth + 1) (.constructor ctor args)) w)
      (hfn : w.heap.function? ctor = some fn) (hkind : fn.kind = .native n)
      (hthis : onHeap (Heap.newObject .object) w = .ok this u) :
      Moment p start (.code depth (Builtin.code p.functions n this args)) u
  | returns {w : World σ} {depth : Nat} {callee : Callee}
      (h : Moment p start (.call depth callee) w) :
      Moment p start .back (after (callee.run (p.callsWithin depth) w))

/-! ## Every moment is reached by actions -/

theorem keeps_advance {R : World σ → World σ → Prop} [Lasting R] {c : Calls σ} (hc : c.Keeping R)
    (code : Code σ α) : Keeps R (code.advance c) := by
  cases code with
  | done a => exact keeps_pure _
  | fault e => exact keeps_throw e
  | observe next => exact fun w => Lenient.refl w
  | own s m next => exact (keeps_own s m).bind fun _ => keeps_pure _
  | heap f next => exact (keeps_onHeap f).bind fun _ => keeps_pure _
  | print stream bytes next => exact (keeps_print stream bytes).bind fun _ => keeps_pure _
  | note n next => exact (keeps_notify n).bind fun _ => keeps_pure _
  | request i sp next => exact (Lasting.answer hc i sp).bind fun _ => keeps_pure _
  | call callee next => exact (callee.keeps_run hc).attempt.bind fun _ => keeps_pure _
  | resume next => exact hc.resume.attempt.bind fun _ => keeps_pure _

theorem after_discard (step : Host σ α) (w : World σ) :
    after ((discard step : Host σ Unit) w) = after (step w) := by
  cases h : step w with
  | ok a u =>
    rw [discard_ok h]
    rfl
  | error e u =>
    rw [discard_error h]
    rfl

theorem Host.Keeps.discard {R : World σ → World σ → Prop} {step : Host σ α} (h : Keeps R step) :
    Keeps R (Functor.discard step : Host σ Unit) := fun w => by
  rw [after_discard]
  exact h w

theorem Drive.steps_step (p : Program σ) (d : Drive) : Steps (d.step p) := by
  cases d with
  | run a => exact steps_frame (keeps_execute p.keeping_calls _) .run
  | resume id => exact steps_frame (keeps_execute p.keeping_calls _) (.timer id)
  | call f this args => exact (p.keeping_calls.call f this args).discard

theorem Moment.reaches {p : Program σ} {start w : World σ} {control : Control σ}
    (h : Moment p start control w) : Reaches start w := by
  induction h with
  | start => exact .refl start
  | minor _ hminor ih => exact ih.trans (.of_action (.minor hminor))
  | drive _ d ih => exact ih.trans (d.steps_step p _)
  | runs _ a henter ih => exact ih.trans ((steps_enterFrame _).ok henter)
  | resumes _ id henter ih => exact ih.trans ((steps_enterFrame _).ok henter)
  | invokes _ callee ih => exact ih
  | advances _ hstep ih =>
    exact ih.trans (Keeps.ok (R := Reaches) (keeps_advance (p.keeping_callsWithin _) _) hstep)
  | calls _ _ ih => exact ih
  | native _ _ _ ih => exact ih
  | callback _ _ _ hevent henter ih =>
    have hpublish : Reaches _ _ := Keeps.ok (R := Reaches) (keeps_publishEvent _ _ _) hevent
    exact ih.trans (hpublish.trans ((steps_enterFrame _).ok henter))
  | embedded _ henter ih => exact ih.trans ((steps_enterFrame _).ok henter)
  | makes _ _ _ hthis ih => exact ih.trans (Keeps.ok (R := Reaches) (keeps_onHeap _) hthis)
  | returns _ ih => exact ih.trans (Callee.keeps_run (p.keeping_callsWithin _) _ _)

/-! ## Frames run through their moments -/

theorem execute_eq_advance (c : Calls σ) (code : Code σ α) :
    execute c code = code.advance c >>= execute c := by
  cases code with
  | done a => rfl
  | fault e => rfl
  | observe next => rfl
  | own s m next => rfl
  | heap f next => rfl
  | print stream bytes next => rfl
  | note n next => rfl
  | request i sp next =>
    simp only [execute, Code.advance, bind_assoc, pure_bind]
  | call callee next =>
    simp only [execute, Code.advance, bind_assoc, pure_bind]
  | resume next =>
    simp only [execute, Code.advance, bind_assoc, pure_bind]

theorem execute_of_advance {c : Calls σ} {code rest : Code σ α} {w u : World σ}
    (h : code.advance c w = .ok rest u) : execute c code w = execute c rest u := by
  rw [execute_eq_advance]
  exact bind_ok h

theorem exists_attempt_ok (step : Host σ α) (w : World σ) : ∃ r u, attempt step w = .ok r u := by
  cases h : step w with
  | ok a u => exact ⟨_, _, attempt_ok h⟩
  | error e u => exact ⟨_, _, attempt_error h⟩

theorem exists_answer_ok (i : Import) (step : Host σ Unit) (w : World σ) :
    ∃ r u, answer i step w = .ok r u := by
  cases h : step w with
  | ok a u => exact ⟨_, _, answer_ok i h⟩
  | error e u => exact ⟨_, _, answer_error i h⟩

def Code.ending : EStateM.Result Fault (World σ) α → Code σ α
  | .ok a _ => .done a
  | .error e _ => .fault e

/-- What each node of code leads on to holds where the code ends. -/
theorem executes_through {c : Calls σ} {M : Code σ α → World σ → Prop}
    (hstep : ∀ code rest w u, M code w → code.advance c w = .ok rest u → M rest u)
    (code : Code σ α) (w : World σ) (h : M code w) :
    M (.ending (execute c code w)) (after (execute c code w)) := by
  induction code generalizing w with
  | done a => exact h
  | fault e => exact h
  | observe next ih => exact ih w w (hstep _ _ _ _ h rfl)
  | own s m next ih => exact ih _ (hstep _ _ _ _ h rfl)
  | heap f next ih => exact ih _ _ (hstep _ _ _ _ h rfl)
  | print stream bytes next ih => exact ih _ _ (hstep _ _ _ _ h rfl)
  | note n next ih => exact ih _ (hstep _ _ _ _ h rfl)
  | request i sp next ih =>
    obtain ⟨r, u, hr⟩ := exists_answer_ok i (Import.dispatch c i sp) w
    have hnext : (Code.request i sp next).advance c w = .ok (next r) u := bind_ok hr
    rw [execute_of_advance hnext]
    exact ih r u (hstep _ _ _ _ h hnext)
  | call callee next ih =>
    obtain ⟨r, u, hr⟩ := exists_attempt_ok (callee.run c) w
    have hnext : (Code.call callee next).advance c w = .ok (next r) u := bind_ok hr
    rw [execute_of_advance hnext]
    exact ih r u (hstep _ _ _ _ h hnext)
  | resume next ih =>
    obtain ⟨r, u, hr⟩ := exists_attempt_ok c.resume w
    have hnext : (Code.resume next).advance c w = .ok (next r) u := bind_ok hr
    rw [execute_of_advance hnext]
    exact ih r u (hstep _ _ _ _ h hnext)

/-- Code comes to its end through moments, whatever that end is. -/
theorem Moment.executes {p : Program σ} {start w : World σ} {depth : Nat} {code : Code σ α}
    (h : Moment p start (.code depth code) w) :
    Moment p start (.code depth (.ending (execute (p.callsWithin depth) code w)))
      (after (execute (p.callsWithin depth) code w)) :=
  executes_through (M := fun code w => Moment p start (.code depth code) w)
    (fun _ _ _ _ hcode hnext => hcode.advances hnext) code w h

end TokenizerHost
