import TokenizerHost.Proofs.Run.Session

set_option autoImplicit false

/-!
# Situations of a session

A `Turn` is what a session does between two of its own worlds: time passes, the entry point is run
if it has not been, an armed timer is fired, a function is called. Every call of the embedding
program is a chain of turns (`HostCall.driven`).

A `Situation` is a world that such a session comes to, at rest or inside a frame, together with what
its active frames were entered for. An invariant of frames that turns keep holds in every situation
(`Situation.holds`). All the embedding program's worlds are moments as well (`Driven.moment`).
-/

namespace TokenizerHost

open Host

variable {σ α : Type}

namespace Scheduler

inductive Waits (s : Scheduler) : Scheduler → Prop where
  | advances (millis : Nat) : Waits s (s.advance millis)
  | elapses (millis : Nat) : Waits s (s.elapse millis)
  | takes {id : Int32} {rest : List Int32} (h : s.reports = id :: rest) :
      Waits s { s with reports := rest }

theorem Waits.keeps_frames {s s' : Scheduler} (h : s.Waits s') :
    s'.depth = s.depth ∧ s'.state = s.state ∧ s'.armed = s.armed := by
  cases h with
  | advances millis => exact ⟨rfl, rfl, rfl⟩
  | elapses millis => exact ⟨rfl, rfl, rfl⟩
  | takes h => exact ⟨rfl, rfl, rfl⟩

theorem Waits.ages {s s' : Scheduler} (h : s.Waits s') : s.Ages s' := by
  cases h with
  | advances millis => exact ages_advance s millis
  | elapses millis => exact ages_elapse s millis
  | takes h => exact ages_take h

/-- Waiting takes the oldest report, or lets time pass and then takes the oldest, or lets all the
time pass. -/
theorem awaitReport_cases (s : Scheduler) (horizon : Nat) :
    (∃ id rest, s.reports = id :: rest ∧
      s.awaitReport horizon = (.report id, { s with reports := rest })) ∨
    (s.reports = [] ∧ s.pendingTimers = 0 ∧ s.awaitReport horizon = (.idle, s)) ∨
    (∃ millis id rest, s.reports = [] ∧ (s.advance millis).reports = id :: rest ∧
      s.awaitReport horizon = (.report id, { s.advance millis with reports := rest })) ∨
    (∃ millis, s.reports = [] ∧ s.awaitReport horizon = (.idle, s.advance millis)) ∨
    (s.reports = [] ∧ s.pendingTimers ≠ 0 ∧
      (∀ first, s.sleeping.head? = some first → s.now + horizon ≤ first.deadline) ∧
      s.awaitReport horizon = (.expired, s.elapse horizon)) := by
  cases hreports : s.reports with
  | cons id rest =>
    refine .inl ⟨id, rest, rfl, ?_⟩
    rw [awaitReport, takeReport_cons hreports]
  | nil =>
    refine .inr ?_
    rw [awaitReport, takeReport_nil hreports]
    by_cases hpending : s.pendingTimers = 0
    · exact .inl ⟨rfl, hpending, if_pos hpending⟩
    · refine .inr ?_
      dsimp only
      rw [if_neg hpending]
      cases hfirst : s.sleeping.head? with
      | none => exact .inr (.inr ⟨rfl, hpending, (fun first h => by cases h), rfl⟩)
      | some first =>
        by_cases hdue : first.deadline < s.now + horizon
        · dsimp only
          rw [if_pos hdue]
          cases hlate : (s.advance (first.deadline - s.now)).reports with
          | nil => exact .inr (.inl ⟨_, rfl, by rw [takeReport_nil hlate]⟩)
          | cons id rest => exact .inl ⟨_, id, rest, rfl, hlate, by rw [takeReport_cons hlate]⟩
        · refine .inr (.inr ⟨rfl, hpending, fun other hother => ?_, if_neg hdue⟩)
          cases hother
          exact Nat.le_of_not_lt hdue

theorem waits_awaitReport (s : Scheduler) (horizon : Nat) :
    Relation.ReflTransGen Waits s (s.awaitReport horizon).2 := by
  rcases awaitReport_cases s horizon with
    ⟨id, rest, h, heq⟩ | ⟨-, -, heq⟩ | ⟨millis, id, rest, -, h, heq⟩ | ⟨millis, -, heq⟩ |
      ⟨-, -, -, heq⟩
  · rw [heq]
    exact .single (.takes h)
  · rw [heq]
  · rw [heq]
    exact .tail (.single (.advances millis)) (.takes h)
  · rw [heq]
    exact .single (.advances millis)
  · rw [heq]
    exact .single (.elapses horizon)

end Scheduler

/-- What the embedding program makes of the guest in one go; functions are called only where it
may call them. -/
inductive Turn (p : Program σ) (calling : Prop) : World σ → World σ → Prop where
  | slight {w u : World σ} (h : Minor w u) (haside : Aside w u) : Turn p calling w u
  | waits {w : World σ} {s : Scheduler} (h : w.scheduler.Waits s) :
      Turn p calling w { w with scheduler := s }
  | drops {w : World σ} (id : Int32) : Turn p calling w (w.clearTimer id)
  | runs {w : World σ} (a : ArgumentTable) (h : w.state = .notStarted) :
      Turn p calling w (after (frame p.calls .run (p.run a) w))
  | fires {w : World σ} (id : Int32) (h : w.scheduler.isPending id = true) :
      Turn p calling w (after (p.resumeGuest id w))
  | calls {w : World σ} (h : calling) (f this : Value) (args : List Value) :
      Turn p calling w (after (p.calls.call f this args w))

def Driven (p : Program σ) (calling : Prop) : World σ → World σ → Prop :=
  Relation.ReflTransGen (Turn p calling)

section Driven

variable {p : Program σ} {calling : Prop}

theorem Driven.of_turn {w u : World σ} (h : Turn p calling w u) : Driven p calling w u :=
  Relation.ReflTransGen.single h

instance : Lenient (Driven p calling) where
  refl _ := Relation.ReflTransGen.refl
  trans := Relation.ReflTransGen.trans
  slight h hscheduler htimeline := .of_turn (.slight h ⟨hscheduler, htimeline⟩)

theorem Driven.mono {w u : World σ} {also : Prop} (h : Driven p calling w u)
    (himp : calling → also) : Driven p also w u := by
  induction h with
  | refl => exact .refl
  | tail _ hlast ih =>
    refine ih.tail ?_
    cases hlast with
    | slight h haside => exact .slight h haside
    | waits h => exact .waits h
    | drops id => exact .drops id
    | runs a h => exact .runs a h
    | fires id h => exact .fires id h
    | calls h f this args => exact .calls (himp h) f this args

theorem Driven.of_waits {w : World σ} {s : Scheduler}
    (h : Relation.ReflTransGen Scheduler.Waits w.scheduler s) :
    Driven p calling w { w with scheduler := s } := by
  induction h with
  | refl => exact .refl
  | tail _ hlast ih => exact ih.tail (.waits hlast)

theorem Driven.keeps {P : World σ → Prop} (hturn : ∀ w u : World σ, Turn p calling w u → P w → P u)
    {w u : World σ} (h : Driven p calling w u) (hw : P w) : P u := by
  induction h with
  | refl => exact hw
  | tail _ hlast ih => exact hturn _ _ hlast ih

end Driven

namespace Program

variable (p : Program σ) {calling : Prop}

theorem driven_start : Keeps (Driven p calling) p.start := by
  intro w
  have hargued : w.state = .notStarted → ∀ m, Driven p calling w (argued w m) := fun hstate m =>
    Lenient.slight (.wrote w m (exitCode?_of_notStarted hstate)) rfl rfl
  rcases p.start_cases w with ⟨e, -, h⟩ | ⟨hstate, e, m, -, h⟩ | ⟨hstate, a, m, -, h⟩
  · rw [h]
    exact Lenient.refl w
  · rw [h]
    exact hargued hstate m
  -- the arguments are written before the frame is entered, which is a turn of its own
  · rw [h]
    exact (hargued hstate m).tail (.runs a hstate)

theorem driven_refire (id : Int32) (left attempts : Nat) :
    Keeps (Driven p calling) (p.refire id left attempts) := by
  have hnotify : ∀ (w : World σ) (n : Notice), Driven p calling w (w.notify n) :=
    fun w n => keeps_notify n w
  induction left generalizing attempts with
  | zero =>
    intro w
    cases hpending : w.scheduler.isPending id with
    | false =>
      rw [refire_idle p hpending]
      exact Lenient.refl w
    | true =>
      rw [refire_exhausted p hpending]
      exact (hnotify w _).tail (.drops id)
  | succ left ih =>
    intro w
    cases hpending : w.scheduler.isPending id with
    | false =>
      rw [refire_idle p hpending]
      exact Lenient.refl w
    | true =>
      rw [refire_again p hpending]
      exact Lenient.trans (hnotify w _)
        (after_bind (.of_turn (.fires id hpending)) fun _ u _ => ih _ u)

theorem driven_fireTimer (id : Int32) : Keeps (Driven p calling) (p.fireTimer id) := by
  intro w
  cases hrun : w.exitCode? with
  | some code =>
    rw [fireTimer, bind_error (ensureNotExited_exited hrun)]
    exact Lenient.refl w
  | none =>
    cases hpending : w.scheduler.isPending id with
    | false =>
      rw [fireTimer_idle p hrun hpending]
      exact Lenient.refl w
    | true =>
      rw [fireTimer_armed p hrun hpending]
      exact after_bind (.of_turn (.fires id hpending)) fun _ u _ => p.driven_refire id _ 0 u

theorem driven_fireReports (count : Nat) : Keeps (Driven p calling) (p.fireReports count) := by
  induction count with
  | zero => exact keeps_pure _
  | succ count ih =>
    intro w
    cases hrun : w.exitCode? with
    | some code =>
      rw [fireReports_exited p hrun]
      exact Lenient.refl w
    | none =>
      cases hreports : w.scheduler.reports with
      | nil =>
        rw [fireReports_nil p hrun hreports]
        exact Lenient.refl w
      | cons id rest =>
        rw [fireReports_cons p hrun hreports]
        have htaken : Driven p calling w (taken w rest) := .of_turn (.waits (.takes hreports))
        refine Lenient.trans htaken (((p.driven_fireTimer id).bind fun outcome => ?_) _)
        exact ih.bind fun _ => keeps_pure _

theorem driven_serviceTimers : Keeps (Driven p calling) p.serviceTimers :=
  keeps_ensureNotExited.bind fun _ => keeps_get.bind fun _ => p.driven_fireReports _

theorem driven_nextTimer (horizon : Nat) : Keeps (Driven p calling) (p.nextTimer horizon) := by
  intro w
  cases hrun : w.exitCode? with
  | some code =>
    rw [nextTimer, bind_error (ensureNotExited_exited hrun)]
    exact Lenient.refl w
  | none =>
    obtain ⟨wait, s, hwait, h⟩ := p.nextTimer_cases hrun horizon
    have hwaits : Driven p calling w { w with scheduler := s } := by
      have := Scheduler.waits_awaitReport w.scheduler horizon
      rw [hwait] at this
      exact .of_waits this
    rw [h]
    refine Lenient.trans hwaits ?_
    cases wait with
    | report id => exact ((p.driven_fireTimer id).bind fun _ => keeps_pure _) _
    | idle => exact Lenient.refl _
    | expired => exact Lenient.refl _

theorem driven_drive (deadline rounds : Nat) :
    Keeps (Driven p calling) (p.drive deadline rounds) := by
  induction rounds with
  | zero => exact keeps_pure _
  | succ rounds ih =>
    refine keeps_get.bind fun w => ?_
    split
    · exact keeps_pure _
    · refine (p.driven_nextTimer _).bind fun wait => ?_
      cases wait with
      | served o => exact ih
      | idle => exact keeps_pure _
      | expired => exact keeps_pure _

theorem driven_runToEnd (horizon rounds : Nat) :
    Keeps (Driven p calling) (p.runToEnd horizon rounds) := by
  have hpending : ∀ millis, Keeps (Driven p calling) (do
      Host.elapse millis
      return RunEnd.pending) := by
    intro millis
    have helapse : Keeps (Driven p calling) (Host.elapse millis) := fun w =>
      .of_turn (.waits (.elapses millis))
    exact helapse.bind fun _ => keeps_pure _
  refine keeps_get.bind fun w => keeps_get.bind fun u => ?_
  split
  · refine p.driven_start.bind fun _ => (p.driven_drive _ rounds).bind fun _ => ?_
    refine keeps_get.bind fun x => ?_
    split
    · exact keeps_pure _
    · exact hpending _
  · refine (p.driven_drive _ rounds).bind fun _ => keeps_get.bind fun x => ?_
    split
    · exact keeps_pure _
    · exact hpending _

theorem driven_call (h : calling) (f this : Value) (args : List Value) :
    Keeps (Driven p calling) (p.calls.call f this args) := fun _ =>
  .of_turn (.calls h f this args)

theorem driven_callGlobal (h : calling) (name : String) (args : List Value) :
    Keeps (Driven p calling) (p.callGlobal name args) := by
  refine keeps_ensureNotExited.bind fun _ => keeps_get.bind fun w => ?_
  refine (keeps_fromHeap _).bind fun f => ?_
  split
  · exact p.driven_call h f w.global args
  · exact keeps_throw _

theorem driven_invoke (h : calling) (f this : Value) (args : List Value) :
    Keeps (Driven p calling) (p.invoke f this args) :=
  keeps_ensureNotExited.bind fun _ => p.driven_call h f this args

end Program

def HostCall.CallsFunction : HostCall → Prop
  | .callGlobal _ _ | .invoke _ _ _ => True
  | _ => False

theorem HostCall.driven (p : Program σ) (c : HostCall) :
    Keeps (Driven p c.CallsFunction) (c.perform p) := by
  cases c with
  | start => exact p.driven_start
  | fireTimer id => exact (p.driven_fireTimer id).discard
  | serviceTimers => exact p.driven_serviceTimers.discard
  | nextTimer horizon => exact (p.driven_nextTimer horizon).discard
  | callGlobal name args => exact (p.driven_callGlobal trivial name args).discard
  | invoke f this args => exact (p.driven_invoke trivial f this args).discard
  | runToEnd horizon rounds => exact (p.driven_runToEnd horizon rounds).discard
  | advance millis => exact fun w => .of_turn (.waits (.advances millis))
  | edit f => exact keeps_onHeap f

theorem Program.driven_session (p : Program σ) (calls : List HostCall) (w : World σ) :
    Driven p True w (p.session calls w) := by
  induction calls generalizing w with
  | nil => exact Lenient.refl w
  | cons c calls ih => exact Lenient.trans ((c.driven p w).mono fun _ => trivial) (ih _)

theorem Driven.moment {p : Program σ} {calling : Prop} {start w u : World σ}
    (h : Driven p calling w u) (hw : Moment p start .host w) : Moment p start .host u := by
  refine h.keeps (P := Moment p start .host) (fun x y hturn hx => ?_) hw
  cases hturn with
  | slight h _ => exact hx.minor h
  | waits h => exact hx.minor (.ticked x _ h.ages.ticks)
  | drops id =>
    have hcleared := hx.minor (.ticked x _ (Scheduler.ticks_clear x.scheduler id))
    exact hcleared.minor (.quiet ⟨rfl, rfl, rfl, rfl, rfl⟩)
  | runs a _ => exact hx.drive (.run a)
  | fires id _ => exact hx.drive (.resume id)
  | calls _ f this args =>
    have hcalled := hx.drive (.call f this args)
    rwa [Drive.step, after_discard] at hcalled

theorem Moment.session {p : Program σ} {start w : World σ} (h : Moment p start .host w)
    (calls : List HostCall) : Moment p start .host (p.session calls w) :=
  (p.driven_session calls w).moment h

/-! ## Inside frames -/

/-- What comes next inside a frame or a call. The frames are given by what they were entered for,
the innermost first. -/
inductive Inward (p : Program σ) : List Cause → Control σ → World σ →
    List Cause → Control σ → World σ → Prop where
  | advances {frames : List Cause} {α : Type} {w u : World σ} {depth : Nat} {code rest : Code σ α}
      (hstep : code.advance (p.callsWithin depth) w = .ok rest u) :
      Inward p frames (.code depth code) w frames (.code depth rest) u
  | calls {frames : List Cause} {α : Type} {w : World σ} {depth : Nat} {code : Code σ α}
      {callee : Callee} (hcallee : code.callee? w = some callee) :
      Inward p frames (.code depth code) w frames (.call depth callee) w
  | native {frames : List Cause} {w : World σ} {depth : Nat} {f this : Value} {args : List Value}
      {fn : HostFunction} {n : Native} (hfn : w.heap.function? f = some fn)
      (hkind : fn.kind = .native n) :
      Inward p frames (.call (depth + 1) (.function f this args)) w
        frames (.code depth (Builtin.code p.functions n this args)) w
  | callback {frames : List Cause} {w x : World σ} {depth : Nat} {f this event : Value}
      {args : List Value} {fn : HostFunction} {id : UInt32}
      (hfn : w.heap.function? f = some fn) (hkind : fn.kind = .guestCallback id)
      (hevent : publishEvent id this args w = .ok event x) (hrun : x.exitCode? = none) :
      Inward p frames (.call (depth + 1) (.function f this args)) w
        (.callback id :: frames) (.code depth p.resume) (x.entering (.callback id))
  | embedded {frames : List Cause} {α : Type} {w : World σ} {depth : Nat}
      {next : Except Fault Unit → Code σ α} (hrun : w.exitCode? = none) :
      Inward p frames (.code (depth + 1) (.resume next)) w
        (.embedded :: frames) (.code depth p.resume) (w.entering .embedded)
  | makes {frames : List Cause} {w u : World σ} {depth : Nat} {ctor this : Value}
      {args : List Value} {fn : HostFunction} {n : Native}
      (hfn : w.heap.function? ctor = some fn) (hkind : fn.kind = .native n)
      (hthis : onHeap (Heap.newObject .object) w = .ok this u) :
      Inward p frames (.call (depth + 1) (.constructor ctor args)) w
        frames (.code depth (Builtin.code p.functions n this args)) u
  | returns {frames : List Cause} {w : World σ} {depth : Nat} {callee : Callee} :
      Inward p frames (.call depth callee) w
        frames .back (after (callee.run (p.callsWithin depth) w))

inductive Situation (p : Program σ) (start : World σ) :
    List Cause → Control σ → World σ → Prop where
  | start : Situation p start [] .host start
  | turn {w u : World σ} (h : Situation p start [] .host w) (hturn : Turn p True w u) :
      Situation p start [] .host u
  | runs {w : World σ} (h : Situation p start [] .host w) (a : ArgumentTable)
      (hstate : w.state = .notStarted) :
      Situation p start [.run] (.code Program.maxDepth (p.run a)) (w.entering .run)
  | fires {w : World σ} (h : Situation p start [] .host w) (id : Int32)
      (hrun : w.exitCode? = none) (hpending : w.scheduler.isPending id = true) :
      Situation p start [.timer id] (.code Program.maxDepth p.resume) (w.entering (.timer id))
  | invokes {w : World σ} (h : Situation p start [] .host w) (callee : Callee) :
      Situation p start [] (.call Program.maxDepth callee) w
  | inward {frames frames' : List Cause} {control control' : Control σ} {w u : World σ}
      (h : Situation p start frames control w)
      (hstep : Inward p frames control w frames' control' u) :
      Situation p start frames' control' u

namespace Situation

variable {p : Program σ} {start w u : World σ}

theorem driven {calling : Prop} (h : Situation p start [] .host w) (hd : Driven p calling w u) :
    Situation p start [] .host u :=
  (hd.mono fun _ => trivial).keeps (fun _ _ hturn hw => hw.turn hturn) h

theorem session (p : Program σ) (start : World σ) (calls : List HostCall) :
    Situation p start [] .host (p.session calls start) :=
  Situation.start.driven (p.driven_session calls start)

/-- Code comes to its end through situations, with the same frames active as at its start. -/
theorem executes {frames : List Cause} {depth : Nat} {code : Code σ α}
    (h : Situation p start frames (.code depth code) w) :
    Situation p start frames (.code depth (.ending (execute (p.callsWithin depth) code w)))
      (after (execute (p.callsWithin depth) code w)) :=
  executes_through (M := fun code w => Situation p start frames (.code depth code) w)
    (fun _ _ _ _ hcode hnext => hcode.inward (.advances hnext)) code w h

end Situation

section Fresh

variable (o : HostOptions) (memory : Memory) (around : Surroundings) (own : σ)

theorem scheduler_fresh :
    (World.fresh o memory around own).scheduler = .new o.maxTimerRefires := by
  unfold World.fresh
  generalize Heap.firstObjects = x
  obtain ⟨⟨global, bridge⟩, heap⟩ := x
  rfl

theorem timeline_fresh : (World.fresh o memory around own).timeline = [] := by
  unfold World.fresh
  generalize Heap.firstObjects = x
  obtain ⟨⟨global, bridge⟩, heap⟩ := x
  rfl

theorem arguments_fresh :
    (World.fresh o memory around own).argv = o.argv ∧
      (World.fresh o memory around own).env = o.env ∧
      (World.fresh o memory around own).memory = memory := by
  unfold World.fresh
  generalize Heap.firstObjects = x
  obtain ⟨⟨global, bridge⟩, heap⟩ := x
  exact ⟨rfl, rfl, rfl⟩

theorem state_fresh : (World.fresh o memory around own).state = .notStarted := by
  rw [World.state, scheduler_fresh]
  rfl

end Fresh

/-! ## Invariants -/

class RunInvariant (P : List Cause → World σ → Prop) : Prop extends FrameInvariant P where
  waits {w : World σ} {s : Scheduler} (h : w.scheduler.Waits s) :
    P [] w → P [] { w with scheduler := s }
  run {w : World σ} (h : w.state = .notStarted) : P [] w → P [.run] (w.entering .run)
  fire {w : World σ} {id : Int32} (hrun : w.exitCode? = none)
    (h : w.scheduler.isPending id = true) : P [] w → P [.timer id] (w.entering (.timer id))

section Invariants

variable {P : List Cause → World σ → Prop} [RunInvariant P] {p : Program σ}

theorem Turn.holds {calling : Prop} {w u : World σ} (h : Turn p calling w u) (hw : P [] w) :
    P [] u := by
  have hcode : ∀ code : Code σ Unit, Keeps (Survives P) (execute p.calls code) :=
    keeps_execute p.keeping_calls
  cases h with
  | slight _ haside => exact FrameInvariant.aside haside hw
  | waits h => exact RunInvariant.waits h hw
  | drops id => exact FrameInvariant.clear id hw
  | runs a h => exact survives_frame (hcode _) (fun _ => RunInvariant.run h) hw
  | fires id h => exact survives_frame (hcode _) (fun hrun => RunInvariant.fire hrun h) hw
  | calls h f this args =>
    exact Calls.Keeping.call (R := Survives P) p.keeping_calls f this args w [] hw

theorem Inward.holds {frames frames' : List Cause} {control control' : Control σ} {w u : World σ}
    (h : Inward p frames control w frames' control' u) (hw : P frames w) : P frames' u := by
  have hcalls : ∀ depth, (p.callsWithin depth).Keeping (Survives P) := p.keeping_callsWithin
  cases h with
  | advances hstep =>
    exact Keeps.ok (R := Survives P) (keeps_advance (hcalls _) _) hstep frames hw
  | calls _ => exact hw
  | native _ _ => exact hw
  | callback _ _ hevent hrun =>
    have hx := Keeps.ok (R := Survives P) (keeps_publishEvent _ _ _) hevent frames hw
    exact FrameInvariant.inner trivial hrun hx
  | embedded hrun => exact FrameInvariant.inner trivial hrun hw
  | makes _ _ hthis => exact Keeps.ok (R := Survives P) (keeps_onHeap _) hthis frames hw
  | returns => exact Callee.keeps_run (hcalls _) _ w frames hw

theorem Situation.holds {start w : World σ} {frames : List Cause} {control : Control σ}
    (h : Situation p start frames control w) (hstart : P [] start) : P frames w := by
  induction h with
  | start => exact hstart
  | turn _ hturn ih => exact hturn.holds ih
  | runs _ a hstate ih => exact RunInvariant.run hstate ih
  | fires _ id hrun hpending ih => exact RunInvariant.fire hrun hpending ih
  | invokes _ callee ih => exact ih
  | inward _ hstep ih => exact hstep.holds ih

end Invariants

/-! ## The timeline only grows -/

def World.Remembers (earlier : List Milestone) (_ : List Cause) (w : World σ) : Prop :=
  earlier <:+ w.timeline

instance (earlier : List Milestone) : RunInvariant (World.Remembers (σ := σ) earlier) where
  aside h hw := by
    rw [World.Remembers, h.timeline]
    exact hw
  schedule _ _ hw := hw
  disarm _ hw := List.suffix_cons_iff.2 (.inr hw)
  exit _ _ hw := hw
  inner _ _ hw := List.suffix_cons_iff.2 (.inr hw)
  leave hw := hw
  waits _ hw := hw
  run _ hw := List.suffix_cons_iff.2 (.inr hw)
  fire _ _ hw := List.suffix_cons_iff.2 (.inr hw)

theorem Turn.timeline_suffix {p : Program σ} {calling : Prop} {w u : World σ}
    (h : Turn p calling w u) : w.timeline <:+ u.timeline :=
  h.holds (P := World.Remembers w.timeline) (List.suffix_refl _)

theorem frame_timeline_suffix {p : Program σ} {cause : Cause} {code : Code σ Unit} {w : World σ}
    (depth : Nat) (hrun : w.exitCode? = none) :
    .entered cause :: w.timeline <:+
      (after (frame (p.callsWithin depth) cause code w)).timeline := by
  have hcode : Keeps (Survives (World.Remembers (.entered cause :: w.timeline)))
      (execute (p.callsWithin depth) code) := keeps_execute (p.keeping_callsWithin depth) code
  have hentered : World.Remembers (.entered cause :: w.timeline) [cause] (w.entering cause) :=
    List.suffix_refl _
  exact holds_after_frame hcode hrun hentered

theorem Program.start_timeline_suffix {p : Program σ} {w : World σ} {a : ArgumentTable} {m : Memory}
    (hstate : w.state = .notStarted)
    (h : p.start w = frame p.calls .run (p.run a) (argued w m)) :
    .entered .run :: w.timeline <:+ (after (p.start w)).timeline := by
  rw [h]
  exact frame_timeline_suffix (w := argued w m) _ (exitCode?_of_notStarted hstate)

end TokenizerHost
