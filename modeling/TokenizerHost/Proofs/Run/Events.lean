import TokenizerHost.Proofs.Run.Unwinding

set_option autoImplicit false

namespace TokenizerHost

open Host

variable {σ : Type}

namespace World

structure Offers (cell : Place) (values : List Value) (w u : World σ) : Prop where
  bridge : u.bridge = w.bridge
  size : w.heap.objects.size ≤ u.heap.objects.size
  read : cell.object < w.heap.objects.size → w.IsCell cell →
    u.heap.read cell = values.getLast?.getD (w.heap.read cell)

namespace Offers

variable {cell : Place} {w u x : World σ} {values later : List Value}

theorem append (hwu : w.Offers cell values u) (hux : u.Offers cell later x) :
    w.Offers cell (values ++ later) x := by
  refine ⟨hux.bridge.trans hwu.bridge, Nat.le_trans hwu.size hux.size, fun hplace hcell => ?_⟩
  have hcell' : u.IsCell cell := ⟨hwu.bridge.trans hcell.1, hcell.2⟩
  have hplace' : cell.object < u.heap.objects.size := Nat.lt_of_lt_of_le hplace hwu.size
  rw [hux.read hplace' hcell', hwu.read hplace hcell, List.getLast?_append, Option.getD_or]

theorem publishes (w : World σ) (event : Value) :
    w.Offers cell [event] { w with heap := w.heap.set w.bridge "_pendingEvent" event } := by
  refine ⟨rfl, Nat.le_of_eq (Heap.size_set _ _ _ _).symm, fun hplace hcell => ?_⟩
  exact (Heap.get_set hplace _ _ _ _).trans (if_pos ⟨hcell.1, hcell.2.symm⟩)

end Offers

end World

instance (cell : Place) : Follows cell (fun event => [event]) (World.Offers (σ := σ) cell) where
  aside hbridge hheap := ⟨hbridge, by rw [hheap], fun _ _ => by rw [hheap]; rfl⟩
  append := .append
  writes hsize hread := ⟨rfl, hsize, fun hplace _ => hread hplace⟩
  publishes := .publishes

/-- What is put into the cell while the guest is resumed: what the guest writes there, and the
events of the callbacks that are called meanwhile. -/
def Program.offered (p : Program σ) (cell : Place) (depth : Nat) (begun : World σ) : List Value :=
  p.resume.settings cell (p.callsWithin depth) (p.writings cell (fun event => [event]) depth) begun

section Failing

variable {p : Program σ} {w u : World σ} {cell : Place} {depth : Nat} {f this : Value}
  {args : List Value} {fn : HostFunction} {id : UInt32} {e : Fault}

/-- The cell holds the new event when it has been published. -/
theorem read_cell_publishing (hcell : w.IsCell cell) (hplace : cell.object < w.heap.objects.size) :
    (w.publishing id this args).heap.read cell = .object w.heap.objects.size := by
  obtain ⟨-, -, hread, -⟩ := w.publishing_spec id this args ⟨cell.object, hcell.1, hplace⟩
  rw [show (w.publishing id this args).bridge = .object cell.object from hcell.1,
    ← hcell.2] at hread
  exact hread

/-- The event is published before it is found that the guest has exited. -/
theorem callback_exited {exit : Int32} (hfn : w.heap.function? f = some fn)
    (hkind : fn.kind = .guestCallback id) (hexit : w.exitCode? = some exit) :
    (p.callsWithin (depth + 1)).call f this args w =
      .error (.alreadyExited exit) (w.publishing id this args) := by
  rw [callback_eq hfn hkind, callGuest, bind_ok (publishEvent_eq w id this args)]
  exact bind_error (frame_exited hexit)

theorem exists_of_callback_error (hfn : w.heap.function? f = some fn)
    (hkind : fn.kind = .guestCallback id) (hrun : w.exitCode? = none)
    (herror : (p.callsWithin (depth + 1)).call f this args w = .error e u) :
    ∃ x, execute (p.callsWithin depth) p.resume
      ((w.publishing id this args).entering (.callback id)) = .error e x ∧ u = x.leaving := by
  cases hexecute : execute (p.callsWithin depth) p.resume
      ((w.publishing id this args).entering (.callback id)) with
  | ok a x =>
    -- a frame that comes to its end answers the call
    have hframe : frame (p.callsWithin depth) (.callback id) p.resume (w.publishing id this args) =
        .ok () x.leaving := frame_ok hrun hexecute
    rw [callback_eq hfn hkind, callGuest, bind_ok (publishEvent_eq w id this args),
      bind_ok hframe] at herror
    cases herror
  | error e' x =>
    cases (callback_error hfn hkind hrun hexecute).symm.trans herror
    exact ⟨x, rfl, rfl⟩

/-- The cell ends up with what was put there last while the guest was resumed, or else with the
event that the guest was resumed for. -/
theorem read_cell_resume (hp : p.Grows) (hcell : w.IsCell cell)
    (hplace : cell.object < w.heap.objects.size) :
    let begun := (w.publishing id this args).entering (.callback id)
    (after (execute (p.callsWithin depth) p.resume begun)).heap.read cell =
      (p.offered cell depth begun).getLast?.getD (.object w.heap.objects.size) := by
  intro begun
  obtain ⟨-, hsize, -⟩ := w.publishing_spec id this args ⟨cell.object, hcell.1, hplace⟩
  have hoffers : World.Offers cell (p.offered cell depth begun) begun _ :=
    sets_execute (follows_callsWithin hp depth) hp.resume begun
  rw [hoffers.read (Nat.lt_trans hplace hsize) hcell]
  exact congrArg _ (read_cell_publishing hcell hplace)

/-- A callback that fails leaves its event in the cell, unless the guest has put something else
there, or has called another callback, before the frame faulted. If the guest has exited before, no
frame is entered and the event always stays. What is in the cell then is what the guest finds there
when it is next resumed for a timer. -/
theorem failed_callbacks_leave_events (p : Program σ) (hp : p.Grows) {w u : World σ} {cell : Place}
    (hcell : w.IsCell cell) (hplace : cell.object < w.heap.objects.size) {depth : Nat}
    {f this : Value} {args : List Value} {fn : HostFunction} {id : UInt32} {e : Fault}
    (hfn : w.heap.function? f = some fn) (hkind : fn.kind = .guestCallback id)
    (herror : (p.callsWithin (depth + 1)).call f this args w = .error e u) :
    let event : Value := .object w.heap.objects.size
    let published := w.publishing id this args
    let begun := published.entering (.callback id)
    w.heap.object? event = none ∧ published.heap.IsEvent event id this args ∧
    (∀ code, w.exitCode? = some code →
      e = .alreadyExited code ∧ u = published ∧ u.heap.read cell = event) ∧
    (w.exitCode? = none →
      (∃ x, execute (p.callsWithin depth) p.resume begun = .error e x ∧ u = x.leaving) ∧
      u.heap.read cell = (p.offered cell depth begun).getLast?.getD event) ∧
    ∀ timer, u.exitCode? = none → u.scheduler.isPending timer = true →
      ∃ v, Opens p (.fireTimer timer) u Program.maxDepth p.resume v ∧
        v.heap.read cell = u.heap.read cell := by
  intro event published begun
  obtain ⟨hnew, -, -, hevent⟩ := w.publishing_spec id this args ⟨cell.object, hcell.1, hplace⟩
  refine ⟨hnew, hevent, fun code hexit => ?_, fun hrun => ?_, fun timer hlive hpending =>
    ⟨u.entering (.timer timer), .fires (.first hlive hpending) hlive, rfl⟩⟩
  · cases (callback_exited hfn hkind hexit).symm.trans herror
    exact ⟨rfl, rfl, read_cell_publishing hcell hplace⟩
  · obtain ⟨x, hexecute, rfl⟩ := exists_of_callback_error hfn hkind hrun herror
    have hread : (after (execute (p.callsWithin depth) p.resume begun)).heap.read cell =
        (p.offered cell depth begun).getLast?.getD event := read_cell_resume hp hcell hplace
    rw [show execute (p.callsWithin depth) p.resume begun = .error e x from hexecute] at hread
    exact ⟨⟨x, hexecute, rfl⟩, hread⟩

end Failing

/-- A guest that arms a timer and faults when it is first resumed. From then on it notes which
callback the event that it finds is for. -/
def faltering : Program (Option Value) where
  stackPointer _ := 0
  run _ := .done ()
  resume := .observe fun w =>
    match w.own with
    | none => .own (some .undefined) w.memory
        (.request .scheduleTimeoutEvent 0 fun _ => .fault .stackExhausted)
    | some _ => .own (some (w.heap.get (w.heap.get w.bridge "_pendingEvent") "id")) w.memory
        (.request .clearTimeoutEvent 8 fun _ => .done ())
  functions _ _ _ := .done (.returned .undefined)

theorem grows_faltering : faltering.Grows := by
  refine ⟨fun _ => .done _, .observe fun w => ?_, fun _ _ _ => .done _⟩
  cases w.own with
  | none => exact .own trivial _ _ (.request trivial _ _ fun _ => .fault _)
  | some told => exact .own trivial _ _ (.request trivial _ _ fun _ => .done _)

def unresumed : World (Option Value) :=
  .atRest calling.heap calling.global calling.bridge .standard (.zeros 32) ⟨0, 0⟩ none

theorem failed_callbacks_leave_events_faltering : ∃ e u,
    (faltering.callsWithin 3).call (.function 0) .null [] unresumed = .error e u ∧
    u.heap.read ⟨1, "_pendingEvent"⟩ = .object unresumed.heap.objects.size := by
  let cell : Place := ⟨1, "_pendingEvent"⟩
  let begun := (unresumed.publishing 1 .null []).entering (.callback 1)
  have hcell : unresumed.IsCell cell := ⟨rfl, rfl⟩
  have hplace : cell.object < unresumed.heap.objects.size := by
    decide +kernel
  have hoffered : faltering.offered cell 2 begun = [] := by
    decide +kernel
  have hfaults : faultsIn (fun _ => true)
      ((faltering.callsWithin 3).call (.function 0) .null [] unresumed) = true := by
    decide +kernel
  obtain ⟨e, u, hcall, -⟩ := exists_of_faultsIn hfaults
  obtain ⟨-, -, -, hresumed, -⟩ :=
    failed_callbacks_leave_events faltering grows_faltering hcell hplace rfl rfl hcall
  obtain ⟨-, hread⟩ := hresumed rfl
  rw [hoffered] at hread
  exact ⟨e, u, hcall, hread⟩

/-- A timer that is served later has the guest find the event of a call that has failed. -/
theorem failed_event_delivered :
    ∃ e u, faltering.invoke (.function 0) .null [] unresumed = .error e u ∧
      unresumed.heap.object? (.object unresumed.heap.objects.size) = none ∧
      u.heap.get u.bridge "_pendingEvent" = .object unresumed.heap.objects.size ∧
      (faltering.session [.advance 0, .serviceTimers] u).own = some (.ofNat 1) := by
  let delivers (u : World (Option Value)) : Prop :=
    u.heap.get u.bridge "_pendingEvent" = .object unresumed.heap.objects.size ∧
      (faltering.session [.advance 0, .serviceTimers] u).own = some (.ofNat 1)
  have hfaults : faultsIn (fun u => decide (delivers u))
      (faltering.invoke (.function 0) .null [] unresumed) = true := by
    decide +kernel
  obtain ⟨e, u, hinvoke, hdelivers⟩ := exists_of_faultsIn hfaults
  obtain ⟨hread, htold⟩ : delivers u := of_decide_eq_true hdelivers
  exact ⟨e, u, hinvoke, rfl, hread, htold⟩

end TokenizerHost
