import TokenizerHost.Linker
import TokenizerHost.Proofs.Run.Callbacks

set_option autoImplicit false

/-!
# Faults on their way out

A fault of an import ends the guest frame that made it, and is the fault of whatever entered that
frame. So it ends all the frames around it, however deep guest callbacks nest, and comes out of the
call that the embedding program has made (`faults_surface_unchanged`).

That a compiled guest's frames end in this way is a property of its code (`Code.PassesFaults`), which
all code has that calls imports as linked functions (`passesFaults_invoke`).
-/

namespace TokenizerHost

open Host

variable {σ α β : Type}

inductive Code.PassesFaults : Code σ α → Prop where
  | done (a : α) : PassesFaults (.done a)
  | fault (e : Fault) : PassesFaults (.fault e)
  | observe {next : World σ → Code σ α} (h : ∀ w, PassesFaults (next w)) :
      PassesFaults (.observe next)
  | own {next : Code σ α} (state : σ) (memory : Memory) (h : PassesFaults next) :
      PassesFaults (.own state memory next)
  | heap {next : Value → Code σ α} (f : HeapM Value) (h : ∀ v, PassesFaults (next v)) :
      PassesFaults (.heap f next)
  | print {next : Except Fault Nat → Code σ α} (stream : Int) (bytes : ByteArray)
      (h : ∀ r, PassesFaults (next r)) : PassesFaults (.print stream bytes next)
  | note {next : Code σ α} (n : Notice) (h : PassesFaults next) : PassesFaults (.note n next)
  | request {next : Except Fault Unit → Code σ α} (i : Import) (sp : Nat)
      (hfault : ∀ e, next (.error e) = .note (.importTrapped i.name) (.fault e))
      (h : PassesFaults (next (.ok ()))) : PassesFaults (.request i sp next)
  | call {next : Except Fault Outcome → Code σ α} (callee : Callee)
      (h : ∀ r, PassesFaults (next r)) : PassesFaults (.call callee next)
  | resume {next : Except Fault Unit → Code σ α} (h : ∀ r, PassesFaults (next r)) :
      PassesFaults (.resume next)

structure Program.PassesFaults (p : Program σ) : Prop where
  run : ∀ a, (p.run a).PassesFaults
  resume : p.resume.PassesFaults

namespace Code

theorem passesFaults_invokeImport (i : Import) (sp : Nat) :
    (invokeImport i sp : Code σ Unit).PassesFaults := .request i sp (fun _ => rfl) (.done ())

theorem passesFaults_invoke (l : Linker) (space name : String) (sp : Nat) :
    (l.invoke space name sp : Code σ Unit).PassesFaults := by
  unfold Linker.invoke
  split
  · exact passesFaults_invokeImport _ sp
  · exact .done ()
  · exact .fault _

theorem PassesFaults.bind {code : Code σ α} {k : α → Code σ β} (h : code.PassesFaults)
    (hk : ∀ a, (k a).PassesFaults) : (code.bind k).PassesFaults := by
  induction h with
  | done a => exact hk a
  | fault e => exact .fault e
  | observe _ ih => exact .observe ih
  | own state memory _ ih => exact .own state memory ih
  | heap f _ ih => exact .heap f ih
  | print stream bytes _ ih => exact .print stream bytes ih
  | note n _ ih => exact .note n ih
  | request i sp hfault _ ih =>
    refine .request i sp (fun e => ?_) ih
    rw [hfault e]
    rfl
  | call callee _ ih => exact .call callee ih
  | resume _ ih => exact .resume ih

/-- What is left of code passes faults as the code does. -/
theorem PassesFaults.advance {c : Calls σ} {code rest : Code σ α} {w u : World σ}
    (h : code.PassesFaults) (hstep : code.advance c w = .ok rest u) : rest.PassesFaults := by
  cases h with
  | done a => cases hstep; exact .done a
  | fault e => cases hstep
  | observe h => cases hstep; exact h w
  | own state memory h => cases hstep; exact h
  | heap f h => cases hstep; exact h _
  | print stream bytes h =>
    cases hstep
    exact h _
  | note n h => cases hstep; exact h
  | request i sp hfault h =>
    obtain ⟨r, x, -, hrest⟩ := exists_of_bind_ok hstep
    cases hrest
    cases r with
    | ok => exact h
    | error e =>
      rw [hfault e]
      exact .note _ (.fault e)
  | call callee h =>
    obtain ⟨r, x, -, hrest⟩ := exists_of_bind_ok hstep
    cases hrest
    exact h r
  | resume h =>
    obtain ⟨r, x, -, hrest⟩ := exists_of_bind_ok hstep
    cases hrest
    exact h r

end Code

/-! ## Frames that the embedding program opens -/

theorem Heap.isFunction_of_function? {h : Heap} {f : Value} {fn : HostFunction}
    (hfn : h.function? f = some fn) : f.isFunction = true := by
  cases f with
  | function id => rfl
  | _ => cases hfn

inductive Refires (p : Program σ) (id : Int32) : (left attempts : Nat) → World σ → World σ → Prop
    where
  | now {left attempts : Nat} {w : World σ} (h : w.scheduler.isPending id = true) :
      Refires p id (left + 1) attempts w (w.notify (.missedTimer id (attempts + 1)))
  | later {left attempts : Nat} {w x u : World σ} (h : w.scheduler.isPending id = true)
      (hresume : p.resumeGuest id (w.notify (.missedTimer id (attempts + 1))) = .ok () x)
      (hagain : Refires p id left (attempts + 1) x u) : Refires p id (left + 1) attempts w u

inductive Fires (p : Program σ) (id : Int32) : World σ → World σ → Prop where
  | first {w : World σ} (hrun : w.exitCode? = none) (h : w.scheduler.isPending id = true) :
      Fires p id w w
  | again {w x u : World σ} (hrun : w.exitCode? = none) (h : w.scheduler.isPending id = true)
      (hresume : p.resumeGuest id w = .ok () x)
      (hagain : Refires p id x.scheduler.maxRefires 0 x u) : Fires p id w u

inductive Serves (p : Program σ) (id : Int32) : (count : Nat) → World σ → World σ → Prop where
  | next {count : Nat} {rest : List Int32} {w u : World σ} (hrun : w.exitCode? = none)
      (h : w.scheduler.reports = id :: rest) (hfires : Fires p id (Program.taken w rest) u) :
      Serves p id (count + 1) w u
  | later {count : Nat} {id' : Int32} {rest : List Int32} {w x u : World σ} {o : TimerOutcome}
      (hrun : w.exitCode? = none) (h : w.scheduler.reports = id' :: rest)
      (hfired : p.fireTimer id' (Program.taken w rest) = .ok o x)
      (hlater : Serves p id count x u) : Serves p id (count + 1) w u

/-- The frame that a call of the embedding program opens: how deep calls may nest in it, its code,
and the world in which that begins. -/
inductive Opens (p : Program σ) : HostCall → World σ → Nat → Code σ Unit → World σ → Prop where
  | starts {w : World σ} {a : ArgumentTable} {m : Memory} (hstate : w.state = .notStarted)
      (harguments : Memory.writeArguments w.argv w.env w.memory = .ok a m) :
      Opens p .start w Program.maxDepth (p.run a) ((Program.argued w m).entering .run)
  | fires {id : Int32} {w u : World σ} (h : Fires p id w u) (hrun : u.exitCode? = none) :
      Opens p (.fireTimer id) w Program.maxDepth p.resume (u.entering (.timer id))
  | serves {id : Int32} {w u : World σ} (hstart : w.exitCode? = none)
      (h : Serves p id w.scheduler.reports.length w u) (hrun : u.exitCode? = none) :
      Opens p .serviceTimers w Program.maxDepth p.resume (u.entering (.timer id))
  | waits {id : Int32} {horizon : Nat} {s : Scheduler} {w u : World σ}
      (hstart : w.exitCode? = none) (hwait : w.scheduler.awaitReport horizon = (.report id, s))
      (h : Fires p id { w with scheduler := s } u) (hrun : u.exitCode? = none) :
      Opens p (.nextTimer horizon) w Program.maxDepth p.resume (u.entering (.timer id))
  | calls {name : String} {args : List Value} {w : World σ} {fn : HostFunction} {id : UInt32}
      {depth : Nat} (hrun : w.exitCode? = none)
      (hfn : w.heap.function? (w.heap.get w.global name) = some fn)
      (hkind : fn.kind = .guestCallback id) (hdepth : depth + 1 = Program.maxDepth) :
      Opens p (.callGlobal name args) w depth p.resume
        ((w.publishing id w.global args).entering (.callback id))
  | invokes {f this : Value} {args : List Value} {w : World σ} {fn : HostFunction} {id : UInt32}
      {depth : Nat} (hrun : w.exitCode? = none) (hfn : w.heap.function? f = some fn)
      (hkind : fn.kind = .guestCallback id) (hdepth : depth + 1 = Program.maxDepth) :
      Opens p (.invoke f this args) w depth p.resume
        ((w.publishing id this args).entering (.callback id))

section Opens

variable {p : Program σ} {id : Int32} {w u v : World σ} {e : Fault}

theorem Refires.error {left attempts : Nat} (h : Refires p id left attempts w u)
    (herror : p.resumeGuest id u = .error e v) : p.refire id left attempts w = .error e v := by
  induction h with
  | now h =>
    rw [Program.refire_again p h]
    exact bind_error herror
  | later h hresume _ ih =>
    rw [Program.refire_again p h, bind_ok hresume]
    exact ih herror

theorem Fires.error (h : Fires p id w u) (herror : p.resumeGuest id u = .error e v) :
    p.fireTimer id w = .error e v := by
  cases h with
  | first hrun h =>
    rw [Program.fireTimer_armed p hrun h]
    exact bind_error herror
  | again hrun h hresume hagain =>
    rw [Program.fireTimer_armed p hrun h, bind_ok hresume, get_bind]
    exact hagain.error herror

theorem Serves.error {count : Nat} (h : Serves p id count w u)
    (herror : p.resumeGuest id u = .error e v) : p.fireReports count w = .error e v := by
  induction h with
  | next hrun h hfires =>
    rw [Program.fireReports_cons p hrun h]
    exact bind_error (hfires.error herror)
  | later hrun h hfired _ ih =>
    rw [Program.fireReports_cons p hrun h, bind_ok hfired]
    exact bind_error (ih herror)

theorem callback_eq {depth : Nat} {f this : Value} {args : List Value} {fn : HostFunction}
    {callback : UInt32} (hfn : w.heap.function? f = some fn)
    (hkind : fn.kind = .guestCallback callback) :
    (p.callsWithin (depth + 1)).call f this args w =
      callGuest (p.callsWithin depth) p.resume callback this args w := by
  change p.callWith (p.callsWithin depth) f this args w = _
  rw [Program.callWith, fromHeap_bind, hfn]
  dsimp only
  rw [hkind]

/-- A fault of the frame that a guest callback is called by is the fault of the call. -/
theorem callback_error {depth : Nat} {f this : Value} {args : List Value} {fn : HostFunction}
    {callback : UInt32} (hfn : w.heap.function? f = some fn)
    (hkind : fn.kind = .guestCallback callback) (hrun : w.exitCode? = none)
    (herror : execute (p.callsWithin depth) p.resume
      ((w.publishing callback this args).entering (.callback callback)) = .error e v) :
    (p.callsWithin (depth + 1)).call f this args w = .error e v.leaving := by
  rw [callback_eq hfn hkind, callGuest, bind_ok (publishEvent_eq w callback this args)]
  exact bind_error (frame_error hrun herror)

theorem Opens.error {call : HostCall} {depth : Nat} {code : Code σ Unit}
    (h : Opens p call w depth code u)
    (herror : execute (p.callsWithin depth) code u = .error e v) :
    call.perform p w = .error e v.leaving := by
  cases h with
  | starts hstate harguments =>
    rcases p.start_cases w with ⟨e', hcheck, -⟩ | ⟨-, e', m, hm, -⟩ | ⟨-, a, m, hm, heq⟩
    · rw [Scheduler.checkStartable_of_notStarted hstate] at hcheck
      cases hcheck
    · cases harguments.symm.trans hm
    · cases harguments.symm.trans hm
      exact heq.trans (frame_error (exitCode?_of_notStarted hstate) herror)
  | fires h hrun => exact discard_error (h.error (frame_error hrun herror))
  | serves hstart h hrun =>
    refine discard_error ?_
    rw [Program.serviceTimers, bind_ok (ensureNotExited_running hstart), get_bind]
    exact h.error (frame_error hrun herror)
  | waits hstart hwait h hrun =>
    refine discard_error ?_
    obtain ⟨wait, s, hwait', heq⟩ := p.nextTimer_cases hstart _
    cases hwait.symm.trans hwait'
    exact heq.trans (bind_error (h.error (frame_error hrun herror)))
  | calls hrun hfn hkind hdepth =>
    refine discard_error ?_
    have hf : (w.heap.get w.global _).isFunction = true := Heap.isFunction_of_function? hfn
    rw [Program.callGlobal, bind_ok (ensureNotExited_running hrun), get_bind, fromHeap_bind,
      if_pos hf, Program.calls, ← hdepth]
    exact callback_error hfn hkind hrun herror
  | invokes hrun hfn hkind hdepth =>
    refine discard_error ?_
    rw [Program.invoke, bind_ok (ensureNotExited_running hrun), Program.calls, ← hdepth]
    exact callback_error hfn hkind hrun herror

end Opens

/-! ## Nested frames -/

/-- An import that waits for the guest callback that it has called: how deep calls may nest where it
was made, its stack pointer, and the world then. -/
structure Pending (σ : Type) where
  depth : Nat
  made : Import
  sp : Nat
  world : World σ

/-- What a call of the embedding program has come to: inside the frame that it has opened or inside
that of a guest callback, with imports waiting for callbacks, the innermost first. -/
inductive Nested (p : Program σ) (call : HostCall) (start : World σ) :
    List (Pending σ) → Nat → Code σ Unit → World σ → Prop where
  | opens {depth : Nat} {code : Code σ Unit} {w : World σ}
      (h : Opens p call start depth code w) : Nested p call start [] depth code w
  | advances {pending : List (Pending σ)} {depth : Nat} {code rest : Code σ Unit} {w u : World σ}
      (h : Nested p call start pending depth code w)
      (hstep : code.advance (p.callsWithin depth) w = .ok rest u) :
      Nested p call start pending depth rest u
  | enters {pending : List (Pending σ)} {depth : Nat} {i : Import} {sp : Nat}
      {next : Except Fault Unit → Code σ Unit} {w : World σ} {f this : Value} {args : List Value}
      {fn : HostFunction} {id : UInt32}
      (h : Nested p call start pending (depth + 1) (.request i sp next) w)
      (hcallee : i.callee? sp w = some (.function f this args))
      (hfn : w.heap.function? f = some fn) (hkind : fn.kind = .guestCallback id) :
      Nested p call start (⟨depth + 1, i, sp, w⟩ :: pending) depth p.resume
        ((w.publishing id this args).entering (.callback id))

/-- Nothing has happened between two worlds but that frames have been left and imports have answered
with a fault: no slot and no flag has been written. -/
structure World.Unwinds (e : Fault) (w u : World σ) : Prop where
  memory : u.memory = w.memory
  own : u.own = w.own
  heap : u.heap = w.heap
  table : u.table = w.table
  console : u.console = w.console
  timeline : u.timeline = w.timeline
  journal : ∃ answered : List Import,
    u.journal = answered.map (fun i => .answered i (some e)) ++ w.journal

namespace World.Unwinds

variable {e : Fault} {w u x : World σ}

theorem refl (e : Fault) (w : World σ) : w.Unwinds e w := ⟨rfl, rfl, rfl, rfl, rfl, rfl, [], rfl⟩

theorem trans (h : w.Unwinds e u) (h' : u.Unwinds e x) : w.Unwinds e x := by
  obtain ⟨answered, hanswered⟩ := h.journal
  obtain ⟨answered', hanswered'⟩ := h'.journal
  refine ⟨h'.memory.trans h.memory, h'.own.trans h.own, h'.heap.trans h.heap,
    h'.table.trans h.table, h'.console.trans h.console, h'.timeline.trans h.timeline,
    answered' ++ answered, ?_⟩
  rw [hanswered', hanswered, List.map_append, List.append_assoc]

theorem leaving (h : w.Unwinds e u) : w.Unwinds e u.leaving :=
  h.trans ⟨rfl, rfl, rfl, rfl, rfl, rfl, [], rfl⟩

theorem answering (h : w.Unwinds e u) (i : Import) (n : Notice) :
    w.Unwinds e ((u.record (.answered i (some e))).notify n) :=
  h.trans ⟨rfl, rfl, rfl, rfl, rfl, rfl, [i], rfl⟩

end World.Unwinds

section Nested

variable {p : Program σ} {call : HostCall} {start w u : World σ} {pending : List (Pending σ)}
  {depth : Nat} {code : Code σ Unit} {e : Fault}

theorem Opens.passesFaults (hp : p.PassesFaults) (h : Opens p call start depth code w) :
    code.PassesFaults := by
  cases h with
  | starts => exact hp.run _
  | fires | serves | waits | calls | invokes => exact hp.resume

theorem Nested.passesFaults (hp : p.PassesFaults) (h : Nested p call start pending depth code w) :
    code.PassesFaults := by
  induction h with
  | opens h => exact h.passesFaults hp
  | advances _ hstep ih => exact ih.advance hstep
  | enters => exact hp.resume

/-- A fault of an import ends its frame. -/
theorem execute_request_error {c : Calls σ} {i : Import} {sp : Nat}
    {next : Except Fault Unit → Code σ Unit} (hcode : (Code.request i sp next).PassesFaults)
    (hfault : Import.dispatch c i sp w = .error e u) :
    execute c (.request i sp next) w =
      .error e ((u.record (.answered i (some e))).notify (.importTrapped i.name)) := by
  cases hcode with
  | request _ _ hnext _ =>
    rw [execute, bind_ok (answer_error i hfault), hnext e]
    rfl

/-- A fault that ends the innermost frame ends every frame around it. -/
theorem Nested.unwinds (hp : p.PassesFaults) (h : Nested p call start pending depth code w)
    (herror : execute (p.callsWithin depth) code w = .error e u) :
    (∀ q ∈ pending, ∃ v, Import.dispatch (p.callsWithin q.depth) q.made q.sp q.world = .error e v ∧
      u.Unwinds e v) ∧
    ∃ v, call.perform p start = .error e v ∧ u.Unwinds e v := by
  induction h generalizing u with
  | opens h =>
    have hleft : u.Unwinds e u.leaving := (World.Unwinds.refl e u).leaving
    exact ⟨fun q hq => absurd hq List.not_mem_nil, u.leaving, h.error herror, hleft⟩
  | advances _ hstep ih => exact ih ((execute_of_advance hstep).trans herror)
  | @enters pending depth i sp next w f this args fn id h hcallee hfn hkind ih =>
    obtain ⟨operands, r, hview, -, -⟩ := Import.request_of_callee hcallee
    have hrun : w.exitCode? = none := (Import.view_ok hview).2.1
    have hcall := callback_error hfn hkind hrun herror
    have hdispatch : Import.dispatch (p.callsWithin (depth + 1)) i sp w = .error e u.leaving := by
      rw [Import.dispatch_of_callee hcallee]
      exact bind_error hcall
    have hleft : u.Unwinds e u.leaving := (World.Unwinds.refl e u).leaving
    have hanswered := hleft.answering i (.importTrapped i.name)
    obtain ⟨hpending, v, hperform, hv⟩ :=
      ih (execute_request_error (h.passesFaults hp) hdispatch)
    refine ⟨fun q hq => ?_, v, hperform, hanswered.trans hv⟩
    rcases List.mem_cons.1 hq with rfl | hq
    · exact ⟨_, hdispatch, hleft⟩
    · obtain ⟨x, hx, hunwinds⟩ := hpending q hq
      exact ⟨x, hx, hanswered.trans hunwinds⟩

/-- Faults surface unchanged. Where the embedding program has entered the guest, by starting it, by
firing, serving or waiting for a timer, or by calling a function, and guest callbacks nest in each
other's frames to any depth: if an import that the innermost frame makes faults, then every import
that waits for a callback faults in the same way, and so does the embedding program's call. Nothing
is written on the way, in particular no slot for a result and no flag. -/
theorem faults_surface_unchanged (hp : p.PassesFaults) {i : Import} {sp : Nat}
    {next : Except Fault Unit → Code σ Unit}
    (h : Nested p call start pending depth (.request i sp next) w)
    (hfault : Import.dispatch (p.callsWithin depth) i sp w = .error e u) :
    (∀ q ∈ pending, ∃ v, Import.dispatch (p.callsWithin q.depth) q.made q.sp q.world = .error e v ∧
      u.Unwinds e v) ∧
    ∃ v, call.perform p start = .error e v ∧ u.Unwinds e v := by
  have hanswered := (World.Unwinds.refl e u).answering i (.importTrapped i.name)
  obtain ⟨hpending, v, hperform, hv⟩ :=
    h.unwinds hp (execute_request_error (h.passesFaults hp) hfault)
  refine ⟨fun q hq => ?_, v, hperform, hanswered.trans hv⟩
  obtain ⟨x, hx, hunwinds⟩ := hpending q hq
  exact ⟨x, hx, hanswered.trans hunwinds⟩

end Nested

/-- A guest whose first callback invokes a second one, which asks for a length outside memory. -/
def overreaching : Program Unit where
  stackPointer _ := 0
  run _ := .done ()
  resume := .observe fun w =>
    let event := w.heap.get w.bridge "_pendingEvent"
    if w.heap.get event "id" = .ofNat 1 then Code.invokeImport .valueInvoke 0
    else Code.invokeImport .valueLength 1000
  functions _ _ _ := .done (.returned .undefined)

theorem passesFaults_overreaching : overreaching.PassesFaults := by
  refine ⟨fun _ => .done (), .observe fun w => ?_⟩
  dsimp only
  split
  · exact Code.passesFaults_invokeImport _ _
  · exact Code.passesFaults_invokeImport _ _

/-- A world with functions for two callbacks. The guest holds the second one, and its slot lies where
the first callback looks for what to invoke. -/
def holding : World Unit :=
  let objects := #[⟨.object, .empty⟩, ⟨.object, .empty⟩]
  let functions := #[⟨"", .guestCallback 1, .empty⟩, ⟨"", .guestCallback 2, .empty⟩]
  let w : World Unit := .atRest ⟨#[], objects, #[], #[], functions⟩ (.object 0) (.object 1) .standard
    ⟨⟨#[0, 0, 0, 0, 0, 0, 0, 0, 7, 0, 0, 0, 4, 0, 0xF8, 0x7F, 0, 0, 0, 0, 0, 0, 0, 0,
      0, 0, 0, 0, 0, 0, 0, 0]⟩⟩ ⟨0, 0⟩ ()
  { w with table := w.table.map fun t => (t.store (.function 1)).2 }

def outer : World Unit := (holding.publishing 1 .null []).entering (.callback 1)

def inner : World Unit := (outer.publishing 2 .undefined []).entering (.callback 2)

theorem faults_surface_unchanged_twice : ∃ u v : World Unit,
    Import.dispatch (overreaching.callsWithin 1048575) .valueInvoke 0 outer =
      .error (.memoryAccess 1008 8) u ∧
    (HostCall.invoke (.function 0) .null []).perform overreaching holding =
      .error (.memoryAccess 1008 8) v := by
  have hfirst : outer.heap.get (outer.heap.get outer.bridge "_pendingEvent") "id" = .ofNat 1 := by
    decide +kernel
  have hsecond : inner.heap.get (inner.heap.get inner.bridge "_pendingEvent") "id" ≠ .ofNat 1 := by
    decide +kernel
  have hcalled : holding.heap.function? (.function 0) = some ⟨"", .guestCallback 1, .empty⟩ := rfl
  have hinvoked : outer.heap.function? (.function 1) = some ⟨"", .guestCallback 2, .empty⟩ := rfl
  have hcallee : Import.valueInvoke.callee? 0 outer =
      some (.function (.function 1) .undefined []) := rfl
  have hopened : Nested overreaching (.invoke (.function 0) .null []) holding [] 1048575
      overreaching.resume outer := .opens (.invokes rfl hcalled rfl rfl)
  have hinvoking : Nested overreaching (.invoke (.function 0) .null []) holding [] 1048575
      (Code.invokeImport .valueInvoke 0) outer :=
    hopened.advances (congrArg (EStateM.Result.ok · outer) (if_pos hfirst))
  have hentered : Nested overreaching (.invoke (.function 0) .null []) holding
      [⟨1048575, .valueInvoke, 0, outer⟩] 1048574 overreaching.resume inner :=
    hinvoking.enters hcallee hinvoked rfl
  have hasking : Nested overreaching (.invoke (.function 0) .null []) holding
      [⟨1048575, .valueInvoke, 0, outer⟩] 1048574 (Code.invokeImport .valueLength 1000) inner :=
    hentered.advances (congrArg (EStateM.Result.ok · inner) (if_neg hsecond))
  have hfault : Import.dispatch (overreaching.callsWithin 1048574) .valueLength 1000 inner =
      .error (.memoryAccess 1008 8) inner := rfl
  obtain ⟨hpending, v, hv, -⟩ :=
    faults_surface_unchanged passesFaults_overreaching hasking hfault
  obtain ⟨u, hu, -⟩ := hpending _ List.mem_cons_self
  exact ⟨u, v, hu, hv⟩

end TokenizerHost
