import TokenizerHost.Proofs.Run.Settings
import TokenizerHost.Proofs.Run.Situation

set_option autoImplicit false

namespace TokenizerHost

open Host

variable {σ : Type}

namespace Heap

variable {h : Heap}

theorem toList_ofArray (items : List Value) : (Elements.ofArray items.toArray).toList = items := by
  simp [Elements.toList, Elements.ofArray]

structure IsEvent (h : Heap) (event : Value) (id : UInt32) (this : Value) (args : List Value) :
    Prop where
  id : h.get event "id" = .ofNat id.toNat
  this : h.get event "this" = this
  args : (h.elements? (h.get event "args")).map Elements.toList = some args
  unanswered : h.get event "result" = .undefined

end Heap

namespace World

variable {w u : World σ}

def HasBridge (w : World σ) : Prop := ∃ b, w.bridge = .object b ∧ b < w.heap.objects.size

theorem Sets.hasBridge {place : Place} {values : List Value} (h : w.Sets place values u)
    (hw : w.HasBridge) : u.HasBridge := by
  obtain ⟨b, hbridge, hb⟩ := hw
  exact ⟨b, h.bridge.trans hbridge, Nat.lt_of_lt_of_le hb h.size⟩

variable (id : UInt32) (this : Value) (args : List Value)

/-- The event of a callback is a new object, and it is what the cell holds. -/
theorem publishing_spec (hw : w.HasBridge) :
    let event : Value := .object w.heap.objects.size
    let u := w.publishing id this args
    w.heap.object? event = none ∧ w.heap.objects.size < u.heap.objects.size ∧
      u.heap.get u.bridge "_pendingEvent" = event ∧ u.heap.IsEvent event id this args := by
  intro event u
  obtain ⟨b, hbridge, hb⟩ := hw
  let list := (Heap.newArray args w.heap).1
  let props := [("id", Value.ofNat id.toNat), ("this", this), ("args", list)]
  let made := (Heap.newObjectWith .object props (Heap.newArray args w.heap).2).2
  have hmade : made.objects.size = w.heap.objects.size + 1 := by
    simp only [made, Heap.newObjectWith_eq, Array.size_push]
    rfl
  have hheap : u.heap = made.set (.object b) "_pendingEvent" event := by
    rw [← hbridge]
    rfl
  have hget : ∀ key, u.heap.get event key = (Heap.propertiesOf props).get key := by
    intro key
    have hother : ¬ (Value.object b = event ∧ "_pendingEvent" = key) := fun h =>
      Nat.ne_of_lt hb (Value.object.inj h.1)
    rw [hheap, Heap.get_set (by omega), if_neg hother]
    exact Heap.get_newObjectWith .object props _ key
  refine ⟨Array.getElem?_eq_none (Nat.le_refl _), ?_, ?_, hget "id", hget "this", ?_, hget "result"⟩
  · rw [hheap, Heap.size_set, hmade]
    exact Nat.lt_succ_self _
  · rw [hheap, show u.bridge = .object b from hbridge, Heap.get_set (by omega), if_pos ⟨rfl, rfl⟩]
  · have harrays : u.heap.arrays = w.heap.arrays.push (.ofArray args.toArray) := by
      rw [hheap]
      simp only [Heap.set, made, Heap.newObjectWith_eq]
      rfl
    rw [hget "args"]
    change (u.heap.arrays[w.heap.arrays.size]?).map Elements.toList = some args
    rw [harrays, Array.getElem?_push_size, Option.map_some, Heap.toList_ofArray]

end World

theorem hasBridge_fresh (o : HostOptions) (memory : Memory) (around : Surroundings) (own : σ) :
    (World.fresh o memory around own).HasBridge := by
  have hfirst : Heap.firstObjects.1 = (.object 0, .object 5) ∧
      5 < Heap.firstObjects.2.objects.size := by
    decide +kernel
  unfold World.fresh
  generalize Heap.firstObjects = x at hfirst ⊢
  obtain ⟨⟨global, bridge⟩, heap⟩ := x
  obtain ⟨hvalues, hsize⟩ := hfirst
  cases hvalues
  exact ⟨5, rfl, hsize⟩

/-! ## Inside calls and frames -/

inductive Inside (p : Program σ) (frames : List Cause) (root : Control σ) (start : World σ) :
    List Cause → Control σ → World σ → Prop where
  | root : Inside p frames root start frames root start
  | inward {frames' frames'' : List Cause} {control control' : Control σ} {w u : World σ}
      (h : Inside p frames root start frames' control w)
      (hstep : Inward p frames' control w frames'' control' u) :
      Inside p frames root start frames'' control' u

def Control.Grows : Control σ → Prop
  | .code _ rest => rest.Grows
  | _ => True

section Inside

variable {p : Program σ} {frames frames' : List Cause} {control control' root : Control σ}
  {start w u : World σ}

theorem Inward.hasBridge (hp : p.Grows) (h : Inward p frames control w frames' control' u)
    (hcontrol : control.Grows) (hw : w.HasBridge) : control'.Grows ∧ u.HasBridge := by
  -- what is written is of no interest here, so any place will do
  let place : Place := ⟨0, ""⟩
  cases h with
  | advances hstep =>
    obtain ⟨hrest, hsets⟩ := sets_advance (sets_callsWithin hp place _) hcontrol hstep
    exact ⟨hrest, hsets.hasBridge hw⟩
  | calls _ => exact ⟨trivial, hw⟩
  | native _ _ => exact ⟨hp.code _ _ _, hw⟩
  | callback _ _ hevent _ =>
    have hpublished : World.Sets place [] w _ :=
      (keeps_publishEvent (R := World.Sets place []) _ _ _).ok hevent
    exact ⟨hp.resume, hpublished.hasBridge hw⟩
  | embedded _ => exact ⟨hp.resume, hw⟩
  | makes _ _ hthis =>
    have hmade : World.Sets place [] w u :=
      (keeps_making (R := World.Sets place []) (Heap.keepsObjects_newObject _)).ok hthis
    exact ⟨hp.code _ _ _, hmade.hasBridge hw⟩
  | returns => exact ⟨trivial, ((sets_callsWithin hp place _).call _ w).hasBridge hw⟩

theorem Inside.hasBridge (hp : p.Grows) (h : Inside p frames root start frames' control w)
    (hroot : root.Grows) (hstart : start.HasBridge) : control.Grows ∧ w.HasBridge := by
  induction h with
  | root => exact ⟨hroot, hstart⟩
  | inward _ hstep ih => exact hstep.hasBridge hp ih.1 ih.2

theorem Drive.hasBridge (hp : p.Grows) (d : Drive) (hw : w.HasBridge) :
    (after (d.step p w)).HasBridge := by
  let place : Place := ⟨0, ""⟩
  have hframe : ∀ (cause : Cause) (code : Code σ Unit), code.Grows →
      (after (frame p.calls cause code w)).HasBridge := by
    intro cause code hcode
    cases hrun : w.exitCode? with
    | some exit =>
      rw [frame_exited hrun]
      exact hw
    | none => exact (sets_frame (sets_callsWithin hp place _) hcode cause hrun).hasBridge hw
  cases d with
  | run a => exact hframe .run (p.run a) (hp.run a)
  | resume id => exact hframe (.timer id) p.resume hp.resume
  | call f this args =>
    rw [Drive.step, after_discard]
    exact ((sets_callsWithin hp place _).call (.function f this args) w).hasBridge hw

end Inside

/-- Nested callbacks keep their events apart. Wherever a guest callback is called inside a frame or
a call, the guest is resumed with the cell of the bridge object holding a new object that says which
callback is called, with what receiver and arguments. If that frame comes to its end, the callback
returns what was last written as `result` on that object until then, in this frame or in any that
was entered inside it, and `undefined` if nothing was. -/
theorem callbacks_keep_their_events (p : Program σ) (hp : p.Grows) {start w : World σ}
    {frames frames' : List Cause} {root : Control σ} (hroot : root.Grows)
    (hstart : start.HasBridge) {depth : Nat} {f this : Value} {args : List Value}
    (h : Inside p frames root start frames' (.call (depth + 1) (.function f this args)) w)
    {fn : HostFunction} {id : UInt32} (hfn : w.heap.function? f = some fn)
    (hkind : fn.kind = .guestCallback id) (hrun : w.exitCode? = none) :
    let event : Value := .object w.heap.objects.size
    let begun := (w.publishing id this args).entering (.callback id)
    let result : Place := ⟨w.heap.objects.size, "result"⟩
    Inside p frames root start (.callback id :: frames') (.code depth p.resume) begun ∧
    w.heap.object? event = none ∧ begun.heap.get begun.bridge "_pendingEvent" = event ∧
    begun.heap.IsEvent event id this args ∧
    ∀ u, execute (p.callsWithin depth) p.resume begun = .ok () u →
      (p.callsWithin (depth + 1)).call f this args w =
        .ok (.returned (u.heap.read result)) u.leaving ∧
      u.heap.read result = (p.resume.settings result (p.callsWithin depth)
        (p.settings result depth) begun).getLast?.getD .undefined := by
  intro event begun result
  obtain ⟨-, hw⟩ := h.hasBridge hp hroot hstart
  obtain ⟨hnew, hsize, hcell, hevent⟩ := w.publishing_spec id this args hw
  refine ⟨h.inward (.callback hfn hkind (publishEvent_eq w id this args) hrun), hnew, hcell, hevent,
    fun u hu => ⟨?_, ?_⟩⟩
  · change p.callWith (p.callsWithin depth) f this args w = _
    rw [Program.callWith, fromHeap_bind, hfn]
    dsimp only
    rw [hkind]
    dsimp only
    have hframe : frame (p.callsWithin depth) (.callback id) p.resume (w.publishing id this args) =
        .ok () u.leaving := frame_ok hrun hu
    rw [callGuest, bind_ok (publishEvent_eq w id this args), bind_ok hframe]
    rfl
  · have hsets := sets_execute (sets_callsWithin hp result depth) hp.resume begun
    rw [hu] at hsets
    -- other callbacks write the cell, which is never the place of a result
    have hkey : "result" ≠ "_pendingEvent" := by decide
    have hother : ¬ begun.IsCell result := fun hcell => hkey hcell.2
    have hread := hsets.read hsize hother
    rwa [show begun.heap.read result = .undefined from hevent.unanswered] at hread

def answering (event : Value) (answer : String) : Code Unit Unit :=
  .heap (fun h => (.undefined, h.set event "result" (.string answer))) fun _ => .done ()

def nesting : Program Unit where
  stackPointer _ := 0
  run _ := .done ()
  resume := .observe fun w =>
    let event := w.heap.get w.bridge "_pendingEvent"
    if w.heap.get event "id" = .ofNat 1 then
      .heap (Heap.newCallback 2) fun f =>
        .call (.function f .undefined []) fun _ => answering event "outer"
    else answering event "inner"
  functions _ _ _ := .done (.returned .undefined)

def calling : World Unit :=
  let objects := #[⟨.object, .empty⟩, ⟨.object, .empty⟩]
  let functions := #[⟨"", .guestCallback 1, .empty⟩]
  .atRest ⟨#[], objects, #[], #[], functions⟩ (.object 0) (.object 1) .standard (.zeros 0) ⟨0, 0⟩ ()

/-- The answer of the callback inside is not taken for that of the one around it. -/
theorem callbacks_keep_their_events_nesting : ∃ u,
    (nesting.callsWithin 3).call (.function 0) .null [] calling =
      .ok (.returned (.string "outer")) u := by
  have hanswering : ∀ event answer, (answering event answer).Grows := fun event answer =>
    .heap (fun h => Nat.le_of_eq (h.size_set _ _ _).symm) fun _ => .done _
  have hnesting : nesting.Grows := by
    refine ⟨fun _ => .done _, .observe fun w => ?_, fun _ _ _ => .done _⟩
    dsimp only
    split
    · refine .heap (fun h => (Heap.keepsObjects_newFunction _ _ h).size_le) fun f => ?_
      exact .call _ fun _ => hanswering _ _
    · exact hanswering _ _
  have hbridge : calling.HasBridge := ⟨1, rfl, by decide⟩
  let root : Control Unit := .call 3 (.function (.function 0) .null [])
  have hroot : root.Grows := trivial
  have hcalled : Inside nesting [] root calling [] root calling := .root
  let result : Place := ⟨calling.heap.objects.size, "result"⟩
  let begun := (calling.publishing 1 .null []).entering (.callback 1)
  have hend : endsIn (fun _ => true) (execute (nesting.callsWithin 2) nesting.resume begun) =
      true := by
    decide +kernel
  have hsettings : nesting.resume.settings result (nesting.callsWithin 2)
      (nesting.settings result 2) begun = [.string "outer"] := by
    decide +kernel
  obtain ⟨-, -, -, -, hreturns⟩ :=
    callbacks_keep_their_events nesting hnesting hroot hbridge hcalled rfl rfl rfl
  obtain ⟨_, u, hexecute, -⟩ := exists_of_endsIn hend
  obtain ⟨hcall, hresult⟩ := hreturns u hexecute
  rw [hresult, hsettings] at hcall
  exact ⟨_, hcall⟩

end TokenizerHost
