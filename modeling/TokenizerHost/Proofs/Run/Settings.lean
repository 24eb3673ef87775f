import TokenizerHost.Proofs.Memory.Bytes
import TokenizerHost.Proofs.Run.Frames
import TokenizerHost.Proofs.Run.Native

set_option autoImplicit false

/-!
# What is written to a property

A `Place` is a property of an object. `Program.settings` collects the values that a call writes to
it, in order: requests of the guest write what they say, code of the host what it makes of the
place, and nested calls what they write in turn. All else that a run does to the heap leaves the
place alone, so that it ends up with the last of these values (`sets_execute`, `sets_callsWithin`).
The one exception is the cell of the bridge object through which guest callbacks get their events,
which the host writes as well: `Program.writings` takes what it writes there as given. `Follows`
says what a relation has to allow that follows all these values.
-/

namespace TokenizerHost

open Host

variable {σ α β : Type}

structure Place where
  object : Nat
  key : String

namespace Heap

def read (h : Heap) (place : Place) : Value := h.get (.object place.object) place.key

/-- What a change of the heap writes to a place. -/
def settings (place : Place) (h h' : Heap) : List Value :=
  if h'.read place = h.read place then [] else [h'.read place]

def Grows (f : HeapM α) : Prop := ∀ h : Heap, h.objects.size ≤ (f h).2.objects.size

end Heap

/-! ## Values written, in order -/

inductive Inner where
  | call (callee : Callee)
  | resume

def Request.settings (place : Place) : Request → List Value
  | .set v key x => if v = .object place.object ∧ key = place.key then [x] else []
  | .delete v key => if v = .object place.object ∧ key = place.key then [.undefined] else []
  | .setIndex v i x =>
    if v = .object place.object ∧ Text.decimal i = place.key then [x] else []
  | _ => []

def Import.settings (place : Place) (calls : Inner → World σ → List Value) (i : Import) (sp : Nat)
    (w : World σ) : List Value :=
  match view w with
  | .ok operands _ =>
    match Request.decode i operands sp with
    | .ok r =>
      match r.callee? w.heap with
      | some callee => calls (.call callee) w
      | none => r.settings place
    | .error _ => []
  | .error _ _ => []

def Host.settingsAfter (step : Host σ α) (next : α → World σ → List Value) (w : World σ) :
    List Value :=
  match step w with
  | .ok a u => next a u
  | .error _ _ => []

namespace Code

variable (place : Place) (c : Calls σ) (calls : Inner → World σ → List Value)

def settingsHere : Code σ α → World σ → List Value
  | .heap f _, w => w.heap.settings place (f w.heap).2
  | .request i sp _, w => i.settings place calls sp w
  | .call callee _, w => calls (.call callee) w
  | .resume _, w => calls .resume w
  | _, _ => []

def settings : Code σ α → World σ → List Value
  | .done _, _ | .fault _, _ => []
  | .observe next, w => settings (next w) w
  | .own state memory next, w => settings next { w with own := state, memory }
  | .heap f next, w => w.heap.settings place (f w.heap).2 ++
    settingsAfter (Host.onHeap f) (fun v => settings (next v)) w
  | .print stream bytes next, w =>
    settingsAfter (Host.print stream bytes) (fun r => settings (next r)) w
  | .note n next, w => settings next (w.notify n)
  | .request i sp next, w => i.settings place calls sp w ++
    settingsAfter (Host.answer i (Import.dispatch c i sp)) (fun r => settings (next r)) w
  | .call callee next, w => calls (.call callee) w ++
    settingsAfter (Host.attempt (callee.run c)) (fun r => settings (next r)) w
  | .resume next, w => calls .resume w ++
    settingsAfter (Host.attempt c.resume) (fun r => settings (next r)) w

theorem settings_of_advance {code rest : Code σ α} {w u : World σ}
    (h : code.advance c w = .ok rest u) : code.settings place c calls w =
      code.settingsHere place calls w ++ rest.settings place c calls u := by
  cases code with
  | done a => cases h; rfl
  | fault e => cases h
  | observe next => cases h; rfl
  | own s m next => cases h; rfl
  | heap f next => cases h; rfl
  | print stream bytes next => cases h; rfl
  | note n next => cases h; rfl
  | request i sp next =>
    obtain ⟨r, x, hr, hrest⟩ := exists_of_bind_ok h
    clear h
    cases hrest
    simp only [settings, settingsAfter, hr, settingsHere]
  | call callee next =>
    obtain ⟨r, x, hr, hrest⟩ := exists_of_bind_ok h
    clear h
    cases hrest
    simp only [settings, settingsAfter, hr, settingsHere]
  | resume next =>
    obtain ⟨r, x, hr, hrest⟩ := exists_of_bind_ok h
    clear h
    cases hrest
    simp only [settings, settingsAfter, hr, settingsHere]

theorem settings_ending (r : EStateM.Result Fault (World σ) α) (w : World σ) :
    (ending r).settings place c calls w = [] := by
  cases r with
  | ok a u => rfl
  | error e u => rfl

end Code

def World.publishing (w : World σ) (id : UInt32) (this : Value) (args : List Value) : World σ :=
  let (list, heap) := Heap.newArray args w.heap
  let (event, heap) :=
    Heap.newObjectWith .object [("id", .ofNat id.toNat), ("this", this), ("args", list)] heap
  { w with heap := heap.set w.bridge "_pendingEvent" event }

theorem publishEvent_eq (w : World σ) (id : UInt32) (this : Value) (args : List Value) :
    publishEvent id this args w =
      .ok (.object w.heap.objects.size) (w.publishing id this args) := rfl

def Program.settings (p : Program σ) (place : Place) :
    (depth : Nat) → Inner → World σ → List Value
  | 0, _, _ => []
  | depth + 1, .call (.function f this args), w =>
    match (w.heap.function? f).map HostFunction.kind with
    | some (.native n) => (Builtin.code p.functions n this args).settings place
        (p.callsWithin depth) (settings p place depth) w
    | some (.guestCallback id) =>
      let x := w.publishing id this args
      match x.exitCode? with
      | none => p.resume.settings place (p.callsWithin depth) (settings p place depth)
          (x.entering (.callback id))
      | some _ => []
    | _ => []
  | depth + 1, .call (.constructor ctor args), w =>
    match (w.heap.function? ctor).map HostFunction.kind with
    | some (.native n) => settingsAfter (onHeap (Heap.newObject .object)) (fun this =>
        (Builtin.code p.functions n this args).settings place (p.callsWithin depth)
          (settings p place depth)) w
    | _ => []
  | depth + 1, .resume, w =>
    match w.exitCode? with
    | none => p.resume.settings place (p.callsWithin depth) (settings p place depth)
        (w.entering .embedded)
    | some _ => []

/-- What is written where the host writes `published event` when it puts an event on the bridge
object. -/
def Program.writings (p : Program σ) (place : Place) (published : Value → List Value) :
    (depth : Nat) → Inner → World σ → List Value
  | 0, _, _ => []
  | depth + 1, .call (.function f this args), w =>
    match (w.heap.function? f).map HostFunction.kind with
    | some (.native n) => (Builtin.code p.functions n this args).settings place
        (p.callsWithin depth) (writings p place published depth) w
    | some (.guestCallback id) =>
      let x := w.publishing id this args
      published (.object w.heap.objects.size) ++
        match x.exitCode? with
        | none => p.resume.settings place (p.callsWithin depth) (writings p place published depth)
            (x.entering (.callback id))
        | some _ => []
    | _ => []
  | depth + 1, .call (.constructor ctor args), w =>
    match (w.heap.function? ctor).map HostFunction.kind with
    | some (.native n) => settingsAfter (onHeap (Heap.newObject .object)) (fun this =>
        (Builtin.code p.functions n this args).settings place (p.callsWithin depth)
          (writings p place published depth)) w
    | _ => []
  | depth + 1, .resume, w =>
    match w.exitCode? with
    | none => p.resume.settings place (p.callsWithin depth) (writings p place published depth)
        (w.entering .embedded)
    | some _ => []

theorem Program.settings_eq_writings (p : Program σ) (place : Place) (depth : Nat) :
    p.settings place depth = p.writings place (fun _ => []) depth := by
  induction depth with
  | zero => rfl
  | succ depth ih =>
    funext inner w
    match inner with
    | .call (.function f this args) => simp only [settings, writings, ih, List.nil_append]
    | .call (.constructor ctor args) => simp only [settings, writings, ih]
    | .resume => simp only [settings, writings, ih]

/-! ## Worlds before and after -/

/-- Relations between worlds, one for each list of values written to a place in between: the last of
them is what the place holds, and all else that is done writes none. -/
class Follows (place : outParam Place) (published : outParam (Value → List Value))
    (S : List Value → World σ → World σ → Prop) : Prop where
  aside {w u : World σ} (hbridge : u.bridge = w.bridge) (hheap : u.heap = w.heap) : S [] w u
  append {values later : List Value} {w u x : World σ} : S values w u → S later u x →
    S (values ++ later) w x
  writes {values : List Value} {w : World σ} {heap : Heap}
    (hsize : w.heap.objects.size ≤ heap.objects.size)
    (hread : place.object < w.heap.objects.size →
      heap.read place = values.getLast?.getD (w.heap.read place)) : S values w { w with heap }
  publishes (w : World σ) (event : Value) :
    S (published event) w { w with heap := w.heap.set w.bridge "_pendingEvent" event }

namespace Follows

variable {place : Place} {published : Value → List Value}
  {S : List Value → World σ → World σ → Prop} [hS : Follows place published S]

include hS

theorem gentle : Gentle (S []) where
  refl _ := aside rfl rfl
  trans := append
  makes h := writes h.size_le fun hplace => h.get hplace place.key
  prints _ _ _ := aside rfl rfl
  notifies _ _ := aside rfl rfl

theorem booking : Booking (S []) where
  refl _ := aside rfl rfl
  trans := append
  books hheap hbridge _ _ := aside hbridge hheap

end Follows

namespace World

def IsCell (w : World σ) (place : Place) : Prop :=
  w.bridge = .object place.object ∧ place.key = "_pendingEvent"

/-- No object is forgotten, and a place that there is holds the last of some values, if there is
any. -/
structure Sets (place : Place) (values : List Value) (w u : World σ) : Prop where
  bridge : u.bridge = w.bridge
  size : w.heap.objects.size ≤ u.heap.objects.size
  read : place.object < w.heap.objects.size → ¬ w.IsCell place →
    u.heap.read place = values.getLast?.getD (w.heap.read place)

namespace Sets

variable {place : Place} {w u x : World σ} {values later : List Value}

theorem of_keepsObjects (hbridge : u.bridge = w.bridge) (h : w.heap.KeepsObjects u.heap) :
    w.Sets place [] u := ⟨hbridge, h.size_le, fun hplace _ => h.get hplace place.key⟩

theorem of_eq (hbridge : u.bridge = w.bridge) (h : u.heap = w.heap) : w.Sets place [] u :=
  .of_keepsObjects hbridge (h ▸ .refl _)

theorem append (hwu : w.Sets place values u) (hux : u.Sets place later x) :
    w.Sets place (values ++ later) x := by
  refine ⟨hux.bridge.trans hwu.bridge, Nat.le_trans hwu.size hux.size, fun hplace hcell => ?_⟩
  have hcell' : ¬ u.IsCell place := fun h => hcell ⟨hwu.bridge ▸ h.1, h.2⟩
  have hplace' : place.object < u.heap.objects.size := Nat.lt_of_lt_of_le hplace hwu.size
  rw [hux.read hplace' hcell', hwu.read hplace hcell, List.getLast?_append, Option.getD_or]

end Sets

end World

variable {place : Place}

instance : Follows place (fun _ => []) (World.Sets (σ := σ) place) where
  aside := .of_eq
  append := .append
  writes hsize hread := ⟨rfl, hsize, fun hplace _ => hread hplace⟩
  publishes w event := by
    refine ⟨rfl, Nat.le_of_eq (Heap.size_set _ _ _ _).symm, fun hplace hcell => ?_⟩
    have hother : ¬ (w.bridge = .object place.object ∧ "_pendingEvent" = place.key) := fun h =>
      hcell ⟨h.1, h.2.symm⟩
    exact (Heap.get_set hplace _ _ _ _).trans (if_neg hother)

instance : Mild (World.Sets (σ := σ) place []) where
  toGentle := Follows.gentle
  publishes := Follows.publishes (S := World.Sets place)

section Follows

variable {published : Value → List Value} {S : List Value → World σ → World σ → Prop}
  [hS : Follows place published S]

include hS

theorem sets_write {f : Heap → Heap} {values : List Value}
    (hsize : ∀ h : Heap, (f h).objects.size = h.objects.size)
    (hread : ∀ h : Heap, place.object < h.objects.size →
      (f h).read place = values.getLast?.getD (h.read place)) (w : World σ) :
    S values w (after ((onHeap (modify f) : Host σ Unit) w)) :=
  Follows.writes (Nat.le_of_eq (hsize w.heap).symm) (hread w.heap)

theorem sets_perform (c : Calls σ) (sp : Nat) {r : Request} {w : World σ}
    (hcallee : r.callee? w.heap = none) :
    S (r.settings place) w (after (Import.perform c sp r w)) := by
  have hgentle := hS.gentle
  have hbooking := hS.booking
  have hget : Keeps (S []) (get : Host σ (World σ)) := keeps_get
  have hheap : ∀ {γ : Type} (f : Heap → γ), Keeps (S []) (fromHeap f : Host σ γ) :=
    fun f => keeps_fromHeap f
  have hmemory : ∀ {γ : Type} (f : MemoryM γ), Keeps (S []) (onMemory f : Host σ γ) :=
    fun f => keeps_writing f
  have hstore : ∀ address v, Keeps (S []) (storeValue address v : Host σ Unit) :=
    keeps_storeValue
  unfold Import.perform
  cases r with
  | invoke | construct => cases hcallee
  | set v key x =>
    refine sets_write (fun h => h.size_set v key x) (fun h hplace => ?_) w
    rw [Heap.read, Heap.get_set hplace, Request.settings]
    split <;> rfl
  | delete v key =>
    refine sets_write (fun h => h.size_delete v key) (fun h hplace => ?_) w
    rw [Heap.read, Heap.get_delete hplace, Request.settings]
    split <;> rfl
  | setIndex v i x =>
    have hsize : ∀ h : Heap, (h.setIndex v i x).objects.size = h.objects.size := fun h => by
      rw [h.objects_setIndex, h.size_set]
    refine sets_write hsize (fun h hplace => ?_) w
    rw [Heap.read, Heap.get_setIndex hplace, Request.settings]
    split <;> rfl
  -- a method that is no function is not called, but an error is made of it
  | method receiver name args =>
    have hcall : S [] w (after (Import.callMethod c receiver name args w)) := by
      rw [Import.callMethod_misfit hcallee]
      exact keeps_throwTypeError _ w
    exact after_bind (R := S []) hcall fun outcome u _ =>
      Import.keeps_storeOutcome c 56 outcome u
  | exit code => exact Follows.aside rfl rfl
  | write stream bytes => exact Follows.aside rfl rfl
  | resetMemoryView => exact Follows.aside rfl rfl
  | nanotime => exact (hget.bind fun _ => hmemory _) w
  | walltime => exact (hget.bind fun _ => hmemory _) w
  | schedule delay =>
    have harm : S [] w { w with scheduler := (w.scheduler.schedule delay).2 } :=
      Follows.aside rfl rfl
    exact Follows.append harm (hmemory (Memory.setI32 (sp + 16) _) _)
  | clear id => exact Follows.aside rfl rfl
  | fillRandom target =>
    have hdrawn : S [] w { w with entropy := (Import.randomBytes w.entropy target.length).2 } :=
      Follows.aside rfl rfl
    exact Follows.append hdrawn (hmemory _ _)
  | finalize id => exact Follows.aside rfl rfl
  | intern text => exact hstore _ _ w
  | get v key =>
    exact ((hheap _).bind fun _ => (keeps_freshStackPointer c).bind fun _ => hstore _ _) w
  | index v i => exact ((hheap _).bind fun _ => hstore _ _) w
  | length v => exact ((hheap _).bind fun _ => hmemory _) w
  | prepareText v =>
    have hstaged : ∀ text : String, Keeps (S []) (do
        let staged ← onHeap (Heap.newBytes text.toUTF8)
        storeValue (sp + 16) staged
        onMemory (Memory.setI64 (sp + 24) text.toUTF8.size)) := fun text =>
      (keeps_making (Heap.keepsObjects_newBytes _)).bind fun _ => (hstore _ _).bind fun _ =>
        hmemory _
    have htext : Keeps (S []) (textOf v : Host σ String) := keeps_textOf v
    exact (htext.bind hstaged) w
  | loadText bytes target => exact hmemory _ w
  | instanceOf v ctor => exact ((hheap _).bind fun _ => hmemory _) w
  | copyOut source =>
    cases source with
    | none => exact hmemory _ w
    | some source => exact ((hmemory _).bind fun _ => hmemory _) w
  | copyIn target =>
    cases target with
    | none => exact hmemory _ w
    | some target =>
      refine ((hheap _).bind fun _ => ?_) w
      refine (keeps_making fun h => ?_).bind fun _ => hmemory _
      exact .of_eq (Heap.objects_setBytes h _ _)

/-! ## Imports, code and calls -/

structure Calls.Sets (S : List Value → World σ → World σ → Prop)
    (calls : Inner → World σ → List Value) (c : Calls σ) : Prop where
  call : ∀ (callee : Callee) (w : World σ), S (calls (.call callee) w) w (after (callee.run c w))
  resume : ∀ w : World σ, S (calls .resume w) w (after (c.resume w))

variable {calls : Inner → World σ → List Value} {c : Calls σ}

omit hS in
theorem Import.settings_of_callee {i : Import} {sp : Nat} {w : World σ} {callee : Callee}
    (h : i.callee? sp w = some callee) :
    i.settings place calls sp w = calls (.call callee) w := by
  obtain ⟨operands, r, hv, hr, hcallee⟩ := Import.request_of_callee h
  simp only [Import.settings, hv, hr, hcallee]

theorem sets_bind {step : Host σ α} {f : α → Host σ β} {w : World σ} {values : List Value}
    (hs : S values w (after (step w))) (hf : ∀ a, Keeps (S []) (f a)) :
    S values w (after ((step >>= f) w)) := by
  cases hstep : step w with
  | ok a u =>
    rw [hstep] at hs
    rw [bind_ok hstep, ← List.append_nil values]
    exact Follows.append hs (hf a u)
  | error e u =>
    rw [hstep] at hs
    rwa [bind_error hstep]

theorem sets_dispatch (hc : c.Sets S calls) (i : Import) (sp : Nat) (w : World σ) :
    S (i.settings place calls sp w) w (after (Import.dispatch c i sp w)) := by
  have hbooking := hS.booking
  cases hcallee : i.callee? sp w with
  | some callee =>
    rw [Import.settings_of_callee hcallee, Import.dispatch_of_callee hcallee]
    exact sets_bind (hc.call callee w) fun outcome => Import.keeps_storeOutcome c _ outcome
  | none =>
    rcases Import.dispatch_cases c i sp w with ⟨rfl, h⟩ | ⟨e, h, hnot⟩ | ⟨operands, r, hv, hr, h⟩
    · have hnone : Import.settings place calls .resetMemoryDataView sp w = [] := by
        unfold Import.settings
        cases Import.view w with
        | ok operands u => rfl
        | error e u => rfl
      rw [hnone, h]
      exact Follows.aside rfl rfl
    · have hnone : i.settings place calls sp w = [] := by
        unfold Import.settings
        cases hv : Import.view w with
        | ok operands u =>
          obtain ⟨rfl, -, -⟩ := Import.view_ok hv
          cases hr : Request.decode i operands sp with
          | ok r => exact absurd hr (hnot operands r hv)
          | error e => simp only [hr]
        | error e u => rfl
      rw [hnone, h]
      exact Follows.aside rfl rfl
    · have hrequest : r.callee? w.heap = none := by
        simpa only [Import.callee?, hv, hr] using hcallee
      have hsettings : i.settings place calls sp w = r.settings place := by
        simp only [Import.settings, hv, hr, hrequest]
      rw [hsettings, h]
      exact sets_perform c sp hrequest

theorem sets_answer (hc : c.Sets S calls) (i : Import) (sp : Nat) (w : World σ) :
    S (i.settings place calls sp w) w (after (answer i (Import.dispatch c i sp) w)) := by
  have hdispatch := sets_dispatch hc i sp w
  have hrecord : ∀ (u : World σ) (e : Option Fault), S [] u (u.record (.answered i e)) :=
    fun _ _ => Follows.aside rfl rfl
  rw [← List.append_nil (i.settings place calls sp w)]
  cases h : Import.dispatch c i sp w with
  | ok a u =>
    rw [h] at hdispatch
    rw [answer_ok i h]
    exact Follows.append hdispatch (hrecord u none)
  | error e u =>
    rw [h] at hdispatch
    rw [answer_error i h]
    exact Follows.append hdispatch (hrecord u (some e))

omit hS in
theorem after_attempt (step : Host σ α) (w : World σ) :
    after (attempt step w) = after (step w) := by
  cases h : step w with
  | ok a u =>
    rw [attempt_ok h]
    rfl
  | error e u =>
    rw [attempt_error h]
    rfl

def Code.Grows (code : Code σ α) : Prop := code.Within Heap.Grows True

theorem sets_heap {f : HeapM α} (hf : Heap.Grows f) (w : World σ) :
    S (w.heap.settings place (f w.heap).2) w (after (onHeap f w)) := by
  refine Follows.writes (hf w.heap) fun _ => ?_
  unfold Heap.settings
  split
  next hsame => exact hsame
  next => rfl

theorem sets_advance (hc : c.Sets S calls) {code rest : Code σ α} {w u : World σ}
    (hcode : code.Grows) (h : code.advance c w = .ok rest u) :
    rest.Grows ∧ S (code.settingsHere place calls w) w u := by
  cases hcode with
  | done a => cases h; exact ⟨.done a, Follows.aside rfl rfl⟩
  | fault e => cases h
  | observe hnext => cases h; exact ⟨hnext w, Follows.aside rfl rfl⟩
  | own _ state memory hnext => cases h; exact ⟨hnext, Follows.aside rfl rfl⟩
  | heap hf hnext => cases h; exact ⟨hnext _, sets_heap hf w⟩
  | print stream bytes hnext => cases h; exact ⟨hnext _, Follows.aside rfl rfl⟩
  | note n hnext => cases h; exact ⟨hnext, Follows.aside rfl rfl⟩
  | request _ i sp hnext =>
    obtain ⟨r, x, hr, hrest⟩ := exists_of_bind_ok h
    clear h
    cases hrest
    have hanswer := sets_answer hc i sp w
    rw [hr] at hanswer
    exact ⟨hnext r, hanswer⟩
  | call callee hnext =>
    obtain ⟨r, x, hr, hrest⟩ := exists_of_bind_ok h
    clear h
    cases hrest
    have hcall := hc.call callee w
    rw [← after_attempt, hr] at hcall
    exact ⟨hnext r, hcall⟩
  | resume hnext =>
    obtain ⟨r, x, hr, hrest⟩ := exists_of_bind_ok h
    clear h
    cases hrest
    have hresumed := hc.resume w
    rw [← after_attempt, hr] at hresumed
    exact ⟨hnext r, hresumed⟩

theorem sets_execute (hc : c.Sets S calls) {code : Code σ α} (hcode : code.Grows) (w : World σ) :
    S (code.settings place c calls w) w (after (execute c code w)) := by
  -- the invariant: what has been written, and what the rest writes, make up the whole
  have hend := executes_through (c := c) (M := fun rest u => rest.Grows ∧ ∃ values,
      S values w u ∧ code.settings place c calls w = values ++ rest.settings place c calls u)
    (fun rest rest' u x ⟨hrest, values, hvalues, hwhole⟩ hstep => by
      obtain ⟨hrest', hhere⟩ := sets_advance hc hrest hstep
      refine ⟨hrest', _, Follows.append hvalues hhere, ?_⟩
      rw [hwhole, Code.settings_of_advance place c calls hstep, List.append_assoc])
    code w ⟨hcode, [], Follows.aside rfl rfl, rfl⟩
  obtain ⟨-, values, hvalues, hwhole⟩ := hend
  rw [Code.settings_ending, List.append_nil] at hwhole
  rwa [hwhole]

theorem sets_frame (hc : c.Sets S calls) {code : Code σ Unit} (hcode : code.Grows)
    (cause : Cause) {w : World σ} (hrun : w.exitCode? = none) :
    S (code.settings place c calls (w.entering cause)) w (after (frame c cause code w)) := by
  have hentered : S [] w (w.entering cause) := Follows.aside rfl rfl
  have hleft : ∀ u : World σ, S [] u u.leaving := fun _ => Follows.aside rfl rfl
  have hwhole := Follows.append hentered (Follows.append (sets_execute hc hcode _) (hleft _))
  rw [List.nil_append, List.append_nil] at hwhole
  rwa [after_frame hrun]

end Follows

structure Program.Grows (p : Program σ) : Prop where
  run : ∀ a, (p.run a).Grows
  resume : p.resume.Grows
  functions : ∀ name this args, (p.functions name this args).Grows

section Program

variable {p : Program σ}

theorem Program.Grows.code (hp : p.Grows) (n : Native) (this : Value) (args : List Value) :
    (Builtin.code p.functions n this args).Grows :=
  Builtin.code_within (fun props h => (Heap.keepsObjects_newObjectWith .error props h).size_le)
    (fun id h => (Heap.keepsObjects_newFunction "" (.guestCallback id) h).size_le)
    fun name _ => hp.functions name this args

variable {published : Value → List Value} {S : List Value → World σ → World σ → Prop}
  [hS : Follows place published S] {c : Calls σ} {calls : Inner → World σ → List Value}

include hS

theorem sets_publishing (w : World σ) (id : UInt32) (this : Value) (args : List Value) :
    S (published (.object w.heap.objects.size)) w (w.publishing id this args) := by
  have hgentle := hS.gentle
  let making : HeapM Value := do
    let list ← Heap.newArray args
    Heap.newObjectWith .object [("id", .ofNat id.toNat), ("this", this), ("args", list)]
  have hmakes : ∀ h : Heap, h.KeepsObjects (making h).2 := fun h =>
    Heap.keepsObjects_bind (Heap.keepsObjects_newElements _ h)
      fun _ => Heap.keepsObjects_newObjectWith _ _
  let made : World σ := { w with heap := (making w.heap).2 }
  have hmade : S [] w made := Gentle.makes (hmakes w.heap)
  have hpublished := Follows.publishes (S := S) made (making w.heap).1
  rw [show (making w.heap).1 = .object w.heap.objects.size from rfl] at hpublished
  exact Follows.append hmade hpublished

theorem sets_resuming (hc : c.Sets S calls) (hp : p.Grows) (cause : Cause) (w : World σ) :
    S (match w.exitCode? with
        | none => p.resume.settings place c calls (w.entering cause)
        | some _ => []) w
      (after (frame c cause p.resume w)) := by
  cases hrun : w.exitCode? with
  | none => exact sets_frame hc hp.resume cause hrun
  | some code =>
    rw [frame_exited hrun]
    exact Follows.aside rfl rfl

theorem sets_callGuest (hc : c.Sets S calls) (hp : p.Grows) (id : UInt32) (this : Value)
    (args : List Value) (w : World σ) :
    S (published (.object w.heap.objects.size) ++
        match (w.publishing id this args).exitCode? with
        | none => p.resume.settings place c calls
            ((w.publishing id this args).entering (.callback id))
        | some _ => []) w
      (after (callGuest c p.resume id this args w)) := by
  have hgentle := hS.gentle
  have hpublished := sets_publishing (S := S) w id this args
  have hanswer : ∀ event : Value, Keeps (S []) (do
      return .returned (← fromHeap (·.get event "result")) : Host σ Outcome) := fun _ =>
    (keeps_fromHeap _).bind fun _ => keeps_pure _
  rw [callGuest, bind_ok (publishEvent_eq w id this args)]
  exact Follows.append hpublished (sets_bind (sets_resuming hc hp _ _) fun _ => hanswer _)

theorem follows_callsWithin (hp : p.Grows) (depth : Nat) :
    (p.callsWithin depth).Sets S (p.writings place published depth) := by
  have hgentle := hS.gentle
  induction depth with
  | zero =>
    refine ⟨?_, fun w => Follows.aside rfl rfl⟩
    rintro (⟨f, this, args⟩ | ⟨ctor, args⟩) w
    · exact Follows.aside rfl rfl
    · exact Follows.aside rfl rfl
  | succ depth ih =>
    refine ⟨?_, sets_resuming ih hp .embedded⟩
    have hthrow : ∀ message, Keeps (S []) (throwTypeError message : Host σ Outcome) :=
      keeps_throwTypeError
    rintro (⟨f, this, args⟩ | ⟨ctor, args⟩) w
    · change S _ w (after (p.callWith (p.callsWithin depth) f this args w))
      rw [Program.callWith, fromHeap_bind, Program.writings]
      cases w.heap.function? f with
      | none => exact hthrow _ w
      | some fn =>
        obtain ⟨name, kind, props⟩ := fn
        cases kind with
        | native n => exact sets_execute ih (hp.code n this args) w
        | constructor cls =>
          cases cls with
          | uint8Array => exact hthrow _ w
          | _ => exact Host.keeps_construct (R := S []) _ args w
        | guestCallback id => exact sets_callGuest ih hp id this args w
    · change S _ w (after (p.constructWith (p.callsWithin depth) ctor args w))
      rw [Program.constructWith, fromHeap_bind, Program.writings]
      cases w.heap.function? ctor with
      | none => exact hthrow _ w
      | some fn =>
        obtain ⟨name, kind, props⟩ := fn
        cases kind with
        | native n =>
          have hmade : S [] w { w with heap := (Heap.newObject .object w.heap).2 } :=
            Gentle.makes (Heap.keepsObjects_newObject .object w.heap)
          refine Follows.append hmade
            (sets_bind (sets_execute ih (hp.code n _ args) _) fun outcome => ?_)
          cases outcome with
          | returned v => exact keeps_pure _
          | thrown v => exact keeps_pure _
        | constructor cls => exact Host.keeps_construct (R := S []) cls args w
        | guestCallback id => exact hthrow _ w

omit hS in
theorem sets_callsWithin (hp : p.Grows) (place : Place) (depth : Nat) :
    (p.callsWithin depth).Sets (World.Sets place) (p.settings place depth) := by
  rw [p.settings_eq_writings]
  exact follows_callsWithin hp depth

end Program

end TokenizerHost
