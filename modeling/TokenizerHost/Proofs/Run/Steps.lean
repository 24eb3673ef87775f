import TokenizerHost.Proofs.Memory.Fits
import TokenizerHost.Proofs.Run.Action
import TokenizerHost.Session

set_option autoImplicit false

/-!
# Every step of the host is a chain of actions

A step that ends in a chain of actions whether it faults or not is one of `Steps`. An import may
leave a lost slot behind when it faults, so it is only `Careful`; `Host.answer` makes it one of
`Steps` again, and so is everything that is built on imports: guest code, calls of functions, and
what the embedding program does with a guest.
-/

namespace TokenizerHost

variable {σ α β : Type}

namespace Host

def after : EStateM.Result Fault (World σ) α → World σ
  | .ok _ w => w
  | .error _ w => w

def endsIn (check : World σ → Bool) : EStateM.Result Fault (World σ) α → Bool
  | .ok _ w => check w
  | .error _ _ => false

theorem exists_of_endsIn {check : World σ → Bool} {r : EStateM.Result Fault (World σ) α}
    (h : endsIn check r = true) : ∃ a w, r = .ok a w ∧ check w = true := by
  cases r with
  | ok a w => exact ⟨a, w, rfl, h⟩
  | error e w => cases h

def faultsIn (check : World σ → Bool) : EStateM.Result Fault (World σ) α → Bool
  | .ok _ _ => false
  | .error _ w => check w

theorem exists_of_faultsIn {check : World σ → Bool} {r : EStateM.Result Fault (World σ) α}
    (h : faultsIn check r = true) : ∃ e w, r = .error e w ∧ check w = true := by
  cases r with
  | ok a w => cases h
  | error e w => exact ⟨e, w, rfl, h⟩

def Keeps (R : World σ → World σ → Prop) (step : Host σ α) : Prop := ∀ w, R w (after (step w))

abbrev Steps (step : Host σ α) : Prop := Keeps Reaches step

def Careful (step : Host σ α) (w : World σ) : Prop :=
  (∀ a u, step w = .ok a u → Reaches w u) ∧
    ∀ e u, step w = .error e u → ∃ x, Reaches w x ∧ Lost x u

theorem bind_congr_at {step step' : Host σ α} {f : α → Host σ β} {w : World σ}
    (h : step w = step' w) : (step >>= f) w = (step' >>= f) w := by
  change EStateM.bind step f w = EStateM.bind step' f w
  simp only [EStateM.bind, h]

theorem get_bind (f : World σ → Host σ β) (w : World σ) : (get >>= f) w = f w w := rfl

theorem fromHeap_bind (f : Heap → α) (g : α → Host σ β) (w : World σ) :
    (fromHeap f >>= g) w = g (f w.heap) w := rfl

theorem attempt_ok {step : Host σ α} {w u : World σ} {a : α} (h : step w = .ok a u) :
    attempt step w = .ok (.ok a) u := by
  simp only [attempt, h]

theorem attempt_error {step : Host σ α} {w u : World σ} {e : Fault} (h : step w = .error e u) :
    attempt step w = .ok (.error e) u := by
  simp only [attempt, h]

theorem discard_ok {step : Host σ α} {w u : World σ} {a : α} (h : step w = .ok a u) :
    (discard step : Host σ Unit) w = .ok () u := by
  change EStateM.map _ step w = _
  simp only [EStateM.map, h]

theorem discard_error {step : Host σ α} {w u : World σ} {e : Fault} (h : step w = .error e u) :
    (discard step : Host σ Unit) w = .error e u := by
  change EStateM.map _ step w = _
  simp only [EStateM.map, h]

section Keeps

variable {R : World σ → World σ → Prop}

theorem Keeps.ok {step : Host σ α} (h : Keeps R step) {w u : World σ} {a : α}
    (hw : step w = .ok a u) : R w u := by
  have := h w
  rwa [hw] at this

theorem Keeps.error {step : Host σ α} (h : Keeps R step) {w u : World σ} {e : Fault}
    (hw : step w = .error e u) : R w u := by
  have := h w
  rwa [hw] at this

theorem Keeps.mono {S : World σ → World σ → Prop} {step : Host σ α} (h : Keeps R step)
    (hRS : ∀ w u, R w u → S w u) : Keeps S step := fun w => hRS w _ (h w)

theorem Keeps.attempt {step : Host σ α} (hs : Keeps R step) : Keeps R (attempt step) := by
  intro w
  unfold Host.attempt
  cases hw : step w with
  | ok a u => exact hs.ok hw
  | error e u => exact hs.error hw

theorem keeps_modify {f : World σ → World σ} (h : ∀ w, R w (f w)) :
    Keeps R (modify f : Host σ Unit) := h

theorem keeps_clearTimer [Tolerant R] (id : Int32) : Keeps R (clearTimer id : Host σ Unit) :=
  keeps_modify fun w =>
    Tolerant.trans (Tolerant.minor (.ticked w _ (Scheduler.ticks_clear w.scheduler id)))
      (Tolerant.minor (.quiet ⟨rfl, rfl, rfl, rfl, rfl⟩))

section Chains

variable [Chains R]

/-- What follows a step need only be related to the world that the step comes to. -/
theorem after_bind {step : Host σ α} {f : α → Host σ β} {w : World σ} (hs : R w (after (step w)))
    (hf : ∀ a u, step w = .ok a u → R u (after (f a u))) : R w (after ((step >>= f) w)) := by
  cases hw : step w with
  | ok a u =>
    rw [hw] at hs
    rw [bind_ok hw]
    exact Chains.trans hs (hf a u hw)
  | error e u =>
    rw [hw] at hs
    rw [bind_error hw]
    exact hs

theorem Keeps.bind {step : Host σ α} {f : α → Host σ β} (hs : Keeps R step)
    (hf : ∀ a, Keeps R (f a)) : Keeps R (step >>= f) :=
  fun w => after_bind (hs w) fun a u _ => hf a u

/-! ## Primitive steps -/

theorem keeps_pure (a : α) : Keeps R (pure a : Host σ α) := fun w => Chains.refl w

theorem keeps_throw (e : Fault) : Keeps R (throw e : Host σ α) := fun w => Chains.refl w

theorem keeps_ofExcept (r : Except Fault α) : Keeps R (ofExcept r : Host σ α) := by
  intro w
  cases r with
  | ok a => exact Chains.refl w
  | error e => exact Chains.refl w

theorem keeps_get : Keeps R (get : Host σ (World σ)) := fun w => Chains.refl w

theorem keeps_fromHeap (f : Heap → α) : Keeps R (fromHeap f : Host σ α) := fun w =>
  Chains.refl w

theorem keeps_ensureNotExited : Keeps R (ensureNotExited : Host σ Unit) := by
  intro w
  unfold ensureNotExited
  cases w.exitCode? with
  | some code => exact Chains.refl w
  | none => exact Chains.refl w

theorem keeps_textOf (v : Value) : Keeps R (textOf v : Host σ String) := by
  refine (keeps_fromHeap _).bind fun text => ?_
  cases text with
  | some text => exact keeps_pure text
  | none => exact keeps_throw _

theorem keeps_freshStackPointer (c : Calls σ) : Keeps R (Import.freshStackPointer c) :=
  keeps_ensureNotExited.bind fun _ => keeps_get.bind fun _ => keeps_pure _

end Chains

section Gentle

variable [Gentle R]

theorem keeps_print (stream : Int) (bytes : ByteArray) :
    Keeps R (print stream bytes : Host σ (Except Fault Nat)) := fun w =>
  Gentle.prints w stream (w.console.write stream bytes).2

theorem keeps_notify (n : Notice) : Keeps R (notify n : Host σ Unit) := fun w =>
  Gentle.notifies w n

theorem keeps_making {f : HeapM α} (h : ∀ heap : Heap, heap.KeepsObjects (f heap).2) :
    Keeps R (onHeap f : Host σ α) := fun w => Gentle.makes (h w.heap)

theorem keeps_throwTypeError (message : String) :
    Keeps R (throwTypeError message : Host σ Outcome) :=
  (keeps_making (Heap.keepsObjects_newObjectWith _ _)).bind fun _ => keeps_pure _

theorem keeps_construct (c : Class) (args : List Value) :
    Keeps R (construct c args : Host σ Outcome) := by
  unfold construct
  cases c with
  | object => exact keeps_making (Heap.keepsObjects_constructObject _)
  | array => exact keeps_making (Heap.keepsObjects_constructArray _)
  | uint8Array => exact keeps_making (Heap.keepsObjects_constructBytes _)
  | date => exact keeps_get.bind fun _ => keeps_making (Heap.keepsObjects_constructDate _)
  | error =>
    have hmessage : ∀ message : String, Keeps R (do
        return Outcome.returned (← onHeap (Heap.newError message)) : Host σ Outcome) :=
      fun message => (keeps_making (Heap.keepsObjects_newObjectWith _ _)).bind fun _ => keeps_pure _
    dsimp only
    split
    · exact (keeps_pure _).bind hmessage
    · exact (keeps_textOf _).bind hmessage

end Gentle

section Booking

variable [Booking R]

theorem keeps_writing (f : MemoryM α) : Keeps R (onMemory f : Host σ α) := by
  intro w
  unfold onMemory
  cases w.exitCode? with
  | some code => exact Chains.refl w
  | none =>
    cases f w.memory with
    | ok a m => exact Booking.books rfl rfl rfl rfl
    | error e m => exact Booking.books rfl rfl rfl rfl

theorem keeps_storeValue (address : Nat) (v : Value) :
    Keeps R (storeValue address v : Host σ Unit) := by
  have hstore : Keeps R (storeInTable v : Host σ Slot) := by
    intro w
    unfold storeInTable
    cases w.table with
    | some t => exact Booking.books rfl rfl rfl rfl
    | none => exact Chains.refl w
  have hrecord : ∀ e, Keeps R (record e : Host σ Unit) := fun e =>
    keeps_modify fun w => Booking.books rfl rfl rfl rfl
  exact keeps_ensureNotExited.bind fun _ => hstore.bind fun _ => (keeps_writing _).bind fun _ =>
    hrecord _

end Booking

variable [Lenient R]

theorem keeps_onHeap (f : HeapM α) : Keeps R (onHeap f : Host σ α) := fun _ =>
  Lenient.slight (.quiet ⟨rfl, rfl, rfl, rfl, rfl⟩) rfl rfl

theorem keeps_onMemory (f : MemoryM α) : Keeps R (onMemory f : Host σ α) := by
  intro w
  unfold onMemory
  cases hrun : w.exitCode? with
  | some code => exact Lenient.refl w
  | none =>
    cases f w.memory with
    | ok a m => exact Lenient.slight (.wrote w m hrun) rfl rfl
    | error e m => exact Lenient.slight (.wrote w m hrun) rfl rfl

end Keeps

theorem ensureNotExited_ok {w u : World σ} {a : Unit} (h : ensureNotExited w = .ok a u) :
    u = w ∧ w.exitCode? = none := by
  unfold ensureNotExited at h
  split at h
  · cases h
  next hrun =>
    cases h
    exact ⟨rfl, hrun⟩

/-! ## Steps that may lose a slot -/

theorem Keeps.careful {step : Host σ α} (h : Keeps Reaches step) (w : World σ) : Careful step w :=
  ⟨fun _ _ hw => h.ok hw, fun _ u hw => ⟨u, h.error hw, .nothing u⟩⟩

theorem Careful.bind {step : Host σ α} {f : α → Host σ β} {w : World σ} (hs : Careful step w)
    (hf : ∀ a u, step w = .ok a u → Careful (f a) u) : Careful (step >>= f) w := by
  cases hw : step w with
  | ok a u =>
    unfold Careful
    rw [bind_ok hw]
    have hreach := hs.1 a u hw
    refine ⟨fun b x hx => hreach.trans ((hf a u hw).1 b x hx), fun e x hx => ?_⟩
    obtain ⟨y, hy, hlost⟩ := (hf a u hw).2 e x hx
    exact ⟨y, hreach.trans hy, hlost⟩
  | error e u =>
    unfold Careful
    rw [bind_error hw]
    refine ⟨(fun b x hx => nomatch hx), fun e' x hx => ?_⟩
    cases hx
    exact hs.2 e u hw

theorem onMemory_ok {f : MemoryM α} {w : World σ} {a : α} {m : Memory} (hrun : w.exitCode? = none)
    (h : f w.memory = .ok a m) :
    onMemory f w = .ok a ({ w with memory := m }.record .wrote) := by
  simp only [onMemory, hrun, h]

theorem onMemory_error {f : MemoryM α} {w : World σ} {e : Fault} {m : Memory}
    (hrun : w.exitCode? = none) (h : f w.memory = .error e m) :
    onMemory f w = .error e ({ w with memory := m }.record .wrote) := by
  simp only [onMemory, hrun, h]

theorem onMemory_eq_ok_iff {f : MemoryM α} {w u : World σ} {a : α} : onMemory f w = .ok a u ↔
    w.exitCode? = none ∧ ∃ m, f w.memory = .ok a m ∧ u = { w with memory := m }.record .wrote := by
  constructor
  · intro h
    unfold onMemory at h
    split at h
    · cases h
    next hrun =>
      split at h
      next a m hm =>
        cases h
        exact ⟨hrun, m, hm, rfl⟩
      next => cases h
  · rintro ⟨hrun, m, hm, rfl⟩
    exact onMemory_ok hrun hm

theorem storeInTable_some {w : World σ} {t : ValueTable} (ht : w.table = some t) (v : Value) :
    storeInTable v w = .ok (t.store v).1 (w.storing t v) := by
  simp only [storeInTable, ht]

theorem storeInTable_none {w : World σ} (ht : w.table = none) (v : Value) :
    storeInTable v w = .error (.alreadyExited (w.exitCode?.getD 0)) w := by
  simp only [storeInTable, ht]

theorem storeValue_eq_ok_iff {address : Nat} {v : Value} {w u : World σ} {a : Unit} :
    storeValue address v w = .ok a u ↔ w.exitCode? = none ∧ ∃ t m, w.table = some t ∧
      Memory.storeSlot address (t.store v).1 w.memory = .ok () m ∧
        u = (w.stored t v m).record (.handed address (t.store v).1) := by
  cases hrun : w.exitCode? with
  | some code =>
    have hexited : ensureNotExited w = .error (.alreadyExited code) w := by
      simp only [ensureNotExited, hrun]
    rw [storeValue, bind_error hexited]
    exact iff_of_false nofun nofun
  | none =>
    have hrunning : ensureNotExited w = .ok () w := by simp only [ensureNotExited, hrun]
    rw [storeValue, bind_ok hrunning]
    cases ht : w.table with
    | none =>
      rw [bind_error (storeInTable_none ht v)]
      exact iff_of_false nofun nofun
    | some t =>
      have hrun' : (w.storing t v).exitCode? = none := hrun
      rw [bind_ok (storeInTable_some ht v)]
      cases hm : Memory.storeSlot address (t.store v).1 (w.storing t v).memory with
      | ok _ m =>
        rw [bind_ok (onMemory_ok hrun' hm)]
        constructor
        · intro h
          cases h
          exact ⟨rfl, t, m, rfl, hm, rfl⟩
        · rintro ⟨-, t', m', ht', hm', rfl⟩
          cases ht'
          cases hm.symm.trans hm'
          rfl
      | error e m =>
        rw [bind_error (onMemory_error hrun' hm)]
        refine iff_of_false nofun ?_
        rintro ⟨-, t', m', ht', hm', -⟩
        cases ht'
        cases hm.symm.trans hm'

theorem storeValue_ok {address : Nat} {v : Value} {w : World σ} {t : ValueTable} {m : Memory}
    (hrun : w.exitCode? = none) (ht : w.table = some t)
    (hm : Memory.storeSlot address (t.store v).1 w.memory = .ok () m) :
    storeValue address v w = .ok () ((w.stored t v m).record (.handed address (t.store v).1)) :=
  storeValue_eq_ok_iff.2 ⟨hrun, t, m, ht, hm, rfl⟩

/-- A value that is handed out is stored and its slot written, or it is lost. -/
theorem careful_storeValue (address : Nat) (v : Value) (w : World σ) :
    Careful (storeValue address v) w := by
  refine (Keeps.careful keeps_ensureNotExited w).bind fun _ u hu => ?_
  obtain ⟨rfl, hrun⟩ := ensureNotExited_ok hu
  unfold Careful
  cases ht : u.table with
  | none =>
    rw [bind_error (storeInTable_none ht v)]
    refine ⟨(fun _ x hx => nomatch hx), fun e x hx => ?_⟩
    cases hx
    exact ⟨u, .refl u, .nothing u⟩
  | some t =>
    have hrun' : (u.storing t v).exitCode? = none := hrun
    rw [bind_ok (storeInTable_some ht v)]
    cases hm : Memory.storeSlot address (t.store v).1 (u.storing t v).memory with
    | ok a m =>
      rw [bind_ok (onMemory_ok hrun' hm)]
      refine ⟨fun _ x hx => ?_, fun e x hx => nomatch hx⟩
      cases hx
      exact .of_action (.handed u t v m address hrun ht)
    | error e m =>
      rw [bind_error (onMemory_error hrun' hm)]
      refine ⟨(fun _ x hx => nomatch hx), fun e' x hx => ?_⟩
      cases hx
      exact ⟨u, .refl u, .slot u t v m hrun ht⟩

end Host

end TokenizerHost
