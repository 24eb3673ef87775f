import TokenizerHost.Proofs.Run.Steps

set_option autoImplicit false

namespace TokenizerHost

open Host

variable {σ : Type}

def Request.import : Request → Import
  | .exit _ => .wasmExit
  | .write _ _ => .wasmWrite
  | .resetMemoryView => .resetMemoryDataView
  | .nanotime => .nanotime
  | .walltime => .walltime
  | .schedule _ => .scheduleTimeoutEvent
  | .clear _ => .clearTimeoutEvent
  | .fillRandom _ => .getRandomData
  | .finalize _ => .finalizeRef
  | .intern _ => .stringVal
  | .get _ _ => .valueGet
  | .set _ _ _ => .valueSet
  | .delete _ _ => .valueDelete
  | .index _ _ => .valueIndex
  | .setIndex _ _ _ => .valueSetIndex
  | .method _ _ _ => .valueCall
  | .invoke _ _ => .valueInvoke
  | .construct _ _ => .valueNew
  | .length _ => .valueLength
  | .prepareText _ => .valuePrepareString
  | .loadText _ _ => .valueLoadString
  | .instanceOf _ _ => .valueInstanceOf
  | .copyOut _ => .copyBytesOut
  | .copyIn _ => .copyBytesIn

theorem except_bind_ok {ε α β : Type} {x : Except ε α} {f : α → Except ε β} {b : β}
    (h : (x >>= f) = .ok b) : ∃ a, x = .ok a ∧ f a = .ok b := by
  cases x with
  | error e => cases h
  | ok a => exact ⟨a, rfl, h⟩

theorem Request.import_of_decode {i : Import} {operands : View} {sp : Nat} {r : Request}
    (h : decode i operands sp = .ok r) : r.import = i := by
  unfold decode at h
  cases i with
  | resetMemoryDataView | nanotime | walltime =>
    cases h
    rfl
  | wasmExit | scheduleTimeoutEvent | clearTimeoutEvent | getRandomData | finalizeRef | stringVal
  | valueLength | valuePrepareString =>
    obtain ⟨_, _, h⟩ := except_bind_ok h
    cases h
    rfl
  | valueGet | valueDelete | valueIndex | valueInvoke | valueNew | valueInstanceOf =>
    obtain ⟨_, _, h⟩ := except_bind_ok h
    obtain ⟨_, _, h⟩ := except_bind_ok h
    cases h
    rfl
  | valueSet | valueSetIndex | valueCall =>
    obtain ⟨_, _, h⟩ := except_bind_ok h
    obtain ⟨_, _, h⟩ := except_bind_ok h
    obtain ⟨_, _, h⟩ := except_bind_ok h
    cases h
    rfl
  | wasmWrite =>
    obtain ⟨_, _, h⟩ := except_bind_ok h
    obtain ⟨_, _, h⟩ := except_bind_ok h
    obtain ⟨_, _, h⟩ := except_bind_ok h
    obtain ⟨_, _, h⟩ := except_bind_ok h
    cases h
    rfl
  | valueLoadString =>
    obtain ⟨_, _, h⟩ := except_bind_ok h
    split at h
    · obtain ⟨_, _, h⟩ := except_bind_ok h
      cases h
      rfl
    · cases h
  | copyBytesOut | copyBytesIn =>
    obtain ⟨_, _, h⟩ := except_bind_ok h
    split at h
    · obtain ⟨_, _, h⟩ := except_bind_ok h
      cases h
      rfl
    · cases h
      rfl

namespace Import

variable {c : Calls σ}

theorem view_ok {w u : World σ} {operands : Request.View} (h : view w = .ok operands u) :
    u = w ∧ w.exitCode? = none ∧ operands.heap = w.heap := by
  unfold view at h
  split at h
  next hrun ht =>
    cases h
    exact ⟨rfl, hrun, rfl⟩
  next => cases h

theorem view_eq {w u : World σ} {operands : Request.View} (h : view w = .ok operands u) :
    ∃ t, w.table = some t ∧ operands = ⟨w.memory, t, w.heap⟩ := by
  unfold view at h
  split at h
  next t hrun ht =>
    cases h
    exact ⟨t, ht, rfl⟩
  next => cases h

theorem view_error {w u : World σ} {e : Fault} (h : view w = .error e u) : u = w := by
  unfold view at h
  split at h
  · cases h
  · cases h
    rfl

theorem dispatch_cases (c : Calls σ) (i : Import) (sp : Nat) (w : World σ) :
    (i = .resetMemoryDataView ∧ dispatch c i sp w = .ok () w) ∨
    (∃ e, dispatch c i sp w = .error e w ∧
      ∀ operands r, view w = .ok operands w → Request.decode i operands sp ≠ .ok r) ∨
    ∃ operands r, view w = .ok operands w ∧ Request.decode i operands sp = .ok r ∧
      dispatch c i sp w = perform c sp r w := by
  by_cases hi : i = .resetMemoryDataView
  · subst hi
    exact .inl ⟨rfl, rfl⟩
  · have hdispatch : dispatch c i sp w = (do
        let operands ← view
        let request ← Host.ofExcept (Request.decode i operands sp)
        perform c sp request) w := by
      unfold dispatch
      split
      · exact absurd rfl hi
      · rfl
    cases hv : view w with
    | error e u =>
      obtain rfl := view_error hv
      exact .inr (.inl ⟨e, hdispatch.trans (bind_error hv), fun _ _ h => nomatch h⟩)
    | ok operands u =>
      obtain ⟨rfl, -, -⟩ := view_ok hv
      rw [bind_ok hv] at hdispatch
      cases hr : Request.decode i operands sp with
      | error e =>
        rw [hr, bind_error (show Host.ofExcept (.error e) u = .error e u from rfl)] at hdispatch
        refine .inr (.inl ⟨e, hdispatch, fun operands' r h hr' => ?_⟩)
        cases h
        cases hr.symm.trans hr'
      | ok r =>
        rw [hr, bind_ok (show Host.ofExcept (.ok r) u = .ok r u from rfl)] at hdispatch
        exact .inr (.inr ⟨operands, r, rfl, hr, hdispatch⟩)

end Import

def Request.callee? (heap : Heap) : Request → Option Callee
  | .method receiver name args =>
    let f := heap.get receiver name
    if f.isFunction then some (.function f receiver args) else none
  | .invoke f args => some (.function f .undefined args)
  | .construct ctor args => some (.constructor ctor args)
  | _ => none

namespace Import

def callee? (i : Import) (sp : Nat) (w : World σ) : Option Callee :=
  match view w with
  | .ok operands _ =>
    match Request.decode i operands sp with
    | .ok r => r.callee? w.heap
    | .error _ => none
  | .error _ _ => none

theorem callMethod_misfit {c : Calls σ} {w : World σ} {receiver : Value} {name : String}
    {args : List Value} (h : (Request.method receiver name args).callee? w.heap = none) :
    callMethod c receiver name args w =
      throwTypeError s!"{receiver.typeName}.{name} is not a function" w := by
  have hnot : ¬ (w.heap.get receiver name).isFunction = true := fun hf => by
    simp only [Request.callee?, hf, if_true, reduceCtorEq] at h
  rw [callMethod, fromHeap_bind, if_neg hnot]

/-- Where an import that calls writes the outcome. -/
def outcomeOffset : Import → Nat
  | .valueCall => 56
  | _ => 40

variable {c : Calls σ}

theorem perform_of_callee {sp : Nat} {r : Request} {w : World σ} {callee : Callee}
    (h : r.callee? w.heap = some callee) :
    perform c sp r w = (callee.run c >>= storeOutcome c r.import.outcomeOffset) w := by
  cases r with
  | method receiver name args =>
    unfold Request.callee? at h
    dsimp only at h
    split at h
    next hf =>
      cases h
      refine bind_congr_at ?_
      rw [callMethod, fromHeap_bind, if_pos hf]
      rfl
    next => cases h
  | invoke f args =>
    cases h
    rfl
  | construct ctor args =>
    cases h
    rfl
  | _ => cases h

theorem request_of_callee {i : Import} {sp : Nat} {w : World σ} {callee : Callee}
    (h : i.callee? sp w = some callee) : ∃ operands r, view w = .ok operands w ∧
      Request.decode i operands sp = .ok r ∧ r.callee? w.heap = some callee := by
  unfold callee? at h
  split at h
  next operands u hv =>
    obtain ⟨rfl, -, -⟩ := view_ok hv
    split at h
    next r hr => exact ⟨operands, r, hv, hr, h⟩
    next => cases h
  next => cases h

/-- An import that calls a function makes the call and writes its outcome. -/
theorem dispatch_of_callee {i : Import} {sp : Nat} {w : World σ} {callee : Callee}
    (h : i.callee? sp w = some callee) :
    dispatch c i sp w = (callee.run c >>= storeOutcome c i.outcomeOffset) w := by
  obtain ⟨operands, r, hv, hr, hcallee⟩ := request_of_callee h
  rcases dispatch_cases c i sp w with ⟨rfl, -⟩ | ⟨e, -, hnot⟩ | ⟨operands', r', hv', hr', hdispatch⟩
  · cases hr
    cases hcallee
  · exact absurd hr (hnot operands r hv)
  · cases hv.symm.trans hv'
    cases hr.symm.trans hr'
    rw [hdispatch, perform_of_callee hcallee, Request.import_of_decode hr]

end Import

end TokenizerHost
