import TokenizerHost.Proofs.Memory.Bytes
import TokenizerHost.Proofs.Run.Accounting
import TokenizerHost.Proofs.Run.Situation
import TokenizerHost.Proofs.Table.Reuse

set_option autoImplicit false

namespace TokenizerHost

open Host

variable {σ : Type}

/-! ## The table of a run -/

section Tables

variable {global bridge : Value} {w u : World σ}

/-- The table is consistent unless it has more entries than there are handles. -/
def World.TableConsistent (global bridge : Value) (w : World σ) : Prop :=
  ∀ t, w.table = some t → t.entries.size ≤ 2 ^ 32 → t.Consistent global bridge

theorem World.TableConsistent.congr (hw : w.TableConsistent global bridge)
    (ht : u.table = w.table) : u.TableConsistent global bridge := fun t hu => hw t (ht ▸ hu)

theorem World.TableConsistent.stored (hw : w.TableConsistent global bridge) {t : ValueTable}
    (ht : w.table = some t) (v : Value) (m : Memory) :
    (w.stored t v m).TableConsistent global bridge := by
  intro t' ht' hsize
  cases ht'
  have hbefore : t.Consistent global bridge :=
    hw t ht ((ValueTable.size_le_store t v).trans hsize)
  exact hbefore.store v hsize

theorem Action.tableConsistent (h : Action w u) (hw : w.TableConsistent global bridge) :
    u.TableConsistent global bridge := by
  cases h with
  | minor h =>
    cases h with
    | quiet h => exact hw.congr h.table
    | printed | wrote | ticked => exact hw.congr rfl
  | owned | answered | entered | left => exact hw.congr rfl
  | handed t v m address hrun ht => exact (hw.stored ht v m).congr rfl
  | finalized id hrun =>
    intro t' ht' hsize
    obtain ⟨t, ht, rfl⟩ := Option.map_eq_some_iff.1 ht'
    exact (hw t ht ((ValueTable.size_release t id).ge.trans hsize)).release id
  | failed i e h =>
    cases h with
    | nothing => exact hw.congr rfl
    | slot t v m hrun ht => exact (hw.stored ht v m).congr rfl
  | exited code hrun => exact fun _ ht => nomatch ht

theorem tableConsistent_fresh (o : HostOptions) (memory : Memory) (around : Surroundings)
    (own : σ) : (World.fresh o memory around own).TableConsistent (.object 0) (.object 5) := by
  intro t ht _
  rw [table_fresh] at ht
  cases ht
  exact ValueTable.new_consistent (by decide)

theorem Reaches.tableConsistent (h : Reaches w u) (hw : w.TableConsistent global bridge) :
    u.TableConsistent global bridge := h.keeps (fun _ _ haction => haction.tableConsistent) hw

end Tables

/-! ## Writing an outcome -/

def Outcome.Wordless (heap : Heap) : Outcome → Prop
  | .returned _ => False
  | .thrown v => heap.text? v = none

def Outcome.flag (outcome : Outcome) : UInt8 := if outcome.isReturned then 1 else 0

/-- Why the outcome of a call cannot be handed back. -/
inductive Outcome.Unwritable (c : Calls σ) (offset : Nat) (outcome : Outcome) (w : World σ) :
    Prop where
  | exited (code : Int32) (h : w.exitCode? = some code)
  | wordless (h : outcome.Wordless w.heap)
  | outside (h : w.memory.size < c.stackPointer w.own + offset + 9)

namespace World

def outcomeStored (w : World σ) (t : ValueTable) (outcome : Outcome) (address : Nat)
    (m m' : Memory) : World σ :=
  let handed := (w.stored t outcome.value m).record (.handed address (t.store outcome.value).1)
  { handed with memory := m' }.record .wrote

end World

section StoreOutcome

variable {c : Calls σ} {offset : Nat} {outcome : Outcome} {w u : World σ}

theorem freshStackPointer_eq_ok_iff {sp : Nat} : Import.freshStackPointer c w = .ok sp u ↔
    w.exitCode? = none ∧ sp = c.stackPointer w.own ∧ u = w := by
  constructor
  · intro h
    obtain ⟨_, x, hx, hget⟩ := exists_of_bind_ok h
    obtain ⟨rfl, hrun⟩ := ensureNotExited_ok hx
    clear h
    cases hget
    exact ⟨hrun, rfl, rfl⟩
  · rintro ⟨hrun, rfl, rfl⟩
    rw [Import.freshStackPointer, bind_ok (ensureNotExited_running hrun)]
    rfl

theorem storeOutcome_eq (hrun : w.exitCode? = none) (hwords : ¬ outcome.Wordless w.heap) :
    Import.storeOutcome c offset outcome w = (do
      storeValue (c.stackPointer w.own + offset) outcome.value
      onMemory (Memory.setU8 (c.stackPointer w.own + offset + 8) outcome.flag)) w := by
  have hfresh : Import.freshStackPointer c w = .ok (c.stackPointer w.own) w :=
    freshStackPointer_eq_ok_iff.2 ⟨hrun, rfl, rfl⟩
  cases outcome with
  | returned v => exact bind_ok hfresh
  | thrown v =>
    obtain ⟨text, htext⟩ := Option.ne_none_iff_exists'.1 hwords
    exact (bind_ok (discard_ok (textOf_of_text htext))).trans (bind_ok hfresh)

theorem storeOutcome_eq_ok_iff : Import.storeOutcome c offset outcome w = .ok () u ↔
    w.exitCode? = none ∧ ¬ outcome.Wordless w.heap ∧ ∃ t m m', w.table = some t ∧
      Memory.storeSlot (c.stackPointer w.own + offset) (t.store outcome.value).1 w.memory =
        .ok () m ∧
      Memory.setU8 (c.stackPointer w.own + offset + 8) outcome.flag m = .ok () m' ∧
      u = w.outcomeStored t outcome (c.stackPointer w.own + offset) m m' := by
  cases hrun : w.exitCode? with
  | some code =>
    rw [Import.storeOutcome_exited hrun]
    exact iff_of_false nofun nofun
  | none =>
    by_cases hwords : outcome.Wordless w.heap
    · have hfails : Import.storeOutcome c offset outcome w = .error .stackExhausted w := by
        cases outcome with
        | returned v => exact hwords.elim
        | thrown v => exact bind_error (discard_error (textOf_of_no_text hwords))
      rw [hfails]
      exact iff_of_false nofun fun h => h.2.1 hwords
    · rw [storeOutcome_eq hrun hwords]
      constructor
      · intro h
        obtain ⟨_, x, hx, h⟩ := exists_of_bind_ok h
        obtain ⟨-, t, m, ht, hm, rfl⟩ := storeValue_eq_ok_iff.1 hx
        obtain ⟨-, m', hm', rfl⟩ := onMemory_eq_ok_iff.1 h
        exact ⟨rfl, hwords, t, m, m', ht, hm, hm', rfl⟩
      · rintro ⟨-, -, t, m, m', ht, hm, hm', rfl⟩
        rw [bind_ok (storeValue_ok hrun ht hm)]
        exact onMemory_eq_ok_iff.2 ⟨hrun, m', hm', rfl⟩

/-- An outcome is handed back unless there is a reason against it, and then it is not. -/
theorem storeOutcome_succeeds_iff (hw : w.Settled) :
    (∃ u, Import.storeOutcome c offset outcome w = .ok () u) ↔ ¬ outcome.Unwritable c offset w := by
  constructor
  · rintro ⟨u, h⟩ hnot
    obtain ⟨hrun, hwords, t, m, m', -, hm, hm', -⟩ := storeOutcome_eq_ok_iff.1 h
    cases hnot with
    | exited code hexit => cases hrun.symm.trans hexit
    | wordless hnone => exact hwords hnone
    | outside hout =>
      have hsize : m.size = w.memory.size := (Memory.differs_setWord hm).size
      have hin := (Memory.write_eq_ok_iff.1 hm').1
      rw [Memory.size_word] at hin
      omega
  · intro hnot
    have hrun : w.exitCode? = none := Option.eq_none_iff_forall_ne_some.2 fun code hexit =>
      hnot (.exited code hexit)
    obtain ⟨t, ht⟩ := Option.isSome_iff_exists.1 (hw.running hrun).1
    have hin : c.stackPointer w.own + offset + 9 ≤ w.memory.size :=
      Nat.le_of_not_lt fun hout => hnot (.outside hout)
    obtain ⟨m, hm, hsize⟩ : Memory.Fits (Memory.storeSlot (c.stackPointer w.own + offset)
      (t.store outcome.value).1) w.memory () := Memory.fits_setWord (by omega)
    obtain ⟨m', hm', -⟩ : Memory.Fits (Memory.setU8 (c.stackPointer w.own + offset + 8)
      outcome.flag) m () := Memory.fits_setWord (by omega)
    have hwords : ¬ outcome.Wordless w.heap := fun hnone => hnot (.wordless hnone)
    exact ⟨_, storeOutcome_eq_ok_iff.2 ⟨hrun, hwords, t, m, m', ht, hm, hm', rfl⟩⟩

/-- In two cells of its memory the guest reads the value of an outcome, as long as its handles do
not run out, and whether it was returned. -/
structure World.HandsBack (w : World σ) (address : Nat) (outcome : Outcome) : Prop where
  value : ∃ t, w.table = some t ∧ (t.entries.size ≤ 2 ^ 32 →
    w.memory.loadValue t address = .ok outcome.value.canonical)
  flag : w.memory.getU8 (address + 8) = .ok outcome.flag

theorem handsBack_of_storeOutcome {global bridge : Value} (hw : w.TableConsistent global bridge)
    (h : Import.storeOutcome c offset outcome w = .ok () u) :
    u.own = w.own ∧ u.heap = w.heap ∧ u.HandsBack (c.stackPointer u.own + offset) outcome := by
  obtain ⟨-, -, t, m, m', ht, hm, hm', rfl⟩ := storeOutcome_eq_ok_iff.1 h
  refine ⟨rfl, rfl, ⟨(t.store outcome.value).2, rfl, fun hsize => ?_⟩, Memory.getU8_setU8 hm'⟩
  -- The flag lies past the slot.
  have hslot : m'.loadSlot (c.stackPointer w.own + offset) = .ok (t.store outcome.value).1 := by
    rw [(Memory.differs_setWord hm').loadSlot_beside (.inl (Nat.le_refl _)),
      Memory.loadSlot_storeSlot hm,
      Slot.decode_encode (ValueTable.canonical_store t outcome.value)]
  have hconsistent : t.Consistent global bridge :=
    hw t ht ((ValueTable.size_le_store t outcome.value).trans hsize)
  exact Memory.loadValue_of_slot hslot (hconsistent.resolve_store hsize)

end StoreOutcome

/-! ## Values that cannot be called -/

namespace Heap

structure IsTypeError (h : Heap) (v : Value) (message : String) : Prop where
  cls : h.classOf? v = some .error
  name : h.get v "name" = .string "TypeError"
  message : h.get v "message" = .string message

theorem isTypeError_newTypeError (message : String) (h : Heap) :
    (newTypeError message h).2.IsTypeError (newTypeError message h).1 message :=
  ⟨classOf?_newObjectWith .error _ h, get_newObjectWith _ _ h "name",
    get_newObjectWith _ _ h "message"⟩

theorem IsTypeError.text {h : Heap} {v : Value} {message : String}
    (hv : h.IsTypeError v message) : h.text? v = some ("TypeError: " ++ message) := by
  obtain ⟨hcls, hname, hmessage⟩ := hv
  cases v with
  | object o =>
    obtain ⟨object, hobject, hcls⟩ := Option.map_eq_some_iff.1 hcls
    simp only [text?, textWithin, hobject, Option.elim_some, hcls, beq_self_eq_true, if_true, hname,
      hmessage, Value.isNullish, Bool.false_eq_true, if_false]
    rfl
  | _ => cases hcls

end Heap

namespace Request

def call? (c : Calls σ) : Request → Option (Host σ Outcome)
  | .method receiver name args => some (Import.callMethod c receiver name args)
  | .invoke f args => some (c.call f .undefined args)
  | .construct ctor args => some (c.construct ctor args)
  | _ => none

/-- What is wrong with calling what is no function, or making what is no constructor. -/
def misfit? (heap : Heap) : Request → Option String
  | .method receiver name _ =>
    if (heap.get receiver name).isFunction then none
    else some s!"{receiver.typeName}.{name} is not a function"
  | .invoke f _ => if f.isFunction then none else some s!"{f.typeName} is not a function"
  | .construct ctor _ =>
    match heap.function? ctor with
    | none => some s!"{ctor.typeName} is not a constructor"
    | some ⟨name, .guestCallback _, _⟩ =>
      let name := if name.isEmpty then "function" else name
      some s!"{name} is not a constructor"
    | some _ => none
  | _ => none

variable {p : Program σ} {depth : Nat} {r : Request} {step : Host σ Outcome} {w : World σ}
  {message : String}

theorem throws_of_misfit (hcall : r.call? (p.callsWithin (depth + 1)) = some step)
    (h : r.misfit? w.heap = some message) : step w = throwTypeError message w := by
  cases r with
  | method receiver name args =>
    cases hcall
    unfold misfit? at h
    dsimp only at h
    split at h
    · cases h
    next hf =>
      cases h
      exact Import.callMethod_misfit (if_neg hf)
  | invoke f args =>
    cases hcall
    unfold misfit? at h
    dsimp only at h
    split at h
    · cases h
    next hf =>
      cases h
      change Program.callWith _ _ _ _ _ w = _
      rw [Program.callWith, fromHeap_bind]
      cases f with
      | function => exact absurd rfl hf
      | _ => rfl
  | construct ctor args =>
    cases hcall
    unfold misfit? at h
    dsimp only at h
    change Program.constructWith _ _ _ _ w = _
    rw [Program.constructWith, fromHeap_bind]
    split at h
    next hnone =>
      cases h
      rw [hnone]
    next hsome =>
      cases h
      rw [hsome]
    next => cases h
  | _ => cases hcall

theorem call?_keeps (hcall : r.call? (p.callsWithin depth) = some step) : Steps step := by
  have hproper : (p.callsWithin depth).Proper := p.keeping_callsWithin depth
  cases r with
  | method receiver name args =>
    cases hcall
    exact Import.keeps_callMethod hproper receiver name args
  | invoke f args =>
    cases hcall
    exact hproper.call f .undefined args
  | construct ctor args =>
    cases hcall
    exact hproper.construct ctor args
  | _ => cases hcall

theorem perform_of_call {c : Calls σ} (sp : Nat) (hcall : r.call? c = some step) :
    Import.perform c sp r = step >>= Import.storeOutcome c r.import.outcomeOffset := by
  cases r with
  | method | invoke | construct =>
    cases hcall
    rfl
  | _ => cases hcall

end Request

theorem Program.stackPointer_callsWithin (p : Program σ) (depth : Nat) :
    (p.callsWithin depth).stackPointer = p.stackPointer := by
  cases depth with
  | zero => rfl
  | succ depth => rfl

theorem dispatch_of_decode_ok {c : Calls σ} {i : Import} {sp : Nat} {w : World σ}
    {operands : Request.View} {r : Request} (hv : Import.view w = .ok operands w)
    (hr : Request.decode i operands sp = .ok r) (hi : i ≠ .resetMemoryDataView) :
    Import.dispatch c i sp w = Import.perform c sp r w := by
  rcases Import.dispatch_cases c i sp w with ⟨rfl, -⟩ | ⟨e, -, hnot⟩ | ⟨operands', r', hv', hr', h⟩
  · exact absurd rfl hi
  · exact absurd hr (hnot operands r hv)
  · cases hv.symm.trans hv'
    cases hr.symm.trans hr'
    exact h

/-- Outcomes of calls come back in band. At every moment of every run, an import that calls passes
on a fault of the call. Whatever the call comes to otherwise, the guest reads in the two cells
relative to the stack pointer that it has then, unless it has exited, its memory ends before the
cells, or what was thrown cannot be put into words. Calling what is no function, or making what is
no constructor, throws an error that says so. -/
theorem call_outcomes_come_back (p : Program σ) (o : HostOptions) (memory : Memory)
    (around : Surroundings) (own : σ) {control : Control σ} {w : World σ}
    (h : Moment p (.fresh o memory around own) control w) (depth : Nat) {i : Import} {sp : Nat}
    {operands : Request.View} {r : Request} {step : Host σ Outcome}
    (hv : Import.view w = .ok operands w) (hr : Request.decode i operands sp = .ok r)
    (hcall : r.call? (p.callsWithin depth) = some step) :
    (∀ e u, step w = .error e u → Import.dispatch (p.callsWithin depth) i sp w = .error e u) ∧
    (∀ outcome u, step w = .ok outcome u →
      (∃ x, Import.dispatch (p.callsWithin depth) i sp w = .ok () x ∧ x.own = u.own ∧
        x.heap = u.heap ∧ x.HandsBack (p.stackPointer x.own + i.outcomeOffset) outcome) ∨
      (outcome.Unwritable (p.callsWithin depth) i.outcomeOffset u ∧
        ∃ e x, Import.dispatch (p.callsWithin depth) i sp w = .error e x)) ∧
    ∀ message, r.misfit? w.heap = some message → depth ≠ 0 →
      p.stackPointer w.own + i.outcomeOffset + 9 ≤ w.memory.size →
      ∃ x v, Import.dispatch (p.callsWithin depth) i sp w = .ok () x ∧ x.own = w.own ∧
        x.heap.IsTypeError v message ∧
        x.HandsBack (p.stackPointer x.own + i.outcomeOffset) (.thrown v) := by
  have hdispatch : Import.dispatch (p.callsWithin depth) i sp w =
      (step >>= Import.storeOutcome (p.callsWithin depth) i.outcomeOffset) w := by
    have hi : i ≠ .resetMemoryDataView := by
      rintro rfl
      cases hr
      cases hcall
    rw [dispatch_of_decode_ok hv hr hi, Request.perform_of_call sp hcall,
      Request.import_of_decode hr]
  have hback : ∀ outcome u, step w = .ok outcome u →
      (∃ x, Import.dispatch (p.callsWithin depth) i sp w = .ok () x ∧ x.own = u.own ∧
        x.heap = u.heap ∧ x.HandsBack (p.stackPointer x.own + i.outcomeOffset) outcome) ∨
      (outcome.Unwritable (p.callsWithin depth) i.outcomeOffset u ∧
        ∃ e x, Import.dispatch (p.callsWithin depth) i sp w = .error e x) := by
    intro outcome u hstep
    have hreaches : Reaches (.fresh o memory around own) u :=
      h.reaches.trans ((Request.call?_keeps hcall).ok hstep)
    rw [hdispatch, bind_ok hstep]
    cases hstore : Import.storeOutcome (p.callsWithin depth) i.outcomeOffset outcome u with
    | ok _ x =>
      have hhands := handsBack_of_storeOutcome
        (hreaches.tableConsistent (tableConsistent_fresh o memory around own)) hstore
      rw [p.stackPointer_callsWithin] at hhands
      exact .inl ⟨x, rfl, hhands⟩
    | error e x =>
      refine .inr ⟨by_contra fun hnot => ?_, e, x, rfl⟩
      have hsettled := hreaches.keeps (fun _ _ haction => haction.settled)
        (settled_fresh o memory around own)
      obtain ⟨_, hok⟩ := (storeOutcome_succeeds_iff hsettled).2 hnot
      cases hstore.symm.trans hok
  refine ⟨fun e u hstep => hdispatch.trans (bind_error hstep), hback, ?_⟩
  intro message hmisfit hdepth hfits
  obtain ⟨depth, rfl⟩ := Nat.exists_eq_succ_of_ne_zero hdepth
  have herror := Heap.isTypeError_newTypeError message w.heap
  have hstep : step w = .ok (.thrown (Heap.newTypeError message w.heap).1)
      { w with heap := (Heap.newTypeError message w.heap).2 } :=
    Request.throws_of_misfit hcall hmisfit
  rcases hback _ _ hstep with ⟨x, hok, hown, hheap, hhands⟩ | ⟨hnot, -⟩
  · exact ⟨x, _, hok, hown, hheap ▸ herror, hhands⟩
  · cases hnot with
    | exited code hexit => cases (Import.view_ok hv).2.1.symm.trans hexit
    | wordless hnone => cases hnone.symm.trans herror.text
    | outside hout => exact absurd hout (Nat.not_lt.2 hfits)

def blank : World Unit := .fresh .standard (.zeros 64) ⟨0, 0⟩ ()

theorem call_outcomes_come_back_blank : ∃ x v,
    Import.dispatch (askingTwice.callsWithin 1) .valueInvoke 0 blank = .ok () x ∧
      x.heap.IsTypeError v "undefined is not a function" ∧ x.HandsBack 40 (.thrown v) := by
  have hmemory : blank.memory = .zeros 64 := (arguments_fresh _ _ _ _).2.2
  have hrun : blank.exitCode? = none := congrArg Scheduler.exitCode? (scheduler_fresh _ _ _ _)
  have hv : Import.view blank =
      .ok ⟨blank.memory, .new (.object 0) (.object 5), blank.heap⟩ blank := by
    simp only [Import.view, hrun, show blank.table = _ from table_fresh _ _ _ _]
  have hr : Request.decode .valueInvoke ⟨blank.memory, .new (.object 0) (.object 5), blank.heap⟩ 0 =
      .ok (.invoke .undefined []) := by
    rw [hmemory]
    rfl
  have hfits : 0 + 40 + 9 ≤ blank.memory.size := by
    rw [hmemory]
    decide
  have hback :=
    call_outcomes_come_back askingTwice .standard (.zeros 64) ⟨0, 0⟩ () .start 1 hv hr rfl
  obtain ⟨x, v, hok, -, herror, hhands⟩ := hback.2.2 _ rfl Nat.one_ne_zero hfits
  exact ⟨x, v, hok, herror, hhands⟩

end TokenizerHost
