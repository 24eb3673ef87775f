import TokenizerHost.Proofs.Heap.Limits
import TokenizerHost.Proofs.Import.Outcome
import TokenizerHost.Proofs.Run.Callbacks

set_option autoImplicit false

/-!
# Where limits of containers are not kept

The host checks the length of a container when a length is asked for and when an element is written,
but not when it makes a container of what it is given: an array of the arguments of its constructor,
the array of arguments in the event of a guest callback, the bytes of a text. `Control.Overdraws` says
when such a container goes beyond its limit. A run keeps the limits exactly if it never comes to that
(`limits_hold_unless_overdrawn`).
-/

namespace TokenizerHost

open Host

variable {σ α : Type}

/-! ## Going beyond a limit -/

def Callee.Overdraws (w : World σ) : Callee → Prop
  | .function f _ args => maxArrayLength < args.length ∧
    ∃ fn, w.heap.function? f = some fn ∧
      (fn.kind = .constructor .array ∨ ∃ id, fn.kind = .guestCallback id)
  | .constructor ctor args => maxArrayLength < args.length ∧
    ∃ fn, w.heap.function? ctor = some fn ∧ fn.kind = .constructor .array

/-- A text becomes a byte array, which is longer than byte arrays may be. -/
def Request.Overdraws (h : Heap) : Request → Prop
  | .prepareText v => ∃ text, h.text? v = some text ∧ maxBytesLength < text.toUTF8.size
  | _ => False

def Code.Overdraws (w : World σ) : Code σ α → Prop
  | .request i sp _ => ∃ operands r, Import.view w = .ok operands w ∧
    Request.decode i operands sp = .ok r ∧ r.Overdraws w.heap
  | _ => False

/-- What is carried out next goes beyond a limit; a call does if it is made at all. -/
def Control.Overdraws (w : World σ) : Control σ → Prop
  | .code _ rest => rest.Overdraws w
  | .call (_ + 1) callee => callee.Overdraws w
  | _ => False

def Code.KeepsLimits (code : Code σ α) : Prop := code.Within Heap.KeepsLimits True

def Control.KeepsLimits : Control σ → Prop
  | .code _ rest => rest.KeepsLimits
  | _ => True

structure Program.KeepsLimits (p : Program σ) : Prop where
  run : ∀ a, (p.run a).KeepsLimits
  resume : p.resume.KeepsLimits
  functions : ∀ name this args, (p.functions name this args).KeepsLimits

theorem Program.KeepsLimits.code {p : Program σ} (hp : p.KeepsLimits) (n : Native) (this : Value)
    (args : List Value) : (Builtin.code p.functions n this args).KeepsLimits :=
  Builtin.code_within (fun props => Heap.keepsLimits_newObjectWith .error props)
    (fun id => Heap.keepsLimits_newFunction "" (.guestCallback id))
    fun name _ => hp.functions name this args

/-! ## Steps that make no container of what they are given -/

def World.Limited (w u : World σ) : Prop := w.heap.WithinLimits → u.heap.WithinLimits

instance : Booking (World.Limited (σ := σ)) where
  refl _ := id
  trans hwu hux := hux ∘ hwu
  books hheap _ _ _ hw := hheap ▸ hw

theorem limited_onHeap {f : HeapM α} (hf : Heap.KeepsLimits f) :
    Keeps World.Limited (onHeap f : Host σ α) := fun w => hf w.heap

theorem limited_throwTypeError (message : String) :
    Keeps World.Limited (throwTypeError message : Host σ Outcome) :=
  (limited_onHeap (Heap.keepsLimits_newObjectWith _ _)).bind fun _ => keeps_pure _

theorem limited_construct {c : Class} {args : List Value}
    (hargs : c = .array → args.length ≤ maxArrayLength) :
    Keeps World.Limited (construct c args : Host σ Outcome) := by
  unfold construct
  cases c with
  | object => exact limited_onHeap (Heap.keepsLimits_constructObject _)
  | array => exact limited_onHeap (Heap.keepsLimits_constructArray (hargs rfl))
  | uint8Array => exact limited_onHeap (Heap.keepsLimits_constructBytes _)
  | date => exact keeps_get.bind fun _ => limited_onHeap (Heap.keepsLimits_constructDate _)
  | error =>
    have hmessage : ∀ message : String, Keeps World.Limited (do
        return Outcome.returned (← onHeap (Heap.newError message)) : Host σ Outcome) :=
      fun message => (limited_onHeap (Heap.keepsLimits_newObjectWith _ _)).bind fun _ =>
        keeps_pure _
    dsimp only
    split
    · exact (keeps_pure _).bind hmessage
    · exact (keeps_textOf _).bind hmessage

theorem perform_prepareText (c : Calls σ) (sp : Nat) {v : Value} {text : String} {w : World σ}
    (htext : w.heap.text? v = some text) : Import.perform c sp (.prepareText v) w =
      (do
        storeValue (sp + 16) (Heap.newBytes text.toUTF8 w.heap).1
        onMemory (Memory.setI64 (sp + 24) text.toUTF8.size) : Host σ Unit)
        { w with heap := (Heap.newBytes text.toUTF8 w.heap).2 } := by
  unfold Import.perform
  dsimp only
  rw [bind_ok (textOf_of_text htext)]
  rfl

theorem limited_perform (c : Calls σ) (sp : Nat) {r : Request} {w : World σ}
    (hcallee : r.callee? w.heap = none) (hr : ¬ r.Overdraws w.heap) :
    w.Limited (after (Import.perform c sp r w)) := by
  have hget : Keeps World.Limited (get : Host σ (World σ)) := keeps_get
  have hheap : ∀ {γ : Type} (f : Heap → γ), Keeps World.Limited (fromHeap f : Host σ γ) :=
    fun f => keeps_fromHeap f
  have hmemory : ∀ {γ : Type} (f : MemoryM γ), Keeps World.Limited (onMemory f : Host σ γ) :=
    fun f => keeps_writing f
  have hstore : ∀ address v, Keeps World.Limited (storeValue address v : Host σ Unit) :=
    keeps_storeValue
  have hsame : ∀ {u : World σ}, u.heap = w.heap → w.Limited u := fun h hw => h ▸ hw
  unfold Import.perform
  cases r with
  | invoke | construct => cases hcallee
  | set v key x => exact fun hw => hw.set v key x
  | delete v key => exact fun hw => hw.delete v key
  | setIndex v i x => exact fun hw => hw.setIndex v i x
  | method receiver name args =>
    have hcall : w.Limited (after (Import.callMethod c receiver name args w)) := by
      rw [Import.callMethod_misfit hcallee]
      exact limited_throwTypeError _ w
    exact after_bind hcall fun outcome u _ => Import.keeps_storeOutcome c 56 outcome u
  | exit code | write stream bytes | resetMemoryView | clear id | finalize id => exact hsame rfl
  | nanotime => exact (hget.bind fun _ => hmemory _) w
  | walltime => exact (hget.bind fun _ => hmemory _) w
  | schedule delay =>
    have harm : w.Limited { w with scheduler := (w.scheduler.schedule delay).2 } := hsame rfl
    exact Chains.trans harm (hmemory (Memory.setI32 (sp + 16) _) _)
  | fillRandom target =>
    have hdrawn : w.Limited
        { w with entropy := (Import.randomBytes w.entropy target.length).2 } := hsame rfl
    exact Chains.trans hdrawn (hmemory _ _)
  | intern text => exact hstore _ _ w
  | get v key =>
    exact ((hheap _).bind fun _ => (keeps_freshStackPointer c).bind fun _ => hstore _ _) w
  | index v i => exact ((hheap _).bind fun _ => hstore _ _) w
  | length v => exact ((hheap _).bind fun _ => hmemory _) w
  | prepareText v =>
    cases htext : w.heap.text? v with
    | none =>
      dsimp only
      rw [bind_error (textOf_of_no_text htext)]
      exact Chains.refl w
    | some text =>
      have hsize : text.toUTF8.size ≤ maxBytesLength :=
        Nat.le_of_not_lt fun hlt => hr ⟨text, htext, hlt⟩
      have hstaged := limited_onHeap (Heap.keepsLimits_newBytes hsize) w
      have hperform := perform_prepareText c sp htext
      unfold Import.perform at hperform
      rw [hperform]
      exact Chains.trans hstaged (((hstore _ _).bind fun _ => hmemory _) _)
  | loadText bytes target => exact hmemory _ w
  | instanceOf v ctor => exact ((hheap _).bind fun _ => hmemory _) w
  | copyOut source =>
    cases source with
    | none => exact hmemory _ w
    | some source => exact ((hmemory _).bind fun _ => hmemory _) w
  | copyIn target =>
    cases target with
    | none => exact hmemory _ w
    | some target =>
      obtain ⟨v, source⟩ := target
      refine ((hheap _).bind fun _ => ?_) w
      have hwrite : Keeps World.Limited (onHeap (modify fun h : Heap =>
          h.setBytes v (Buffer.overwrite ((h.bytes? v).getD .empty) source)) : Host σ Unit) :=
        limited_onHeap fun h hw => hw.overwrite v source
      exact hwrite.bind fun _ => hmemory _

/-! ## Runs that make no such container -/

def Frugal (p : Program σ) (frames : List Cause) (control : Control σ) (w : World σ) : Prop :=
  ∀ frames' control' u, Inside p frames control w frames' control' u → ¬ control'.Overdraws u

section Frugal

variable {p : Program σ} {frames frames' frames'' : List Cause}
  {control control' control'' : Control σ} {w u x : World σ}

theorem Inside.of_inward (hstep : Inward p frames control w frames' control' u)
    (h : Inside p frames' control' u frames'' control'' x) :
    Inside p frames control w frames'' control'' x := by
  induction h with
  | root => exact .inward .root hstep
  | inward _ hlast ih => exact ih.inward hlast

theorem Frugal.here (h : Frugal p frames control w) : ¬ control.Overdraws w := h _ _ _ .root

theorem Frugal.inward (h : Frugal p frames control w)
    (hstep : Inward p frames control w frames' control' u) : Frugal p frames' control' u :=
  fun _ _ _ hinside => h _ _ _ (hinside.of_inward hstep)

/-- Calls keep limits unless something that they do goes beyond one. -/
structure Program.CallsKeepLimits (p : Program σ) (depth : Nat) : Prop where
  call : ∀ (frames : List Cause) (callee : Callee) (w : World σ),
    Frugal p frames (.call depth callee) w →
      w.Limited (after (callee.run (p.callsWithin depth) w))
  resume : ∀ {α : Type} (frames : List Cause) (next : Except Fault Unit → Code σ α) (w : World σ),
    Frugal p frames (.code depth (.resume next)) w →
      w.Limited (after ((p.callsWithin depth).resume w))

variable {depth : Nat}

theorem limited_answer (hcalls : p.CallsKeepLimits depth) {i : Import} {sp : Nat}
    {next : Except Fault Unit → Code σ α} (hw : Frugal p frames (.code depth (.request i sp next)) w) :
    w.Limited (after (answer i (Import.dispatch (p.callsWithin depth) i sp) w)) := by
  have hdispatch : w.Limited (after (Import.dispatch (p.callsWithin depth) i sp w)) := by
    cases hcallee : i.callee? sp w with
    | some callee =>
      rw [Import.dispatch_of_callee hcallee]
      have hcall := hcalls.call frames callee w (hw.inward (.calls hcallee))
      exact after_bind hcall fun outcome u _ => Import.keeps_storeOutcome _ _ outcome u
    | none =>
      rcases Import.dispatch_cases (p.callsWithin depth) i sp w with
        ⟨-, h⟩ | ⟨e, h, -⟩ | ⟨operands, r, hv, hr, h⟩
      · rw [h]
        exact Chains.refl w
      · rw [h]
        exact Chains.refl w
      · have hrequest : r.callee? w.heap = none := by
          simpa only [Import.callee?, hv, hr] using hcallee
        rw [h]
        exact limited_perform _ sp hrequest fun hover => hw.here ⟨operands, r, hv, hr, hover⟩
  have hrecord : ∀ (u : World σ) (e : Option Fault), u.Limited (u.record (.answered i e)) :=
    fun _ _ => id
  cases h : Import.dispatch (p.callsWithin depth) i sp w with
  | ok a u =>
    rw [h] at hdispatch
    rw [answer_ok i h]
    exact Chains.trans hdispatch (hrecord u none)
  | error e u =>
    rw [h] at hdispatch
    rw [answer_error i h]
    exact Chains.trans hdispatch (hrecord u (some e))

theorem limited_advance (hcalls : p.CallsKeepLimits depth) {code rest : Code σ α}
    (hcode : code.KeepsLimits) (hw : Frugal p frames (.code depth code) w)
    (h : code.advance (p.callsWithin depth) w = .ok rest u) : rest.KeepsLimits ∧ w.Limited u := by
  cases hcode with
  | done a => cases h; exact ⟨.done a, id⟩
  | fault e => cases h
  | observe hnext => cases h; exact ⟨hnext w, id⟩
  | own _ state memory hnext => cases h; exact ⟨hnext, id⟩
  | heap hf hnext => cases h; exact ⟨hnext _, hf w.heap⟩
  | print stream bytes hnext => cases h; exact ⟨hnext _, id⟩
  | note n hnext => cases h; exact ⟨hnext, id⟩
  | request _ i sp hnext =>
    obtain ⟨r, x, hr, hrest⟩ := exists_of_bind_ok h
    clear h
    cases hrest
    have hanswer := limited_answer hcalls hw
    rw [hr] at hanswer
    exact ⟨hnext r, hanswer⟩
  | call callee hnext =>
    obtain ⟨r, x, hr, hrest⟩ := exists_of_bind_ok h
    clear h
    cases hrest
    have hcall := hcalls.call frames callee w (hw.inward (.calls rfl))
    rw [← after_attempt, hr] at hcall
    exact ⟨hnext r, hcall⟩
  | resume hnext =>
    obtain ⟨r, x, hr, hrest⟩ := exists_of_bind_ok h
    clear h
    cases hrest
    have hresumed := hcalls.resume frames _ w hw
    rw [← after_attempt, hr] at hresumed
    exact ⟨hnext r, hresumed⟩

theorem limited_execute (hcalls : p.CallsKeepLimits depth) {code : Code σ α}
    (hcode : code.KeepsLimits) (hw : Frugal p frames (.code depth code) w) :
    w.Limited (after (execute (p.callsWithin depth) code w)) := by
  have hend := executes_through (c := p.callsWithin depth)
    (M := fun rest u => rest.KeepsLimits ∧ Frugal p frames (.code depth rest) u ∧ w.Limited u)
    (fun rest rest' u x ⟨hrest, hu, hlimited⟩ hstep => by
      obtain ⟨hrest', hstepped⟩ := limited_advance hcalls hrest hu hstep
      exact ⟨hrest', hu.inward (.advances hstep), Chains.trans hlimited hstepped⟩)
    code w ⟨hcode, hw, id⟩
  exact hend.2.2

theorem limited_publishing (id : UInt32) (this : Value) {args : List Value}
    (hargs : args.length ≤ maxArrayLength) (w : World σ) :
    w.Limited (w.publishing id this args) := by
  intro hw
  let list := (Heap.newArray args w.heap).1
  let props := [("id", Value.ofNat id.toNat), ("this", this), ("args", list)]
  have hmade : (Heap.newObjectWith .object props (Heap.newArray args w.heap).2).2.WithinLimits :=
    Heap.keepsLimits_newObjectWith .object props _ (Heap.keepsLimits_newArray hargs w.heap hw)
  exact hmade.set w.bridge "_pendingEvent" _

theorem limited_callGuest (hp : p.KeepsLimits) (hcalls : p.CallsKeepLimits depth) {f this : Value}
    {args : List Value} {fn : HostFunction} {id : UInt32} (hfn : w.heap.function? f = some fn)
    (hkind : fn.kind = .guestCallback id)
    (hw : Frugal p frames (.call (depth + 1) (.function f this args)) w) :
    w.Limited (after (callGuest (p.callsWithin depth) p.resume id this args w)) := by
  have hargs : args.length ≤ maxArrayLength :=
    Nat.le_of_not_lt fun hlt => hw.here ⟨hlt, fn, hfn, .inr ⟨id, hkind⟩⟩
  have hpublished : w.Limited (w.publishing id this args) := limited_publishing id this hargs w
  rw [callGuest, bind_ok (publishEvent_eq w id this args)]
  cases hrun : (w.publishing id this args).exitCode? with
  | some code =>
    rw [bind_error (frame_exited hrun)]
    exact hpublished
  | none =>
    have hresumed := hw.inward (.callback hfn hkind (publishEvent_eq w id this args) hrun)
    refine Chains.trans hpublished (after_bind ?_ fun _ u _ => ?_)
    · rw [after_frame hrun]
      exact limited_execute hcalls hp.resume hresumed
    · exact (keeps_fromHeap _).bind (fun _ => keeps_pure _) u

theorem limited_resume (hp : p.KeepsLimits) (hcalls : p.CallsKeepLimits depth)
    {next : Except Fault Unit → Code σ α}
    (hw : Frugal p frames (.code (depth + 1) (.resume next)) w) :
    w.Limited (after (frame (p.callsWithin depth) .embedded p.resume w)) := by
  cases hrun : w.exitCode? with
  | some code =>
    rw [frame_exited hrun]
    exact id
  | none =>
    rw [after_frame hrun]
    exact limited_execute hcalls hp.resume (hw.inward (.embedded hrun))

theorem limited_callsWithin (hp : p.KeepsLimits) (depth : Nat) : p.CallsKeepLimits depth := by
  induction depth with
  | zero =>
    refine ⟨?_, fun _ _ _ _ => id⟩
    rintro frames (⟨f, this, args⟩ | ⟨ctor, args⟩) w -
    · exact id
    · exact id
  | succ depth ih =>
    refine ⟨?_, fun frames next w hw => limited_resume hp ih hw⟩
    rintro frames (⟨f, this, args⟩ | ⟨ctor, args⟩) w hw
    · change w.Limited (after (p.callWith (p.callsWithin depth) f this args w))
      rw [Program.callWith, fromHeap_bind]
      cases hfn : w.heap.function? f with
      | none => exact limited_throwTypeError _ w
      | some fn =>
        obtain ⟨name, kind, props⟩ := fn
        cases kind with
        | native n => exact limited_execute ih (hp.code n this args) (hw.inward (.native hfn rfl))
        | constructor cls =>
          have hargs : cls = .array → args.length ≤ maxArrayLength := fun hcls =>
            Nat.le_of_not_lt fun hlt => hw.here ⟨hlt, _, hfn, .inl (congrArg _ hcls)⟩
          cases cls with
          | uint8Array => exact limited_throwTypeError _ w
          | _ => exact limited_construct hargs w
        | guestCallback id => exact limited_callGuest hp ih hfn rfl hw
    · change w.Limited (after (p.constructWith (p.callsWithin depth) ctor args w))
      rw [Program.constructWith, fromHeap_bind]
      cases hfn : w.heap.function? ctor with
      | none => exact limited_throwTypeError _ w
      | some fn =>
        obtain ⟨name, kind, props⟩ := fn
        cases kind with
        | native n =>
          have hmade : Keeps World.Limited (onHeap (Heap.newObject .object) : Host σ Value) :=
            limited_onHeap (Heap.keepsLimits_newObject .object)
          refine after_bind (hmade w) fun this u hthis => ?_
          have hrun := limited_execute ih (hp.code n this args) (hw.inward (.makes hfn rfl hthis))
          refine after_bind hrun fun outcome x _ => ?_
          cases outcome with
          | returned v => exact keeps_pure _ x
          | thrown v => exact keeps_pure _ x
        | constructor cls =>
          have hargs : cls = .array → args.length ≤ maxArrayLength := fun hcls =>
            Nat.le_of_not_lt fun hlt => hw.here ⟨hlt, _, hfn, congrArg _ hcls⟩
          exact limited_construct hargs w
        | guestCallback id => exact limited_throwTypeError _ w

theorem Inward.limited (hp : p.KeepsLimits) (hstep : Inward p frames control w frames' control' u)
    (hcontrol : control.KeepsLimits) (hw : Frugal p frames control w) :
    control'.KeepsLimits ∧ w.Limited u := by
  cases hstep with
  | advances hstep => exact limited_advance (limited_callsWithin hp _) hcontrol hw hstep
  | calls _ => exact ⟨trivial, id⟩
  | native _ _ => exact ⟨hp.code _ _ _, id⟩
  | callback hfn hkind hevent _ =>
    rw [publishEvent_eq] at hevent
    cases hevent
    refine ⟨hp.resume, limited_publishing _ _ (Nat.le_of_not_lt fun hlt => ?_) w⟩
    exact hw.here ⟨hlt, _, hfn, .inr ⟨_, hkind⟩⟩
  | embedded _ => exact ⟨hp.resume, id⟩
  | makes _ _ hthis =>
    have hmade : Keeps World.Limited (onHeap (Heap.newObject .object) : Host σ Value) :=
      limited_onHeap (Heap.keepsLimits_newObject .object)
    exact ⟨hp.code _ _ _, hmade.ok hthis⟩
  | returns => exact ⟨trivial, (limited_callsWithin hp _).call _ _ w hw⟩

theorem Inside.limited (hp : p.KeepsLimits) (h : Inside p frames control w frames' control' u)
    (hcontrol : control.KeepsLimits) (hw : Frugal p frames control w) :
    control'.KeepsLimits ∧ Frugal p frames' control' u ∧ w.Limited u := by
  induction h with
  | root => exact ⟨hcontrol, hw, id⟩
  | inward _ hstep ih =>
    obtain ⟨hcontrol', hu, hlimited⟩ := ih
    obtain ⟨hcontrol'', hstepped⟩ := hstep.limited hp hcontrol' hu
    exact ⟨hcontrol'', hu.inward hstep, Chains.trans hlimited hstepped⟩

end Frugal

/-! ## Runs that do -/

theorem Heap.not_withinLimits_newArray {args : List Value} (hargs : maxArrayLength < args.length)
    (h : Heap) : ¬ (newArray args h).2.WithinLimits := fun hw =>
  Nat.not_le.2 hargs (hw.arrays h.arrays.size (.ofArray args.toArray) Array.getElem?_push_size)

theorem Heap.not_withinLimits_newBytes {bytes : ByteArray} (hbytes : maxBytesLength < bytes.size)
    (h : Heap) : ¬ (newBytes bytes h).2.WithinLimits := fun hw =>
  Nat.not_le.2 hbytes (hw.buffers h.buffers.size bytes Array.getElem?_push_size)

theorem Heap.constructArray_many {args : List Value} (hargs : maxArrayLength < args.length)
    (h : Heap) : constructArray args h = (.returned (newArray args h).1, (newArray args h).2) := by
  unfold constructArray
  split
  · exact absurd hargs (Nat.not_lt.2 (show 1 ≤ maxArrayLength by decide))
  · rfl

def World.SameHeap (w u : World σ) : Prop := u.heap = w.heap

instance : Booking (World.SameHeap (σ := σ)) where
  refl _ := rfl
  trans hwu hux := hux.trans hwu
  books hheap _ _ _ := hheap

section Exceeding

variable {p : Program σ} {frames : List Cause} {w : World σ} {depth : Nat}

theorem exceeds_code {code : Code σ α} (h : code.Overdraws w) : ∃ frames' control' u,
    Inward p frames (.code depth code) w frames' control' u ∧ ¬ u.heap.WithinLimits := by
  cases code with
  | request i sp next =>
    obtain ⟨operands, r, hv, hr, hover⟩ := h
    cases r with
    | prepareText v =>
      obtain ⟨text, htext, hlong⟩ := hover
      let c := p.callsWithin depth
      have hdispatch : (after (Import.dispatch c i sp w)).heap =
          (Heap.newBytes text.toUTF8 w.heap).2 := by
        obtain rfl := Request.import_of_decode hr
        rw [dispatch_of_decode_ok hv hr nofun, perform_prepareText c sp htext]
        exact ((keeps_storeValue (R := World.SameHeap) _ _).bind fun _ => keeps_writing _) _
      obtain ⟨answer, u, hanswer⟩ := exists_answer_ok i (Import.dispatch c i sp) w
      refine ⟨_, .code depth (next answer), u, .advances (bind_ok hanswer), ?_⟩
      have hu : u.heap = (after (Import.dispatch c i sp w)).heap := by
        cases hresult : Import.dispatch c i sp w with
        | ok a x =>
          cases (answer_ok i hresult).symm.trans hanswer
          rfl
        | error e x =>
          cases (answer_error i hresult).symm.trans hanswer
          rfl
      rw [hu, hdispatch]
      exact Heap.not_withinLimits_newBytes hlong w.heap
    | _ => exact hover.elim
  | _ => exact h.elim

theorem exceeds_construct {args : List Value} (hlong : maxArrayLength < args.length)
    (w : World σ) : ¬ (after (construct .array args w)).heap.WithinLimits := by
  have hheap : (after (construct .array args w)).heap = (Heap.constructArray args w.heap).2 := rfl
  rw [hheap, Heap.constructArray_many hlong w.heap]
  exact Heap.not_withinLimits_newArray hlong w.heap

theorem exceeds_publishing (id : UInt32) (this : Value) {args : List Value}
    (hlong : maxArrayLength < args.length) (w : World σ) :
    ¬ (w.publishing id this args).heap.WithinLimits := by
  let list := (Heap.newArray args w.heap).1
  let props := [("id", Value.ofNat id.toNat), ("this", this), ("args", list)]
  let made := (Heap.newObjectWith .object props (Heap.newArray args w.heap).2).2
  have hmade : (Heap.newArray args w.heap).2.SameContainers made :=
    Heap.sameContainers_newObjectWith .object props _
  -- the cell of the event is a property, and no element of any container
  have hname : indexKey? "_pendingEvent" = none := by decide +kernel
  have hset : made.SameContainers (w.publishing id this args).heap := by
    have hheap : (w.publishing id this args).heap =
        made.set w.bridge "_pendingEvent" (.object w.heap.objects.size) := rfl
    rw [hheap]
    exact Heap.sameContainers_set hname _ _ _
  intro hw
  refine Heap.not_withinLimits_newArray hlong w.heap ⟨?_, ?_⟩
  · rw [← hmade.arrays, ← hset.arrays]
    exact hw.arrays
  · rw [← hmade.buffers, ← hset.buffers]
    exact hw.buffers

theorem exceeds_callee {callee : Callee} (h : callee.Overdraws w) : ∃ frames' control' u,
    Inward p frames (.call (depth + 1) callee) w frames' control' u ∧ ¬ u.heap.WithinLimits := by
  cases callee with
  | function f this args =>
    obtain ⟨hlong, ⟨name, kind, props⟩, hfn, rfl | ⟨id, rfl⟩⟩ := h
    · refine ⟨_, _, _, .returns, ?_⟩
      change ¬ (after (p.callWith (p.callsWithin depth) f this args w)).heap.WithinLimits
      rw [Program.callWith, fromHeap_bind, hfn]
      exact exceeds_construct hlong w
    · have hevent := publishEvent_eq w id this args
      cases hrun : (w.publishing id this args).exitCode? with
      | none => exact ⟨_, _, _, .callback hfn rfl hevent hrun, exceeds_publishing id this hlong w⟩
      | some code =>
        refine ⟨_, _, _, .returns, ?_⟩
        change ¬ (after (p.callWith (p.callsWithin depth) f this args w)).heap.WithinLimits
        rw [Program.callWith, fromHeap_bind, hfn]
        change ¬ (after (callGuest (p.callsWithin depth) p.resume id this args w)).heap.WithinLimits
        rw [callGuest, bind_ok hevent, bind_error (frame_exited hrun)]
        exact exceeds_publishing id this hlong w
  | constructor ctor args =>
    obtain ⟨hlong, ⟨name, kind, props⟩, hfn, rfl⟩ := h
    refine ⟨_, _, _, .returns, ?_⟩
    change ¬ (after (p.constructWith (p.callsWithin depth) ctor args w)).heap.WithinLimits
    rw [Program.constructWith, fromHeap_bind, hfn]
    exact exceeds_construct hlong w

theorem Control.Overdraws.exceeds {control : Control σ} (h : control.Overdraws w)
    (p : Program σ) (frames : List Cause) : ∃ frames' control' u,
    Inward p frames control w frames' control' u ∧ ¬ u.heap.WithinLimits := by
  cases control with
  | code depth code => exact exceeds_code h
  | call depth callee =>
    cases depth with
    | zero => exact h.elim
    | succ depth => exact exceeds_callee h
  | host => exact h.elim
  | back => exact h.elim

end Exceeding

/-- The host makes no container before the guest asks for one. -/
theorem withinLimits_fresh (o : HostOptions) (memory : Memory) (around : Surroundings) (own : σ) :
    (World.fresh o memory around own).heap.WithinLimits := by
  have hfirst : Heap.firstObjects.2.arrays.size = 0 ∧ Heap.firstObjects.2.buffers.size = 0 := by
    decide +kernel
  simp only [World.fresh]
  generalize Heap.firstObjects = x at hfirst ⊢
  obtain ⟨⟨global, bridge⟩, heap⟩ := x
  obtain ⟨harrays, hbuffers⟩ := hfirst
  refine ⟨fun id e he => ?_, fun id bytes hbytes => ?_⟩
  · obtain ⟨hid, -⟩ := Array.getElem?_eq_some_iff.1 he
    exact absurd hid (by rw [World.atRest, harrays]; exact Nat.not_lt_zero id)
  · obtain ⟨hid, -⟩ := Array.getElem?_eq_some_iff.1 hbytes
    exact absurd hid (by rw [World.atRest, hbuffers]; exact Nat.not_lt_zero id)

/-- Limits of containers hold exactly where nothing is made too long. In a frame or a call that starts
within the limits all arrays and byte arrays stay within them, whatever is asked of the host, if and
only if no array is made of too long a list of arguments and no bytes are staged of too long a text:
of these alone the host does not check the length. Whatever it does check, it throws back as a
`RangeError` or drops, and leaves the containers there are as they were. -/
theorem limits_hold_unless_overdrawn (p : Program σ) (hp : p.KeepsLimits) {start : World σ}
    {frames : List Cause} {root : Control σ} (hroot : root.KeepsLimits)
    (hstart : start.heap.WithinLimits) :
    ((∀ frames' control w, Inside p frames root start frames' control w → w.heap.WithinLimits) ↔
      ∀ frames' control w, Inside p frames root start frames' control w → ¬ control.Overdraws w) ∧
    ∀ h : Heap, h.Refuses := by
  refine ⟨⟨fun hlimits frames' control w hinside hover => ?_, fun hfrugal frames' control w hinside =>
    ?_⟩, Heap.refuses⟩
  · obtain ⟨_, _, u, hstep, hexceeds⟩ := hover.exceeds p frames'
    exact hexceeds (hlimits _ _ u (hinside.inward hstep))
  · exact (hinside.limited hp hroot hfrugal).2.2 hstart

def passive : Program Unit where
  stackPointer _ := 0
  run _ := .done ()
  resume := .done ()
  functions _ _ _ := .done (.returned .undefined)

def bare : World Unit :=
  let objects := #[⟨.object, .empty⟩, ⟨.object, .empty⟩]
  let functions := #[⟨"Array", .constructor .array, .empty⟩, ⟨"", .guestCallback 1, .empty⟩]
  .atRest ⟨#[], objects, #[], #[], functions⟩ (.object 0) (.object 1) .standard (.zeros 0) ⟨0, 0⟩ ()

def tooMany : List Value := List.replicate (maxArrayLength + 1) .undefined

theorem lt_length_tooMany : maxArrayLength < tooMany.length := by
  rw [tooMany, List.length_replicate]
  exact Nat.lt_succ_self _

/-- A callback that is called with one argument too many. -/
theorem limits_hold_unless_overdrawn_callback :
    ¬ ∀ frames control w, Inside passive [] (.call 1 (.function (.function 1) .undefined tooMany)) bare
      frames control w → w.heap.WithinLimits := by
  have hpassive : passive.KeepsLimits := ⟨fun _ => .done _, .done _, fun _ _ _ => .done _⟩
  have hbare : bare.heap.WithinLimits := ⟨nofun, nofun⟩
  let root : Control Unit := .call 1 (.function (.function 1) .undefined tooMany)
  have hroot : root.KeepsLimits := trivial
  intro hlimits
  exact (limits_hold_unless_overdrawn passive hpassive hroot hbare).1.1 hlimits _ _ _ .root
    ⟨lt_length_tooMany, _, rfl, .inr ⟨1, rfl⟩⟩

/-- The constructor makes an array that is longer than arrays may be. -/
theorem array_of_too_many_arguments : ∃ v u,
    (passive.callsWithin 1).construct (.function 0) tooMany bare = .ok (.returned v) u ∧
      maxArrayLength < u.heap.length v := by
  have hconstructed : ∀ args : List Value, maxArrayLength < args.length → ∃ v u,
      (passive.callsWithin 1).construct (.function 0) args bare = .ok (.returned v) u ∧
        maxArrayLength < u.heap.length v := by
    intro args hargs
    let made := Heap.newArray args bare.heap
    refine ⟨made.1, { bare with heap := made.2 }, ?_, ?_⟩
    · change passive.constructWith (passive.callsWithin 0) (.function 0) args bare = _
      have hfn : bare.heap.function? (.function 0) =
        some ⟨"Array", .constructor .array, .empty⟩ := rfl
      rw [Program.constructWith, fromHeap_bind, hfn]
      change onHeap (Heap.constructArray args) bare = _
      rw [onHeap, Heap.constructArray_many hargs]
    · have hlength : made.2.length made.1 = args.length := rfl
      rw [hlength]
      exact hargs
  exact hconstructed tooMany lt_length_tooMany

end TokenizerHost
