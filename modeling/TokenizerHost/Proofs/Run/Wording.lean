import TokenizerHost.Calls
import TokenizerHost.Proofs.Heap.Growth
import TokenizerHost.Proofs.Import.Outcome
import TokenizerHost.Proofs.Run.Moment

set_option autoImplicit false

namespace TokenizerHost

open Host Relation

variable {σ S α β : Type}

def Ends (step : EStateM Fault S α) : Prop := ∀ s e u, step s = .error e u → e ≠ .stackExhausted

def Exhausts (step : EStateM Fault S α) (s : S) : Prop := ∃ u, step s = .error .stackExhausted u

theorem Ends.not_exhausts {step : EStateM Fault S α} (h : Ends step) (s : S) :
    ¬ Exhausts step s := fun ⟨u, hu⟩ => h s _ u hu rfl

theorem Ends.bind {step : EStateM Fault S α} {f : α → EStateM Fault S β} (hs : Ends step)
    (hf : ∀ a, Ends (f a)) : Ends (step >>= f) := by
  intro s e u heq
  cases h : step s with
  | ok a x =>
    rw [bind_ok h] at heq
    exact hf a x e u heq
  | error e' x =>
    rw [bind_error h] at heq
    cases heq
    exact hs s e u h

/-- Where what follows does not run out of stack, the first step decides. -/
theorem exhausts_bind_iff {step : EStateM Fault S α} {f : α → EStateM Fault S β} {s : S}
    (hf : ∀ a, Ends (f a)) : Exhausts (step >>= f) s ↔ Exhausts step s := by
  unfold Exhausts
  cases h : step s with
  | ok a x =>
    rw [bind_ok h]
    refine iff_of_false ((hf a).not_exhausts x) ?_
    rintro ⟨u, hu⟩
    cases hu
  | error e x =>
    rw [bind_error h]
    simp only [EStateM.Result.error.injEq]

section Ends

theorem ends_pure (a : α) : Ends (pure a : EStateM Fault S α) := by
  intro s e u h
  cases h

theorem ends_write (address : Nat) (data : ByteArray) : Ends (Memory.write address data) := by
  intro m e u h
  unfold Memory.write at h
  split at h
  · cases h
  · cases h
    nofun

theorem ends_onHeap (f : HeapM α) : Ends (onHeap f : Host σ α) := by
  intro w e u h
  cases h

theorem ends_onMemory {f : MemoryM α} (hf : Ends f) : Ends (onMemory f : Host σ α) := by
  intro w e u h
  unfold onMemory at h
  split at h
  · cases h
    nofun
  · split at h
    next => cases h
    next e' m hm =>
      cases h
      exact hf _ e m hm

theorem ends_ensureNotExited : Ends (ensureNotExited : Host σ Unit) := by
  intro w e u h
  unfold ensureNotExited at h
  split at h
  · cases h
    nofun
  · cases h

theorem ends_storeInTable (v : Value) : Ends (storeInTable v : Host σ Slot) := by
  intro w e u h
  unfold storeInTable at h
  split at h
  · cases h
  · cases h
    nofun

theorem ends_storeValue (address : Nat) (v : Value) : Ends (storeValue address v : Host σ Unit) := by
  refine ends_ensureNotExited.bind fun _ => (ends_storeInTable v).bind fun slot => ?_
  refine (ends_onMemory (ends_write _ _)).bind fun _ => ?_
  intro w e u h
  cases h

theorem ends_freshStackPointer (c : Calls σ) : Ends (Import.freshStackPointer c) :=
  ends_ensureNotExited.bind fun _ => fun w e u h => by cases h

end Ends

section Texts

variable {w : World σ} {v : Value}

theorem exhausts_textOf : Exhausts (textOf v) w ↔ w.heap.HoldsItself v := by
  rw [← Heap.text?_eq_none_iff]
  cases htext : w.heap.text? v with
  | some text =>
    simp [Exhausts, textOf_of_text htext]
  | none => exact iff_of_true ⟨w, textOf_of_no_text htext⟩ rfl

theorem exhausts_discard {step : Host σ α} :
    Exhausts (discard step : Host σ Unit) w ↔ Exhausts step w := by
  unfold Exhausts
  cases h : step w with
  | ok a u =>
    rw [discard_ok h]
    simp
  | error e u =>
    rw [discard_error h]
    simp

theorem exhausts_prepareText (c : Calls σ) (sp : Nat) :
    Exhausts (Import.perform c sp (.prepareText v)) w ↔ w.heap.HoldsItself v := by
  refine (exhausts_bind_iff fun text => ?_).trans exhausts_textOf
  refine (ends_onHeap _).bind fun staged => (ends_storeValue _ _).bind fun _ => ends_onMemory ?_
  exact (ends_write _ _).bind fun _ => ends_write _ _

theorem exhausts_storeOutcome (c : Calls σ) (offset : Nat) :
    Exhausts (Import.storeOutcome c offset (.thrown v)) w ↔ w.heap.HoldsItself v := by
  refine (exhausts_bind_iff fun _ => ?_).trans (exhausts_discard.trans exhausts_textOf)
  refine (ends_freshStackPointer c).bind fun sp => (ends_storeValue _ _).bind fun _ => ?_
  exact ends_onMemory (ends_write _ _)

theorem exhausts_construct (args : List Value) : Exhausts (Host.construct .error args) w ↔
    w.heap.HoldsItself (args.headD .undefined) := by
  have hmake : ∀ message, Ends
      (do return .returned (← onHeap (Heap.newError message)) : Host σ Outcome) :=
    fun message => (ends_onHeap _).bind fun _ => ends_pure _
  simp only [Host.construct]
  split
  next hnull =>
    refine iff_of_false ?_ (Heap.not_holdsItself_of_isNullish hnull)
    exact (hmake "").not_exhausts w
  next => exact (exhausts_bind_iff hmake).trans exhausts_textOf

theorem exhausts_resolvePath (c : Calls σ) (functions : String → Value → List Value → Code σ Outcome)
    (this : Value) (args : List Value) :
    Exhausts (execute c (Builtin.code functions .resolvePath this args)) w ↔
      ∃ a ∈ args, w.heap.HoldsItself a := by
  have htexts : (∃ texts, args.mapM w.heap.text? = some texts) ↔
      ¬ ∃ a ∈ args, w.heap.HoldsItself a := by
    simp only [exists_mapM_iff, ← Heap.text?_eq_none_iff, not_exists, not_and,
      Option.ne_none_iff_exists']
  cases hmap : args.mapM w.heap.text? with
  | some texts =>
    have hrun : execute c (Builtin.code functions .resolvePath this args) w =
        .ok (.returned (.string ("/".intercalate texts))) w := by
      simp only [Builtin.code, execute, hmap]
      rfl
    refine iff_of_false ?_ (htexts.1 ⟨texts, hmap⟩)
    rintro ⟨u, hu⟩
    cases hrun.symm.trans hu
  | none =>
    have hrun : execute c (Builtin.code functions .resolvePath this args) w =
        .error .stackExhausted w := by
      simp only [Builtin.code, execute, hmap]
      rfl
    refine iff_of_true ⟨w, hrun⟩ ?_
    by_contra hends
    obtain ⟨texts, hsome⟩ := htexts.2 hends
    cases hmap.symm.trans hsome

end Texts

/-- The search for a text ends exactly for values that do not hold themselves, and only where it does
not end are a text to be prepared, a thrown value to be reported, an error to be made and a path to
be resolved without an end. -/
structure World.PutsIntoWords (w : World σ) (c : Calls σ)
    (functions : String → Value → List Value → Code σ Outcome) : Prop where
  text : ∀ v, (∃ depth text, w.heap.textWithin depth v = some text) ↔ ¬ w.heap.HoldsItself v
  prepared : ∀ sp v, Exhausts (Import.perform c sp (.prepareText v)) w ↔ w.heap.HoldsItself v
  thrown : ∀ offset v,
    Exhausts (Import.storeOutcome c offset (.thrown v)) w ↔ w.heap.HoldsItself v
  error : ∀ args,
    Exhausts (Host.construct .error args) w ↔ w.heap.HoldsItself (args.headD .undefined)
  path : ∀ this args, Exhausts (execute c (Builtin.code functions .resolvePath this args)) w ↔
    ∃ a ∈ args, w.heap.HoldsItself a

theorem putsIntoWords (w : World σ) (c : Calls σ)
    (functions : String → Value → List Value → Code σ Outcome) : w.PutsIntoWords c functions where
  text _ := Heap.exists_textWithin_iff
  prepared sp _ := exhausts_prepareText c sp
  thrown offset _ := exhausts_storeOutcome c offset
  error args := exhausts_construct args
  path this args := exhausts_resolvePath c functions this args

/-! ## What a guest builds -/

inductive HeapStep where
  | make (cls : Class) (args : List Value)
  | set (v : Value) (key : String) (x : Value)
  | setIndex (v : Value) (i : Int) (x : Value)
  | delete (v : Value) (key : String)

namespace HeapStep

def perform (c : Calls σ) : HeapStep → Host σ Unit
  | .make cls args => discard (Host.construct cls args)
  | .set v key x => Import.perform c 0 (.set v key x)
  | .setIndex v i x => Import.perform c 0 (.setIndex v i x)
  | .delete v key => Import.perform c 0 (.delete v key)

def Given (h : Heap) : HeapStep → Prop
  | .make _ args => ∀ a ∈ args, h.Has a
  | .set _ _ x | .setIndex _ _ x => h.Has x
  | .delete _ _ => True

/-- A write between two heaps makes a value hold one from which it is reached already. -/
def Closes (h h' : Heap) : HeapStep → Prop
  | .set v _ x | .setIndex v _ x => h'.Holds v x ∧ ReflTransGen h.Holds x v
  | .make _ _ | .delete _ _ => False

end HeapStep

def World.build (c : Calls σ) (steps : List HeapStep) (w : World σ) : World σ :=
  steps.foldl (fun w step => after (step.perform c w)) w

section Building

variable {c : Calls σ} {w : World σ} {step : HeapStep}

theorem extends_construct {args : List Value} (cls : Class) (hargs : ∀ a ∈ args, w.heap.Has a) :
    w.heap.Extends (after (Host.construct cls args w)).heap := by
  cases cls with
  | object => exact Heap.extends_constructObject _ _
  | array => exact Heap.extends_constructArray hargs
  | uint8Array => exact Heap.extends_constructBytes _ _
  | date => exact Heap.extends_constructDate _ _
  | error =>
    have hmake : ∀ message, w.heap.Extends (after
        ((do return .returned (← onHeap (Heap.newError message)) : Host σ Outcome) w)).heap :=
      fun message => Heap.extends_newErrorNamed _ _ _
    simp only [Host.construct]
    split
    · exact hmake ""
    · cases htext : w.heap.text? (args.headD .undefined) with
      | some text =>
        rw [bind_ok (textOf_of_text htext)]
        exact hmake text
      | none =>
        rw [bind_error (textOf_of_no_text htext)]
        exact Heap.extends_of_eq rfl rfl

namespace HeapStep

theorem closed (hclosed : w.heap.Closed) (hgiven : step.Given w.heap) :
    (after (step.perform c w)).heap.Closed := by
  cases step with
  | make cls args =>
    rw [perform, after_discard]
    exact (extends_construct cls hgiven).closed hclosed
  | set v key x => exact (Heap.rewires_set v key x).closed hclosed hgiven
  | setIndex v i x => exact (Heap.rewires_setIndex v i x).closed hclosed hgiven
  | delete v key => exact (Heap.rewires_delete v key).closed hclosed trivial

/-- Only a write that closes a circle makes one. -/
theorem circular_iff (hclosed : w.heap.Closed) (hnone : ¬ w.heap.Circular)
    (hgiven : step.Given w.heap) : (after (step.perform c w)).heap.Circular ↔
      step.Closes w.heap (after (step.perform c w)).heap := by
  cases step with
  | make cls args =>
    rw [perform, after_discard, (extends_construct cls hgiven).circular_iff hclosed]
    exact iff_of_false hnone id
  | set v key x => exact (Heap.rewires_set v key x).circular_iff hnone
  | setIndex v i x => exact (Heap.rewires_setIndex v i x).circular_iff hnone
  | delete v key =>
    refine ((Heap.rewires_delete v key).circular_iff hnone).trans (iff_of_false ?_ id)
    exact fun hheld => Heap.not_holds_undefined hheld.1

end HeapStep

theorem forall_concat_prefix_cons {P : List α → α → Prop} {first : α} {rest : List α} :
    (∀ done a, done ++ [a] <+: first :: rest → P done a) ↔
      P [] first ∧ ∀ done a, done ++ [a] <+: rest → P (first :: done) a := by
  constructor
  · intro h
    refine ⟨h [] first (by simp), fun done a hdone => h _ a ?_⟩
    rw [List.cons_append, List.cons_prefix_cons]
    exact ⟨rfl, hdone⟩
  · rintro ⟨hfirst, hrest⟩ done a hdone
    cases done with
    | nil =>
      obtain ⟨rfl, -⟩ := List.cons_prefix_cons.1 hdone
      exact hfirst
    | cons b done =>
      rw [List.cons_append, List.cons_prefix_cons] at hdone
      obtain ⟨rfl, hdone⟩ := hdone
      exact hrest done a hdone

theorem build_concat (steps : List HeapStep) :
    w.build c (steps ++ [step]) = after (step.perform c (w.build c steps)) := by
  simp only [World.build, List.foldl_append, List.foldl_cons, List.foldl_nil]

theorem closed_build (hclosed : w.heap.Closed) {steps : List HeapStep}
    (hgiven : ∀ done step, done ++ [step] <+: steps → step.Given (w.build c done).heap)
    {done : List HeapStep} (hdone : done <+: steps) : (w.build c done).heap.Closed := by
  induction done using List.reverseRecOn with
  | nil => exact hclosed
  | append_singleton done step ih =>
    rw [build_concat]
    exact HeapStep.closed (ih ((List.prefix_append _ _).trans hdone)) (hgiven done step hdone)

theorem circular_build_iff (hclosed : w.heap.Closed) (hnone : ¬ w.heap.Circular)
    {steps : List HeapStep}
    (hgiven : ∀ done step, done ++ [step] <+: steps → step.Given (w.build c done).heap) :
    (∀ done, done <+: steps → ¬ (w.build c done).heap.Circular) ↔
      ∀ done step, done ++ [step] <+: steps →
        ¬ step.Closes (w.build c done).heap (w.build c (done ++ [step])).heap := by
  constructor
  · intro hnever done step hstep
    have hdone : done <+: steps := (List.prefix_append _ _).trans hstep
    have hbefore := closed_build hclosed hgiven hdone
    rw [build_concat, ← HeapStep.circular_iff hbefore (hnever done hdone) (hgiven done step hstep),
      ← build_concat]
    exact hnever _ hstep
  · intro hkept done hdone
    induction done using List.reverseRecOn with
    | nil => exact hnone
    | append_singleton done step ih =>
      have hbefore : done <+: steps := (List.prefix_append _ _).trans hdone
      have hstep := hkept done step hdone
      rw [build_concat] at hstep ⊢
      rwa [HeapStep.circular_iff (closed_build hclosed hgiven hbefore) (ih hbefore)
        (hgiven done step hdone)]

end Building

theorem parts_fresh (o : HostOptions) (memory : Memory) (around : Surroundings) (own : σ)
    (v : Value) : (World.fresh o memory around own).heap.parts v = [] := by
  have hparts := Heap.parts_firstObjects v
  simp only [World.fresh]
  generalize Heap.firstObjects = x at hparts ⊢
  exact hparts

/-- Whatever a guest builds, the search for a text comes to an end exactly for values that do not
hold themselves, wherever the host puts a value into words. It comes to an end for every value at
every time exactly if no write lets a value hold one from which it is reached. -/
theorem texts_end_without_circles (c : Calls σ)
    (functions : String → Value → List Value → Code σ Outcome) (o : HostOptions) (memory : Memory)
    (around : Surroundings) (own : σ) {w : World σ} (hw : w = .fresh o memory around own)
    (steps : List HeapStep)
    (hgiven : ∀ done step, done ++ [step] <+: steps → step.Given (w.build c done).heap) :
    (∀ u : World σ, u.PutsIntoWords c functions) ∧
    ((∀ done, done <+: steps → ∀ v, ∃ depth text,
        (w.build c done).heap.textWithin depth v = some text) ↔
      ∀ done step, done ++ [step] <+: steps →
        ¬ step.Closes (w.build c done).heap (w.build c (done ++ [step])).heap) := by
  have hnothing : ∀ v x, ¬ w.heap.Holds v x := by
    intro v x hvx
    rw [Heap.Holds, hw, parts_fresh] at hvx
    cases hvx
  have hclosed : w.heap.Closed := fun v x hvx => absurd hvx (hnothing v x)
  have hnone : ¬ w.heap.Circular := by
    rintro ⟨v, hvv⟩
    obtain ⟨x, hvx, -⟩ := TransGen.head'_iff.1 hvv
    exact hnothing v x hvx
  refine ⟨fun u => putsIntoWords u c functions, ?_⟩
  rw [← circular_build_iff hclosed hnone hgiven]
  refine forall₂_congr fun done _ => ?_
  simp only [Heap.exists_textWithin_iff, Heap.circular_iff, not_exists]

def uncalled : Calls Unit :=
  ⟨fun _ => 0, fun _ _ _ => pure (.returned .undefined), fun _ _ => pure (.returned .undefined),
    pure ()⟩

def arrayInArray : List HeapStep :=
  [.make .array [], .make .array [.string "x"], .setIndex (.array 0) 0 (.array 1)]

theorem texts_end_without_circles_nested : ∃ depth text,
    (blank.build uncalled arrayInArray).heap.textWithin depth (.array 0) = some text := by
  have hgiven : ∀ done step, done ++ [step] <+: arrayInArray →
      step.Given (blank.build uncalled done).heap := by
    simp only [arrayInArray, forall_concat_prefix_cons]
    refine ⟨nofun, ?_, ?_, by simp⟩
    · rw [HeapStep.Given, List.forall_mem_singleton]
      trivial
    · change 1 < Array.size _
      decide +kernel
  have hkept : ∀ done step, done ++ [step] <+: arrayInArray →
      ¬ step.Closes (blank.build uncalled done).heap (blank.build uncalled (done ++ [step])).heap := by
    simp only [arrayInArray, forall_concat_prefix_cons]
    refine ⟨id, id, ?_, by simp⟩
    rintro ⟨-, hreaches⟩
    have hparts : (blank.build uncalled
        [.make .array [], .make .array [.string "x"]]).heap.parts (.array 1) = [.string "x"] := by
      decide +kernel
    rcases hreaches.cases_head with heq | ⟨x, hx, hreaches⟩
    · cases heq
    · rw [Heap.Holds, hparts, List.mem_singleton] at hx
      subst hx
      rcases hreaches.cases_head with heq | ⟨y, hy, -⟩
      · cases heq
      · cases hy
  obtain ⟨-, hends⟩ := texts_end_without_circles uncalled (fun _ _ _ => .done (.returned .undefined))
    .standard (.zeros 64) ⟨0, 0⟩ () (w := blank) rfl arrayInArray hgiven
  exact hends.2 hkept arrayInArray (List.prefix_refl _) (.array 0)

def holdingThemselves : List HeapStep :=
  [.make .array [], .setIndex (.array 0) 0 (.array 0), .make .error [],
    .set (.object 6) "message" (.object 6)]

def encircled : World Unit := blank.build uncalled holdingThemselves

/-- An array that is its own element has no text, nor has an error that is its own message, and a
guest that asks for one gets no answer. -/
theorem no_text_of_own_part :
    (∀ depth, encircled.heap.textWithin depth (.array 0) = none) ∧
    (∀ depth, encircled.heap.textWithin depth (.object 6) = none) ∧
    Exhausts (Import.perform uncalled 0 (.prepareText (.array 0))) encircled ∧
    Exhausts (Import.perform uncalled 0 (.prepareText (.object 6))) encircled := by
  have hparts : .array 0 ∈ encircled.heap.parts (.array 0) ∧
      .object 6 ∈ encircled.heap.parts (.object 6) := by
    decide +kernel
  have harray : encircled.heap.HoldsItself (.array 0) := ⟨_, .refl, .single hparts.1⟩
  have herror : encircled.heap.HoldsItself (.object 6) := ⟨_, .refl, .single hparts.2⟩
  exact ⟨Heap.textWithin_of_holdsItself harray, Heap.textWithin_of_holdsItself herror,
    (exhausts_prepareText uncalled 0).2 harray, (exhausts_prepareText uncalled 0).2 herror⟩

end TokenizerHost
