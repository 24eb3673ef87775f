import TokenizerHost.Proofs.Memory.Fits
import TokenizerHost.Proofs.Run.Balance

set_option autoImplicit false

namespace TokenizerHost

open Host

variable {σ : Type}

/-- Whatever a guest has been entered for, its entry point was run before. -/
def RunFirst (timeline : List Milestone) : Prop :=
  ∀ later cause earlier, timeline = later ++ .entered cause :: earlier →
    cause = .run ∨ .entered .run ∈ earlier

theorem RunFirst.of_run {timeline : List Milestone}
    (hnone : ∀ cause, .entered cause ∉ timeline) : RunFirst (.entered .run :: timeline) := by
  intro later cause earlier h
  cases later with
  | nil =>
    cases h
    exact .inl rfl
  | cons first later =>
    have htail : timeline = later ++ .entered cause :: earlier := (List.cons.inj h).2
    have hmem : .entered cause ∈ timeline := htail ▸ List.mem_append_right _ List.mem_cons_self
    exact absurd hmem (hnone cause)

theorem RunFirst.of_suffix {timeline longer : List Milestone} (h : RunFirst timeline)
    (hopened : .entered .run ∈ timeline) (hsuffix : timeline <:+ longer) : RunFirst longer := by
  intro later cause earlier hsplit
  obtain ⟨since, rfl⟩ := hsuffix
  -- an entry among the old ones has its run by `h`, and one among the new ones has it in `timeline`
  rcases List.append_eq_append_iff.1 hsplit with ⟨between, -, hcut⟩ | ⟨between, -, hcut⟩
  · exact h between cause earlier hcut
  · cases between with
    | nil => exact h [] cause earlier hcut.symm
    | cons first between =>
      have htail : earlier = between ++ timeline := (List.cons.inj hcut).2
      exact .inr (htail ▸ List.mem_append_right _ hopened)

namespace World

def Opened (w : World σ) : Prop := .entered .run ∈ w.timeline

structure Unopened (w : World σ) : Prop where
  state : w.state = .notStarted
  unentered : ¬ w.Entered
  unarmed : ∀ id, w.scheduler.armed.find? id = none

def InOrder (w : World σ) : Prop := w.Unopened ∨ (w.Opened ∧ RunFirst w.timeline)

end World

section Order

variable {p : Program σ} {w u : World σ}

theorem World.Unopened.not_opened (h : w.Unopened) : ¬ w.Opened := fun hopened =>
  h.unentered ⟨.run, hopened⟩

theorem World.Unopened.isPending (h : w.Unopened) (id : Int32) :
    w.scheduler.isPending id = false := by
  rw [Scheduler.isPending, Assoc.contains, h.unarmed id]
  rfl

theorem Turn.opened {calling : Prop} (h : Turn p calling w u) (hopened : w.Opened)
    (hfirst : RunFirst w.timeline) : u.Opened ∧ RunFirst u.timeline :=
  ⟨h.timeline_suffix.subset hopened, hfirst.of_suffix hopened h.timeline_suffix⟩

/-- Without calls of the embedding program's choice, nothing gets ahead of the entry point. -/
theorem Turn.unopened (h : Turn p False w u) (hw : w.Unopened) : u.InOrder := by
  cases h with
  | slight _ h =>
    refine .inl ⟨?_, ?_, ?_⟩
    · rw [World.state, h.scheduler]
      exact hw.state
    · rw [World.Entered, h.timeline]
      exact hw.unentered
    · rw [h.scheduler]
      exact hw.unarmed
  | @waits s h =>
    obtain ⟨-, hstate, harmed⟩ := h.keeps_frames
    refine .inl ⟨hstate.trans hw.state, hw.unentered, fun id => ?_⟩
    exact (congrArg (·.find? id) harmed).trans (hw.unarmed id)
  | drops id =>
    rw [World.clearTimer_idle (hw.unarmed id)]
    exact .inl hw
  | runs a h =>
    have hsuffix :
        .entered .run :: w.timeline <:+ (after (frame p.calls .run (p.run a) w)).timeline :=
      frame_timeline_suffix _ (exitCode?_of_notStarted h)
    have hfirst : RunFirst (.entered .run :: w.timeline) :=
      .of_run fun cause hcause => hw.unentered ⟨cause, hcause⟩
    have hopened : .entered .run ∈ .entered .run :: w.timeline := List.mem_cons_self
    exact .inr ⟨hsuffix.subset hopened, hfirst.of_suffix hopened hsuffix⟩
  | fires id h =>
    rw [hw.isPending id] at h
    cases h
  | calls h => exact h.elim

theorem Turn.inOrder {calling : Prop} (h : Turn p calling w u) (hcalling : calling → w.Opened)
    (hw : w.InOrder) : u.InOrder := by
  rcases hw with hw | ⟨hopened, hfirst⟩
  -- nothing may be called before the guest is opened, so this is a turn without calls
  · have hnot : ¬ calling := fun hc => hw.not_opened (hcalling hc)
    exact Turn.unopened (p := p) (by rwa [eq_false hnot] at h) hw
  · exact .inr (h.opened hopened hfirst)

theorem Driven.opened {calling : Prop} (h : Driven p calling w u) (hw : w.Opened) : u.Opened :=
  h.keeps (fun _ _ hturn hopened => hturn.timeline_suffix.subset hopened) hw

theorem Driven.inOrder {calling : Prop} (h : Driven p calling w u)
    (hcalling : calling → w.Opened) (hw : w.InOrder) : u.InOrder := by
  induction h with
  | refl => exact hw
  | tail hbefore hlast ih => exact hlast.inOrder (fun hc => Driven.opened hbefore (hcalling hc)) ih

end Order

namespace Program

variable (p : Program σ)

def OpensFirst : List HostCall → World σ → Prop
  | [], _ => True
  | c :: calls, w => (c.CallsFunction → w.Opened) ∧ OpensFirst calls (after (c.perform p w))

theorem inOrder_session {calls : List HostCall} {w : World σ} (h : p.OpensFirst calls w)
    (hw : w.InOrder) : (p.session calls w).InOrder := by
  induction calls generalizing w with
  | nil => exact hw
  | cons c calls ih => exact ih h.2 ((c.driven p w).inOrder h.1 hw)

theorem opened_start {w : World σ} (hstate : w.state = .notStarted)
    (hsize : argumentsSize w.argv w.env < dataBase - argumentsBase)
    (hmemory : dataBase ≤ w.memory.size) : (after (p.start w)).Opened := by
  obtain ⟨m, hm, -⟩ := Memory.fits_writeArguments hsize hmemory
  rcases p.start_cases w with ⟨e, hcheck, -⟩ | ⟨-, e, m', hm', -⟩ | ⟨-, a, m', -, h⟩
  · cases (Scheduler.checkStartable_of_notStarted hstate).symm.trans hcheck
  · cases hm.symm.trans hm'
  · exact (start_timeline_suffix hstate h).subset List.mem_cons_self

/-- A start is refused as a second one in the state that the first frame leaves behind. -/
theorem start_refused_iff {w : World σ} :
    p.start w = .error .alreadyStarted w ↔ w.scheduler.checkStartable = .error .alreadyStarted := by
  rcases p.start_cases w with ⟨e, hcheck, h⟩ | ⟨hstate, e, m, -, h⟩ | ⟨hstate, a, m, -, h⟩
  · rw [h, hcheck]
    constructor
    · intro heq
      cases heq
      rfl
    · intro heq
      cases heq
      rfl
  · rw [h, Scheduler.checkStartable_of_notStarted hstate]
    refine ⟨fun heq => ?_, fun heq => nomatch heq⟩
    have hjournal : .wrote :: w.journal = w.journal :=
      congrArg (fun r => (after r).journal) heq
    exact absurd hjournal (List.cons_ne_self _ _)
  · rw [Scheduler.checkStartable_of_notStarted hstate]
    refine ⟨fun heq => ?_, fun heq => nomatch heq⟩
    have hsuffix := start_timeline_suffix hstate h
    rw [heq] at hsuffix
    have hlength : w.timeline.length + 1 ≤ w.timeline.length := hsuffix.length_le
    omega

end Program

theorem inOrder_fresh (o : HostOptions) (memory : Memory) (around : Surroundings) (own : σ) :
    (World.fresh o memory around own).InOrder := by
  refine .inl ⟨state_fresh o memory around own, ?_, fun id => ?_⟩
  · exact (balanced_fresh o memory around own).unentered (state_fresh o memory around own)
  · rw [scheduler_fresh]
    rfl

theorem World.Balanced.checkStartable_iff {w : World σ} (h : w.Balanced []) :
    w.scheduler.checkStartable = .error .alreadyStarted ↔ w.Entered ∧ w.exitCode? = none := by
  have hexit : w.exitCode? = w.state.exitCode? := rfl
  rw [hexit]
  cases hstate : w.state with
  | notStarted =>
    rw [Scheduler.checkStartable_of_notStarted hstate]
    exact iff_of_false (fun hrefused => by cases hrefused) fun hlive => h.unentered hstate hlive.1
  | running => exact absurd hstate (h.outside rfl)
  | suspended =>
    have hsuspended : w.scheduler.state = .suspended := hstate
    rw [Scheduler.checkStartable, hsuspended]
    exact iff_of_true rfl ⟨h.entered (.inr hstate), rfl⟩
  | exited code =>
    have hexited : w.scheduler.state = .exited code := hstate
    rw [Scheduler.checkStartable, hexited]
    exact iff_of_false (fun hrefused => by cases hrefused) fun hlive => by cases hlive.2

/-- After any session a start is refused as a second one exactly if the guest has been entered, for
whatever reason, and has not exited. If functions were called only after the entry point had been
run, then that came before every other entry, and a start is so refused only after it. -/
theorem run_comes_first (p : Program σ) (o : HostOptions) (memory : Memory) (around : Surroundings)
    (own : σ) (calls : List HostCall) :
    let start := World.fresh o memory around own
    let w := p.session calls start
    (p.start w = .error .alreadyStarted w ↔ w.Entered ∧ w.exitCode? = none) ∧
    (p.OpensFirst calls start →
      RunFirst w.timeline ∧ (p.start w = .error .alreadyStarted w → w.Opened)) := by
  intro start w
  have hbalanced : w.Balanced [] :=
    (Situation.session p start calls).holds (P := World.Balanced) (balanced_fresh o memory around own)
  have hrefused : p.start w = .error .alreadyStarted w ↔ w.Entered ∧ w.exitCode? = none :=
    p.start_refused_iff.trans hbalanced.checkStartable_iff
  refine ⟨hrefused, fun hopens => ?_⟩
  have horder : w.InOrder := p.inOrder_session hopens (inOrder_fresh o memory around own)
  rcases horder with hunopened | ⟨hopened, hfirst⟩
  · refine ⟨fun later cause earlier hsplit => ?_, fun h => ?_⟩
    · have hmem : .entered cause ∈ w.timeline :=
        hsplit ▸ List.mem_append_right _ List.mem_cons_self
      exact absurd ⟨cause, hmem⟩ hunopened.unentered
    · exact absurd (hrefused.1 h).1 hunopened.unentered
  · exact ⟨hfirst, fun _ => hopened⟩

def roomy : World Unit := .fresh .standard (.zeros dataBase) ⟨0, 0⟩ ()

def calledAfterStart : List HostCall := [.start, .callGlobal "tokenize" []]

theorem run_comes_first_called : idling.OpensFirst calledAfterStart roomy ∧
    RunFirst (idling.session calledAfterStart roomy).timeline := by
  obtain ⟨hargv, henv, hmemory⟩ := arguments_fresh .standard (.zeros dataBase) ⟨0, 0⟩ ()
  have hstate : roomy.state = .notStarted := state_fresh .standard (.zeros dataBase) ⟨0, 0⟩ ()
  have hsize : argumentsSize roomy.argv roomy.env < dataBase - argumentsBase := by
    rw [roomy, hargv, henv]
    decide +kernel
  have hfits : roomy.memory.size = dataBase := by
    rw [roomy, hmemory, Memory.size_zeros (by decide)]
  have hopens : idling.OpensFirst calledAfterStart roomy :=
    ⟨False.elim, fun _ => idling.opened_start hstate hsize (Nat.le_of_eq hfits.symm), trivial⟩
  have hfirst := run_comes_first idling .standard (.zeros dataBase) ⟨0, 0⟩ () calledAfterStart
  exact ⟨hopens, (hfirst.2 hopens).1⟩

def calledAtOnce : List HostCall :=
  [.edit (discard (Heap.newCallback 1)), .invoke (Heap.newCallback 1 cramped.heap).1 .undefined []]

theorem callback_before_run :
    let w := idling.session calledAtOnce cramped
    ¬ RunFirst w.timeline ∧ ¬ w.Opened ∧ idling.start w = .error .alreadyStarted w := by
  intro w
  have htimeline : w.timeline = [.entered (.callback 1)] := by
    decide +kernel
  have hstate : w.state = .suspended := by
    decide +kernel
  refine ⟨fun hfirst => ?_, fun hopened => ?_, ?_⟩
  · rcases hfirst [] (.callback 1) [] htimeline with h | h
    · cases h
    · cases h
  · rw [World.Opened, htimeline] at hopened
    simp at hopened
  · rw [idling.start_refused_iff, Scheduler.checkStartable,
      show w.scheduler.state = .suspended from hstate]

end TokenizerHost
