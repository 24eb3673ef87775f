import TokenizerHost.Proofs.Run.Situation

set_option autoImplicit false

namespace TokenizerHost

open Host

variable {σ : Type}

namespace World

def Entered (w : World σ) : Prop := ∃ cause, .entered cause ∈ w.timeline

def runs (w : World σ) : Nat := w.timeline.count (.entered .run)

/-- What the state of a guest says about the frames that are active and those that ever were. -/
structure Balanced (frames : List Cause) (w : World σ) : Prop where
  depth : w.scheduler.depth = frames.length
  inside : w.exitCode? = none → frames ≠ [] → w.state = .running
  outside : frames = [] → w.state ≠ .running
  unentered : w.state = .notStarted → ¬ w.Entered
  entered : w.state = .running ∨ w.state = .suspended → w.Entered
  once : w.runs ≤ 1

namespace Balanced

variable {frames : List Cause} {w u : World σ}

theorem congr (h : w.Balanced frames) (hdepth : u.scheduler.depth = w.scheduler.depth)
    (hstate : u.state = w.state) (hentered : u.Entered ↔ w.Entered) (hruns : u.runs = w.runs) :
    u.Balanced frames := by
  have hexit : u.exitCode? = w.exitCode? := congrArg GuestState.exitCode? hstate
  refine ⟨hdepth.trans h.depth, ?_, ?_, ?_, ?_, hruns ▸ h.once⟩
  · rw [hexit, hstate]
    exact h.inside
  · rw [hstate]
    exact h.outside
  · rw [hstate, hentered]
    exact h.unentered
  · rw [hstate, hentered]
    exact h.entered

theorem ticks (h : w.Balanced frames) {s : Scheduler} (hdepth : s.depth = w.scheduler.depth)
    (hstate : s.state = w.scheduler.state) : { w with scheduler := s }.Balanced frames :=
  h.congr hdepth hstate Iff.rfl rfl

theorem aside (h : w.Balanced frames) (hwu : Aside w u) : u.Balanced frames := by
  have hstate : u.state = w.state := congrArg Scheduler.state hwu.scheduler
  refine h.congr (congrArg Scheduler.depth hwu.scheduler) hstate ?_ ?_
  · rw [Entered, Entered, hwu.timeline]
  · rw [runs, runs, hwu.timeline]

theorem disarm (h : w.Balanced frames) (id : Int32) (serial : Nat) :
    (w.disarming id serial).Balanced frames := by
  refine h.congr rfl rfl ?_ ?_
  · refine exists_congr fun cause => ?_
    simp [disarming, mark]
  · simp [runs, disarming, mark]

theorem enter (h : w.Balanced frames) {cause : Cause} (hcause : cause = .run → ¬ w.Entered) :
    (w.entering cause).Balanced (cause :: frames) where
  depth := congrArg (· + 1) h.depth
  inside _ _ := rfl
  outside hframes := nomatch hframes
  unentered hstate := nomatch hstate
  entered _ := ⟨cause, List.mem_cons_self⟩
  once := by
    have hmark : (w.entering cause).runs =
        w.runs + if Milestone.entered cause == .entered .run then 1 else 0 := List.count_cons
    by_cases hrun : cause = .run
    · have hnone : w.runs = 0 :=
        List.count_eq_zero.2 fun hmem => hcause hrun ⟨.run, hmem⟩
      rw [hmark, hnone]
      split <;> omega
    · have hother : (Milestone.entered cause == .entered .run) = false := by simpa using hrun
      have honce := h.once
      simp only [hother, Bool.false_eq_true, if_false] at hmark
      omega

theorem exit (h : w.Balanced frames) (code : Int32) : (w.exit code).Balanced frames where
  depth := h.depth
  inside hrun := nomatch hrun
  outside _ := fun hstate => nomatch hstate
  unentered hstate := nomatch hstate
  entered hstate := by rcases hstate with hstate | hstate <;> cases hstate
  once := h.once

theorem leave {cause : Cause} (h : w.Balanced (cause :: frames)) : w.leaving.Balanced frames := by
  have hdepth : w.scheduler.depth - 1 = frames.length := by
    rw [h.depth]
    rfl
  have hstate : w.leaving.state =
      if w.scheduler.depth - 1 = 0 ∧ w.state = .running then .suspended else w.state := rfl
  rw [hdepth] at hstate
  have hnone : frames = [] ↔ frames.length = 0 := List.length_eq_zero_iff.symm
  -- the state changes only where the last frame is left
  refine ⟨hdepth, fun hrun hframes => ?_, fun hframes => ?_, fun hnot => ?_, fun hlive => ?_, h.once⟩
  · rw [exitCode?_leaving] at hrun
    rw [hstate, if_neg fun hlast => hframes (hnone.2 hlast.1)]
    exact h.inside hrun (List.cons_ne_nil _ _)
  · rw [hstate]
    split
    next => exact fun hsuspended => nomatch hsuspended
    next hlast => exact fun hrunning => hlast ⟨hnone.1 hframes, hrunning⟩
  · rw [hstate] at hnot
    split at hnot
    next => cases hnot
    next => exact h.unentered hnot
  · rw [hstate] at hlive
    split at hlive
    next hlast => exact h.entered (.inl hlast.2)
    next => exact h.entered hlive

end Balanced

end World

instance : RunInvariant (World.Balanced (σ := σ)) where
  aside h hw := hw.aside h
  schedule _ _ hw := hw.ticks rfl rfl
  disarm _ hw := hw.disarm _ _
  exit _ code hw := hw.exit code
  inner hcause _ hw := hw.enter fun h => absurd h hcause.ne_run
  leave hw := hw.leave
  waits h hw := hw.ticks h.keeps_frames.1 h.keeps_frames.2.1
  run h hw := hw.enter fun _ => hw.unentered h
  fire _ _ hw := hw.enter fun h => nomatch h

theorem balanced_fresh (o : HostOptions) (memory : Memory) (around : Surroundings) (own : σ) :
    (World.fresh o memory around own).Balanced [] := by
  have hstate := state_fresh o memory around own
  have htimeline := timeline_fresh o memory around own
  refine ⟨?_, fun _ h => absurd rfl h, fun _ => ?_, fun _ h => ?_, fun h => ?_, ?_⟩
  · rw [scheduler_fresh]
    rfl
  · rw [hstate]
    exact GuestState.noConfusion
  · obtain ⟨cause, hcause⟩ := h
    rw [htimeline] at hcause
    cases hcause
  · rw [hstate] at h
    rcases h with h | h <;> cases h
  · rw [World.runs, htimeline]
    exact Nat.zero_le 1

theorem Program.unentered_of_start_error (p : Program σ) {w u : World σ} {e : Fault}
    (hstate : w.state = .notStarted) (h : p.start w = .error e u) (hruns : u.runs = 0) :
    u.state = .notStarted ∧ u.timeline = w.timeline := by
  rcases p.start_cases w with ⟨e, -, hstart⟩ | ⟨-, e, m, -, hstart⟩ | ⟨-, a, m, -, hstart⟩
  · cases hstart.symm.trans h
    exact ⟨hstate, rfl⟩
  · cases hstart.symm.trans h
    exact ⟨hstate, rfl⟩
  · have hsuffix := Program.start_timeline_suffix hstate hstart
    rw [h] at hsuffix
    have hmem : .entered .run ∈ u.timeline := hsuffix.subset List.mem_cons_self
    exact absurd hmem (List.count_eq_zero.1 hruns)

/-- In every situation the depth counts the active frames, a guest with an active frame is running
unless it has exited, and the entry point has been run at most once. When a call of the embedding
program has come back, no frame is active: nothing has been entered yet, or the guest is suspended
or has exited. A start whose arguments cannot be written fails with that fault, and one that fails
before it runs the entry point can be tried again. -/
theorem frames_balance (p : Program σ) (o : HostOptions) (memory : Memory) (around : Surroundings)
    (own : σ) :
    (∀ frames control w, Situation p (.fresh o memory around own) frames control w →
      w.scheduler.depth = frames.length ∧ w.runs ≤ 1 ∧
      (w.exitCode? = none → frames ≠ [] → w.state = .running)) ∧
    ∀ (calls : List HostCall) (w : World σ), w = p.session calls (.fresh o memory around own) →
      w.scheduler.depth = 0 ∧ w.runs ≤ 1 ∧
      ((w.state = .notStarted ∧ ¬ w.Entered) ∨ w.state = .suspended ∨
        ∃ code, w.state = .exited code) ∧
      (w.state = .notStarted →
        (∀ e m, Memory.writeArguments w.argv w.env w.memory = .error e m →
          p.start w = .error e (Program.argued w m)) ∧
        ∀ e u, p.start w = .error e u → u.runs = 0 →
          u.state = .notStarted ∧ ¬ u.Entered ∧ u.scheduler.checkStartable = .ok ()) := by
  have hfresh := balanced_fresh o memory around own
  refine ⟨fun frames control w h => ?_, fun calls w hw => ?_⟩
  · have hbalanced := h.holds (P := World.Balanced) hfresh
    exact ⟨hbalanced.depth, hbalanced.once, hbalanced.inside⟩
  · have hbalanced : w.Balanced [] := by
      rw [hw]
      exact (Situation.session p _ calls).holds (P := World.Balanced) hfresh
    refine ⟨hbalanced.depth, hbalanced.once, ?_, fun hstate => ⟨fun e m hm => ?_, ?_⟩⟩
    · cases hstate : w.state with
      | notStarted => exact .inl ⟨rfl, hbalanced.unentered hstate⟩
      | running => exact absurd hstate (hbalanced.outside rfl)
      | suspended => exact .inr (.inl rfl)
      | exited code => exact .inr (.inr ⟨code, rfl⟩)
    · rcases p.start_cases w with ⟨e', hcheck, -⟩ | ⟨-, e', m', hm', h⟩ | ⟨-, a, m', hm', -⟩
      · cases (Scheduler.checkStartable_of_notStarted hstate).symm.trans hcheck
      · cases hm.symm.trans hm'
        exact h
      · cases hm.symm.trans hm'
    · intro e u hstart hruns
      obtain ⟨hnot, htimeline⟩ := p.unentered_of_start_error hstate hstart hruns
      refine ⟨hnot, ?_, Scheduler.checkStartable_of_notStarted hnot⟩
      rw [World.Entered, htimeline]
      exact hbalanced.unentered hstate

def idling : Program Unit where
  stackPointer _ := 0
  run _ := .done ()
  resume := .done ()
  functions _ _ _ := .done (.returned .undefined)

def cramped : World Unit := .fresh .standard (.zeros 0) ⟨0, 0⟩ ()

theorem frames_balance_cramped :
    ((cramped.entering .run).scheduler.depth = 1 ∧ (cramped.entering .run).state = .running) ∧
    ∃ e u, idling.start cramped = .error e u ∧ u.state = .notStarted ∧
      u.scheduler.checkStartable = .ok () := by
  have hstate : cramped.state = .notStarted := state_fresh _ _ _ _
  have hinside : Situation idling cramped [.run] (.code Program.maxDepth (idling.run ⟨0, 0⟩))
      (cramped.entering .run) := Situation.start.runs ⟨0, 0⟩ hstate
  have hfails : (match idling.start cramped with
      | .ok _ _ => false
      | .error _ u => u.runs == 0) = true := by
    decide +kernel
  have hbalance := frames_balance idling .standard (.zeros 0) ⟨0, 0⟩ ()
  obtain ⟨hdepth, -, hrunning⟩ := hbalance.1 _ _ _ hinside
  obtain ⟨-, -, -, hretry⟩ := hbalance.2 [] cramped rfl
  refine ⟨⟨hdepth.trans (List.length_singleton), ?_⟩, ?_⟩
  · exact hrunning (World.exitCode?_entering _ _) (List.cons_ne_nil _ _)
  cases hstart : idling.start cramped with
  | ok a u =>
    rw [hstart] at hfails
    cases hfails
  | error e u =>
    rw [hstart] at hfails
    obtain ⟨hnot, -, hcheck⟩ := (hretry hstate).2 e u hstart (beq_iff_eq.1 hfails)
    exact ⟨e, u, rfl, hnot, hcheck⟩

end TokenizerHost
