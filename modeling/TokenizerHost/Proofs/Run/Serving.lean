import TokenizerHost.Proofs.Run.Firing

set_option autoImplicit false

namespace TokenizerHost

open Host

variable {σ : Type}

theorem World.Standing.reports_length_le {limit : Nat} {fired queue : List Int32}
    {frames : List Cause} {w : World σ} (h : w.Standing limit fired queue frames) :
    w.scheduler.reports.length ≤ queue.length := by
  by_cases hrun : w.exitCode? = none
  · rw [h.queue hrun]
  · rw [(h.ended hrun).2]
    exact Nat.zero_le _

namespace TimerOutcome

def timer : TimerOutcome → Int32
  | .fired id _ => id
  | .canceled id => id
  | .exhausted id _ => id

def resumes : TimerOutcome → Nat
  | .fired _ refires => refires + 1
  | .canceled _ => 0
  | .exhausted _ refires => refires + 1

def resumed (outcomes : List TimerOutcome) : List Int32 :=
  outcomes.reverse.flatMap fun o => List.replicate o.resumes o.timer

theorem resumed_snoc (outcomes : List TimerOutcome) (o : TimerOutcome) :
    resumed (outcomes ++ [o]) = List.replicate o.resumes o.timer ++ resumed outcomes := by
  rw [resumed, List.reverse_append, List.flatMap_append]
  exact congrArg (· ++ resumed outcomes) (List.flatMap_singleton _ o)

end TimerOutcome

structure World.FiredAs (w : World σ) (id : Int32) (o : TimerOutcome) (u : World σ) : Prop where
  timer : o.timer = id
  fired : u.fired = List.replicate o.resumes id ++ w.fired
  limit : o.resumes ≤ w.scheduler.maxRefires + 1
  canceled : o = .canceled o.timer ↔ w.scheduler.isPending o.timer = false

theorem Program.firedAs_of_ok (p : Program σ) {w u : World σ} {id : Int32} {o : TimerOutcome}
    (hrun : w.exitCode? = none) (h : p.fireTimer id w = .ok o u) : w.FiredAs id o u := by
  cases hpending : w.scheduler.isPending id with
  | false =>
    cases (p.fireTimer_idle hrun hpending).symm.trans h
    exact ⟨rfl, rfl, Nat.zero_le _, fun _ => hpending, fun _ => rfl⟩
  | true =>
    have hbusy : w.scheduler.isPending id ≠ false := by
      rw [hpending]
      exact Bool.noConfusion
    rcases p.firing_cases hpending with ⟨again, x, hlimit, hx⟩ | ⟨x, harmed, hx⟩ |
      ⟨again, e, x, hlimit, harmed, hx⟩
    · cases (p.fireTimer_of_disarmedAt hrun hx hlimit).symm.trans h
      have hfired := (p.standing_resumeTimes hrun hx.resumed).fired
      exact ⟨rfl, hfired, Nat.succ_le_succ hlimit, nofun, fun hidle => absurd hidle hbusy⟩
    · cases (p.fireTimer_exhausted hrun harmed hx).symm.trans h
      have hfired := (World.fired_clearTimer _ id).trans (p.standing_resumeTimes hrun hx).fired
      exact ⟨rfl, hfired, Nat.le_refl _, nofun, fun hidle => absurd hidle hbusy⟩
    · cases (p.fireTimer_of_fault hrun harmed hx hlimit).symm.trans h

inductive Served (p : Program σ) (start : World σ) : List TimerOutcome → World σ → Prop where
  | start : Served p start [] start
  | next {outcomes : List TimerOutcome} {w u : World σ} {id : Int32} {rest : List Int32}
      {o : TimerOutcome} (h : Served p start outcomes w) (hrun : w.exitCode? = none)
      (hreports : w.scheduler.reports = id :: rest)
      (hfire : p.fireTimer id (Program.taken w rest) = .ok o u) :
      Served p start (outcomes ++ [o]) u

namespace Served

variable {p : Program σ} {start w u : World σ} {outcomes : List TimerOutcome} {o : TimerOutcome}
  {id : Int32} {rest : List Int32}

theorem drop_snoc {queue : List Int32} (h : queue.drop outcomes.length = id :: rest) :
    queue.drop (outcomes ++ [o]).length = rest := by
  rw [List.length_append, List.length_singleton, ← List.tail_drop, h]
  rfl

theorem standing_taken {limit : Nat} {fired queue : List Int32} (rest : List Int32)
    (h : w.Standing limit fired queue []) (hrun : w.exitCode? = none) :
    (Program.taken w rest).Standing limit fired rest [] :=
  ⟨h.limit, h.fired, fun _ => rfl, fun hexit => absurd hrun hexit⟩

theorem standing (hstart : start.exitCode? = none) (h : Served p start outcomes w) :
    w.Standing start.scheduler.maxRefires (TimerOutcome.resumed outcomes ++ start.fired)
      (start.scheduler.reports.drop outcomes.length) [] := by
  induction h with
  | start => exact World.standing hstart
  | @next outcomes w u id rest o _ hrun hreports hfire ih =>
    have hfired := p.firedAs_of_ok (w := Program.taken w rest) hrun hfire
    obtain ⟨more, -, hafter⟩ :=
      p.standing_fireTimer id (standing_taken rest ih hrun) hrun
    rw [hfire] at hafter
    have hqueue : start.scheduler.reports.drop (outcomes ++ [o]).length = rest :=
      drop_snoc ((ih.queue hrun).symm.trans hreports)
    have htotal : u.fired = TimerOutcome.resumed (outcomes ++ [o]) ++ start.fired := by
      rw [TimerOutcome.resumed_snoc, List.append_assoc, ← ih.fired, hfired.timer]
      exact hfired.fired
    exact ⟨hafter.limit, htotal, hqueue.symm ▸ hafter.queue, hafter.ended⟩

theorem queue (hstart : start.exitCode? = none) (h : Served p start outcomes w)
    (hrun : w.exitCode? = none) (hreports : w.scheduler.reports = id :: rest) :
    start.scheduler.reports.drop outcomes.length = id :: rest :=
  ((h.standing hstart).queue hrun).symm.trans hreports

theorem timers (hstart : start.exitCode? = none) (h : Served p start outcomes w) :
    outcomes.map (·.timer) = start.scheduler.reports.take outcomes.length := by
  induction h with
  | start => rfl
  | @next outcomes w u id rest o hw hrun hreports hfire ih =>
    have hfired := p.firedAs_of_ok (w := Program.taken w rest) hrun hfire
    have hnext : start.scheduler.reports[outcomes.length]? = some id := by
      rw [← List.head?_drop, hw.queue hstart hrun hreports]
      rfl
    rw [List.map_append, ih, List.length_append, List.length_singleton, List.take_add_one, hnext]
    exact congrArg (_ ++ [·]) hfired.timer

theorem limited (hstart : start.exitCode? = none) (h : Served p start outcomes w) :
    ∀ o ∈ outcomes, o.resumes ≤ start.scheduler.maxRefires + 1 := by
  induction h with
  | start => exact nofun
  | @next outcomes w u id rest o hw hrun hreports hfire ih =>
    intro o' ho'
    rcases List.mem_append.1 ho' with hbefore | hlast
    · exact ih o' hbefore
    · cases List.mem_singleton.1 hlast
      have hfired := p.firedAs_of_ok (w := Program.taken w rest) hrun hfire
      exact (hw.standing hstart).limit ▸ hfired.limit

/-- Where the run was when it came to an outcome. -/
theorem turn (hstart : start.exitCode? = none) (h : Served p start outcomes w) (k : Nat)
    (hk : k < outcomes.length) :
    ∃ x, Served p start (outcomes.take k) x ∧ x.exitCode? = none ∧
      x.scheduler.reports = start.scheduler.reports.drop k ∧
      (outcomes[k] = .canceled outcomes[k].timer ↔
        x.scheduler.isPending outcomes[k].timer = false) := by
  induction h with
  | start => cases hk
  | @next outcomes w u id rest o hw hrun hreports hfire ih =>
    rw [List.length_append, List.length_singleton] at hk
    rcases Nat.lt_succ_iff_lt_or_eq.1 hk with hbefore | rfl
    · rw [List.take_append_of_le_length (Nat.le_of_lt hbefore), List.getElem_append_left hbefore]
      exact ih hbefore
    · have hfired := p.firedAs_of_ok (w := Program.taken w rest) hrun hfire
      rw [List.take_left, List.getElem_concat_length rfl]
      exact ⟨w, hw, hrun, (hw.standing hstart).queue hrun, hfired.canceled⟩

end Served

inductive ServedUpTo (p : Program σ) (start : World σ) (outcomes : List TimerOutcome) :
    EStateM.Result Fault (World σ) (List TimerOutcome) → Prop where
  | ends {more : List TimerOutcome} {u : World σ} (h : Served p start (outcomes ++ more) u)
      (hreports : u.scheduler.reports = []) : ServedUpTo p start outcomes (.ok more u)
  | faults {more : List TimerOutcome} {x u : World σ} {id : Int32} {rest : List Int32} {e : Fault}
      (h : Served p start (outcomes ++ more) x) (hrun : x.exitCode? = none)
      (hreports : x.scheduler.reports = id :: rest)
      (hfire : p.fireTimer id (Program.taken x rest) = .error e u) :
      ServedUpTo p start outcomes (.error e u)

namespace ServedUpTo

variable {p : Program σ} {start w u : World σ} {outcomes : List TimerOutcome} {o : TimerOutcome}

theorem done (h : Served p start outcomes w) (hreports : w.scheduler.reports = []) :
    ServedUpTo p start outcomes (.ok [] w) :=
  .ends ((List.append_nil outcomes).symm ▸ h) hreports

theorem cons {serve : Host σ (List TimerOutcome)}
    (h : ServedUpTo p start (outcomes ++ [o]) (serve u)) :
    ServedUpTo p start outcomes ((do return o :: (← serve) : Host σ (List TimerOutcome)) u) := by
  cases hserve : serve u with
  | ok more x =>
    rw [hserve] at h
    rw [bind_ok hserve]
    cases h with
    | ends hserved hreports =>
      rw [List.append_assoc] at hserved
      exact .ends hserved hreports
  | error e x =>
    rw [hserve] at h
    rw [bind_error hserve]
    cases h with
    | faults hserved hrun hreports hfire =>
      rw [List.append_assoc] at hserved
      exact .faults hserved hrun hreports hfire

theorem fireReports (hstart : start.exitCode? = none) (count : Nat)
    (h : Served p start outcomes w) (hcount : w.scheduler.reports.length ≤ count) :
    ServedUpTo p start outcomes (p.fireReports count w) := by
  induction count generalizing w outcomes with
  | zero => exact done h (List.length_eq_zero_iff.1 (Nat.le_zero.1 hcount))
  | succ count ih =>
    cases hrun : w.exitCode? with
    | some code =>
      have hexit : w.exitCode? ≠ none := hrun ▸ Option.some_ne_none code
      rw [p.fireReports_exited hrun]
      exact done h ((h.standing hstart).ended hexit).2
    | none =>
      cases hreports : w.scheduler.reports with
      | nil =>
        rw [p.fireReports_nil hrun hreports]
        exact done h hreports
      | cons id rest =>
        rw [p.fireReports_cons hrun hreports]
        cases hfire : p.fireTimer id (Program.taken w rest) with
        | error e u =>
          rw [bind_error hfire]
          exact .faults ((List.append_nil outcomes).symm ▸ h) hrun hreports hfire
        | ok o u =>
          have hnext := h.next hrun hreports hfire
          -- an exit meanwhile empties the queue, and nothing else changes it
          have hleft : u.scheduler.reports.length ≤ rest.length := by
            have hlength := (hnext.standing hstart).reports_length_le
            rwa [Served.drop_snoc (h.queue hstart hrun hreports)] at hlength
          rw [hreports, List.length_cons] at hcount
          rw [bind_ok hfire]
          exact cons (ih hnext (by omega))

end ServedUpTo

/-- What a run over the oldest reports of a world has done: one outcome for each of them in turn. -/
structure Program.ServesInTurn (p : Program σ) (w : World σ) (outcomes : List TimerOutcome)
    (u : World σ) : Prop where
  timers : outcomes.map (·.timer) = w.scheduler.reports.take outcomes.length
  resumed : u.fired = TimerOutcome.resumed outcomes ++ w.fired
  limited : ∀ o ∈ outcomes, o.resumes ≤ w.scheduler.maxRefires + 1
  /-- When it was the turn of a report, the guest had not exited and the report was the oldest one;
  it is answered as canceled just if its timer was not armed. -/
  turn : ∀ k (hk : k < outcomes.length), ∃ x, Served p w (outcomes.take k) x ∧
    x.exitCode? = none ∧ x.scheduler.reports = w.scheduler.reports.drop k ∧
    (outcomes[k] = .canceled outcomes[k].timer ↔
      x.scheduler.isPending outcomes[k].timer = false)

theorem Served.servesInTurn {p : Program σ} {w u : World σ} {outcomes : List TimerOutcome}
    (hrun : w.exitCode? = none) (h : Served p w outcomes u) : p.ServesInTurn w outcomes u :=
  ⟨h.timers hrun, (h.standing hrun).fired, h.limited hrun, h.turn hrun⟩

/-- Serving the reports comes to its end with one outcome for each, unless the guest exits, which
takes the rest of the queue with it. Where a frame faults, the reports behind its own are left in
the queue, unless the guest has exited before. -/
theorem reports_are_served_in_turn (p : Program σ) {w : World σ} (hrun : w.exitCode? = none) :
    (∃ outcomes u, p.serviceTimers w = .ok outcomes u ∧ p.ServesInTurn w outcomes u ∧
      u.scheduler.reports = [] ∧
      (u.exitCode? = none → outcomes.length = w.scheduler.reports.length)) ∨
    ∃ outcomes x id rest e u, p.serviceTimers w = .error e u ∧ p.ServesInTurn w outcomes x ∧
      x.exitCode? = none ∧ w.scheduler.reports.drop outcomes.length = id :: rest ∧
      p.fireTimer id (Program.taken x rest) = .error e u ∧
      (u.exitCode? = none → u.scheduler.reports = rest) ∧
      (u.exitCode? ≠ none → u.scheduler.reports = []) := by
  have hserve : p.serviceTimers w = p.fireReports w.scheduler.reports.length w :=
    bind_ok (ensureNotExited_running hrun)
  have hall : ServedUpTo p w [] (p.fireReports w.scheduler.reports.length w) :=
    .fireReports hrun _ .start (Nat.le_refl _)
  rw [hserve]
  cases hresult : p.fireReports w.scheduler.reports.length w with
  | ok outcomes u =>
    rw [hresult] at hall
    cases hall with
    | ends h hreports =>
      change Served p w outcomes u at h
      refine .inl ⟨outcomes, u, rfl, h.servesInTurn hrun, hreports, fun hlive => ?_⟩
      have hleft := List.drop_eq_nil_iff.1 (((h.standing hrun).queue hlive).symm.trans hreports)
      have hcount := congrArg List.length (h.timers hrun)
      rw [List.length_map, List.length_take] at hcount
      omega
  | error e u =>
    rw [hresult] at hall
    cases hall with
    | @faults more x _ id rest _ h hlive hreports hfire =>
      have htaken := Served.standing_taken rest (h.standing hrun) hlive
      obtain ⟨_, -, hafter⟩ := p.standing_fireTimer id htaken hlive
      rw [hfire] at hafter
      refine .inr ⟨more, x, id, rest, e, u, rfl, h.servesInTurn hrun, hlive,
        h.queue hrun hlive hreports, hfire, hafter.queue, fun hexit => (hafter.ended hexit).2⟩

def arming (handler : Code Bool Unit) : Program Bool where
  stackPointer _ := 0
  run _ := .done ()
  resume := .observe fun w =>
    if w.own then handler
    else .own true w.memory (.request .scheduleTimeoutEvent 0 fun _ =>
      .request .scheduleTimeoutEvent 8 fun _ => .done ())
  functions _ _ _ := .done (.returned .undefined)

def bothReported (handler : Code Bool Unit) : World Bool :=
  (arming handler).session
    [.edit (discard (Heap.newCallback 1)), .invoke narrowCallback .undefined [], .advance 1] narrow

def clearingBoth : Code Bool Unit :=
  .request .clearTimeoutEvent 8 fun _ => .request .clearTimeoutEvent 16 fun _ => .done ()

def exitingAndFaulting : Code Bool Unit := .request .wasmExit 8 fun _ => .fault .stackExhausted

theorem reports_are_served_in_turn_cleared :
    (bothReported clearingBoth).exitCode? = none ∧
    ∃ outcomes u, (arming clearingBoth).serviceTimers (bothReported clearingBoth) = .ok outcomes u ∧
      (arming clearingBoth).ServesInTurn (bothReported clearingBoth) outcomes u ∧
      outcomes = [.fired 1 0, .canceled 2] := by
  have hrun : (bothReported clearingBoth).exitCode? = none := by
    decide +kernel
  have houtcomes : (match (arming clearingBoth).serviceTimers (bothReported clearingBoth) with
      | .ok outcomes _ => outcomes
      | .error _ _ => []) = [.fired 1 0, .canceled 2] := by
    decide +kernel
  rcases reports_are_served_in_turn (arming clearingBoth) hrun with
    ⟨outcomes, u, hserve, hturn, -⟩ | ⟨_, _, _, _, e, u, hserve, -⟩
  · rw [hserve] at houtcomes
    exact ⟨hrun, outcomes, u, hserve, hturn, houtcomes⟩
  · rw [hserve] at houtcomes
    cases houtcomes

/-- A guest that exits and then faults leaves no report behind its own. -/
theorem reports_dropped_by_exit :
    (bothReported exitingAndFaulting).scheduler.reports = [1, 2] ∧
    ∃ e u, (arming exitingAndFaulting).serviceTimers (bothReported exitingAndFaulting) =
      .error e u ∧ u.scheduler.reports = [] := by
  have hreports : (bothReported exitingAndFaulting).scheduler.reports = [1, 2] := by
    decide +kernel
  have hfaults : faultsIn (fun u => u.scheduler.reports.isEmpty)
      ((arming exitingAndFaulting).serviceTimers (bothReported exitingAndFaulting)) = true := by
    decide +kernel
  obtain ⟨e, u, hserve, hempty⟩ := exists_of_faultsIn hfaults
  exact ⟨hreports, e, u, hserve, List.isEmpty_iff.1 hempty⟩

end TokenizerHost
