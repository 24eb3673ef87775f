import TokenizerHost.Proofs.Run.Situation

set_option autoImplicit false

namespace TokenizerHost

namespace Scheduler

variable {s s' : Scheduler} {excused more : List Int32} {id : Int32}

/-- The timer's report is in the queue, or it sleeps until it reports. -/
def Awaits (s : Scheduler) (id : Int32) : Prop :=
  id ∈ s.reports ∨ ∃ t ∈ s.sleeping, t.id = id ∧ s.armed.find? id = some t.serial

/-- The timer is armed and nothing will report it. -/
def Stranded (s : Scheduler) (id : Int32) : Prop := s.isPending id = true ∧ ¬ s.Awaits id

structure Sound (s : Scheduler) (excused : List Int32) : Prop where
  numbered : ∀ id serial, s.armed.find? id = some serial → serial < s.nextSerial
  distinct : ∀ id id' serial, s.armed.find? id = some serial → s.armed.find? id' = some serial →
    id = id'
  awaited : ∀ id, s.isPending id = true → id ∉ excused → s.Awaits id
  ended : s.exitCode? ≠ none → ∀ id, s.armed.find? id = none

namespace Sound

theorem mono (h : s.Sound excused) (hsub : excused ⊆ more) : s.Sound more :=
  ⟨h.numbered, h.distinct, fun id hid hmore => h.awaited id hid fun hin => hmore (hsub hin), h.ended⟩

theorem not_stranded (h : s.Sound excused) (hid : id ∉ excused) : ¬ s.Stranded id :=
  fun hstranded => hstranded.2 (h.awaited id hstranded.1 hid)

theorem unexcuse (h : s.Sound (id :: excused)) (hid : s.isPending id = false) :
    s.Sound excused := by
  refine ⟨h.numbered, h.distinct, fun other hother hout => h.awaited other hother ?_, h.ended⟩
  intro hmem
  rcases List.mem_cons.1 hmem with rfl | hin
  · rw [hid] at hother
    cases hother
  · exact hout hin

theorem running (h : s.Sound excused) (hid : s.isPending id = true) : s.exitCode? = none := by
  cases hexit : s.exitCode? with
  | none => rfl
  | some code =>
    have hnone : s.armed.find? id = none := h.ended (by rw [hexit]; exact Option.some_ne_none code) id
    rw [isPending_eq_false_iff.2 hnone] at hid
    cases hid

theorem reframe (h : s.Sound excused) (harmed : s'.armed = s.armed)
    (hsleeping : s'.sleeping = s.sleeping) (hreports : s'.reports = s.reports)
    (hserial : s'.nextSerial = s.nextSerial)
    (hexit : s'.exitCode? ≠ none → s.exitCode? ≠ none) : s'.Sound excused := by
  refine ⟨?_, ?_, ?_, fun hs id => ?_⟩
  · rw [harmed, hserial]
    exact h.numbered
  · rw [harmed]
    exact h.distinct
  · simp only [isPending, Awaits, harmed, hsleeping, hreports]
    exact h.awaited
  · rw [harmed]
    exact h.ended (hexit hs) id

theorem wake (h : s.Sound excused) (harmed : s'.armed = s.armed) {due : List SleepingTimer}
    (hsleeping : s.sleeping = due ++ s'.sleeping)
    (hreports : s'.reports = s.reports ++ due.map (·.id)) (hserial : s'.nextSerial = s.nextSerial)
    (hstate : s'.state = s.state) : s'.Sound excused := by
  refine ⟨?_, ?_, fun id hid hout => ?_, fun hs id => ?_⟩
  · rw [harmed, hserial]
    exact h.numbered
  · rw [harmed]
    exact h.distinct
  · rw [isPending, harmed] at hid
    rw [Awaits, hreports, harmed]
    rcases h.awaited id hid hout with hqueued | ⟨t, ht, rfl, hfind⟩
    · exact .inl (List.mem_append_left _ hqueued)
    · rw [hsleeping] at ht
      rcases List.mem_append.1 ht with hdue | hlater
      · exact .inl (List.mem_append_right _ (List.mem_map_of_mem hdue))
      · exact .inr ⟨t, hlater, rfl, hfind⟩
  · rw [harmed]
    exact h.ended (by rwa [exitCode?, ← hstate]) id

theorem advance (h : s.Sound excused) (millis : Nat) : (s.advance millis).Sound excused :=
  h.wake rfl List.takeWhile_append_dropWhile.symm rfl rfl rfl

theorem elapse (h : s.Sound excused) (millis : Nat) : (s.elapse millis).Sound excused :=
  h.wake rfl List.takeWhile_append_dropWhile.symm rfl rfl rfl

theorem schedule (h : s.Sound excused) (hrun : s.exitCode? = none) (delay : Int) :
    (s.schedule delay).2.Sound excused := by
  have hnext : (s.schedule delay).2.nextSerial = s.nextSerial + 1 := rfl
  refine ⟨fun id serial hid => ?_, fun id id' serial hid hid' => ?_, fun id hid hout => ?_,
    fun hexit => absurd hrun hexit⟩
  · rw [hnext]
    rcases armed_schedule hid with ⟨-, rfl⟩ | ⟨-, hold⟩
    · omega
    · have := h.numbered id serial hold
      omega
  · rcases armed_schedule hid with ⟨hnew, rfl⟩ | ⟨-, hold⟩
    · rcases armed_schedule hid' with ⟨hnew', -⟩ | ⟨-, hold'⟩
      · exact hnew.trans hnew'.symm
      · exact absurd (h.numbered id' _ hold') (Nat.lt_irrefl _)
    · rcases armed_schedule hid' with ⟨-, rfl⟩ | ⟨-, hold'⟩
      · exact absurd (h.numbered id _ hold) (Nat.lt_irrefl _)
      · exact h.distinct id id' serial hold hold'
  · obtain ⟨serial, hfound⟩ := isPending_iff.1 hid
    rcases armed_schedule hfound with ⟨hnew, rfl⟩ | ⟨hne, hold⟩
    · refine .inr ⟨⟨s.nextId, s.now + delay.toNat, s.nextSerial⟩, ?_, hnew.symm, hfound⟩
      exact mem_insertSleeping.2 (.inl rfl)
    -- an older arming of a reused id is overwritten, so only the other ids matter here
    · rcases h.awaited id (isPending_iff.2 ⟨serial, hold⟩) hout with hqueued | ⟨t, ht, rfl, ht'⟩
      · exact .inl hqueued
      · refine .inr ⟨t, mem_insertSleeping.2 (.inr ht), rfl, ?_⟩
        rw [find?_schedule, if_neg hne]
        exact ht'

theorem disarm (h : s.Sound excused) {serial : Nat} (hserial : s.armed.find? id = some serial) :
    (s.disarm id serial).Sound excused := by
  refine ⟨fun other n hother => ?_, fun other other' n hother hother' => ?_,
    fun other hother hout => ?_, fun hexit other => ?_⟩
  · exact h.numbered other n (armed_disarm hother).2
  · exact h.distinct other other' n (armed_disarm hother).2 (armed_disarm hother').2
  · obtain ⟨n, hn⟩ := isPending_iff.1 hother
    obtain ⟨hne, hbefore⟩ := armed_disarm hn
    rcases h.awaited other (isPending_iff.2 ⟨n, hbefore⟩) hout with hqueued | ⟨t, ht, rfl, ht'⟩
    · exact .inl hqueued
    -- the sleeping timer of another id has another serial, so it is not among those removed
    · have hkept : t.serial ≠ serial := fun heq =>
        hne (h.distinct t.id id serial (heq ▸ ht') hserial)
      refine .inr ⟨t, List.mem_filter.2 ⟨ht, bne_iff_ne.2 hkept⟩, rfl, ?_⟩
      rw [find?_disarm, if_neg hne]
      exact ht'
  · rw [find?_disarm, h.ended hexit other]
    exact ite_self none

/-- Whoever takes a report has to see to its timer. -/
theorem take (h : s.Sound excused) {rest : List Int32} (hreports : s.reports = id :: rest) :
    { s with reports := rest }.Sound (id :: excused) := by
  refine ⟨h.numbered, h.distinct, fun other hother hout => ?_, h.ended⟩
  rw [List.mem_cons, not_or] at hout
  rcases h.awaited other hother hout.2 with hqueued | hsleeps
  · rw [hreports, List.mem_cons] at hqueued
    exact .inl (hqueued.resolve_left hout.1)
  · exact .inr hsleeps

theorem exit (s : Scheduler) (code : Int32) (excused : List Int32) :
    (s.exit code).Sound excused where
  numbered _ _ h := nomatch h
  distinct _ _ _ h := nomatch h
  awaited _ h := nomatch h
  ended _ _ := rfl

theorem new (maxRefires : Nat) : (Scheduler.new maxRefires).Sound [] where
  numbered _ _ h := nomatch h
  distinct _ _ _ h := nomatch h
  awaited _ h := nomatch h
  ended _ _ := rfl

end Sound

theorem stranded_of_idle (hid : s.isPending id = true) (hreports : s.reports = [])
    (hsleeping : s.sleeping = []) : s.Stranded id := by
  refine ⟨hid, fun hawaits => ?_⟩
  rw [Awaits, hreports, hsleeping] at hawaits
  rcases hawaits with hqueued | ⟨t, ht, -⟩
  · cases hqueued
  · cases ht

/-- A guest with an armed timer and none stranded waits for a deadline that is still to come. -/
theorem exists_sleeping (hstranded : ∀ id, ¬ s.Stranded id) (hpending : s.pendingTimers ≠ 0)
    (hreports : s.reports = []) : s.sleeping ≠ [] := by
  have hentries : s.armed.entries ≠ [] := fun hnil => hpending (congrArg List.length hnil)
  obtain ⟨⟨id, serial⟩, hmem⟩ := List.exists_mem_of_ne_nil _ hentries
  have harmed : s.isPending id = true := by
    rw [isPending, Assoc.contains, Assoc.find?, List.lookup_isSome_iff]
    exact ⟨(id, serial), hmem, beq_self_eq_true id⟩
  have hawaits : s.Awaits id := Classical.byContradiction fun hnot => hstranded id ⟨harmed, hnot⟩
  rcases hawaits with hqueued | ⟨t, ht, -⟩
  · rw [hreports] at hqueued
    cases hqueued
  · exact List.ne_nil_of_mem ht

end Scheduler

def narrow : World Bool := .fresh .standard (.zeros 32) ⟨0, 0⟩ false

def narrowCallback : Value := (Heap.newCallback 1 narrow.heap).1

end TokenizerHost
