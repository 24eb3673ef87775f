import Mathlib.Algebra.Ring.Nat
import Mathlib.Data.List.Basic

set_option autoImplicit false

namespace TokenizerHost.Text

def unlines (lines : List (List Char)) : List Char := lines.flatMap (· ++ ['\n'])

@[simp] theorem unlines_nil : unlines [] = [] := rfl

theorem unlines_cons (line : List Char) (lines : List (List Char)) :
    unlines (line :: lines) = line ++ '\n' :: unlines lines := by
  simp [unlines]

theorem unlines_append (lines more : List (List Char)) :
    unlines (lines ++ more) = unlines lines ++ unlines more := List.flatMap_append

theorem splitOn_unlines_append (lines : List (List Char)) (rest : List Char) :
    (unlines lines ++ rest).splitOn '\n' = lines.flatMap (·.splitOn '\n') ++ rest.splitOn '\n' := by
  induction lines with
  | nil => rfl
  | cons line lines ih =>
    rw [unlines_cons, List.append_assoc, List.cons_append, List.splitOn_append_cons_self, ih,
      List.flatMap_cons, List.append_assoc]

theorem splitOn_unlines (lines : List (List Char)) :
    (unlines lines).splitOn '\n' = lines.flatMap (·.splitOn '\n') ++ [[]] := by
  simpa using splitOn_unlines_append lines []

theorem unlines_splitOn (cs : List Char) : unlines (cs.splitOn '\n') = cs ++ ['\n'] := by
  induction cs with
  | nil => rfl
  | cons c cs ih =>
    by_cases hc : c = '\n'
    · simp [List.splitOn_cons_eq_if_modifyHead, hc, unlines_cons, ih]
    · obtain ⟨line, lines, hlines⟩ := List.exists_cons_of_ne_nil (List.splitOn_ne_nil '\n' cs)
      rw [hlines] at ih
      simp [List.splitOn_cons_eq_if_modifyHead, hc, hlines, unlines_cons, ← ih]

/-- What has no line break goes to the first line of what follows. -/
theorem splitOn_append_of_not_mem {lead : List Char} (h : '\n' ∉ lead) (cs : List Char) :
    (lead ++ cs).splitOn '\n' = (cs.splitOn '\n').modifyHead (lead ++ ·) := by
  induction lead with
  | nil => exact (List.modifyHead_id ▸ rfl)
  | cons c lead ih =>
    rw [List.mem_cons, not_or] at h
    rw [List.cons_append, List.splitOn_cons_eq_if_modifyHead, if_neg (by simpa using Ne.symm h.1), ih h.2,
      List.modifyHead_modifyHead]
    rfl

theorem length_splitOn (cs : List Char) : (cs.splitOn '\n').length = cs.count '\n' + 1 := by
  induction cs with
  | nil => rfl
  | cons c cs ih =>
    by_cases hc : c = '\n'
    · simp [List.splitOn_cons_eq_if_modifyHead, hc, ih]
    · simp [List.splitOn_cons_eq_if_modifyHead, hc, ih, List.count_cons_of_ne]

theorem length_flatMap_splitOn (lines : List (List Char)) :
    (lines.flatMap (·.splitOn '\n')).length = lines.length + (lines.map (·.count '\n')).sum := by
  induction lines with
  | nil => rfl
  | cons line lines ih =>
    rw [List.flatMap_cons, List.length_append, length_splitOn, ih, List.length_cons, List.map_cons,
      List.sum_cons]
    omega

theorem sum_count_eq_zero_iff {lines : List (List Char)} :
    (lines.map (·.count '\n')).sum = 0 ↔ ∀ line ∈ lines, '\n' ∉ line := by
  induction lines with
  | nil => simp
  | cons line lines ih => simp [ih, List.count_eq_zero]

theorem flatMap_splitOn_of_unbroken {lines : List (List Char)} (h : ∀ line ∈ lines, '\n' ∉ line) :
    lines.flatMap (·.splitOn '\n') = lines := by
  induction lines with
  | nil => rfl
  | cons line lines ih =>
    rw [List.forall_mem_cons] at h
    rw [List.flatMap_cons, List.splitOn_eq_singleton h.1, ih h.2, List.singleton_append]

theorem flatMap_splitOn_eq_self_iff {lines : List (List Char)} :
    lines.flatMap (·.splitOn '\n') = lines ↔ ∀ line ∈ lines, '\n' ∉ line := by
  refine ⟨fun h => ?_, flatMap_splitOn_of_unbroken⟩
  have hlength := congrArg List.length h
  rw [length_flatMap_splitOn] at hlength
  exact sum_count_eq_zero_iff.1 (by omega)

theorem not_mem_of_mem_splitOn {cs line : List Char} (h : line ∈ cs.splitOn '\n') : '\n' ∉ line := by
  have hsplit := splitOn_unlines (cs.splitOn '\n')
  rw [unlines_splitOn, List.splitOn_append_cons_self] at hsplit
  exact flatMap_splitOn_eq_self_iff.1 (List.append_cancel_right hsplit).symm line h

theorem mem_intercalate_iff {sep c : Char} (h : c ≠ sep) (parts : List (List Char)) :
    c ∈ [sep].intercalate parts ↔ ∃ part ∈ parts, c ∈ part := by
  induction parts with
  | nil => simp
  | cons part parts ih =>
    cases parts with
    | nil => simp
    | cons next parts =>
      rw [List.intercalate_cons_cons, List.append_assoc, List.mem_append, List.mem_append,
        List.mem_singleton, ih]
      simp [h]

end TokenizerHost.Text
