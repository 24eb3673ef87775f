import Mathlib.Data.List.Nodup
import TokenizerHost.Json.Record

set_option autoImplicit false

namespace TokenizerHost.Json

variable {names : List String} {name : String} {ms ms' : List (Option String × Json)}
  {members : List (String × Json)}

def named (members : List (String × Json)) : List (Option String × Json) :=
  members.map fun (k, v) => (some k, v)

/-- What stands for a name: the first member with it. -/
def standing? (ms : List (Option String × Json)) (name : String) : Option Json :=
  (ms.find? fun m => m.1 == some name).map (·.2)

theorem fields?_object (names : List String) (ms : List (Option String × Json)) :
    (object ms).fields? names = if wellNamed names ms then some (names.map (standing? ms)) else none :=
  rfl

theorem wellNamed_iff : wellNamed names ms = true ↔ (∀ m ∈ ms, m.1.isSome = true) ∧
    ∀ name ∈ names, (ms.filter fun m => m.1 == some name).length ≤ 1 := by
  simp only [wellNamed, Bool.and_eq_true, List.all_eq_true, decide_eq_true_eq]

theorem wellNamed_of_perm (h : ms.Perm ms') : wellNamed names ms = wellNamed names ms' := by
  rw [Bool.eq_iff_iff, wellNamed_iff, wellNamed_iff]
  simp only [h.mem_iff, (h.filter _).length_eq]

theorem find?_of_perm {α : Type} {p : α → Bool} {xs ys : List α} (h : xs.Perm ys)
    (hone : (xs.filter p).length ≤ 1) : xs.find? p = ys.find? p := by
  have hfilter := h.filter p
  rw [← List.head?_filter, ← List.head?_filter]
  match hxs : xs.filter p with
  | [] =>
    rw [hxs] at hfilter
    rw [hfilter.nil_eq]
  | [x] =>
    rw [hxs] at hfilter
    rw [List.singleton_perm.1 hfilter]
  | _ :: _ :: _ => simp [hxs] at hone

theorem fields?_of_perm (names : List String) (h : ms.Perm ms') :
    (object ms).fields? names = (object ms').fields? names := by
  rw [fields?_object, fields?_object, wellNamed_of_perm h]
  split
  next hnamed =>
    refine congrArg some (List.map_congr_left fun name hname => ?_)
    rw [standing?, standing?, find?_of_perm h]
    rw [← wellNamed_of_perm h] at hnamed
    exact (wellNamed_iff.1 hnamed).2 name hname
  next => rfl

theorem standing?_append (ms ms' : List (Option String × Json)) (name : String) :
    standing? (ms ++ ms') name = (standing? ms name).or (standing? ms' name) := by
  rw [standing?, List.find?_append, Option.map_or]
  rfl

theorem standing?_named (members : List (String × Json)) (name : String) :
    standing? (named members) name = members.lookup name := by
  induction members with
  | nil => rfl
  | cons m rest ih =>
    obtain ⟨k, v⟩ := m
    by_cases hk : k = name
    · simp [standing?, named, hk]
    · rw [List.lookup_cons, show (name == k) = false by simpa using Ne.symm hk, ← ih, standing?, named,
        List.map_cons, List.find?_cons_of_neg (by simpa using hk)]
      rfl

theorem length_filter_named (members : List (String × Json)) (name : String) :
    ((named members).filter fun m => m.1 == some name).length =
      (members.map (·.1)).count name := by
  rw [named, List.filter_map, List.length_map, List.count_eq_countP, List.countP_map,
    List.countP_eq_length_filter]
  simp [Function.comp_def]

theorem isSome_of_mem_named {m : Option String × Json} (h : m ∈ named members) :
    m.1.isSome = true := by
  obtain ⟨_, _, rfl⟩ := List.mem_map.1 h
  rfl

theorem wellNamed_named (hnodup : (members.map (·.1)).Nodup) :
    wellNamed names (named members) = true := by
  refine wellNamed_iff.2 ⟨fun _ => isSome_of_mem_named, fun name _ => ?_⟩
  rw [length_filter_named]
  exact List.nodup_iff_count_le_one.1 hnodup name

theorem fields?_record (hnodup : (members.map (·.1)).Nodup) :
    (record members).fields? names = some (names.map (members.lookup ·)) := by
  change (object (named members)).fields? names = _
  rw [fields?_object, if_pos (wellNamed_named hnodup)]
  exact congrArg some (List.map_congr_left fun name _ => standing?_named members name)

theorem fields?_append (hnodup : (members.map (·.1)).Nodup)
    (hnew : ∀ m ∈ members, ∀ m' ∈ ms, m'.1 ≠ some m.1) :
    (object (ms ++ named members)).fields? names =
      ((object ms).fields? names).map fun _ =>
        names.map fun name => (standing? ms name).or (members.lookup name) := by
  have hnamed : wellNamed names (ms ++ named members) = wellNamed names ms := by
    rw [Bool.eq_iff_iff, wellNamed_iff, wellNamed_iff]
    refine and_congr ?_ (forall₂_congr fun name _ => ?_)
    · simp only [List.mem_append, or_imp, forall_and]
      exact and_iff_left fun _ => isSome_of_mem_named
    · have hcount := List.nodup_iff_count_le_one.1 hnodup name
      rw [List.filter_append, List.length_append, length_filter_named]
      by_cases hmem : name ∈ members.map (·.1)
      · obtain ⟨m, hm, rfl⟩ := List.mem_map.1 hmem
        have hnone : (ms.filter fun m' => m'.1 == some m.1) = [] :=
          List.filter_eq_nil_iff.2 fun m' hm' => by simpa using hnew m hm m' hm'
        simp only [hnone, List.length_nil]
        omega
      · rw [List.count_eq_zero.2 hmem, Nat.add_zero]
  rw [fields?_object, fields?_object, hnamed]
  split
  · refine congrArg some (List.map_congr_left fun name _ => ?_)
    rw [standing?_append, standing?_named]
  · rfl

end TokenizerHost.Json
