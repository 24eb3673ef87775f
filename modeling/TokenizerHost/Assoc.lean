namespace TokenizerHost

structure Assoc (κ υ : Type) where
  entries : List (κ × υ)
  nodup : (entries.map (·.1)).Nodup

namespace Assoc

variable {κ υ : Type} [DecidableEq κ]

def empty : Assoc κ υ := ⟨[], List.nodup_nil⟩

instance : Inhabited (Assoc κ υ) := ⟨⟨[], List.nodup_nil⟩⟩

def keys (m : Assoc κ υ) : List κ := m.entries.map (·.1)

def size (m : Assoc κ υ) : Nat := m.entries.length

def find? (m : Assoc κ υ) (k : κ) : Option υ := m.entries.lookup k

def contains (m : Assoc κ υ) (k : κ) : Bool := (m.find? k).isSome

def others (entries : List (κ × υ)) (k : κ) : List (κ × υ) := entries.filter fun e => e.1 != k

theorem others_sublist (entries : List (κ × υ)) (k : κ) :
    ((others entries k).map (·.1)).Sublist (entries.map (·.1)) :=
  List.filter_sublist.map _

theorem not_mem_others (entries : List (κ × υ)) (k : κ) : k ∉ (others entries k).map (·.1) := by
  simp [others]

def erase (m : Assoc κ υ) (k : κ) : Assoc κ υ :=
  ⟨others m.entries k, m.nodup.sublist (others_sublist _ _)⟩

def insert (m : Assoc κ υ) (k : κ) (v : υ) : Assoc κ υ :=
  ⟨(k, v) :: others m.entries k,
    List.nodup_cons.2 ⟨not_mem_others m.entries k, m.nodup.sublist (others_sublist _ _)⟩⟩

/-- The map of a list of pairs, the last pair of a key winning. -/
def ofList (pairs : List (κ × υ)) : Assoc κ υ := pairs.foldl (fun m e => m.insert e.1 e.2) empty

theorem lookup_others (entries : List (κ × υ)) (k j : κ) :
    (others entries k).lookup j = if j = k then none else entries.lookup j := by
  induction entries with
  | nil => simp [others]
  | cons e entries ih =>
    obtain ⟨a, b⟩ := e
    by_cases ha : a = k
    · have : others ((a, b) :: entries) k = others entries k := by simp [others, ha]
      rw [this, ih, List.lookup_cons]
      by_cases hj : j = k
      · simp [hj]
      · have : (j == a) = false := by simp [ha, hj]
        simp [this, hj]
    · have : others ((a, b) :: entries) k = (a, b) :: others entries k := by simp [others, ha]
      rw [this, List.lookup_cons, List.lookup_cons, ih]
      by_cases hj : j = a
      · simp [hj, ha]
      · have : (j == a) = false := by simp [hj]
        simp [this]

@[simp] theorem find?_empty (k : κ) : (empty : Assoc κ υ).find? k = none := rfl

theorem find?_insert (m : Assoc κ υ) (k j : κ) (v : υ) :
    (m.insert k v).find? j = if j = k then some v else m.find? j := by
  by_cases h : j = k
  · simp [find?, insert, h]
  · have : (j == k) = false := by simp [h]
    simp [find?, insert, List.lookup_cons, lookup_others, h, this]

theorem find?_erase (m : Assoc κ υ) (k j : κ) :
    (m.erase k).find? j = if j = k then none else m.find? j := by
  simp only [find?, erase, lookup_others]

end Assoc

end TokenizerHost
