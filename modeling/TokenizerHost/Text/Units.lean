namespace TokenizerHost.Text

def isPair (c : Char) : Bool := 0x10000 ≤ c.val

def charUnits (c : Char) : Nat := if isPair c then 2 else 1

def unitsOf : List Char → Nat
  | [] => 0
  | c :: rest => charUnits c + unitsOf rest

def unitOf? : List Char → Nat → Option Char
  | [], _ => none
  | c :: rest, i =>
    if i < charUnits c then some (if isPair c then '\ufffd' else c)
    else unitOf? rest (i - charUnits c)

def units (s : String) : Nat := unitsOf s.toList

def unitAt? (s : String) (i : Nat) : Option Char := unitOf? s.toList i

theorem unitsOf_append (xs ys : List Char) : unitsOf (xs ++ ys) = unitsOf xs + unitsOf ys := by
  induction xs with
  | nil => simp [unitsOf]
  | cons c xs ih => simp only [List.cons_append, unitsOf, ih]; omega

theorem unitOf?_isSome_iff (cs : List Char) (i : Nat) : (unitOf? cs i).isSome ↔ i < unitsOf cs := by
  induction cs generalizing i with
  | nil => simp [unitOf?, unitsOf]
  | cons c cs ih =>
    unfold unitOf?
    by_cases h : i < charUnits c
    · have := Nat.lt_of_lt_of_le h (Nat.le_add_right _ (unitsOf cs))
      simp [h, unitsOf, this]
    · simp only [h, if_false, ih, unitsOf]
      omega

end TokenizerHost.Text
