import TokenizerHost.Json

namespace TokenizerHost.Json

def wellNamed (names : List String) (members : List (Option String × Json)) : Bool :=
  members.all (fun m => m.1.isSome) &&
    names.all fun name => (members.filter fun m => m.1 == some name).length ≤ 1

def fields? (names : List String) : Json → Option (List (Option Json))
  | .object members =>
    if wellNamed names members then
      some (names.map fun name => (members.find? fun m => m.1 == some name).map (·.2))
    else none
  | .array items =>
    if items.length ≤ names.length then
      some (items.map some ++ List.replicate (names.length - items.length) none)
    else none
  | _ => none

def string? : Json → Option String
  | .string s => some s
  | _ => none

def int64? : Json → Option Int
  | .integer n => if Int64.minValue.toInt ≤ n ∧ n ≤ Int64.maxValue.toInt then some n else none
  | _ => none

def word? : Json → Option Nat
  | .integer n => if 0 ≤ n ∧ n < UInt32.size then some n.toNat else none
  | _ => none

def bool? : Json → Option Bool
  | .bool b => some b
  | _ => none

def list? {α : Type} (item? : Json → Option α) : Json → Option (List α)
  | .array items => items.mapM item?
  | _ => none

def nullable? {α : Type} (read? : Json → Option α) : Json → Option (Option α)
  | .null => some none
  | j => (read? j).map some

def required {α : Type} (read? : Json → Option α) (j : Option Json) : Option α := j.bind read?

def orElse {α : Type} (default : α) (read? : Json → Option α) : Option Json → Option α
  | none => some default
  | some j => read? j

end TokenizerHost.Json
