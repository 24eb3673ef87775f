import TokenizerHost.Json

/-!
# Trees of settings

`Toml` is the value of a configuration document. Settings never look at the value of a float, a date
or a time, so that each of them is the text it is written as.

`merge` lays one tree over another: where both have a table the tables are merged key by key, and
everywhere else the upper tree wins.
-/

namespace TokenizerHost

inductive Toml where
  | string (s : String)
  | integer (n : Int)
  /-- A float, without the underscores between its digits and without a plus before them. -/
  | float (text : String)
  | bool (b : Bool)
  /-- A date, a time, or both, in normal form. -/
  | moment (text : String)
  | array (items : List Toml)
  /-- Keys and what they are set to; the keys of a table are distinct. -/
  | table (entries : List (String × Toml))
  deriving Inhabited

namespace Toml

/-- Sets the first entry of a key to a value made of the old one, or adds an entry. -/
def upsert {α : Type} (key : String) (f : Option α → α) : List (String × α) → List (String × α)
  | [] => [(key, f none)]
  | e :: rest => if e.1 = key then (key, f (some e.2)) :: rest else e :: upsert key f rest

def child? (key : String) : Toml → Option Toml
  | .table entries => entries.lookup key
  | _ => none

def get? : List String → Toml → Option Toml
  | [], t => some t
  | key :: path, t => (t.child? key).bind (get? path)

mutual

/-- Lays the second tree over the first. -/
def merge (base : Toml) : Toml → Toml
  | .table overlay =>
    match base with
    | .table entries => .table (mergeEntries entries overlay)
    | _ => .table overlay
  | other => other

def mergeEntries (base : List (String × Toml)) : List (String × Toml) → List (String × Toml)
  | [] => base
  | (key, v) :: rest =>
    mergeEntries (upsert key (fun old => match old with
      | some old => merge old v
      | none => v) base) rest

end

mutual

/-- The same tree in the other notation, where a date or time is a text. -/
def toJson : Toml → Json
  | .string s => .string s
  | .integer n => .integer n
  | .float _ => .fraction
  | .bool b => .bool b
  | .moment text => .string text
  | .array items => .array (itemsToJson items)
  | .table entries => .object (entriesToJson entries)

def itemsToJson : List Toml → List Json
  | [] => []
  | t :: rest => toJson t :: itemsToJson rest

def entriesToJson : List (String × Toml) → List (Option String × Json)
  | [] => []
  | (key, t) :: rest => (some key, toJson t) :: entriesToJson rest

end

end Toml

end TokenizerHost
