import TokenizerHost.Toml.Moment

namespace TokenizerHost.Toml

def momentKey : String := "$__toml_private_datetime"

def markedMoment? : Toml → Option Toml
  | .string text => (momentOfText? text).map .moment
  | _ => none

mutual

def settle? : Toml → Option Toml
  | .array items => (settleItems? items).map .array
  | .table [] => some (.table [])
  | .table ((key, t) :: rest) =>
    if key = momentKey then markedMoment? t
    else do
      let first ← settle? t
      some (.table ((key, first) :: (← settleEntries? rest)))
  | t => some t

def settleItems? : List Toml → Option (List Toml)
  | [] => some []
  | t :: rest => do
    let first ← settle? t
    some (first :: (← settleItems? rest))

def settleEntries? : List (String × Toml) → Option (List (String × Toml))
  | [] => some []
  | (key, t) :: rest => do
    let first ← settle? t
    some ((key, first) :: (← settleEntries? rest))

end

end TokenizerHost.Toml
