import TokenizerHost.Slot

namespace TokenizerHost

inductive Class where
  | object
  | array
  | uint8Array
  | date
  | error
  deriving DecidableEq, Repr, Inhabited

namespace Class

def name : Class → String
  | .object => "Object"
  | .array => "Array"
  | .uint8Array => "Uint8Array"
  | .date => "Date"
  | .error => "Error"

def all : List Class := [.object, .array, .uint8Array, .date, .error]

end Class

inductive Value where
  | undefined
  | null
  | bool (b : Bool)
  | number (n : Double)
  | string (s : String)
  | symbol (id : Nat)
  | object (id : Nat)
  | array (id : Nat)
  | bytes (id : Nat)
  | function (id : Nat)
  deriving DecidableEq, Inhabited

/-- What makes two values one for the value table: the content of a text, the place of a symbol or
container. -/
inductive Identity where
  | text (s : String)
  | symbol (id : Nat)
  | object (id : Nat)
  | array (id : Nat)
  | bytes (id : Nat)
  | function (id : Nat)
  deriving DecidableEq

namespace Value

def typeName : Value → String
  | .undefined => "undefined"
  | .null | .object _ | .array _ | .bytes _ => "object"
  | .bool _ => "boolean"
  | .number _ => "number"
  | .string _ => "string"
  | .symbol _ => "symbol"
  | .function _ => "function"

def tag (v : Value) : TypeTag := .ofTypeName v.typeName

def identity? : Value → Option Identity
  | .string s => some (.text s)
  | .symbol id => some (.symbol id)
  | .object id => some (.object id)
  | .array id => some (.array id)
  | .bytes id => some (.bytes id)
  | .function id => some (.function id)
  | .undefined | .null | .bool _ | .number _ => none

theorem identity?_inj {v w : Value} {k : Identity} (hv : v.identity? = some k)
    (hw : w.identity? = some k) : v = w := by
  cases v <;> cases w <;> grind [identity?]

/-- Equality as a program compares: numbers numerically, texts by content, all else as the
reference it is. -/
def sameAs : Value → Value → Bool
  | .number a, .number b => a.numEq b
  | a, b => a == b

def isNullish : Value → Bool
  | .undefined | .null => true
  | _ => false

def isBytes : Value → Bool
  | .bytes _ => true
  | _ => false

def isFunction : Value → Bool
  | .function _ => true
  | _ => false

def isContainer : Value → Bool
  | .object _ | .array _ | .bytes _ | .function _ => true
  | _ => false

def number? : Value → Option Double
  | .number n => some n
  | _ => none

def string? : Value → Option String
  | .string s => some s
  | _ => none

def ofNat (n : Nat) : Value := .number (.ofNat n)

end Value

inductive Outcome where
  | returned (v : Value)
  | thrown (v : Value)
  deriving DecidableEq, Inhabited

namespace Outcome

def value : Outcome → Value
  | .returned v => v
  | .thrown v => v

def isReturned : Outcome → Bool
  | .returned _ => true
  | .thrown _ => false

end Outcome

end TokenizerHost
