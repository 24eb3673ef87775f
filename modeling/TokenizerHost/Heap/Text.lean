import TokenizerHost.Heap.Access
import TokenizerHost.Double.Decimal
import TokenizerHost.Text.Quoted

namespace TokenizerHost

/-- A number as programs read it: integers below 10^21 in full, everything else in the fewest
digits, always positional. -/
def numberText (n : Double) : String :=
  if n.isNaN then "NaN"
  else if n.isInfinite then if n.isNegative then "-Infinity" else "Infinity"
  else
    match n.toInt? with
    | some i => if i.natAbs < Nat.pow 10 21 then Text.decimal i else n.positional
    | none => n.positional

namespace Heap

def description? (h : Heap) (v : Value) : Option String :=
  match v with
  | .symbol id => h.symbols[id]?.join
  | _ => none

/-- The text of a value whose containers nest at most `depth` levels. -/
def textWithin (h : Heap) : Nat → Value → Option String
  | _, .undefined => some "undefined"
  | _, .null => some "null"
  | _, .bool b => some (toString b)
  | _, .number n => some (numberText n)
  | _, .string s => some s
  | _, .symbol id => some ("Symbol(" ++ (h.description? (.symbol id)).getD "" ++ ")")
  | _, .function id =>
    some ("function " ++ ((h.function? (.function id)).elim "" (·.name)) ++
      "() \x7b [native code] \x7d")
  | _, .bytes id => some ((h.bytes? (.bytes id)).elim "" Buffer.text)
  | 0, .array _ => none
  | depth + 1, .array id => do
    let items ← ((h.elements? (.array id)).elim [] Elements.toList).mapM fun x =>
      if x.isNullish then some "" else h.textWithin depth x
    some (",".intercalate items)
  | depth, .object id =>
    if (h.object? (.object id)).elim false (·.cls == .error) then
      match depth with
      | 0 => none
      | depth + 1 => do
        let name := h.get (.object id) "name"
        let message := h.get (.object id) "message"
        let name ← if name.isNullish then some "Error" else h.textWithin depth name
        if message.isNullish then some name
        else do
          let message ← h.textWithin depth message
          some (name ++ ": " ++ message)
    else some "[object Object]"

/-- The text of a value; `none` if it holds itself. -/
def text? (h : Heap) (v : Value) : Option String :=
  h.textWithin (h.arrays.size + h.objects.size + 1) v

def inspect (h : Heap) (v : Value) : String :=
  match v with
  | .undefined => "undefined"
  | .null => "null"
  | .bool b => toString b
  | .number n => numberText n
  | .string s => Text.quoted s
  | .symbol _ =>
    match h.description? v with
    | some d => s!"Symbol(Some({Text.quoted d}))"
    | none => "Symbol(None)"
  | .object _ => s!"[object {((h.object? v).elim Class.object (·.cls)).name}]"
  | .array _ => s!"Array({h.length v})"
  | .bytes _ => s!"Uint8Array({h.length v})"
  | .function _ => "[function " ++ (h.function? v).elim "" (·.name) ++ "]"

end Heap

end TokenizerHost
