import TokenizerHost.Heap.Text

namespace TokenizerHost

inductive Snapshot where
  | undefined
  | null
  | bool (b : Bool)
  | number (n : Double)
  | string (s : String)
  | longString (size : Nat)
  | symbol (description : Option String)
  | object (cls : Class)
  | error (text : String) (code : Option Snapshot)
  | array (items : List Snapshot)
  | longArray (length : Nat)
  | bytes (content : ByteArray)
  | longBytes (size : Nat)
  | function (name : String) (kind : FunctionKind)
  deriving Inhabited

namespace Snapshot

def maxText : Nat := 2000

def maxItems : Nat := 64

/-- Arrays this deep or deeper are not opened. -/
def maxDepth : Nat := 6

def maxBytes : Nat := 256

end Snapshot

namespace Heap

/-- The snapshot of a value that stands at a depth; `fuel` bounds the chain of arrays and error
codes that is followed. -/
def snapshotAt (h : Heap) : (fuel depth : Nat) → Value → Snapshot
  | _, _, .undefined => .undefined
  | _, _, .null => .null
  | _, _, .bool b => .bool b
  | _, _, .number n => .number n
  | _, _, .string s =>
    if s.utf8ByteSize ≤ Snapshot.maxText then .string s else .longString s.utf8ByteSize
  | _, _, .symbol id => .symbol (h.description? (.symbol id))
  | fuel, depth, .object id =>
    let cls := (h.object? (.object id)).elim .object (·.cls)
    if cls == .error then
      let code := h.get (.object id) "code"
      let shown : Option Snapshot :=
        match fuel with
        | 0 => none
        | fuel + 1 => if code == .undefined then none else some (h.snapshotAt fuel (depth + 1) code)
      .error ((h.text? (.object id)).getD "") shown
    else .object cls
  | fuel, depth, .array id =>
    let length := h.length (.array id)
    if Snapshot.maxItems < length ∨ Snapshot.maxDepth ≤ depth then .longArray length
    else
      match fuel with
      | 0 => .longArray length
      | fuel + 1 =>
        .array (((h.elements? (.array id)).elim [] Elements.toList).map
          (h.snapshotAt fuel (depth + 1)))
  | _, _, .bytes id =>
    let content := (h.bytes? (.bytes id)).getD .empty
    if content.size ≤ Snapshot.maxBytes then .bytes content else .longBytes content.size
  | _, _, .function id =>
    match h.function? (.function id) with
    | some f => .function f.name f.kind
    | none => .undefined

def snapshot (h : Heap) (v : Value) : Snapshot :=
  h.snapshotAt (h.objects.size + Snapshot.maxDepth + 1) 0 v

end Heap

end TokenizerHost
