import TokenizerHost.Console
import TokenizerHost.Snapshot

namespace TokenizerHost.Script

inductive Answer where
  | nothing
  | fault (e : Fault)
  | integer (n : Int)
  | flag (b : Bool)
  | text (s : String)
  | double (n : Double)
  | value (s : Snapshot)
  | values (items : List Snapshot)
  | slot (s : Slot)
  | bits (b : UInt64)
  | bytes (content : ByteArray)
  | outcome (returned : Bool) (s : Snapshot)
  | lines (printed : List ConsoleLine)
  | record (fields : List (String × Answer))
  deriving Inhabited

namespace Answer

def ofExcept {α : Type} (answer : α → Answer) : Except Fault α → Answer
  | .ok a => answer a
  | .error e => .fault e

def ofOption {α : Type} (answer : α → Answer) : Option α → Answer
  | some a => answer a
  | none => .nothing

end Answer

end TokenizerHost.Script
