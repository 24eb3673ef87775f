import TokenizerHost.Heap.Construct

namespace TokenizerHost.Script

inductive Literal where
  | plain (v : Value)
  | register (name : String)
  | array (items : List Literal)
  | bytes (content : ByteArray)
  | object (cls : Class) (props : List (String × Literal))
  | symbol (description : Option String)
  | constructor (c : Class)
  | callback (id : UInt32)
  | function (name : String)
  | error (message : String)
  | typeError (message : String)
  | errno (code message : String)
  /-- A text wrapped in so many arrays. -/
  | nested (text : String) (levels : Nat)
  deriving Inhabited

abbrev Registers := Assoc String Value

def wrap (v : Value) : Nat → HeapM Value
  | 0 => return v
  | levels + 1 => do wrap (← Heap.newArray [v]) levels

namespace Literal

mutual

def build (r : Registers) : Literal → HeapM Value
  | .plain v => return v
  | .register name => return (r.find? name).getD .undefined
  | .array items => do Heap.newArray (← buildAll r items)
  | .bytes content => Heap.newBytes content
  | .object cls props => do Heap.newObjectWith cls (← buildProps r props)
  | .symbol d => Heap.newSymbol d
  | .constructor c => Heap.newConstructor c
  | .callback id => Heap.newCallback id
  | .function name => Heap.newNative name (.embedded name)
  | .error message => Heap.newError message
  | .typeError message => Heap.newTypeError message
  | .errno code message => Heap.newErrno code message
  | .nested text levels => wrap (.string text) levels

def buildAll (r : Registers) : List Literal → HeapM (List Value)
  | [] => return []
  | item :: rest => return (← build r item) :: (← buildAll r rest)

def buildProps (r : Registers) : List (String × Literal) → HeapM (List (String × Value))
  | [] => return []
  | (name, item) :: rest => return (name, ← build r item) :: (← buildProps r rest)

end

end Literal

end TokenizerHost.Script
