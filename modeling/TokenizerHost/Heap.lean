import TokenizerHost.Assoc
import TokenizerHost.Heap.Elements
import TokenizerHost.Heap.Buffer

/-!
# The host heap

Symbols, objects, arrays, byte arrays and functions live in the heap, each kind in an array of its
own; a `Value` names one by its place there. Cells are added and changed, never removed, so a
place means the same value for ever.

Host functions are data: `Native` names what a function does, and `Builtin.code` (in its own
module) says what that is.
-/

namespace TokenizerHost

inductive Native where
  | writeSync
  | write
  | fsync
  /-- A file operation that is not supported: reports an error to its last argument. -/
  | unsupportedFile
  /-- A process query that is not supported: throws. -/
  | unsupportedProcess
  | processId
  | resolvePath
  /-- Makes the function through which a guest callback is called. -/
  | wrapCallback
  | getTime (millis : Double)
  | getTimezoneOffset
  | embedded (name : String)
  deriving DecidableEq, Inhabited

inductive FunctionKind where
  | native (n : Native)
  | constructor (c : Class)
  /-- A function of the guest, called by resuming the guest with an event. -/
  | guestCallback (id : UInt32)
  deriving DecidableEq, Inhabited

abbrev Properties := Assoc String Value

structure PlainObject where
  cls : Class
  props : Properties
  deriving Inhabited

structure HostFunction where
  name : String
  kind : FunctionKind
  props : Properties
  deriving Inhabited

structure Heap where
  symbols : Array (Option String)
  objects : Array PlainObject
  arrays : Array Elements
  buffers : Array ByteArray
  functions : Array HostFunction
  deriving Inhabited

abbrev HeapM := StateM Heap

namespace Heap

def empty : Heap := ⟨#[], #[], #[], #[], #[]⟩

def newSymbol (description : Option String) : HeapM Value := fun h =>
  (.symbol h.symbols.size, { h with symbols := h.symbols.push description })

def newObject (cls : Class) : HeapM Value := fun h =>
  (.object h.objects.size, { h with objects := h.objects.push ⟨cls, .empty⟩ })

def newElements (e : Elements) : HeapM Value := fun h =>
  (.array h.arrays.size, { h with arrays := h.arrays.push e })

def newArray (items : List Value) : HeapM Value := newElements (.ofArray items.toArray)

def newBytes (bytes : ByteArray) : HeapM Value := fun h =>
  (.bytes h.buffers.size, { h with buffers := h.buffers.push bytes })

def newFunction (name : String) (kind : FunctionKind) : HeapM Value := fun h =>
  (.function h.functions.size, { h with functions := h.functions.push ⟨name, kind, .empty⟩ })

def newNative (name : String) (n : Native) : HeapM Value := newFunction name (.native n)

def newConstructor (c : Class) : HeapM Value := newFunction c.name (.constructor c)

def newCallback (id : UInt32) : HeapM Value := newFunction "" (.guestCallback id)

def bytes? (h : Heap) : Value → Option ByteArray
  | .bytes id => h.buffers[id]?
  | _ => none

def elements? (h : Heap) : Value → Option Elements
  | .array id => h.arrays[id]?
  | _ => none

def object? (h : Heap) : Value → Option PlainObject
  | .object id => h.objects[id]?
  | _ => none

def function? (h : Heap) : Value → Option HostFunction
  | .function id => h.functions[id]?
  | _ => none

def setBytes (h : Heap) (v : Value) (bytes : ByteArray) : Heap :=
  match v with
  | .bytes id => { h with buffers := h.buffers.setIfInBounds id bytes }
  | _ => h

end Heap

end TokenizerHost
