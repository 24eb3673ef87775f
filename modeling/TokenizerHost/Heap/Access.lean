import TokenizerHost.Heap
import TokenizerHost.Text.Digits
import TokenizerHost.Text.Units

namespace TokenizerHost

def maxIndexKey : Nat := UInt32.size - 2

def indexKey? (key : String) : Option Nat :=
  let ds := key.toList
  if ds.isEmpty || !ds.all Char.isDigit || (1 < ds.length && ds.head? == some '0') then none
  else
    let n := Text.natOfDigits ds
    if n ≤ maxIndexKey then some n else none

def unitValue (s : String) (i : Nat) : Value :=
  match Text.unitAt? s i with
  | some c => .string c.toString
  | none => .undefined

namespace Properties

def get (p : Properties) (key : String) : Value := (p.find? key).getD .undefined

end Properties

namespace Heap

def element (h : Heap) (v : Value) (i : Nat) : Value :=
  match v with
  | .string s => unitValue s i
  | .array _ => (h.elements? v).elim .undefined (·.get i)
  | .bytes _ => (h.bytes? v).elim .undefined (Buffer.get · i)
  | _ => .undefined

def setElement (h : Heap) (v : Value) (i : Nat) (x : Value) : Heap :=
  match v with
  | .array id => { h with arrays := h.arrays.modify id (·.set i x) }
  | .bytes id => { h with buffers := h.buffers.modify id (Buffer.set · i x) }
  | _ => h

def elementNamed (h : Heap) (v : Value) (key : String) : Value :=
  match indexKey? key with
  | some i => h.element v i
  | none => .undefined

def get (h : Heap) (v : Value) (key : String) : Value :=
  match v with
  | .object _ => (h.object? v).elim .undefined (·.props.get key)
  | .function _ =>
    match h.function? v with
    | some f => if key == "name" && !f.props.contains key then .string f.name else f.props.get key
    | none => .undefined
  | .array _ =>
    if key == "length" then .ofNat ((h.elements? v).elim 0 (·.length)) else h.elementNamed v key
  | .bytes _ =>
    if key == "length" || key == "byteLength" then .ofNat ((h.bytes? v).elim 0 (·.size))
    else h.elementNamed v key
  | .string s => if key == "length" then .ofNat (Text.units s) else h.elementNamed v key
  | _ => .undefined

def set (h : Heap) (v : Value) (key : String) (x : Value) : Heap :=
  match v with
  | .object id =>
    { h with objects := h.objects.modify id fun o => { o with props := o.props.insert key x } }
  | .function id =>
    { h with functions := h.functions.modify id fun f => { f with props := f.props.insert key x } }
  | .array _ | .bytes _ =>
    match indexKey? key with
    | some i => h.setElement v i x
    | none => h
  | _ => h

def delete (h : Heap) (v : Value) (key : String) : Heap :=
  match v with
  | .object id =>
    { h with objects := h.objects.modify id fun o => { o with props := o.props.erase key } }
  | .function id =>
    { h with functions := h.functions.modify id fun f => { f with props := f.props.erase key } }
  | .array id =>
    match indexKey? key with
    | some i => { h with arrays := h.arrays.modify id (·.clear i) }
    | none => h
  | _ => h

/-- Reads by index. Where elements exist, a negative index reads as `undefined`. -/
def index (h : Heap) (v : Value) (i : Int) : Value :=
  match v with
  | .object _ | .function _ => h.get v (Text.decimal i)
  | _ => if i < 0 then .undefined else h.element v i.toNat

/-- Writes by index. Where elements exist, a negative index is ignored. -/
def setIndex (h : Heap) (v : Value) (i : Int) (x : Value) : Heap :=
  match v with
  | .object _ | .function _ => h.set v (Text.decimal i) x
  | _ => if i < 0 then h else h.setElement v i.toNat x

def hasOwn (h : Heap) (v : Value) (key : String) : Bool :=
  match v with
  | .object _ => (h.object? v).elim false (·.props.contains key)
  | .function _ => (h.function? v).elim false (·.props.contains key)
  | _ => false

/-- The length that an object claims by its property `length`, at most what fits 64 bits. -/
def claimedLength? (x : Value) : Option Nat :=
  match x.number?.bind Double.toInt? with
  | some n => if 0 ≤ n then some (min n.toNat (UInt64.size - 1)) else none
  | none => none

def length? (h : Heap) (v : Value) : Option Nat :=
  match v with
  | .string s => some (Text.units s)
  | .array _ => (h.elements? v).map (·.length)
  | .bytes _ => (h.bytes? v).map (·.size)
  | .object _ => claimedLength? (h.get v "length")
  | _ => none

/-- The length of a value, zero for what has none. -/
def length (h : Heap) (v : Value) : Nat := (h.length? v).getD 0

def classOf? (h : Heap) (v : Value) : Option Class :=
  match v with
  | .object _ => (h.object? v).map (·.cls)
  | .array _ => some .array
  | .bytes _ => some .uint8Array
  | .function _ => some .object
  | _ => none

/-- Whether a container is of a constructor's class; every container is an object. -/
def instanceOf (h : Heap) (v ctor : Value) : Bool :=
  match h.function? ctor, h.classOf? v with
  | some ⟨_, .constructor c, _⟩, some own => c == .object || own == c
  | _, _ => false

end Heap

end TokenizerHost
