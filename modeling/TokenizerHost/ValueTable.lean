import TokenizerHost.Assoc
import TokenizerHost.Fault
import TokenizerHost.Value

/-!
# The value table

The guest names host values by handles. The first seven handles are reserved and never die; every
other handle carries a count of the references that the guest was given to it, and is recycled,
last freed first, when the count falls to zero. A live value has one handle, so the guest may
compare values by handle.
-/

namespace TokenizerHost

inductive RefCount where
  | immortal
  | live (n : UInt32)
  deriving DecidableEq, Inhabited

structure TableEntry where
  value : Option Value
  count : RefCount
  deriving Inhabited

/-- Whether a handle other than the reserved ones names a value. -/
def TableEntry.isLive (e : TableEntry) : Bool := e.value.isSome && e.count != .immortal

structure ValueTable where
  entries : Array TableEntry
  ids : Assoc Identity UInt32
  /-- Handles to use again, the next one first. -/
  free : List UInt32
  deriving Inhabited

namespace ValueTable

def nanHandle : UInt32 := 0
def zeroHandle : UInt32 := 1
def nullHandle : UInt32 := 2
def trueHandle : UInt32 := 3
def falseHandle : UInt32 := 4
def globalHandle : UInt32 := 5
def bridgeHandle : UInt32 := 6

def reservedHandles : Nat := 7

def reservedValues (global bridge : Value) : List Value :=
  [.number .canonicalNaN, .number .zero, .null, .bool true, .bool false, global, bridge]

def reserveIdentity (ids : Assoc Identity UInt32) (v : Value) (id : UInt32) :
    Assoc Identity UInt32 :=
  match v.identity? with
  | some k => ids.insert k id
  | none => ids

def new (global bridge : Value) : ValueTable where
  entries := ((reservedValues global bridge).map fun v => ⟨some v, .immortal⟩).toArray
  ids := reserveIdentity (reserveIdentity .empty global globalHandle) bridge bridgeHandle
  free := []

def lookup? (t : ValueTable) (id : UInt32) : Option TableEntry := t.entries[id.toNat]?

def setEntry (t : ValueTable) (id : UInt32) (e : TableEntry) : ValueTable :=
  { t with entries := t.entries.setIfInBounds id.toNat e }

/-- One more, unless the count is as high as it goes. -/
def succSaturating (n : UInt32) : UInt32 := if n.toNat + 1 < UInt32.size then n + 1 else n

def retain (t : ValueTable) (id : UInt32) : ValueTable :=
  match t.lookup? id with
  | some ⟨v, .live n⟩ => t.setEntry id ⟨v, .live (succSaturating n)⟩
  | _ => t

def allocate (t : ValueTable) (v : Value) (k : Identity) : UInt32 × ValueTable :=
  match t.free with
  | id :: free =>
    (id, { t.setEntry id ⟨some v, .live 0⟩ with ids := t.ids.insert k id, free })
  | [] =>
    let id := UInt32.ofNat t.entries.size
    (id, { t with entries := t.entries.push ⟨some v, .live 0⟩, ids := t.ids.insert k id })

def intern (t : ValueTable) (v : Value) (k : Identity) : UInt32 × ValueTable :=
  match t.ids.find? k with
  | some id => (id, t.retain id)
  | none =>
    let (id, t) := t.allocate v k
    (id, t.retain id)

/-- The slot under which the guest is handed a value. Numbers travel as they are, except NaN and
zero, which have reserved handles. -/
def store (t : ValueTable) (v : Value) : Slot × ValueTable :=
  match v with
  | .undefined => (.undefined, t)
  | .number n =>
    if n.isNaN then (.ref nanHandle .none, t)
    else if n.isZero then (.ref zeroHandle .none, t)
    else (.number n, t)
  | .null => (.ref nullHandle .none, t)
  | .bool true => (.ref trueHandle .none, t)
  | .bool false => (.ref falseHandle .none, t)
  | v =>
    match v.identity? with
    | some k =>
      let (id, t) := t.intern v k
      (.ref id v.tag, t)
    | none => (.undefined, t)

/-- The handle that storing a value allocates, if it has none yet. -/
def allocates? (t : ValueTable) (v : Value) : Option UInt32 :=
  match v.identity? with
  | some k => if (t.ids.find? k).isNone then some (t.allocate v k).1 else none
  | none => none

def load (t : ValueTable) (id : UInt32) : Except Fault Value :=
  match (t.lookup? id).bind (·.value) with
  | some v => .ok v
  | none => .error (.invalidHandle id)

def resolve (t : ValueTable) : Slot → Except Fault Value
  | .undefined => .ok .undefined
  | .number n => .ok (.number n)
  | .ref id _ => t.load id

def reclaim (t : ValueTable) (id : UInt32) (v : Option Value) : ValueTable :=
  let ids :=
    match v.bind Value.identity? with
    | some k => t.ids.erase k
    | none => t.ids
  { t.setEntry id ⟨none, .live 0⟩ with ids, free := id :: t.free }

/-- Counts one reference to a handle less. Reserved, dead and unknown handles are left alone. -/
def release (t : ValueTable) (id : UInt32) : ValueTable :=
  match t.lookup? id with
  | some ⟨v, .live n⟩ =>
    if n = 0 then t
    else if n = 1 then t.reclaim id v
    else t.setEntry id ⟨v, .live (n - 1)⟩
  | _ => t

def refcount? (t : ValueTable) (id : UInt32) : Option UInt32 :=
  match t.lookup? id with
  | some ⟨_, .live n⟩ => some n
  | _ => none

/-- How many handles are live, the reserved ones apart. -/
def liveHandles (t : ValueTable) : Nat := t.entries.countP TableEntry.isLive

end ValueTable

end TokenizerHost
