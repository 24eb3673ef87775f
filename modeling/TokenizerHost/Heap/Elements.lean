import TokenizerHost.Value

namespace TokenizerHost

def maxArrayLength : Nat := 1 <<< 20

structure Elements where
  items : Array Value
  length : Nat
  size_le : items.size ≤ length

namespace Elements

instance : Inhabited Elements := ⟨⟨#[], 0, Nat.le_refl _⟩⟩

/-- An array of given items, however many. -/
def ofArray (items : Array Value) : Elements := ⟨items, items.size, Nat.le_refl _⟩

/-- An array of a given length, at most the limit, without stored items. -/
def sparse (length : Nat) : Elements := ⟨#[], min length maxArrayLength, Nat.zero_le _⟩

def get (e : Elements) (i : Nat) : Value := e.items[i]?.getD .undefined

def toList (e : Elements) : List Value :=
  e.items.toList ++ List.replicate (e.length - e.items.size) .undefined

def room (items : Array Value) (i : Nat) : Array Value :=
  items ++ Array.replicate (i + 1 - items.size) .undefined

/-- Writes an element, growing the array to hold it. -/
def set (e : Elements) (i : Nat) (v : Value) : Elements :=
  if i < maxArrayLength then
    ⟨(room e.items i).setIfInBounds i v, max e.length (i + 1), by
      have := e.size_le
      simp only [room, Array.size_setIfInBounds, Array.size_append, Array.size_replicate]
      omega⟩
  else e

def push (e : Elements) (v : Value) : Elements := e.set e.length v

/-- Makes a stored element `undefined`; the length stays. -/
def clear (e : Elements) (i : Nat) : Elements :=
  ⟨e.items.setIfInBounds i .undefined, e.length, by simpa using e.size_le⟩

@[simp] theorem length_toList (e : Elements) : e.toList.length = e.length := by
  have := e.size_le
  simp only [toList, List.length_append, Array.length_toList, List.length_replicate]
  omega

theorem getElem?_toList (e : Elements) (i : Nat) :
    e.toList[i]? = if i < e.length then some (e.get i) else none := by
  have hs := e.size_le
  simp only [toList, get, List.getElem?_append, Array.length_toList, Array.getElem?_toList,
    List.getElem?_replicate]
  by_cases h : i < e.items.size
  · have : i < e.length := by omega
    simp [h, this]
  · by_cases hl : i < e.length
    · have : i - e.items.size < e.length - e.items.size := by omega
      simp [h, hl, this]
    · have : ¬ i - e.items.size < e.length - e.items.size := by omega
      simp [h, hl, this]

end Elements

end TokenizerHost
