import TokenizerHost.Proofs.Heap.Growth
import TokenizerHost.Proofs.Heap.Indices

set_option autoImplicit false

namespace TokenizerHost

/-! ## Lists of cells -/

inductive CellChange where
  | write (i : Nat) (x : Value)
  | delete (i : Nat)

namespace CellChange

/-- A list grows to hold what is written. A deleted cell stays and is `undefined`. -/
def on (cells : List Value) : CellChange → List Value
  | .write i x => (cells ++ List.replicate (i + 1 - cells.length) Value.undefined).set i x
  | .delete i => cells.set i .undefined

def reach : CellChange → Nat
  | .write i _ => i + 1
  | .delete _ => 0

def at? (i : Nat) : CellChange → Option Value
  | .write j x => if i = j then some x else none
  | .delete j => if i = j then some .undefined else none

theorem length_on (c : CellChange) (cells : List Value) :
    (c.on cells).length = max cells.length c.reach := by
  cases c with
  | write i x =>
    simp only [on, reach, List.length_set, List.length_append, List.length_replicate]
    omega
  | delete i => simp [on, reach]

theorem getD_on (c : CellChange) (cells : List Value) (i : Nat) :
    (c.on cells).getD i .undefined = (c.at? i).getD (cells.getD i .undefined) := by
  cases c with
  | write j x =>
    simp only [on, at?, List.getD_eq_getElem?_getD, List.getElem?_set, List.length_append,
      List.length_replicate]
    by_cases hij : i = j
    · rw [if_pos hij.symm, if_pos hij, if_pos (by omega)]
      rfl
    · rw [if_neg (Ne.symm hij), if_neg hij, List.getElem?_append]
      split
      next => rfl
      next hi =>
        rw [List.getElem?_eq_none (Nat.le_of_not_lt hi), List.getElem?_replicate]
        split <;> rfl
  | delete j =>
    simp only [on, at?, List.getD_eq_getElem?_getD, List.getElem?_set]
    by_cases hij : i = j
    · rw [if_pos hij.symm, if_pos hij]
      split <;> rfl
    · rw [if_neg (Ne.symm hij), if_neg hij]
      rfl

theorem length_foldl_on (changes : List CellChange) (cells : List Value) :
    (changes.foldl on cells).length = (changes.map reach).foldl max cells.length := by
  induction changes generalizing cells with
  | nil => rfl
  | cons c changes ih => rw [List.foldl_cons, ih, length_on, List.map_cons, List.foldl_cons]

/-- The last change at a cell decides what it holds. -/
theorem getD_foldl_on (changes : List CellChange) (cells : List Value) (i : Nat) :
    (changes.foldl on cells).getD i .undefined =
      (changes.filterMap (at? i)).getLast?.getD (cells.getD i .undefined) := by
  induction changes generalizing cells with
  | nil => rfl
  | cons c changes ih =>
    rw [List.foldl_cons, ih, getD_on]
    cases hc : c.at? i with
    | none => rw [List.filterMap_cons_none hc, Option.getD_none]
    | some x =>
      rw [List.filterMap_cons_some hc, List.getLast?_cons, Option.getD_some, Option.getD_some]

def write? (i : Nat) (x : Value) : Option CellChange :=
  if i < maxArrayLength then some (.write i x) else none

end CellChange

inductive ArrayOp where
  | set (key : String) (x : Value)
  | setIndex (i : Int) (x : Value)
  | delete (key : String)
  | push (x : Value)

namespace ArrayOp

def apply (v : Value) (h : Heap) : ArrayOp → Heap
  | .set key x => h.set v key x
  | .setIndex i x => h.setIndex v i x
  | .delete key => h.delete v key
  | .push x => h.setElement v (h.length v) x

def change? (length : Nat) : ArrayOp → Option CellChange
  | .set key x => (indexKey? key).bind (CellChange.write? · x)
  | .setIndex i x => if i < 0 then none else CellChange.write? i.toNat x
  | .delete key => (indexKey? key).map .delete
  | .push x => CellChange.write? length x

def onCells (cells : List Value) (op : ArrayOp) : List Value :=
  (op.change? cells.length).elim cells (·.on cells)

/-- The changes that operations make, one after the other, to a list that has a length at first. -/
def changes (length : Nat) : List ArrayOp → List CellChange
  | [] => []
  | op :: ops =>
    match op.change? length with
    | some c => c :: changes (max length c.reach) ops
    | none => changes length ops

theorem foldl_onCells (ops : List ArrayOp) (cells : List Value) :
    ops.foldl onCells cells = (changes cells.length ops).foldl CellChange.on cells := by
  induction ops generalizing cells with
  | nil => rfl
  | cons op ops ih =>
    rw [List.foldl_cons, ih, onCells, changes]
    cases op.change? cells.length with
    | none => rfl
    | some c => rw [Option.elim_some, CellChange.length_on, List.foldl_cons]

end ArrayOp

/-! ## Elements -/

namespace Elements

theorem getD_toList (e : Elements) (i : Nat) : e.toList.getD i .undefined = e.get i := by
  rw [List.getD_eq_getElem?_getD, getElem?_toList]
  split
  next => rfl
  next hi => rw [get_past (Nat.le_of_not_lt hi), Option.getD_none]

theorem toList_eq {e : Elements} {cells : List Value} (hlength : e.length = cells.length)
    (hget : ∀ i, e.get i = cells.getD i .undefined) : e.toList = cells := by
  refine List.ext_getElem? fun i => ?_
  rw [getElem?_toList, hlength, hget, List.getD_eq_getElem?_getD]
  split
  next hi => rw [List.getElem?_eq_getElem hi, Option.getD_some]
  next hi => rw [List.getElem?_eq_none (Nat.le_of_not_lt hi)]

theorem toList_set (e : Elements) (i : Nat) (x : Value) :
    (e.set i x).toList = (CellChange.write? i x).elim e.toList (·.on e.toList) := by
  unfold CellChange.write?
  split
  next hi =>
    refine toList_eq ?_ fun j => ?_
    · simp only [Option.elim_some, CellChange.length_on, CellChange.reach, length_toList, set,
        if_pos hi]
    · rw [Option.elim_some, CellChange.getD_on, getD_toList, get_set hi, CellChange.at?]
      split <;> rfl
  next hi => rw [set_past (Nat.le_of_not_lt hi), Option.elim_none]

theorem toList_clear (e : Elements) (i : Nat) :
    (e.clear i).toList = (CellChange.delete i).on e.toList := by
  refine toList_eq ?_ fun j => ?_
  · rw [CellChange.length_on, length_toList]
    exact (Nat.max_zero _).symm
  · rw [CellChange.getD_on, getD_toList, get_clear, CellChange.at?]
    split <;> rfl

theorem clear_past {e : Elements} {i : Nat} (hi : e.length ≤ i) : e.clear i = e := by
  have hsize := e.size_le
  have hitems : e.items.setIfInBounds i .undefined = e.items :=
    Array.setIfInBounds_eq_of_size_le (by omega)
  simp only [clear, hitems]

end Elements

/-! ## Arrays -/

namespace Heap

variable {h : Heap} {id : Nat} {cells : List Value}

/-- The cells of an array, of which only some may be stored. -/
def cells? (h : Heap) (v : Value) : Option (List Value) := (h.elements? v).map Elements.toList

theorem cells?_eq_some_iff : h.cells? (.array id) = some cells ↔
    ∃ e, h.arrays[id]? = some e ∧ e.toList = cells := Option.map_eq_some_iff

theorem cells?_setElement (hcells : h.cells? (.array id) = some cells) (i : Nat) (x : Value) :
    (h.setElement (.array id) i x).cells? (.array id) =
      some ((CellChange.write? i x).elim cells (·.on cells)) := by
  obtain ⟨e, he, rfl⟩ := cells?_eq_some_iff.1 hcells
  refine cells?_eq_some_iff.2 ⟨e.set i x, ?_, e.toList_set i x⟩
  rw [setElement, Array.getElem?_modify, if_pos rfl, he, Option.map_some]

structure ReadsAs (h : Heap) (v : Value) (cells : List Value) : Prop where
  whole : h.cells? v = some cells
  length : h.length? v = some cells.length
  named_length : h.get v "length" = .ofNat cells.length
  index : ∀ i : Int, h.index v i = if i < 0 then .undefined else cells.getD i.toNat .undefined
  named : ∀ key, key ≠ "length" →
    h.get v key = (indexKey? key).elim .undefined (cells.getD · .undefined)
  decimal : ∀ i : Nat, i ≤ maxIndexKey → h.get v (Text.decimal i) = cells.getD i .undefined

theorem readsAs_of_cells (hcells : h.cells? (.array id) = some cells) :
    h.ReadsAs (.array id) cells := by
  obtain ⟨e, he, rfl⟩ := cells?_eq_some_iff.1 hcells
  have helements : h.elements? (.array id) = some e := he
  have helement (i : Nat) : h.element (.array id) i = e.toList.getD i .undefined := by
    rw [Elements.getD_toList, element, helements, Option.elim_some]
  have hnamed (key : String) (hkey : key ≠ "length") : h.get (.array id) key =
      (indexKey? key).elim .undefined (e.toList.getD · .undefined) := by
    have hbeq : (key == "length") = false := by simpa using hkey
    simp only [get, hbeq, elementNamed_eq]
    cases indexKey? key with
    | none => rfl
    | some i => exact helement i
  refine ⟨hcells, ?_, ?_, ?_, hnamed, ?_⟩
  · rw [length?, helements, Option.map_some, Elements.length_toList]
  · simp [get, helements]
  · intro i
    rw [← helement]
    rfl
  · intro i hi
    rw [hnamed _ (Text.decimal_ne_length i), indexKey?_decimal, if_pos (by omega)]
    rfl

theorem length_of_cells (hcells : h.cells? (.array id) = some cells) :
    h.length (.array id) = cells.length := by
  rw [Heap.length, (readsAs_of_cells hcells).length, Option.getD_some]

structure Ignores (h : Heap) (v : Value) (length : Nat) : Prop where
  index : ∀ i x, i < 0 ∨ (maxArrayLength : Int) ≤ i → h.setIndex v i x = h
  named : ∀ key x, (∀ i, indexKey? key = some i → maxArrayLength ≤ i) → h.set v key x = h
  delete : ∀ key, (∀ i, indexKey? key = some i → length ≤ i) → h.delete v key = h
  push : ∀ x, maxArrayLength ≤ length → ArrayOp.apply v h (.push x) = h

theorem ignores_of_cells (hcells : h.cells? (.array id) = some cells) :
    h.Ignores (.array id) cells.length where
  index i x hi := by
    simp only [setIndex]
    split
    next => rfl
    next hneg => exact setElement_past rfl (by omega) x
  named key x hkey := by
    simp only [set]
    split
    next i hindex => exact setElement_past rfl (hkey i hindex) x
    next => rfl
  delete key hkey := by
    obtain ⟨e, he, rfl⟩ := cells?_eq_some_iff.1 hcells
    simp only [Heap.delete]
    split
    next i hindex =>
      have hi := hkey i hindex
      rw [Elements.length_toList] at hi
      have hsame : h.arrays.modify id (·.clear i) = h.arrays := by
        refine modify_eq_self fun e' he' => ?_
        cases he.symm.trans he'
        exact Elements.clear_past hi
      rw [hsame]
    next => rfl
  push x hlimit := by
    rw [ArrayOp.apply, length_of_cells hcells]
    exact setElement_past rfl hlimit x

end Heap

inductive ArrayOrigin where
  | items (xs : List Value)
  | length (n : Nat)

namespace ArrayOrigin

def make : ArrayOrigin → HeapM Value
  | .items xs => Heap.newArray xs
  | .length n => Heap.newElements (.sparse n)

def cells : ArrayOrigin → List Value
  | .items xs => xs
  | .length n => List.replicate (min n maxArrayLength) .undefined

theorem cells?_make (o : ArrayOrigin) (h : Heap) :
    (o.make h).2.cells? (o.make h).1 = some o.cells := by
  cases o with
  | items xs =>
    refine Heap.cells?_eq_some_iff.2 ⟨.ofArray xs.toArray, Array.getElem?_push_size, ?_⟩
    simp [Elements.toList, Elements.ofArray, cells]
  | length n =>
    refine Heap.cells?_eq_some_iff.2 ⟨.sparse n, Array.getElem?_push_size, ?_⟩
    simp [Elements.toList, Elements.sparse, cells]

end ArrayOrigin

theorem cells?_apply {h : Heap} {id : Nat} {cells : List Value}
    (hcells : h.cells? (.array id) = some cells) (op : ArrayOp) :
    (op.apply (.array id) h).cells? (.array id) = some (op.onCells cells) := by
  cases op with
  | set key x =>
    simp only [ArrayOp.apply, ArrayOp.onCells, ArrayOp.change?, Heap.set]
    cases indexKey? key with
    | none => exact hcells
    | some i => exact Heap.cells?_setElement hcells i x
  | setIndex i x =>
    simp only [ArrayOp.apply, ArrayOp.onCells, ArrayOp.change?, Heap.setIndex]
    split
    next => exact hcells
    next => exact Heap.cells?_setElement hcells i.toNat x
  | delete key =>
    simp only [ArrayOp.apply, ArrayOp.onCells, ArrayOp.change?, Heap.delete]
    cases indexKey? key with
    | none => exact hcells
    | some i =>
      obtain ⟨e, he, rfl⟩ := Heap.cells?_eq_some_iff.1 hcells
      refine Heap.cells?_eq_some_iff.2 ⟨e.clear i, ?_, e.toList_clear i⟩
      simp only [Array.getElem?_modify, if_true, he, Option.map_some]
  | push x =>
    simp only [ArrayOp.apply, ArrayOp.onCells, ArrayOp.change?, Heap.length_of_cells hcells]
    exact Heap.cells?_setElement hcells cells.length x

theorem cells?_run {h : Heap} {id : Nat} {cells : List Value}
    (hcells : h.cells? (.array id) = some cells) (ops : List ArrayOp) :
    (ops.foldl (ArrayOp.apply (.array id)) h).cells? (.array id) =
      some (ops.foldl ArrayOp.onCells cells) := by
  induction ops generalizing h cells with
  | nil => exact hcells
  | cons op ops ih => exact ih (cells?_apply hcells op)

/-- However an array was made and whatever was done to it, it reads as a list. -/
theorem arrays_are_lists (o : ArrayOrigin) (h : Heap) (ops : List ArrayOp) :
    let v := (o.make h).1
    let after := ops.foldl (ArrayOp.apply v) (o.make h).2
    let changes := ArrayOp.changes o.cells.length ops
    ∃ cells, cells = ops.foldl ArrayOp.onCells o.cells ∧
      after.ReadsAs v cells ∧ after.Ignores v cells.length ∧
      cells.length = (changes.map CellChange.reach).foldl max o.cells.length ∧
      ∀ i, cells.getD i .undefined =
        (changes.filterMap (CellChange.at? i)).getLast?.getD (o.cells.getD i .undefined) := by
  intro v after changes
  have hv : ∃ id, v = .array id := by cases o <;> exact ⟨h.arrays.size, rfl⟩
  obtain ⟨id, hv⟩ := hv
  have hmade : (o.make h).2.cells? v = some o.cells := o.cells?_make h
  have hrun : after.cells? v = some (ops.foldl ArrayOp.onCells o.cells) := by
    simp only [after, hv] at hmade ⊢
    exact cells?_run hmade ops
  have hchanges := ArrayOp.foldl_onCells ops o.cells
  rw [hv] at hrun ⊢
  refine ⟨_, rfl, Heap.readsAs_of_cells hrun, Heap.ignores_of_cells hrun, ?_, fun i => ?_⟩
  · rw [hchanges]
    exact CellChange.length_foldl_on changes o.cells
  · rw [hchanges]
    exact CellChange.getD_foldl_on changes o.cells i

example : [ArrayOp.setIndex 2 .null, .delete "2", .push (.bool true), .set "01" .null].foldl
    ArrayOp.onCells [.null] = [.null, .undefined, .undefined, .bool true] := by decide

end TokenizerHost
