import TokenizerHost.Heap.Construct

set_option autoImplicit false

namespace TokenizerHost

namespace Heap

variable {h h' h'' : Heap} {o : Nat}

def KeepsObjects (h h' : Heap) : Prop := ∀ o, o < h.objects.size → h'.objects[o]? = h.objects[o]?

namespace KeepsObjects

theorem of_eq (heq : h'.objects = h.objects) : h.KeepsObjects h' := fun _ _ => by rw [heq]

theorem refl (h : Heap) : h.KeepsObjects h := of_eq rfl

theorem size_le (hh : h.KeepsObjects h') : h.objects.size ≤ h'.objects.size :=
  Nat.le_of_not_lt fun hlt => by
    have hpast := hh h'.objects.size hlt
    rw [Array.getElem?_eq_none (Nat.le_refl _), Array.getElem?_eq_getElem hlt] at hpast
    cases hpast

theorem trans (hh : h.KeepsObjects h') (hh' : h'.KeepsObjects h'') : h.KeepsObjects h'' :=
  fun o ho => (hh' o (Nat.lt_of_lt_of_le ho hh.size_le)).trans (hh o ho)

theorem get (hh : h.KeepsObjects h') (ho : o < h.objects.size) (key : String) :
    h'.get (.object o) key = h.get (.object o) key := by
  simp only [Heap.get, object?, hh o ho]

end KeepsObjects

/-! ## Writing properties -/

theorem objects_setElement (h : Heap) (v : Value) (i : Nat) (x : Value) :
    (h.setElement v i x).objects = h.objects := by
  unfold setElement
  split <;> rfl

theorem objects_setBytes (h : Heap) (v : Value) (bytes : ByteArray) :
    (h.setBytes v bytes).objects = h.objects := by
  unfold setBytes
  split <;> rfl

/-- Only a write to an object changes objects, and it changes that one. -/
theorem objects_set (h : Heap) (v : Value) (key : String) (x : Value) :
    (h.set v key x).objects =
      match v with
      | .object o => h.objects.modify o fun p => { p with props := p.props.insert key x }
      | _ => h.objects := by
  cases v with
  | array id | bytes id =>
    unfold set
    dsimp only
    split
    · exact objects_setElement h _ _ x
    · rfl
  | _ => rfl

theorem objects_delete (h : Heap) (v : Value) (key : String) :
    (h.delete v key).objects =
      match v with
      | .object o => h.objects.modify o fun p => { p with props := p.props.erase key }
      | _ => h.objects := by
  cases v with
  | array id =>
    unfold delete
    dsimp only
    split <;> rfl
  | _ => rfl

theorem size_set (h : Heap) (v : Value) (key : String) (x : Value) :
    (h.set v key x).objects.size = h.objects.size := by
  rw [objects_set]
  split
  · exact Array.size_modify
  · rfl

theorem size_delete (h : Heap) (v : Value) (key : String) :
    (h.delete v key).objects.size = h.objects.size := by
  rw [objects_delete]
  split
  · exact Array.size_modify
  · rfl

theorem get_set (ho : o < h.objects.size) (v : Value) (key key' : String) (x : Value) :
    (h.set v key' x).get (.object o) key =
      if v = .object o ∧ key' = key then x else h.get (.object o) key := by
  simp only [get, object?, objects_set]
  cases v with
  | object o' =>
    simp only [Array.getElem?_modify, Value.object.injEq]
    by_cases hobject : o' = o
    · subst hobject
      simp only [if_true, Array.getElem?_eq_getElem ho, Option.map_some, Option.elim_some,
        Properties.get, Assoc.find?_insert, true_and, eq_comm (a := key)]
      split <;> rfl
    · simp only [hobject, if_false, false_and]
  | _ => simp only [reduceCtorEq, false_and, if_false]

theorem get_delete (ho : o < h.objects.size) (v : Value) (key key' : String) :
    (h.delete v key').get (.object o) key =
      if v = .object o ∧ key' = key then .undefined else h.get (.object o) key := by
  simp only [get, object?, objects_delete]
  cases v with
  | object o' =>
    simp only [Array.getElem?_modify, Value.object.injEq]
    by_cases hobject : o' = o
    · subst hobject
      simp only [if_true, Array.getElem?_eq_getElem ho, Option.map_some, Option.elim_some,
        Properties.get, Assoc.find?_erase, true_and, eq_comm (a := key)]
      split <;> rfl
    · simp only [hobject, if_false, false_and]
  | _ => simp only [reduceCtorEq, false_and, if_false]

theorem objects_setIndex (h : Heap) (v : Value) (i : Int) (x : Value) :
    (h.setIndex v i x).objects = (h.set v (Text.decimal i) x).objects := by
  cases v with
  | object id | function id => rfl
  | _ =>
    rw [objects_set]
    unfold setIndex
    dsimp only
    split
    · rfl
    · exact objects_setElement h _ _ x

theorem get_setIndex (ho : o < h.objects.size) (v : Value) (i : Int) (key : String) (x : Value) :
    (h.setIndex v i x).get (.object o) key =
      if v = .object o ∧ Text.decimal i = key then x else h.get (.object o) key := by
  rw [← get_set ho v key (Text.decimal i) x]
  simp only [get, object?, objects_setIndex]

/-! ## Making values -/

/-- A new object is none of those there were, so writing it keeps them. -/
theorem KeepsObjects.set (hh : h.KeepsObjects h') (ho : h.objects.size ≤ o) (key : String)
    (x : Value) : h.KeepsObjects (h'.set (.object o) key x) := by
  intro i hi
  rw [objects_set, Array.getElem?_modify, if_neg (by omega)]
  exact hh i hi

theorem keepsObjects_newObject (cls : Class) (h : Heap) : h.KeepsObjects (newObject cls h).2 :=
  fun o ho => by
    change (h.objects.push ⟨cls, .empty⟩)[o]? = _
    rw [Array.getElem?_push, if_neg (Nat.ne_of_lt ho)]

theorem modify_last {α : Type} (xs : Array α) (x : α) (f : α → α) :
    (xs.push x).modify xs.size f = xs.push (f x) := by
  refine Array.ext_getElem? fun i => ?_
  rw [Array.getElem?_modify, Array.getElem?_push, Array.getElem?_push]
  split
  next hi => subst hi; simp
  next hi => rw [if_neg (Ne.symm hi), if_neg (Ne.symm hi)]

def propertiesOf (props : List (String × Value)) : Properties :=
  props.foldl (fun p x => p.insert x.1 x.2) .empty

theorem newObjectWith_eq (cls : Class) (props : List (String × Value)) (h : Heap) :
    newObjectWith cls props h = (.object h.objects.size,
      { h with objects := h.objects.push ⟨cls, propertiesOf props⟩ }) := by
  have hput : ∀ (props : List (String × Value)) (p : Properties),
      (props.forM (fun e => put (.object h.objects.size) e.1 e.2) : HeapM Unit)
          { h with objects := h.objects.push ⟨cls, p⟩ } =
        ((), { h with objects :=
          h.objects.push ⟨cls, props.foldl (fun p x => p.insert x.1 x.2) p⟩ }) := by
    intro props
    induction props with
    | nil => exact fun p => rfl
    | cons first rest ih =>
      intro p
      have hfirst : put (.object h.objects.size) first.1 first.2
          { h with objects := h.objects.push ⟨cls, p⟩ } =
            ((), { h with objects := h.objects.push ⟨cls, p.insert first.1 first.2⟩ }) := by
        change ((), Heap.set _ _ _ _) = _
        simp only [set, modify_last]
      change (rest.forM _ : HeapM Unit) (put (.object h.objects.size) first.1 first.2
          { h with objects := h.objects.push ⟨cls, p⟩ }).2 = _
      rw [hfirst]
      exact ih _
  have hrun : newObjectWith cls props h = (.object h.objects.size,
      ((props.forM fun e => put (.object h.objects.size) e.1 e.2 : HeapM Unit)
        { h with objects := h.objects.push ⟨cls, .empty⟩ }).2) := rfl
  rw [hrun, hput, propertiesOf]

theorem keepsObjects_newObjectWith (cls : Class) (props : List (String × Value)) (h : Heap) :
    h.KeepsObjects (newObjectWith cls props h).2 := by
  intro o ho
  rw [newObjectWith_eq]
  exact Array.getElem?_push.trans (if_neg (Nat.ne_of_lt ho))

theorem get_newObjectWith (cls : Class) (props : List (String × Value)) (h : Heap) (key : String) :
    (newObjectWith cls props h).2.get (newObjectWith cls props h).1 key =
      (propertiesOf props).get key := by
  rw [newObjectWith_eq]
  simp only [get, object?, Array.getElem?_push_size, Option.elim_some]

theorem classOf?_newObjectWith (cls : Class) (props : List (String × Value)) (h : Heap) :
    (newObjectWith cls props h).2.classOf? (newObjectWith cls props h).1 = some cls := by
  rw [newObjectWith_eq]
  simp only [classOf?, object?, Array.getElem?_push_size, Option.map_some]

theorem keepsObjects_newElements (e : Elements) (h : Heap) :
    h.KeepsObjects (newElements e h).2 := .of_eq rfl

theorem keepsObjects_newBytes (bytes : ByteArray) (h : Heap) :
    h.KeepsObjects (newBytes bytes h).2 := .of_eq rfl

theorem keepsObjects_newFunction (name : String) (kind : FunctionKind) (h : Heap) :
    h.KeepsObjects (newFunction name kind h).2 := .of_eq rfl

theorem keepsObjects_bind {α β : Type} {f : HeapM α} {g : α → HeapM β}
    (hf : h.KeepsObjects (f h).2) (hg : ∀ a h', KeepsObjects h' (g a h').2) :
    h.KeepsObjects ((f >>= g) h).2 := hf.trans (hg _ _)

theorem keepsObjects_map {α β : Type} {f : HeapM α} (hf : h.KeepsObjects (f h).2) (g : α → β) :
    h.KeepsObjects ((f >>= fun a => pure (g a) : HeapM β) h).2 := hf

theorem keepsObjects_throwRange (kind : String) (h : Heap) :
    h.KeepsObjects (throwRange kind h).2 :=
  keepsObjects_map (keepsObjects_newObjectWith _ _ h) _

theorem keepsObjects_constructArray (args : List Value) (h : Heap) :
    h.KeepsObjects (constructArray args h).2 := by
  unfold constructArray
  split
  next n =>
    cases requestedLength? n maxArrayLength with
    | some length => exact keepsObjects_map (keepsObjects_newElements _ h) _
    | none => exact keepsObjects_throwRange _ h
  next => exact keepsObjects_map (keepsObjects_newElements _ h) _

theorem keepsObjects_constructBytes (source : Value) (h : Heap) :
    h.KeepsObjects (constructBytes source h).2 := by
  unfold constructBytes
  split
  next n =>
    cases requestedLength? n maxBytesLength with
    | some length => exact keepsObjects_map (keepsObjects_newBytes _ h) _
    | none => exact keepsObjects_throwRange _ h
  next => exact keepsObjects_map (keepsObjects_newBytes _ h) _
  next => exact keepsObjects_map (keepsObjects_newBytes _ h) _
  next => exact keepsObjects_map (keepsObjects_newBytes _ h) _

theorem keepsObjects_constructDate (millis : Double) (h : Heap) :
    h.KeepsObjects (constructDate millis h).2 :=
  ((keepsObjects_newObject .date h).set (Nat.le_refl _) "getTime" _).set (Nat.le_refl _)
    "getTimezoneOffset" _

theorem keepsObjects_constructObject (first : Value) (h : Heap) :
    h.KeepsObjects (constructObject first h).2 := by
  unfold constructObject
  split
  · exact .of_eq rfl
  · exact keepsObjects_newObject _ h

end Heap

end TokenizerHost
