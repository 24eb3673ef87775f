import TokenizerHost.Globals
import TokenizerHost.Proofs.Heap.Circles
import TokenizerHost.Proofs.Heap.Objects

set_option autoImplicit false

/-!
# How circles come about

What is made holds only what it is made of, so making a value closes no circle
(`Extends.circular_iff`). A write lets the value that is written hold at most one value more
(`Rewires`), and closes a circle exactly if that one already reaches the value that is written
(`Rewires.circular_iff`).
-/

namespace TokenizerHost

open Relation

namespace Elements

theorem get_set {e : Elements} {i : Nat} (hi : i < maxArrayLength) (x : Value) (j : Nat) :
    (e.set i x).get j = if j = i then x else e.get j := by
  simp only [set, if_pos hi, get, room, Array.getElem?_setIfInBounds, Array.getElem?_append,
    Array.getElem?_replicate, Array.size_append, Array.size_replicate]
  by_cases hji : j = i
  · subst hji
    have hroom : j < e.items.size + (j + 1 - e.items.size) := by omega
    simp [hroom]
  · rw [if_neg (Ne.symm hji), if_neg hji]
    by_cases hstored : j < e.items.size
    · rw [if_pos hstored]
    · rw [if_neg hstored, Array.getElem?_eq_none (Nat.le_of_not_lt hstored)]
      split <;> rfl

theorem get_clear (e : Elements) (i j : Nat) :
    (e.clear i).get j = if j = i then .undefined else e.get j := by
  simp only [clear, get, Array.getElem?_setIfInBounds]
  by_cases hji : j = i
  · subst hji
    rw [if_pos rfl, if_pos rfl]
    split <;> rfl
  · rw [if_neg (Ne.symm hji), if_neg hji]

/-- Past its end an array reads as `undefined`, which is no part of a text. -/
theorem mem_toList_iff {e : Elements} {x : Value} (hx : x.isNullish = false) :
    x ∈ e.toList ↔ ∃ j, e.get j = x := by
  rw [List.mem_iff_getElem?]
  constructor
  · rintro ⟨j, hj⟩
    rw [getElem?_toList] at hj
    split at hj
    · exact ⟨j, Option.some.inj hj⟩
    · cases hj
  · rintro ⟨j, rfl⟩
    refine ⟨j, ?_⟩
    rw [getElem?_toList, if_pos]
    by_contra hj
    have hsize := e.size_le
    rw [get, Array.getElem?_eq_none (by omega)] at hx
    cases hx

end Elements

namespace Heap

variable {h h' : Heap} {v x : Value}

/-! ## What there is -/

def Has (h : Heap) : Value → Prop
  | .array id => id < h.arrays.size
  | .object id => id < h.objects.size
  | _ => True

/-- Whatever is held is there. -/
def Closed (h : Heap) : Prop := ∀ v x, h.Holds v x → h.Has x

def Circular (h : Heap) : Prop := ∃ v, TransGen h.Holds v v

theorem circular_iff : h.Circular ↔ ∃ v, h.HoldsItself v := by
  constructor
  · rintro ⟨v, hv⟩
    exact ⟨v, v, .refl, hv⟩
  · rintro ⟨_, x, -, hx⟩
    exact ⟨x, hx⟩

theorem holds_array_iff {id : Nat} : h.Holds (.array id) x ↔
    x.isNullish = false ∧ ∃ j, h.element (.array id) j = x := by
  simp only [Holds, parts, List.mem_filter, Bool.not_eq_true', and_comm (a := x ∈ _)]
  refine and_congr_right fun hx => ?_
  simp only [element]
  cases h.elements? (.array id) with
  | none =>
    refine iff_of_false List.not_mem_nil ?_
    rintro ⟨j, rfl⟩
    cases hx
  | some e => exact Elements.mem_toList_iff hx

theorem holds_object_iff {id : Nat} : h.Holds (.object id) x ↔
    x.isNullish = false ∧ h.isComposed (.object id) = true ∧
      ∃ key, (key = "name" ∨ key = "message") ∧ h.get (.object id) key = x := by
  simp only [Holds, parts, List.mem_filter, Bool.not_eq_true', and_comm (a := x ∈ _)]
  refine and_congr_right fun _ => ?_
  split
  next hcomposed => simp [hcomposed, eq_comm]
  next hplain => simp [hplain]

theorem has_mono (harrays : h.arrays.size ≤ h'.arrays.size)
    (hobjects : h.objects.size ≤ h'.objects.size) (a : Value) (ha : h.Has a) : h'.Has a := by
  cases a with
  | array id => exact Nat.lt_of_lt_of_le ha harrays
  | object id => exact Nat.lt_of_lt_of_le ha hobjects
  | _ => trivial

theorem has_of_holds (hvx : h.Holds v x) : h.Has v := by
  have hcontainer := mem_containers_of_holds hvx
  cases v with
  | array id | object id => simpa [containers, Has] using hcontainer
  | _ => trivial

/-! ## One value more -/

/-- Two heaps have the same containers, which hold the same, but for `v`, which may hold `x` now and
some of its values no more. -/
structure Rewires (h h' : Heap) (v x : Value) : Prop where
  has : ∀ a, h.Has a → h'.Has a
  other : ∀ a, a ≠ v → h'.parts a = h.parts a
  new : ∀ b, h'.Holds v b → h.Holds v b ∨ b = x

namespace Rewires

theorem holds {a b : Value} (hr : h.Rewires h' v x) (hab : h'.Holds a b) :
    h.Holds a b ∨ a = v ∧ b = x := by
  by_cases ha : a = v
  · subst ha
    exact (hr.new b hab).imp_right fun hb => ⟨rfl, hb⟩
  · rw [Holds, hr.other a ha] at hab
    exact .inl hab

theorem closed (hr : h.Rewires h' v x) (hh : h.Closed) (hx : h.Has x) : h'.Closed := by
  intro a b hab
  rcases hr.holds hab with hab | ⟨-, rfl⟩
  · exact hr.has b (hh a b hab)
  · exact hr.has b hx

/-- What is reached anew is reached from the value that is held anew. -/
theorem reaches {a b : Value} (hr : h.Rewires h' v x) (hab : TransGen h'.Holds a b) :
    TransGen h.Holds a b ∨
      h'.Holds v x ∧ ReflTransGen h.Holds a v ∧ ReflTransGen h.Holds x b := by
  induction hab with
  | single hab =>
    rcases hr.holds hab with hold | ⟨rfl, rfl⟩
    · exact .inl (.single hold)
    · exact .inr ⟨hab, .refl, .refl⟩
  | tail _ hbd ih =>
    rcases hr.holds hbd with hold | ⟨rfl, rfl⟩
    · rcases ih with hab | ⟨hvx, hav, hxb⟩
      · exact .inl (hab.tail hold)
      · exact .inr ⟨hvx, hav, hxb.tail hold⟩
    · refine .inr ⟨hbd, ?_, .refl⟩
      rcases ih with hab | ⟨-, hav, -⟩
      · exact hab.to_reflTransGen
      · exact hav

/-- The way to `v` need not lead through `v`, so it is still there. -/
theorem reaches_back {a : Value} (hr : h.Rewires h' v x) (hav : ReflTransGen h.Holds a v) :
    ReflTransGen h'.Holds a v := by
  induction hav using ReflTransGen.head_induction_on with
  | refl => exact .refl
  | @head a b hab _ ih =>
    by_cases ha : a = v
    · rw [ha]
    · rw [Holds, ← hr.other a ha] at hab
      exact .head hab ih

theorem circular_iff (hr : h.Rewires h' v x) (hh : ¬ h.Circular) :
    h'.Circular ↔ h'.Holds v x ∧ ReflTransGen h.Holds x v := by
  constructor
  · rintro ⟨a, haa⟩
    rcases hr.reaches haa with hold | ⟨hvx, hav, hxa⟩
    · exact absurd ⟨a, hold⟩ hh
    · exact ⟨hvx, hxa.trans hav⟩
  · rintro ⟨hvx, hxv⟩
    exact ⟨v, .head' hvx (hr.reaches_back hxv)⟩

end Rewires

theorem parts_array_congr {id : Nat} (hcell : h'.arrays[id]? = h.arrays[id]?) :
    h'.parts (.array id) = h.parts (.array id) := by
  simp only [parts, elements?, hcell]

theorem parts_object_congr {id : Nat} (hcell : h'.objects[id]? = h.objects[id]?) :
    h'.parts (.object id) = h.parts (.object id) := by
  have hcomposed : h'.isComposed (.object id) = h.isComposed (.object id) := by
    simp only [isComposed, object?, hcell]
  have hget : h'.get (.object id) = h.get (.object id) :=
    funext fun key => by simp only [get, object?, hcell]
  simp only [parts, hcomposed, hget]

theorem parts_of_eq (harrays : h'.arrays = h.arrays) (hobjects : h'.objects = h.objects) :
    h'.parts = h.parts := by
  refine funext fun a => ?_
  cases a with
  | array id => exact parts_array_congr (by rw [harrays])
  | object id => exact parts_object_congr (by rw [hobjects])
  | _ => rfl

theorem rewires_of_eq (harrays : h'.arrays = h.arrays) (hobjects : h'.objects = h.objects)
    (v x : Value) : h.Rewires h' v x := by
  have hparts := parts_of_eq harrays hobjects
  refine ⟨has_mono (by rw [harrays]) (by rw [hobjects]), fun a _ => congrFun hparts a,
    fun b hb => .inl ?_⟩
  rwa [Holds, hparts] at hb

theorem rewires_modifyArrays {f : Elements → Elements} (id : Nat)
    (hf : ∀ e j, (f e).get j = e.get j ∨ (f e).get j = x) :
    h.Rewires { h with arrays := h.arrays.modify id f } (.array id) x := by
  refine ⟨has_mono (by simp) (by simp), fun a ha => ?_, fun b hb => ?_⟩
  · cases a with
    | array id' =>
      have hid : id ≠ id' := fun heq => ha (congrArg Value.array heq.symm)
      exact parts_array_congr (by rw [Array.getElem?_modify, if_neg hid])
    | _ => rfl
  · obtain ⟨hvalue, j, hj⟩ := holds_array_iff.1 hb
    simp only [element, elements?, Array.getElem?_modify, if_true] at hj
    cases he : h.arrays[id]? with
    | none =>
      rw [he] at hj
      cases hj
      cases hvalue
    | some e =>
      rw [he] at hj
      change (f e).get j = b at hj
      rcases hf e j with hold | hnew
      · refine .inl (holds_array_iff.2 ⟨hvalue, j, ?_⟩)
        rw [← hj, hold, element, elements?, he]
        rfl
      · exact .inr (hj.symm.trans hnew)

theorem rewires_modifyObjects {f : PlainObject → PlainObject} (id : Nat)
    (hcls : ∀ o, (f o).cls = o.cls)
    (hf : ∀ o key, (f o).props.get key = o.props.get key ∨ (f o).props.get key = x) :
    h.Rewires { h with objects := h.objects.modify id f } (.object id) x := by
  refine ⟨has_mono (by simp) (by simp), fun a ha => ?_, fun b hb => ?_⟩
  · cases a with
    | object id' =>
      have hid : id ≠ id' := fun heq => ha (congrArg Value.object heq.symm)
      exact parts_object_congr (by rw [Array.getElem?_modify, if_neg hid])
    | _ => rfl
  · obtain ⟨hvalue, herror, key, hkey, hk⟩ := holds_object_iff.1 hb
    simp only [isComposed, get, object?, Array.getElem?_modify, if_true] at herror hk
    cases ho : h.objects[id]? with
    | none =>
      rw [ho] at hk
      cases hk
      cases hvalue
    | some o =>
      rw [ho] at herror hk
      change ((f o).cls == .error) = true at herror
      change (f o).props.get key = b at hk
      rcases hf o key with hold | hnew
      · refine .inl (holds_object_iff.2 ⟨hvalue, ?_, key, hkey, ?_⟩)
        · rw [isComposed, object?, ho, ← herror, hcls]
          rfl
        · rw [← hk, hold, get, object?, ho]
          rfl
      · exact .inr (hk.symm.trans hnew)

theorem rewires_setElement (v : Value) (i : Nat) (x : Value) :
    h.Rewires (h.setElement v i x) v x := by
  cases v with
  | array id =>
    refine rewires_modifyArrays id fun e j => ?_
    by_cases hi : i < maxArrayLength
    · rw [Elements.get_set hi]
      split
      · exact .inr rfl
      · exact .inl rfl
    · rw [Elements.set, if_neg hi]
      exact .inl rfl
  | _ => apply rewires_of_eq <;> rfl

theorem rewires_set (v : Value) (key : String) (x : Value) : h.Rewires (h.set v key x) v x := by
  cases v with
  | object id =>
    refine rewires_modifyObjects id (fun o => rfl) fun o key' => ?_
    simp only [Properties.get, Assoc.find?_insert]
    split
    · exact .inr rfl
    · exact .inl rfl
  | array id | bytes id =>
    unfold set
    dsimp only
    split
    · exact rewires_setElement _ _ x
    · exact rewires_of_eq rfl rfl _ x
  | _ => apply rewires_of_eq <;> rfl

theorem rewires_setIndex (v : Value) (i : Int) (x : Value) : h.Rewires (h.setIndex v i x) v x := by
  cases v with
  | object id => exact rewires_set (.object id) (Text.decimal i) x
  | function id => exact rewires_set (.function id) (Text.decimal i) x
  | _ =>
    unfold setIndex
    dsimp only
    split
    · exact rewires_of_eq rfl rfl _ x
    · exact rewires_setElement _ _ x

theorem rewires_delete (v : Value) (key : String) : h.Rewires (h.delete v key) v .undefined := by
  cases v with
  | object id =>
    refine rewires_modifyObjects id (fun o => rfl) fun o key' => ?_
    simp only [Properties.get, Assoc.find?_erase]
    split
    · exact .inr rfl
    · exact .inl rfl
  | array id =>
    unfold delete
    dsimp only
    split
    · refine rewires_modifyArrays id fun e j => ?_
      rw [Elements.get_clear]
      split
      · exact .inr rfl
      · exact .inl rfl
    · exact rewires_of_eq rfl rfl _ _
  | _ => apply rewires_of_eq <;> rfl

theorem not_holds_undefined : ¬ h.Holds v .undefined := fun hv => by cases (List.mem_filter.1 hv).2

/-! ## New values -/

/-- What there was is there and holds what it held, and what is new holds only what there was. -/
structure Extends (h h' : Heap) : Prop where
  has : ∀ a, h.Has a → h'.Has a
  old : ∀ a, h.Has a → h'.parts a = h.parts a
  fresh : ∀ a b, ¬ h.Has a → h'.Holds a b → h.Has b

namespace Extends

theorem has_held {a b : Value} (he : h.Extends h') (hh : h.Closed) (hab : h'.Holds a b) :
    h.Has b := by
  by_cases ha : h.Has a
  · rw [Holds, he.old a ha] at hab
    exact hh a b hab
  · exact he.fresh a b ha hab

theorem closed (he : h.Extends h') (hh : h.Closed) : h'.Closed :=
  fun _ b hab => he.has b (he.has_held hh hab)

theorem circular_iff (he : h.Extends h') (hh : h.Closed) : h'.Circular ↔ h.Circular := by
  have hold : ∀ a b, h.Has a → TransGen h'.Holds a b → TransGen h.Holds a b := by
    intro a b ha hab
    induction hab with
    | single hab =>
      rw [Holds, he.old a ha] at hab
      exact .single hab
    | tail hab hbd ih =>
      obtain ⟨_, -, hab⟩ := TransGen.tail'_iff.1 hab
      rw [Holds, he.old _ (he.has_held hh hab)] at hbd
      exact ih.tail hbd
  constructor
  · rintro ⟨a, haa⟩
    obtain ⟨_, -, hba⟩ := TransGen.tail'_iff.1 haa
    exact ⟨a, hold a a (he.has_held hh hba) haa⟩
  · rintro ⟨a, haa⟩
    have hkept : ∀ b d, h.Holds b d → h'.Holds b d := by
      intro b d hbd
      rwa [Holds, he.old b (has_of_holds hbd)]
    exact ⟨a, haa.lift id hkept⟩

end Extends

theorem extends_of_eq (harrays : h'.arrays = h.arrays) (hobjects : h'.objects = h.objects) :
    h.Extends h' := by
  have hparts := parts_of_eq harrays hobjects
  refine ⟨has_mono (by rw [harrays]) (by rw [hobjects]), fun a _ => congrFun hparts a,
    fun a b ha hab => ?_⟩
  rw [Holds, hparts] at hab
  exact absurd (has_of_holds hab) ha

theorem extends_pushArray {e : Elements} (harrays : h'.arrays = h.arrays.push e)
    (hobjects : h'.objects = h.objects) (hitems : ∀ x ∈ e.toList, h.Has x) : h.Extends h' := by
  refine ⟨has_mono (by simp [harrays]) (by rw [hobjects]), fun a ha => ?_, fun a b ha hab => ?_⟩
  · cases a with
    | array id =>
      exact parts_array_congr (by rw [harrays, Array.getElem?_push, if_neg (Nat.ne_of_lt ha)])
    | object id => exact parts_object_congr (by rw [hobjects])
    | _ => rfl
  · cases a with
    | array id =>
      obtain ⟨hvalue, j, hj⟩ := holds_array_iff.1 hab
      have hid : id = h.arrays.size := by
        by_contra hne
        have hnone : h.arrays[id]? = none := Array.getElem?_eq_none (Nat.le_of_not_lt ha)
        rw [element, elements?, harrays, Array.getElem?_push, if_neg hne, hnone] at hj
        cases hj
        cases hvalue
      rw [element, elements?, harrays, Array.getElem?_push, if_pos hid] at hj
      exact hitems b ((Elements.mem_toList_iff hvalue).2 ⟨j, hj⟩)
    | object id =>
      have hparts : h'.parts (.object id) = h.parts (.object id) :=
        parts_object_congr (by rw [hobjects])
      rw [Holds, hparts] at hab
      exact absurd (has_of_holds hab) ha
    | _ => exact absurd trivial ha

theorem extends_pushObject {o : PlainObject} (harrays : h'.arrays = h.arrays)
    (hobjects : h'.objects = h.objects.push o)
    (hprops : ∀ key, key = "name" ∨ key = "message" → h.Has (o.props.get key)) : h.Extends h' := by
  refine ⟨has_mono (by rw [harrays]) (by simp [hobjects]), fun a ha => ?_, fun a b ha hab => ?_⟩
  · cases a with
    | object id =>
      exact parts_object_congr (by rw [hobjects, Array.getElem?_push, if_neg (Nat.ne_of_lt ha)])
    | array id => exact parts_array_congr (by rw [harrays])
    | _ => rfl
  · cases a with
    | object id =>
      obtain ⟨hvalue, -, key, hkey, hk⟩ := holds_object_iff.1 hab
      have hid : id = h.objects.size := by
        by_contra hne
        have hnone : h.objects[id]? = none := Array.getElem?_eq_none (Nat.le_of_not_lt ha)
        rw [get, object?, hobjects, Array.getElem?_push, if_neg hne, hnone] at hk
        cases hk
        cases hvalue
      rw [get, object?, hobjects, Array.getElem?_push, if_pos hid] at hk
      change o.props.get key = b at hk
      rw [← hk]
      exact hprops key hkey
    | array id =>
      have hparts : h'.parts (.array id) = h.parts (.array id) :=
        parts_array_congr (by rw [harrays])
      rw [Holds, hparts] at hab
      exact absurd (has_of_holds hab) ha
    | _ => exact absurd trivial ha

theorem extends_newErrorNamed (name message : String) (h : Heap) :
    h.Extends (newErrorNamed name message h).2 := by
  rw [newErrorNamed, newObjectWith_eq]
  refine extends_pushObject rfl rfl ?_
  rintro key (rfl | rfl) <;> trivial

theorem extends_constructArray {args : List Value} (hargs : ∀ a ∈ args, h.Has a) :
    h.Extends (constructArray args h).2 := by
  unfold constructArray
  split
  next n =>
    cases requestedLength? n maxArrayLength with
    | some length =>
      refine extends_pushArray rfl rfl fun x hx => ?_
      rw [List.eq_of_mem_replicate hx]
      trivial
    | none => exact extends_newErrorNamed _ _ h
  next =>
    refine extends_pushArray rfl rfl fun x hx => hargs x ?_
    simpa [Elements.ofArray, Elements.toList] using hx

theorem extends_constructBytes (source : Value) (h : Heap) :
    h.Extends (constructBytes source h).2 := by
  unfold constructBytes
  split
  next n =>
    cases requestedLength? n maxBytesLength with
    | some length => exact extends_of_eq rfl rfl
    | none => exact extends_newErrorNamed _ _ h
  all_goals exact extends_of_eq rfl rfl

theorem extends_constructDate (millis : Double) (h : Heap) :
    h.Extends (constructDate millis h).2 := by
  obtain ⟨time, offset, hobjects⟩ : ∃ time offset, (constructDate millis h).2.objects =
      ((h.objects.push ⟨.date, .empty⟩).modify h.objects.size fun o =>
        { o with props := o.props.insert "getTime" (.function time) }).modify h.objects.size fun o =>
          { o with props := o.props.insert "getTimezoneOffset" (.function offset) } :=
    ⟨_, _, rfl⟩
  rw [modify_last, modify_last] at hobjects
  refine extends_pushObject rfl hobjects ?_
  rintro key (rfl | rfl) <;> trivial

theorem extends_constructObject (first : Value) (h : Heap) :
    h.Extends (constructObject first h).2 := by
  unfold constructObject
  split
  · exact extends_of_eq rfl rfl
  · refine extends_pushObject rfl rfl ?_
    rintro key (rfl | rfl) <;> trivial

theorem parts_firstObjects (v : Value) : firstObjects.2.parts v = [] := by
  have hsimple : firstObjects.2.arrays.size = 0 ∧
      firstObjects.2.objects.all (·.cls != .error) = true := by
    decide +kernel
  generalize firstObjects.2 = h at hsimple ⊢
  obtain ⟨harrays, hobjects⟩ := hsimple
  cases v with
  | array id =>
    have hnone : h.arrays[id]? = none := Array.getElem?_eq_none (by omega)
    simp [parts, elements?, hnone]
  | object id =>
    refine parts_simple ?_
    simp only [isComposed, object?]
    cases ho : h.objects[id]? with
    | none => rfl
    | some o =>
      have hcls := Array.all_eq_true_iff_forall_mem.1 hobjects o (Array.mem_of_getElem? ho)
      simpa using hcls
  | _ => rfl

end Heap

end TokenizerHost
