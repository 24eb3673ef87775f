import Mathlib.Data.Finset.Card
import Mathlib.Data.Finset.Range
import Mathlib.Logic.Relation
import TokenizerHost.Heap.Text

set_option autoImplicit false

/-!
# Values that hold themselves

The text of an array or an error is made of the texts of its parts. The search for it comes to an
end exactly if the value holds, at no depth, something that holds itself (`text?_eq_none_iff`), and
then it needs no more levels than there are containers (`text?_eq_some_iff`).
-/

namespace TokenizerHost

open Relation

section Lists

variable {α β : Type}

theorem exists_mapM_iff (f : α → Option β) (xs : List α) :
    (∃ ys, xs.mapM f = some ys) ↔ ∀ x ∈ xs, ∃ y, f x = some y := by
  induction xs with
  | nil => simp
  | cons x xs ih =>
    rw [List.forall_mem_cons, ← ih]
    cases hx : f x with
    | none => simp [List.mapM_cons, hx]
    | some y =>
      cases hxs : xs.mapM f with
      | none => simp [List.mapM_cons, hx, hxs]
      | some ys => simp [List.mapM_cons, hx, hxs]

theorem mapM_mono {f g : α → Option β} {xs : List α} {ys : List β}
    (h : ∀ x y, f x = some y → g x = some y) (hf : xs.mapM f = some ys) : xs.mapM g = some ys := by
  induction xs generalizing ys with
  | nil => exact hf
  | cons x xs ih =>
    rw [List.mapM_cons] at hf ⊢
    obtain ⟨y, hy, hf⟩ := Option.bind_eq_some_iff.1 hf
    obtain ⟨ys, hys, hf⟩ := Option.bind_eq_some_iff.1 hf
    simp only [h x y hy, ih hys, Option.bind_eq_bind, Option.bind_some]
    exact hf

end Lists

namespace Heap

variable {h : Heap} {v x : Value} {depth : Nat} {text : String}

def isComposed (h : Heap) : Value → Bool
  | .array _ => true
  | .object id => (h.object? (.object id)).elim false (·.cls == .error)
  | _ => false

/-- The values whose texts the text of a value is made of. -/
def parts (h : Heap) (v : Value) : List Value :=
  let all :=
    match v with
    | .array id => (h.elements? (.array id)).elim [] Elements.toList
    | .object id =>
      if h.isComposed (.object id) then [h.get (.object id) "name", h.get (.object id) "message"]
      else []
    | _ => []
  all.filter fun x => !x.isNullish

def Holds (h : Heap) (v x : Value) : Prop := x ∈ h.parts v

/-- A value holds, directly or not, something that in the same way holds itself. -/
def HoldsItself (h : Heap) (v : Value) : Prop :=
  ∃ x, ReflTransGen h.Holds v x ∧ TransGen h.Holds x x

theorem holdsItself_iff : h.HoldsItself v ↔ ∃ x, h.Holds v x ∧ h.HoldsItself x := by
  constructor
  · rintro ⟨x, hvx, hxx⟩
    rcases hvx.cases_head with rfl | ⟨y, hvy, hyx⟩
    · obtain ⟨y, hvy, hyv⟩ := TransGen.head'_iff.1 hxx
      exact ⟨y, hvy, v, hyv, hxx⟩
    · exact ⟨y, hvy, x, hyx, hxx⟩
  · rintro ⟨y, hvy, x, hyx, hxx⟩
    exact ⟨x, .head hvy hyx, hxx⟩

theorem not_holdsItself_of_isNullish (hv : v.isNullish = true) : ¬ h.HoldsItself v := by
  intro hitself
  obtain ⟨x, hx, -⟩ := holdsItself_iff.1 hitself
  cases v with
  | undefined | null => cases hx
  | _ => cases hv

/-! ## Searching to a depth -/

/-- What a part contributes to a text: its own text, or a fixed one if it is missing. -/
def partText (h : Heap) (depth : Nat) (missing : String) (x : Value) : Option String :=
  if x.isNullish then some missing else h.textWithin depth x

theorem exists_partText_iff (missing : String) :
    (∃ text, h.partText depth missing x = some text) ↔
      (x.isNullish = false → ∃ text, h.textWithin depth x = some text) := by
  unfold partText
  split <;> simp_all

theorem textWithin_array (id : Nat) : h.textWithin (depth + 1) (.array id) =
    (((h.elements? (.array id)).elim [] Elements.toList).mapM (h.partText depth "")).map
      (",".intercalate ·) := by
  simp only [textWithin, Option.map_eq_bind]
  rfl

theorem textWithin_error {id : Nat} (hcomposed : h.isComposed (.object id) = true) :
    h.textWithin (depth + 1) (.object id) =
      (h.partText depth "Error" (h.get (.object id) "name")).bind fun name =>
        if (h.get (.object id) "message").isNullish then some name
        else (h.textWithin depth (h.get (.object id) "message")).map (name ++ ": " ++ ·) := by
  have herror : (h.object? (.object id)).elim false (·.cls == .error) = true := hcomposed
  simp only [textWithin, if_pos herror, Option.map_eq_bind, partText]
  split <;> rfl

theorem textWithin_simple (hv : h.isComposed v = false) (depth depth' : Nat) :
    h.textWithin depth v = h.textWithin depth' v := by
  cases v with
  | array id => cases hv
  | object id =>
    have hplain : (h.object? (.object id)).elim false (·.cls == .error) = false := hv
    cases depth <;> cases depth' <;> simp [textWithin, hplain]
  | _ => simp [textWithin]

theorem exists_textWithin_zero_iff :
    (∃ text, h.textWithin 0 v = some text) ↔ h.isComposed v = false := by
  cases v with
  | object id =>
    simp only [textWithin, isComposed]
    split <;> simp_all
  | _ => simp [textWithin, isComposed]

theorem parts_simple (hv : h.isComposed v = false) : h.parts v = [] := by
  cases v with
  | array id => cases hv
  | object id => simp [parts, hv]
  | _ => rfl

/-- One level more is needed than for the parts. -/
theorem exists_textWithin_succ_iff :
    (∃ text, h.textWithin (depth + 1) v = some text) ↔
      ∀ x, h.Holds v x → ∃ text, h.textWithin depth x = some text := by
  cases hv : h.isComposed v with
  | false =>
    have hzero := exists_textWithin_zero_iff.2 hv
    rw [textWithin_simple hv 0 (depth + 1)] at hzero
    simp [hzero, Holds, parts_simple hv]
  | true =>
    cases v with
    | array id =>
      have hmap : ∀ (r : Option (List String)) (f : List String → String),
          (∃ text, r.map f = some text) ↔ ∃ texts, r = some texts := by
        intro r f
        cases r <;> simp
      rw [textWithin_array, hmap, exists_mapM_iff]
      simp only [exists_partText_iff, Holds, parts, List.mem_filter, Bool.not_eq_true', and_imp]
    | object id =>
      rw [textWithin_error hv]
      simp only [Holds, parts, hv, if_true, List.mem_filter, List.mem_cons, List.not_mem_nil,
        or_false, Bool.not_eq_true', and_imp, forall_eq_or_imp, forall_eq]
      rw [← exists_partText_iff "Error"]
      cases h.partText depth "Error" (h.get (.object id) "name") with
      | none => simp
      | some name =>
        cases (h.get (.object id) "message").isNullish with
        | true => simp
        | false => cases h.textWithin depth (h.get (.object id) "message") <;> simp
    | _ => cases hv

theorem textWithin_mono {depth' : Nat} (hdepth : depth ≤ depth')
    (ht : h.textWithin depth v = some text) : h.textWithin depth' v = some text := by
  induction depth generalizing v text depth' with
  | zero =>
    have hv : h.isComposed v = false := exists_textWithin_zero_iff.1 ⟨text, ht⟩
    rwa [textWithin_simple hv depth' 0]
  | succ depth ih =>
    obtain ⟨depth', rfl⟩ : ∃ d, depth' = d + 1 := ⟨depth' - 1, by omega⟩
    have hpart : ∀ missing x part, h.partText depth missing x = some part →
        h.partText depth' missing x = some part := by
      intro missing x part hx
      unfold partText at hx ⊢
      split at hx
      next hnull => rwa [if_pos hnull]
      next hnull => rw [if_neg hnull, ih (by omega) hx]
    cases hv : h.isComposed v with
    | false => rwa [textWithin_simple hv (depth' + 1) (depth + 1)]
    | true =>
      cases v with
      | array id =>
        rw [textWithin_array] at ht ⊢
        obtain ⟨texts, htexts, rfl⟩ := Option.map_eq_some_iff.1 ht
        rw [mapM_mono (hpart "") htexts, Option.map_some]
      | object id =>
        rw [textWithin_error hv] at ht ⊢
        obtain ⟨name, hname, ht⟩ := Option.bind_eq_some_iff.1 ht
        rw [hpart "Error" _ name hname, Option.bind_some]
        split at ht
        next hnull => rwa [if_pos hnull]
        next hnull =>
          obtain ⟨message, hmessage, rfl⟩ := Option.map_eq_some_iff.1 ht
          rw [if_neg hnull, ih (by omega) hmessage, Option.map_some]
      | _ => cases hv

/-! ## Values without a text -/

theorem textWithin_of_holdsItself (hv : h.HoldsItself v) (depth : Nat) :
    h.textWithin depth v = none := by
  refine Option.eq_none_iff_forall_ne_some.2 fun text ht => ?_
  induction depth generalizing v text with
  | zero =>
    obtain ⟨x, hx, -⟩ := holdsItself_iff.1 hv
    rw [Holds, parts_simple (exists_textWithin_zero_iff.1 ⟨text, ht⟩)] at hx
    cases hx
  | succ depth ih =>
    obtain ⟨x, hvx, hx⟩ := holdsItself_iff.1 hv
    obtain ⟨part, hpart⟩ := exists_textWithin_succ_iff.1 ⟨text, ht⟩ x hvx
    exact ih hx part hpart

def containers (h : Heap) : Finset Value :=
  (Finset.range h.arrays.size).image .array ∪ (Finset.range h.objects.size).image .object

theorem card_containers_le (h : Heap) : h.containers.card ≤ h.arrays.size + h.objects.size := by
  refine (Finset.card_union_le _ _).trans (Nat.add_le_add ?_ ?_)
  · exact Finset.card_image_le.trans_eq (Finset.card_range _)
  · exact Finset.card_image_le.trans_eq (Finset.card_range _)

theorem mem_containers_of_holds (hvx : h.Holds v x) : v ∈ h.containers := by
  cases v with
  | array id =>
    have hid : id < h.arrays.size := by
      by_contra hout
      simp [Holds, parts, elements?, Array.getElem?_eq_none (Nat.le_of_not_lt hout)] at hvx
    simp [containers, hid]
  | object id =>
    have hid : id < h.objects.size := by
      by_contra hout
      simp [Holds, parts, isComposed, object?, Array.getElem?_eq_none (Nat.le_of_not_lt hout)] at hvx
    simp [containers, hid]
  | _ => simp [Holds, parts] at hvx

/-- Each level of the search adds one to the containers that are known to hold the value, and there
are only so many. -/
theorem exists_text_of_ancestors {ancestors : Finset Value} (hcontainers : ancestors ⊆ h.containers)
    (hheld : ∀ a ∈ ancestors, TransGen h.Holds a v) (hv : ¬ h.HoldsItself v)
    (hdepth : h.arrays.size + h.objects.size < depth + ancestors.card) :
    ∃ text, h.textWithin depth v = some text := by
  induction depth generalizing v ancestors with
  | zero =>
    have hcard := (Finset.card_le_card hcontainers).trans h.card_containers_le
    omega
  | succ depth ih =>
    refine exists_textWithin_succ_iff.2 fun x hvx => ?_
    have hnew : v ∉ ancestors := fun hmem => hv ⟨v, .refl, hheld v hmem⟩
    have hinsert : insert v ancestors ⊆ h.containers :=
      Finset.insert_subset (mem_containers_of_holds hvx) hcontainers
    refine ih hinsert ?_ ?_ ?_
    · intro a ha
      rcases Finset.mem_insert.1 ha with rfl | ha
      · exact .single hvx
      · exact (hheld a ha).tail hvx
    · exact fun hx => hv (holdsItself_iff.2 ⟨x, hvx, hx⟩)
    · rw [Finset.card_insert_of_notMem hnew]
      omega

theorem text?_eq_none_iff : h.text? v = none ↔ h.HoldsItself v := by
  constructor
  · intro hnone
    by_contra hv
    obtain ⟨text, ht⟩ : ∃ text, h.text? v = some text :=
      exists_text_of_ancestors (Finset.empty_subset _) (by simp) hv (by simp)
    cases hnone.symm.trans ht
  · intro hv
    exact textWithin_of_holdsItself hv _

/-- If the search finds a text to any depth, it finds the same text to the depth it goes to. -/
theorem text?_eq_some_iff : h.text? v = some text ↔ ∃ depth, h.textWithin depth v = some text := by
  constructor
  · exact fun ht => ⟨_, ht⟩
  · rintro ⟨depth, ht⟩
    cases htext : h.text? v with
    | none =>
      cases (textWithin_of_holdsItself (text?_eq_none_iff.1 htext) depth).symm.trans ht
    | some text' =>
      have hfar := textWithin_mono (Nat.le_max_left depth (h.arrays.size + h.objects.size + 1)) ht
      exact (textWithin_mono (Nat.le_max_right depth _) htext).symm.trans hfar

theorem exists_textWithin_iff :
    (∃ depth text, h.textWithin depth v = some text) ↔ ¬ h.HoldsItself v := by
  rw [← text?_eq_none_iff, exists_comm]
  simp only [← text?_eq_some_iff, ← Option.ne_none_iff_exists', ne_eq]

end Heap

end TokenizerHost
