import Mathlib.Algebra.Order.BigOperators.Group.List
import TokenizerHost.Proofs.Analyzer.Tokens
import TokenizerHost.Proofs.Heap.Objects

set_option autoImplicit false

namespace TokenizerHost

/-! ## Joining texts -/

theorem length_intercalate (sep : String) (texts : List String) :
    (sep.intercalate texts).length =
      (texts.map String.length).sum + (texts.length - 1) * sep.length := by
  induction texts with
  | nil => simp
  | cons text rest ih =>
    cases rest with
    | nil => simp
    | cons next rest =>
      rw [String.intercalate_cons_cons, String.length_append, String.length_append, ih]
      simp only [List.map_cons, List.sum_cons, List.length_cons, Nat.add_sub_cancel, Nat.succ_mul]
      omega

theorem intercalate_map_eq_iff {α : Type} {f g : α → String} {xs : List α} (sep : String)
    (h : ∀ x ∈ xs, f x = g x ∨ (f x).length < (g x).length) :
    sep.intercalate (xs.map f) = sep.intercalate (xs.map g) ↔ ∀ x ∈ xs, f x = g x := by
  constructor
  · intro hjoined x hx
    -- No text of the first join is longer, so where one is shorter the joins differ in length.
    by_contra hne
    have hless : (xs.map fun x => (f x).length).sum < (xs.map fun x => (g x).length).sum := by
      refine List.sum_lt_sum _ _ (fun y hy => ?_) ⟨x, hx, (h x hx).resolve_left hne⟩
      rcases h y hy with hsame | hlonger
      · exact (congrArg String.length hsame).le
      · exact hlonger.le
    have hlength := congrArg String.length hjoined
    simp only [length_intercalate, List.map_map, List.length_map, Function.comp_def] at hlength
    omega
  · exact fun hsame => congrArg sep.intercalate (List.map_congr_left hsame)

namespace Heap

variable {h h' : Heap} {o a : Nat} {key : String} {cells : List Value}

/-! ## Texts do not depend on other properties -/

theorem get_set_other {key' : String} (hkey : key' ≠ key) (x : Value) (id : Nat) :
    (h.set (.object o) key' x).get (.object id) key = h.get (.object id) key := by
  by_cases hid : id < h.objects.size
  · rw [get_set hid, if_neg fun hsame => hkey hsame.2]
  · have hid' : ¬ id < (h.set (.object o) key' x).objects.size := by rwa [size_set]
    simp [get, object?, hid, hid']

theorem isComposed_set (key : String) (x v : Value) :
    (h.set (.object o) key x).isComposed v = h.isComposed v := by
  cases v with
  | object id =>
    simp only [isComposed, object?, set, Array.getElem?_modify]
    by_cases hid : o = id
    · rw [if_pos hid, Option.elim_map]
      rfl
    · rw [if_neg hid]
  | _ => rfl

/-- Of the properties of objects only names and messages show in texts. -/
theorem textWithin_set (hname : key ≠ "name") (hmessage : key ≠ "message") (x : Value) (depth : Nat)
    (v : Value) : (h.set (.object o) key x).textWithin depth v = h.textWithin depth v := by
  have hcomposed := isComposed_set (h := h) (o := o) key x
  -- An array and an error show their parts one level further down, so the depth carries them.
  induction depth generalizing v with
  | zero =>
    cases v with
    | object id =>
      have hclass := hcomposed (.object id)
      simp only [isComposed] at hclass
      simp only [textWithin, hclass]
    | _ => rfl
  | succ depth ih =>
    have hpart : ∀ missing, (h.set (.object o) key x).partText depth missing =
        h.partText depth missing := fun missing => by
      funext y
      simp only [partText, ih]
    cases hv : h.isComposed v with
    | false =>
      rw [textWithin_simple hv (depth + 1) depth,
        textWithin_simple ((hcomposed v).trans hv) (depth + 1) depth, ih]
    | true =>
      cases v with
      | array id =>
        rw [textWithin_array, textWithin_array, hpart]
        rfl
      | object id =>
        rw [textWithin_error hv, textWithin_error ((hcomposed _).trans hv), get_set_other hname,
          get_set_other hmessage, hpart]
        simp only [ih]
      | _ => cases hv

theorem text?_set (hname : key ≠ "name") (hmessage : key ≠ "message") (x v : Value) :
    (h.set (.object o) key x).text? v = h.text? v := by
  have hsize : (h.set (.object o) key x).objects.size = h.objects.size := size_set _ _ _ _
  rw [text?, text?, textWithin_set hname hmessage, hsize]
  rfl

theorem holdsItself_set (hname : key ≠ "name") (hmessage : key ≠ "message") (x v : Value) :
    (h.set (.object o) key x).HoldsItself v ↔ h.HoldsItself v := by
  rw [← text?_eq_none_iff, ← text?_eq_none_iff, text?_set hname hmessage]

/-! ## The text of an array -/

theorem text?_array (hcells : h.cells? (.array a) = some cells)
    (hacyclic : ¬ h.HoldsItself (.array a)) :
    h.text? (.array a) = some (",".intercalate (cells.map h.elementText)) := by
  obtain ⟨e, he, rfl⟩ := cells?_eq_some_iff.1 hcells
  obtain ⟨text, htext⟩ :=
    Option.ne_none_iff_exists'.1 fun hnone => hacyclic (text?_eq_none_iff.1 hnone)
  have hunfold := htext
  rw [text?, textWithin_array, show h.elements? (.array a) = some e from he] at hunfold
  obtain ⟨texts, htexts, rfl⟩ := Option.map_eq_some_iff.1 hunfold
  have hpart : ∀ x y, h.partText (h.arrays.size + h.objects.size) "" x = some y →
      some (h.elementText x) = some y := by
    intro x y hx
    unfold partText at hx
    unfold elementText
    split at hx
    next hnull => rwa [if_pos hnull]
    next hnull => rw [if_neg hnull, featureText, text?_eq_some_iff.2 ⟨_, hx⟩, Option.getD_some]
  have hall : (e.toList.mapM fun x => some (h.elementText x)) = some (e.toList.map h.elementText) :=
    List.mapM_pure
  rw [htext, Option.some.inj ((mapM_mono hpart htexts).symm.trans hall)]

theorem text?_string (h : Heap) (text : String) : h.text? (.string text) = some text := by
  simp [text?, textWithin]

theorem featureText_undefined (h : Heap) : h.featureText .undefined = "undefined" := by
  simp [featureText, text?, textWithin]

theorem featureText_null (h : Heap) : h.featureText .null = "null" := by
  simp [featureText, text?, textWithin]

theorem elementText_of_isNullish (h : Heap) {x : Value} (hx : x.isNullish = true) :
    h.elementText x = "" := if_pos hx

theorem length_elementText_lt (h : Heap) {x : Value} (hx : x.isNullish = true) :
    (h.elementText x).length < (h.featureText x).length := by
  rw [elementText_of_isNullish h hx]
  cases x with
  | undefined => rw [featureText_undefined]; decide
  | null => rw [featureText_null]; decide
  | _ => cases hx

theorem elementText_eq_iff {x : Value} :
    h.elementText x = h.featureText x ↔ x.isNullish = false := by
  constructor
  · intro hsame
    by_contra hx
    have hless := h.length_elementText_lt (Bool.eq_true_of_not_eq_false hx)
    rw [hsame] at hless
    exact lt_irrefl _ hless
  · intro hx
    rw [elementText, hx]
    rfl

end Heap

namespace Token

variable {h : Heap} {o a : Nat} {cells : List Value}

def ReadableBesides (h : Heap) (v : Value) : Prop :=
  ∀ key ∈ textKeys, key ≠ "pos" → ¬ h.HoldsItself (h.get v key)

theorem readable_set_pos (ho : o < h.objects.size) (x : Value) :
    Readable (h.set (.object o) "pos" x) (.object o) ↔
      ReadableBesides h (.object o) ∧ ¬ h.HoldsItself x := by
  have hpos : (h.set (.object o) "pos" x).get (.object o) "pos" = x := by
    rw [Heap.get_set ho, if_pos ⟨rfl, rfl⟩]
  simp only [Readable, ReadableBesides, Heap.holdsItself_set (by decide : "pos" ≠ "name")
    (by decide : "pos" ≠ "message")]
  constructor
  · intro hreadable
    refine ⟨fun key hkey hother => ?_, hpos ▸ hreadable "pos" (by decide)⟩
    exact Heap.get_set_other hother.symm x o ▸ hreadable key hkey
  · rintro ⟨hbesides, hx⟩ key hkey
    by_cases hother : key = "pos"
    · rwa [hother, hpos]
    · rw [Heap.get_set_other (Ne.symm hother)]
      exact hbesides key hkey hother

/-- The part of speech is read from its own property, and nothing else is. -/
theorem described_set_pos (ho : o < h.objects.size) (x : Value) :
    described (h.set (.object o) "pos" x) (.object o) =
      { described h (.object o) with pos := posText h x } := by
  have hfeature : (h.set (.object o) "pos" x).featureText = h.featureText := by
    funext y
    rw [Heap.featureText, Heap.featureText, Heap.text?_set (by decide) (by decide)]
  have hother : ∀ key, key ≠ "pos" →
      (h.set (.object o) "pos" x).get (.object o) key = h.get (.object o) key :=
    fun key hkey => Heap.get_set_other hkey.symm x o
  have hpos : posText (h.set (.object o) "pos" x)
      ((h.set (.object o) "pos" x).get (.object o) "pos") = posText h x := by
    rw [Heap.get_set ho, if_pos ⟨rfl, rfl⟩]
    unfold posText Heap.elementText
    rw [hfeature]
    rfl
  have helement : (h.set (.object o) "pos" x).elementText = h.elementText := by
    funext y
    rw [Heap.elementText, Heap.elementText, hfeature]
  simp only [described, intField, hpos, helement, hother _ (by decide : "surface_form" ≠ "pos"),
    hother _ (by decide : "reading" ≠ "pos"), hother _ (by decide : "base_form" ≠ "pos"),
    hother _ (by decide : "pronunciation" ≠ "pos"), hother _ (by decide : "word_type" ≠ "pos"),
    hother _ (by decide : "word_id" ≠ "pos"), hother _ (by decide : "word_position" ≠ "pos")]

/-- Joined features are the text of the array exactly if none of them is missing. -/
theorem features_eq_text_iff (h : Heap) (cells : List Value) :
    ",".intercalate (cells.map h.featureText) = ",".intercalate (cells.map h.elementText) ↔
      ∀ x ∈ cells, x.isNullish = false := by
  have hless : ∀ x ∈ cells, h.elementText x = h.featureText x ∨
      (h.elementText x).length < (h.featureText x).length := by
    intro x _
    cases hx : x.isNullish with
    | true => exact .inr (h.length_elementText_lt hx)
    | false => exact .inl (Heap.elementText_eq_iff.2 hx)
  rw [eq_comm, intercalate_map_eq_iff "," hless]
  simp only [Heap.elementText_eq_iff]

/-- A list of features and the text that it has as an array give the same token but for the part of
speech. The list is joined with the words for what is `undefined` or `null` in it, its text without
them, so the tokens are the same exactly if there is nothing of the kind among the features. From an
object with another text that has no end neither is read. -/
theorem features_join_like_text_unless_nullish (ho : o < h.objects.size)
    (hcells : h.cells? (.array a) = some cells) (hacyclic : ¬ h.HoldsItself (.array a)) :
    ∃ text : String, (h.set (.object o) "pos" (.array a)).text? (.array a) = some text ∧
      text = ",".intercalate (cells.map h.elementText) ∧
      ((ReadableBesides h (.object o) ∧ ∃ t : Token,
        ofHost? (h.set (.object o) "pos" (.string text)) (.object o) =
          .ok (some { t with pos := text }) ∧
        ofHost? (h.set (.object o) "pos" (.array a)) (.object o) =
          .ok (some { t with pos := ",".intercalate (cells.map h.featureText) }) ∧
        (ofHost? (h.set (.object o) "pos" (.array a)) (.object o) =
            ofHost? (h.set (.object o) "pos" (.string text)) (.object o) ↔
          ∀ x ∈ cells, x.isNullish = false)) ∨
      (¬ ReadableBesides h (.object o) ∧
        ofHost? (h.set (.object o) "pos" (.string text)) (.object o) = .error .stackExhausted ∧
        ofHost? (h.set (.object o) "pos" (.array a)) (.object o) = .error .stackExhausted)) := by
  refine ⟨",".intercalate (cells.map h.elementText), ?_, rfl, ?_⟩
  · rw [Heap.text?_set (by decide) (by decide), Heap.text?_array hcells hacyclic]
  · generalize htext : ",".intercalate (cells.map h.elementText) = text
    have hstring : ¬ h.HoldsItself (.string text) := by
      rw [← Heap.text?_eq_none_iff, Heap.text?_string]
      exact Option.some_ne_none text
    have hreads : ∀ x, ¬ h.HoldsItself x → ReadsIf (ofHost? (h.set (.object o) "pos" x) (.object o))
        (some { described h (.object o) with pos := posText h x }) (ReadableBesides h (.object o)) := by
      intro x hx
      rw [← described_set_pos ho]
      exact (readsIf_ofHost? _ o).of_iff ((readable_set_pos ho x).trans (and_iff_left hx))
    have hlist : posText h (.array a) = ",".intercalate (cells.map h.featureText) := by
      rw [posText, hcells]
    have hword : posText h (.string text) = text := by
      change (h.text? (.string text)).getD "" = text
      rw [Heap.text?_string, Option.getD_some]
    have harray := hreads (.array a) hacyclic
    have hjoined := hreads (.string text) hstring
    rw [hlist] at harray
    rw [hword] at hjoined
    by_cases hbesides : ReadableBesides h (.object o)
    · refine .inl ⟨hbesides, described h (.object o), hjoined.ok hbesides, harray.ok hbesides, ?_⟩
      rw [hjoined.ok hbesides, harray.ok hbesides, ← features_eq_text_iff h, htext, Except.ok.injEq,
        Option.some.injEq, Token.mk.injEq]
      simp only [true_and, and_true]
    · exact .inr ⟨hbesides, hjoined.error hbesides, harray.error hbesides⟩

def featureHeap : Heap :=
  { Heap.empty with
    objects := #[⟨.object, .ofList [("surface_form", .string "猫")]⟩]
    arrays := #[.ofArray #[.string "名詞", .array 1], .ofArray #[.null, .string "一般"],
      .ofArray #[.string "名詞", .null]] }

/-- What a nested list holds does not matter. -/
theorem features_join_like_text_unless_nullish_nested :
    ofHost? (featureHeap.set (.object 0) "pos" (.array 0)) (.object 0) =
      ofHost? (featureHeap.set (.object 0) "pos" (.string "名詞,,一般")) (.object 0) := by
  have hcells : featureHeap.cells? (.array 0) = some [.string "名詞", .array 1] := rfl
  have htext : (featureHeap.set (.object 0) "pos" (.array 0)).text? (.array 0) =
      some "名詞,,一般" := by decide
  have hacyclic : ¬ featureHeap.HoldsItself (.array 0) := by
    rw [← Heap.text?_eq_none_iff]
    decide
  obtain ⟨text, htext', -, hread⟩ :=
    features_join_like_text_unless_nullish (show 0 < featureHeap.objects.size by decide) hcells
      hacyclic
  cases htext.symm.trans htext'
  rcases hread with ⟨-, t, -, -, hiff⟩ | ⟨-, herror, -⟩
  · exact hiff.2 (by decide)
  · exact absurd herror (by decide)

/-- A feature that is `null` is joined as a word, which the text of the list does not have. -/
theorem null_feature_is_joined : ¬ featureHeap.HoldsItself (.array 2) ∧
    (featureHeap.set (.object 0) "pos" (.array 2)).text? (.array 2) = some "名詞," ∧
    (ofHost? (featureHeap.set (.object 0) "pos" (.array 2)) (.object 0)).map (·.map (·.pos)) =
      .ok (some "名詞,null") ∧
    ofHost? (featureHeap.set (.object 0) "pos" (.array 2)) (.object 0) ≠
      ofHost? (featureHeap.set (.object 0) "pos" (.string "名詞,")) (.object 0) := by
  refine ⟨?_, by decide, by decide, by decide⟩
  rw [← Heap.text?_eq_none_iff]
  decide

end Token

end TokenizerHost
