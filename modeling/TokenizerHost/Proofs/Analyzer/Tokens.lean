import TokenizerHost.Proofs.Heap.Arrays
import TokenizerHost.Proofs.Heap.Circles
import TokenizerHost.Token

set_option autoImplicit false

namespace TokenizerHost

namespace Heap

variable {h : Heap} {v : Value} {a : Nat} {cells : List Value}

/-- The text of a value as a feature of a list; empty if it has none. -/
def featureText (h : Heap) (x : Value) : String := (h.text? x).getD ""

def elementText (h : Heap) (x : Value) : String := if x.isNullish then "" else h.featureText x

theorem text?_of_acyclic (hv : ¬ h.HoldsItself v) : h.text? v = some (h.featureText v) := by
  rw [← text?_eq_none_iff] at hv
  obtain ⟨text, htext⟩ := Option.ne_none_iff_exists'.1 hv
  rw [featureText, htext, Option.getD_some]

theorem holdsItself_array_iff (hcells : h.cells? (.array a) = some cells) :
    h.HoldsItself (.array a) ↔ ∃ x ∈ cells, h.HoldsItself x := by
  obtain ⟨e, he, rfl⟩ := cells?_eq_some_iff.1 hcells
  have helements : h.elements? (.array a) = some e := he
  rw [holdsItself_iff]
  constructor
  · rintro ⟨x, hx, hitself⟩
    rw [Holds, parts, helements] at hx
    exact ⟨x, (List.mem_filter.1 hx).1, hitself⟩
  · rintro ⟨x, hx, hitself⟩
    refine ⟨x, ?_, hitself⟩
    have hnot : x.isNullish = false :=
      Bool.eq_false_iff.2 fun hnull => not_holdsItself_of_isNullish hnull hitself
    rw [Holds, parts, helements]
    exact List.mem_filter.2 ⟨hx, by rw [hnot]; rfl⟩

end Heap

/-- A value is read where a condition holds, and the search for it has no end where it does not. -/
def ReadsIf {α : Type} (r : Except Fault α) (a : α) (P : Prop) : Prop :=
  (P ∧ r = .ok a) ∨ (¬ P ∧ r = .error .stackExhausted)

namespace ReadsIf

variable {α β : Type} {r : Except Fault α} {f : α → Except Fault β} {a : α} {b : β} {P Q : Prop}

theorem pure (a : α) : ReadsIf (.ok a) a True := .inl ⟨trivial, rfl⟩

theorem bind (hr : ReadsIf r a P) (hf : ReadsIf (f a) b Q) : ReadsIf (r >>= f) b (P ∧ Q) := by
  rcases hr with ⟨hP, rfl⟩ | ⟨hP, rfl⟩
  · exact hf.imp (fun hQ => ⟨⟨hP, hQ.1⟩, hQ.2⟩) fun hQ => ⟨fun hboth => hQ.1 hboth.2, hQ.2⟩
  · exact .inr ⟨fun hboth => hP hboth.1, rfl⟩

theorem map (hr : ReadsIf r a P) (g : α → β) : ReadsIf (r.map g) (g a) P := by
  rcases hr with ⟨hP, rfl⟩ | ⟨hP, rfl⟩
  · exact .inl ⟨hP, rfl⟩
  · exact .inr ⟨hP, rfl⟩

theorem of_iff (hr : ReadsIf r a P) (hPQ : P ↔ Q) : ReadsIf r a Q := propext hPQ ▸ hr

theorem mapM {g : α → β} {P : α → Prop} (hf : ∀ x, ReadsIf (f x) (g x) (P x)) (xs : List α) :
    ReadsIf (xs.mapM f) (xs.map g) (∀ x ∈ xs, P x) := by
  induction xs with
  | nil => exact (ReadsIf.pure []).of_iff ⟨fun _ => nofun, fun _ => trivial⟩
  | cons x xs ih =>
    rw [List.mapM_cons]
    refine ((hf x).bind (ih.bind (.pure (_ :: _)))).of_iff ?_
    rw [and_true, List.forall_mem_cons]

theorem ok (hr : ReadsIf r a P) (hP : P) : r = .ok a :=
  hr.elim (·.2) fun hnot => absurd hP hnot.1

theorem error (hr : ReadsIf r a P) (hP : ¬ P) : r = .error .stackExhausted :=
  hr.elim (fun hread => absurd hread.1 hP) (·.2)

end ReadsIf

namespace Token

variable {h : Heap} {v : Value}

theorem readsIf_textOf (h : Heap) (v : Value) :
    ReadsIf (textOf h v) (h.featureText v) (¬ h.HoldsItself v) := by
  by_cases hv : h.HoldsItself v
  · exact .inr ⟨not_not.2 hv, by rw [textOf, Heap.text?_eq_none_iff.2 hv]⟩
  · exact .inl ⟨hv, by rw [textOf, Heap.text?_of_acyclic hv]⟩

theorem readsIf_textField (h : Heap) (v : Value) (key : String) :
    ReadsIf (textField h v key) (h.elementText (h.get v key)) (¬ h.HoldsItself (h.get v key)) := by
  simp only [textField, Heap.elementText]
  split
  next hnull => exact .inl ⟨Heap.not_holdsItself_of_isNullish hnull, rfl⟩
  next => exact readsIf_textOf h _

def posText (h : Heap) (x : Value) : String :=
  match h.cells? x with
  | some cells => ",".intercalate (cells.map h.featureText)
  | none => h.elementText x

theorem readsIf_posField (h : Heap) (v : Value) :
    ReadsIf (posField h v) (posText h (h.get v "pos")) (¬ h.HoldsItself (h.get v "pos")) := by
  unfold posField posText
  cases he : h.elements? (h.get v "pos") with
  | none =>
    rw [Heap.cells?, he]
    exact readsIf_textField h v "pos"
  | some e =>
    have hcells : h.cells? (h.get v "pos") = some e.toList := by
      rw [Heap.cells?, he]
      rfl
    rw [hcells]
    refine ((ReadsIf.mapM (readsIf_textOf h) e.toList).map _).of_iff ?_
    cases hpos : h.get v "pos" with
    | array a => simp [Heap.holdsItself_array_iff (hpos ▸ hcells)]
    | _ => simp [hpos, Heap.elements?] at he

def textKeys : List String :=
  ["surface_form", "reading", "base_form", "pos", "pronunciation", "word_type"]

def Readable (h : Heap) (v : Value) : Prop := ∀ key ∈ textKeys, ¬ h.HoldsItself (h.get v key)

def described (h : Heap) (v : Value) : Token :=
  let wordType := h.elementText (h.get v "word_type")
  { surfaceForm := h.elementText (h.get v "surface_form")
    reading := h.elementText (h.get v "reading")
    baseForm := h.elementText (h.get v "base_form")
    pos := posText h (h.get v "pos")
    pronunciation := h.elementText (h.get v "pronunciation")
    wordId := intField h v "word_id"
    wordType := if wordType.isEmpty then none else some wordType
    wordPosition := intField h v "word_position" }

/-- An object describes a token if its texts all have an end; otherwise reading it faults. -/
theorem readsIf_ofHost? (h : Heap) (o : Nat) :
    ReadsIf (ofHost? h (.object o)) (some (described h (.object o))) (Readable h (.object o)) := by
  have htext := readsIf_textField h (.object o)
  refine ReadsIf.of_iff ((htext "surface_form").bind ((htext "reading").bind
    ((htext "base_form").bind ((readsIf_posField h (.object o)).bind
      ((htext "pronunciation").bind ((htext "word_type").bind (ReadsIf.pure _))))))) ?_
  simp only [Readable, textKeys, List.forall_mem_cons, List.not_mem_nil, false_imp_iff,
    implies_true]

end Token

end TokenizerHost
