import Mathlib.Data.List.TakeWhile
import TokenizerHost.Toml.Reader

set_option autoImplicit false

namespace TokenizerHost.Toml

variable {cs rest : List Char}

theorem length_dropWhile_lt {p : Char → Bool} (h : cs.takeWhile p ≠ []) :
    (cs.dropWhile p).length < cs.length := by
  have hlength := congrArg List.length (List.takeWhile_append_dropWhile (p := p) (l := cs))
  rw [List.length_append] at hlength
  have := List.length_pos_iff.2 h
  omega

/-! ## Blanks, comments and ends of lines -/

@[grind! .] theorem length_skipBlanks_le (cs : List Char) : (skipBlanks cs).length ≤ cs.length :=
  List.length_dropWhile_le _ cs

@[grind! .] theorem length_skipFiller_le (inComment : Bool) (cs : List Char) :
    (skipFiller inComment cs).length ≤ cs.length := by
  fun_induction skipFiller inComment cs with grind

@[grind →] theorem length_of_lineBreak? (h : lineBreak? cs = some rest) : rest.length < cs.length := by
  unfold lineBreak? at h
  split at h <;> cases h <;> grind

@[grind →] theorem length_of_lineEnd? (h : lineEnd? cs = some rest) : rest.length ≤ cs.length := by
  unfold lineEnd? at h
  grind [List.length_dropWhile_le]

theorem length_of_lineEnd?_cons {c : Char} (h : lineEnd? (c :: cs) = some rest) :
    rest.length ≤ cs.length := by
  unfold lineEnd? at h
  grind [List.length_dropWhile_le]

/-! ## Moments -/

@[grind →] theorem length_of_fixedDigits? {n : Nat} {ds : List Char}
    (h : fixedDigits? n cs = some (ds, rest)) :
    rest.length + n = cs.length := by
  fun_induction fixedDigits? n cs generalizing ds with
  | case1 cs => cases h; rfl
  | case2 n c cs hc ih =>
    obtain ⟨⟨ds, after⟩, hds, heq⟩ := Option.map_eq_some_iff.1 h
    cases heq
    rw [List.length_cons, ← ih hds, Nat.add_assoc]
  | case3 | case4 => cases h

@[grind →] theorem length_of_twoDigits? {low high n : Nat}
    (h : twoDigits? low high cs = some (n, rest)) :
    rest.length + 2 = cs.length := by
  obtain ⟨⟨ds, after⟩, hds, h⟩ := Option.bind_eq_some_iff.1 h
  dsimp only at h
  split at h <;> cases h
  exact length_of_fixedDigits? hds

@[grind →] theorem length_of_expect {c : Char} (h : expect c cs = some rest) :
    rest.length + 1 = cs.length := by
  unfold expect at h
  grind

@[grind →] theorem length_of_readDate {date : String} (h : readDate cs = some (date, rest)) :
    rest.length + 10 = cs.length := by
  simp only [readDate, Option.bind_eq_bind, Option.bind_eq_some_iff] at h
  grind

@[grind →] theorem length_of_readTime {lastHour : Nat} {time : String}
    (h : readTime lastHour cs = some (time, rest)) :
    rest.length + 8 ≤ cs.length := by
  simp only [readTime, Option.bind_eq_bind, Option.bind_eq_some_iff] at h
  grind [List.length_dropWhile_le]

@[grind →] theorem length_of_readOffset {lastHour lastMinute : Nat} {offset : String}
    (h : readOffset lastHour lastMinute cs = some (offset, rest)) : rest.length ≤ cs.length := by
  unfold readOffset at h
  split at h <;> grind [Option.bind_eq_bind, Option.bind_eq_some_iff]

@[grind →] theorem length_of_readDateTime {text : String} (h : readDateTime cs = some (text, rest)) :
    rest.length < cs.length := by
  simp only [readDateTime, Option.bind_eq_bind, Option.bind_eq_some_iff] at h
  obtain ⟨⟨date, after⟩, hdate, h⟩ := h
  dsimp only at h
  split at h
  · split at h
    · simp only [Option.bind_eq_some_iff] at h
      grind
    · grind
  · grind

/-! ## Numbers -/

@[grind →] theorem length_of_readDigits {isDigit : Char → Bool} {ds : List Char}
    (h : readDigits isDigit cs = some (ds, rest)) : rest.length < cs.length := by
  dsimp only [readDigits] at h
  split at h
  case isTrue hbetween =>
    cases h
    refine length_dropWhile_lt fun hnone => ?_
    rw [hnone] at hbetween
    cases hbetween
  case isFalse => cases h

@[grind →] theorem length_of_readWholeDigits {ds : List Char} (h : readWholeDigits cs = some (ds, rest)) :
    rest.length < cs.length := by
  unfold readWholeDigits at h
  grind

@[grind →] theorem length_of_readInBase {base : Nat} {n : Toml} (h : readInBase base cs = some (n, rest)) :
    rest.length < cs.length := by
  simp only [readInBase, Option.bind_eq_bind, Option.bind_eq_some_iff] at h
  grind

@[grind! .] theorem length_readSign_le (cs : List Char) : (readSign cs).2.length ≤ cs.length := by
  unfold readSign
  grind

@[grind →] theorem length_of_readExponent {e : Option Int} (h : readExponent cs = some (e, rest)) :
    rest.length ≤ cs.length := by
  unfold readExponent at h
  split at h
  · split at h
    · simp only [Option.bind_eq_bind, Option.bind_eq_some_iff] at h
      grind
    · grind
  · grind

@[grind →] theorem length_of_readFraction {places : Option (List Char)}
    (h : readFraction cs = some (places, rest)) : rest.length ≤ cs.length := by
  unfold readFraction at h
  split at h
  · simp only [Option.map_eq_some_iff] at h
    grind
  · grind

@[grind →] theorem length_of_readDecimal {negative : Bool} {n : Toml}
    (h : readDecimal negative cs = some (n, rest)) : rest.length < cs.length := by
  simp only [readDecimal, Option.bind_eq_bind, Option.bind_eq_some_iff] at h
  obtain ⟨⟨whole, rest₁⟩, hwhole, ⟨fraction, rest₂⟩, hfraction, ⟨exponent, rest₃⟩, hexponent, h⟩ := h
  have hleft : rest = rest₃ := by
    dsimp only at h
    split at h
    · obtain ⟨_, _, h⟩ := Option.bind_eq_some_iff.1 h
      cases h
      rfl
    · split at h <;> cases h
      rfl
  grind

@[grind →] theorem length_of_readNumber {n : Toml} (h : readNumber cs = some (n, rest)) :
    rest.length < cs.length := by
  unfold readNumber at h
  grind

/-! ## Texts and keys -/

@[grind →] theorem length_of_readQuoted {read s : List Char} (h : readQuoted read cs = some (s, rest)) :
    rest.length < cs.length := by
  fun_induction readQuoted read cs with grind

@[grind →] theorem length_of_readLiteral {read s : List Char} (h : readLiteral read cs = some (s, rest)) :
    rest.length < cs.length := by
  fun_induction readLiteral read cs with grind

@[grind! .] theorem length_closeLong_le (mark : Char) (read cs : List Char) :
    (closeLong mark read cs).2.length ≤ cs.length := by
  unfold closeLong
  grind

@[grind →] theorem length_of_readLongQuoted {joining : Bool} {read s : List Char}
    (h : readLongQuoted joining read cs = some (s, rest)) : rest.length < cs.length := by
  fun_induction readLongQuoted joining read cs with grind

@[grind →] theorem length_of_readLongLiteral {read s : List Char}
    (h : readLongLiteral read cs = some (s, rest)) : rest.length < cs.length := by
  fun_induction readLongLiteral read cs with grind

@[grind! .] theorem length_dropLineBreak_le (cs : List Char) : (dropLineBreak cs).length ≤ cs.length := by
  unfold dropLineBreak
  cases h : lineBreak? cs with grind

@[grind →] theorem length_of_readText {s : String} (h : readText cs = some (s, rest)) :
    rest.length < cs.length := by
  unfold readText at h
  split at h <;> simp only [readText.text, Option.map_eq_some_iff, reduceCtorEq] at h <;> grind

@[grind →] theorem length_of_readKeyPart {part : String} (h : readKeyPart cs = some (part, rest)) :
    rest.length < cs.length := by
  unfold readKeyPart at h
  split at h
  · simp only [Option.map_eq_some_iff] at h
    grind
  · simp only [Option.map_eq_some_iff] at h
    grind
  · split at h
    · cases h
    next hname =>
      cases h
      exact length_dropWhile_lt hname

@[grind →] theorem length_of_readKeyParts {n : Nat} {parts : List String}
    (h : readKeyParts n cs = some (parts, rest)) : rest.length < cs.length := by
  induction n generalizing cs parts with
  | zero => cases h
  | succ n ih =>
    simp only [readKeyParts, Option.bind_eq_bind, Option.bind_eq_some_iff] at h
    obtain ⟨⟨part, after⟩, hpart, h⟩ := h
    dsimp only at h
    split at h
    · simp only [Option.bind_eq_some_iff] at h
      grind
    · grind

@[grind →] theorem length_of_readKey {parts : List String} (h : readKey cs = some (parts, rest)) :
    rest.length < cs.length := length_of_readKeyParts h

end TokenizerHost.Toml
