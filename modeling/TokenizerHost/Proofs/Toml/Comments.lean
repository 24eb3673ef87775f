import TokenizerHost.Proofs.Text.Lines
import TokenizerHost.Proofs.Toml.Fuel

set_option autoImplicit false

namespace TokenizerHost.Toml

variable {lines : List (List Char)} {line rest : List Char}

def IsCommentLine (line : List Char) : Prop := line = [] ∨ line.head? = some '#'

instance : DecidablePred IsCommentLine := fun line =>
  inferInstanceAs (Decidable (line = [] ∨ line.head? = some '#'))

/-- No control character but tabs, and perhaps the first half of a line break at the end. -/
def IsCommentText (line : List Char) : Prop := line.dropWhile isTextChar ∈ [[], ['\r']]

instance : DecidablePred IsCommentText := fun line =>
  inferInstanceAs (Decidable (line.dropWhile isTextChar ∈ [[], ['\r']]))

def withoutComments (cs : List Char) : List Char :=
  ['\n'].intercalate ((cs.splitOn '\n').dropWhile (IsCommentLine ·))

theorem not_mem_of_isTextChar {lead : List Char} (h : lead.all isTextChar) : '\n' ∉ lead := fun hmem =>
  absurd (List.all_eq_true.1 h '\n' hmem) (by decide)

theorem isCommentText_append {lead : List Char} (h : lead.all isTextChar) (text : List Char) :
    IsCommentText (lead ++ text) ↔ IsCommentText text := by
  rw [IsCommentText, IsCommentText, List.dropWhile_append,
    List.dropWhile_eq_nil_iff.2 (List.all_eq_true.1 h)]
  rfl

theorem lineBreak?_append {left : List Char} (hne : left ≠ []) (hline : '\n' ∉ left) (rest : List Char) :
    lineBreak? (left ++ '\n' :: rest) = if left = ['\r'] then some rest else none := by
  rcases left with _ | ⟨c, _ | ⟨d, left⟩⟩
  · contradiction
  · have hc : c ≠ '\n' := by grind
    by_cases hr : c = '\r'
    · simp [hr, lineBreak?]
    · simp [lineBreak?, hc, hr]
  · have hc : c ≠ '\n' := by grind
    have hd : d ≠ '\n' := by grind
    simp [lineBreak?, hc, hd]

/-- A comment ends with its line if it is one. -/
theorem lineEnd?_comment {comment : List Char} (hline : '\n' ∉ comment) (rest : List Char) :
    lineEnd? ('#' :: (comment ++ '\n' :: rest)) = if IsCommentText comment then some rest else none := by
  have hleft : '\n' ∉ comment.dropWhile isTextChar := fun h => hline ((List.dropWhile_sublist _).subset h)
  have hskip (cs : List Char) : skipBlanks ('#' :: cs) = '#' :: cs := rfl
  have happend : (comment ++ '\n' :: rest).dropWhile isTextChar =
      if (comment.dropWhile isTextChar).isEmpty then ('\n' :: rest).dropWhile isTextChar
      else comment.dropWhile isTextChar ++ '\n' :: rest := List.dropWhile_append
  cases hdrop : comment.dropWhile isTextChar with
  | nil =>
    rw [hdrop] at happend
    have hend : List.dropWhile isTextChar ('\n' :: rest) = '\n' :: rest := rfl
    have htext : IsCommentText comment := by simp [IsCommentText, hdrop]
    simp only [lineEnd?, hskip, happend, hend, htext, List.isEmpty_nil, if_true]
    rfl
  | cons c left =>
    rw [hdrop] at hleft happend
    have htext : IsCommentText comment ↔ c :: left = ['\r'] := by simp [IsCommentText, hdrop]
    simp only [htext, ← lineBreak?_append (List.cons_ne_nil c left) hleft rest, lineEnd?, hskip, happend,
      List.isEmpty_cons, Bool.false_eq_true, if_false]
    rfl

theorem readLines_comment (fuel : Nat) (d : Draft) {comment : List Char} (hline : '\n' ∉ comment)
    (rest : List Char) : readLines (fuel + 1) d ('#' :: (comment ++ '\n' :: rest)) =
      if IsCommentText comment then readLines fuel d rest else none := by
  change (lineEnd? ('#' :: (comment ++ '\n' :: rest))).bind (readLines fuel d) = _
  rw [lineEnd?_comment hline]
  split <;> rfl

theorem readLines_empty_line (fuel : Nat) (d : Draft) (rest : List Char) :
    readLines (fuel + 1) d ('\n' :: rest) = readLines fuel d rest := by
  rw [readLines]
  rfl

theorem readLines_comment_line {line : List Char} (hcomment : IsCommentLine line) (hline : '\n' ∉ line)
    (fuel : Nat) (d : Draft) (rest : List Char) : readLines (fuel + 1) d (line ++ '\n' :: rest) =
      if IsCommentText line then readLines fuel d rest else none := by
  cases line with
  | nil => exact readLines_empty_line fuel d rest
  | cons c comment =>
    obtain rfl : c = '#' := by simpa [IsCommentLine] using hcomment
    have htext : IsCommentText ('#' :: comment) ↔ IsCommentText comment :=
      isCommentText_append (show ['#'].all isTextChar from rfl) comment
    rw [List.cons_append, readLines_comment fuel d (List.not_mem_of_not_mem_cons hline)]
    simp only [htext]

theorem readLines_comments (hcomments : ∀ line ∈ lines, IsCommentLine line)
    (hlines : ∀ line ∈ lines, '\n' ∉ line) (fuel : Nat) (d : Draft) (rest : List Char) :
    readLines (fuel + lines.length) d (Text.unlines lines ++ rest) =
      if ∀ line ∈ lines, IsCommentText line then readLines fuel d rest else none := by
  induction lines with
  | nil => simp
  | cons line lines ih =>
    rw [List.forall_mem_cons] at hcomments hlines
    rw [List.length_cons, ← Nat.add_assoc, Text.unlines_cons, List.append_assoc, List.cons_append,
      readLines_comment_line hcomments.1 hlines.1, ih hcomments.2 hlines.2]
    by_cases htext : IsCommentText line
    · simp only [List.forall_mem_cons, htext, if_true, true_and]
    · simp only [List.forall_mem_cons, htext, if_false, false_and]

/-- A text that does not begin with a mark is read on any fuel that is more than its length. -/
theorem parse?_eq_readLines {text : String} (hmark : text.toList.head? ≠ some '\ufeff') (fuel : Nat)
    (hfuel : text.toList.length < fuel) :
    parse? text =
      (readLines fuel .empty text.toList).bind fun d => settle? (.table (entriesToToml d.root)) := by
  rw [parse?]
  split
  next hmarked => simp [hmarked] at hmark
  next => rw [readLines_congr .empty (by omega) hfuel]

theorem parse?_of_comments {text body : String} (htext : text.toList = Text.unlines lines ++ body.toList)
    (hcomments : ∀ line ∈ lines, IsCommentLine line) (hlines : ∀ line ∈ lines, '\n' ∉ line)
    (hmark : body.toList.head? ≠ some '\ufeff') :
    parse? text = if ∀ line ∈ lines, IsCommentText line then parse? body else none := by
  have hmark' : text.toList.head? ≠ some '\ufeff' := by
    rw [htext]
    rcases lines with _ | ⟨_ | ⟨c, line⟩, lines⟩
    · exact hmark
    · simp [Text.unlines]
    · have hc : c = '#' := by simpa [IsCommentLine] using hcomments (c :: line) List.mem_cons_self
      simp [Text.unlines, hc]
  rw [parse?_eq_readLines hmark' (text.toList.length + 1 + lines.length) (by omega), htext,
    readLines_comments hcomments hlines]
  split
  · exact (parse?_eq_readLines hmark _ (by rw [List.length_append]; omega)).symm
  · rfl

/-- Without the comments at its beginning the text is what follows them, exactly if they are comments. -/
theorem withoutComments_eq_iff {body : List Char} (hlines : ∀ line ∈ lines, '\n' ∉ line)
    (hbody : ∀ line ∈ (body.splitOn '\n').head?, ¬ IsCommentLine line) :
    withoutComments (Text.unlines lines ++ body) = body ↔ ∀ line ∈ lines, IsCommentLine line := by
  have hsplit : (Text.unlines lines ++ body).splitOn '\n' = lines ++ body.splitOn '\n' := by
    rw [Text.splitOn_unlines_append, Text.flatMap_splitOn_of_unbroken hlines]
  have hkept : (body.splitOn '\n').dropWhile (IsCommentLine ·) = body.splitOn '\n' := by
    obtain ⟨line, more, hmore⟩ := List.exists_cons_of_ne_nil (List.splitOn_ne_nil '\n' body)
    rw [hmore] at hbody ⊢
    exact List.dropWhile_cons_of_neg (by simpa using hbody)
  rw [withoutComments, hsplit, List.dropWhile_append, hkept]
  by_cases hall : ∀ line ∈ lines, IsCommentLine line
  · rw [if_pos (by simpa [List.dropWhile_eq_nil_iff] using hall), List.intercalate_splitOn]
    exact iff_of_true rfl hall
  · have hsome : lines.dropWhile (IsCommentLine ·) ≠ [] := by simpa [List.dropWhile_eq_nil_iff] using hall
    rw [if_neg (by simpa using hsome)]
    refine iff_of_false (fun heq => hsome ?_) hall
    have hkeptLines : ∀ line ∈ lines.dropWhile (IsCommentLine ·) ++ body.splitOn '\n', '\n' ∉ line := by
      intro line hline
      rcases List.mem_append.1 hline with hline | hline
      · exact hlines line ((List.dropWhile_sublist _).subset hline)
      · exact Text.not_mem_of_mem_splitOn hline
    have hsame := List.splitOn_intercalate '\n' hkeptLines (by simp [hsome])
    rw [heq] at hsame
    exact List.append_left_eq_self.1 hsame.symm

end TokenizerHost.Toml
