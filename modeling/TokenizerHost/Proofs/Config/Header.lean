import TokenizerHost.Config.Printer
import TokenizerHost.Proofs.Config.Precedence
import TokenizerHost.Proofs.Heap.Indices
import TokenizerHost.Proofs.Toml.Comments

set_option autoImplicit false

namespace TokenizerHost.ResolvedConfig

open Toml (IsCommentLine IsCommentText withoutComments)

variable {r : ResolvedConfig} {notice : String × String}

/-! ## Comments -/

def fileNotices : Nat → List String → List (String × String)
  | _, [] => []
  | n, path :: rest => ("#   " ++ Text.decimal n ++ ". ", path) :: fileNotices (n + 1) rest

def documentNotices : List String → List (String × String)
  | [] => [("# No config files loaded; built-in defaults", "")]
  | files => ("#", "") :: ("# Loaded files (in precedence order):", "") :: fileNotices 1 files

def overrideNotices (n : Nat) : List (String × String) :=
  if n = 0 then [] else [("# Environment overrides applied: " ++ Text.decimal n, "")]

/-- The comments of the header; those that name no document have no path. -/
def notices (r : ResolvedConfig) : List (String × String) :=
  ("# Resolved kotoba configuration", "") :: (documentNotices r.files ++ overrideNotices r.overrideCount)

def noticeText (notice : String × String) : String := notice.1 ++ notice.2

theorem noticeText_alone (lead : String) : noticeText (lead, "") = lead := String.append_empty

def noticeLines (ns : List (String × String)) : String := String.join (ns.map (noticeText · ++ "\n"))

theorem noticeLines_nil : noticeLines [] = "" := rfl

theorem noticeLines_cons (notice : String × String) (ns : List (String × String)) :
    noticeLines (notice :: ns) = noticeText notice ++ "\n" ++ noticeLines ns := String.join_cons

theorem noticeLines_append (ns more : List (String × String)) :
    noticeLines (ns ++ more) = noticeLines ns ++ noticeLines more := by
  rw [noticeLines, List.map_append, String.join_append]
  rfl

theorem fileLines_eq (n : Nat) (paths : List String) :
    fileLines n paths = noticeLines (fileNotices n paths) := by
  induction paths generalizing n with
  | nil => rfl
  | cons path paths ih => rw [fileLines, fileNotices, noticeLines_cons, ih, noticeText]

theorem overrideLine_eq (n : Nat) :
    (if n = 0 then "" else "# Environment overrides applied: " ++ Text.decimal n ++ "\n") =
      noticeLines (overrideNotices n) := by
  rw [overrideNotices]
  split
  · rfl
  · rw [noticeLines_cons, noticeText_alone, noticeLines_nil, String.append_empty]

theorem header_eq (r : ResolvedConfig) : r.header = noticeLines r.notices ++ "\n" := by
  have htitle : "# Resolved kotoba configuration\n" = "# Resolved kotoba configuration" ++ "\n" := rfl
  have hnone : "# No config files loaded; built-in defaults\n" =
      "# No config files loaded; built-in defaults" ++ "\n" := rfl
  have hsome : "#\n# Loaded files (in precedence order):\n" =
      "#" ++ "\n" ++ ("# Loaded files (in precedence order):" ++ "\n") := rfl
  unfold header notices
  rw [noticeLines_cons, noticeLines_append, ← overrideLine_eq, noticeText_alone, htitle, hnone, hsome]
  cases r.files with
  | nil =>
    simp only [documentNotices, noticeLines_cons, noticeLines_nil, noticeText_alone, String.append_empty,
      String.append_assoc]
  | cons path paths =>
    simp only [documentNotices, noticeLines_cons, noticeText_alone, fileLines_eq, String.append_assoc]

/-- How a comment begins: a number sign, and nothing that a comment may not hold. -/
def IsLead (lead : String) : Prop := lead.toList.head? = some '#' ∧ lead.toList.all Toml.isTextChar

instance : DecidablePred IsLead := fun lead =>
  inferInstanceAs (Decidable (lead.toList.head? = some '#' ∧ lead.toList.all Toml.isTextChar))

theorem IsLead.append {lead more : String} (h : IsLead lead) (hmore : more.toList.all Toml.isTextChar) :
    IsLead (lead ++ more) := by
  rw [IsLead, String.toList_append, List.head?_append, h.1, List.all_append, h.2]
  exact ⟨rfl, hmore⟩

theorem isTextChar_of_isDigit {c : Char} (h : c.isDigit = true) : Toml.isTextChar c = true := by
  rw [Char.isDigit_iff_toNat] at h
  have hdelete : c ≠ '\x7f' := by
    rintro rfl
    exact absurd h (by decide)
  have hvisible : 0x20 ≤ c.toNat := by
    have := h.1
    change 48 ≤ c.toNat at this
    omega
  simp [Toml.isTextChar, hdelete, hvisible]

theorem all_isTextChar_decimal (n : Nat) : (Text.decimal n).toList.all Toml.isTextChar := by
  rw [Text.toList_decimal, if_neg (by omega), List.all_eq_true]
  exact fun c hc => isTextChar_of_isDigit (Text.isDigit_of_mem_decimalChars hc)

theorem isLead_fileNotices (n : Nat) (paths : List String) :
    ∀ notice ∈ fileNotices n paths, IsLead notice.1 := by
  induction paths generalizing n with
  | nil => simp [fileNotices]
  | cons path paths ih =>
    have hlead : IsLead ("#   " ++ Text.decimal n ++ ". ") :=
      (IsLead.append (by decide) (all_isTextChar_decimal n)).append (by decide)
    exact List.forall_mem_cons.2 ⟨hlead, ih (n + 1)⟩

theorem isLead_notices (r : ResolvedConfig) : ∀ notice ∈ r.notices, IsLead notice.1 := by
  have hdocuments : ∀ notice ∈ documentNotices r.files, IsLead notice.1 := by
    cases r.files with
    | nil => simp only [documentNotices, List.forall_mem_singleton]; decide
    | cons path paths =>
      exact List.forall_mem_cons.2 ⟨by decide, List.forall_mem_cons.2 ⟨by decide, isLead_fileNotices 1 _⟩⟩
  have hoverrides : ∀ notice ∈ overrideNotices r.overrideCount, IsLead notice.1 := by
    rw [overrideNotices]
    split
    · simp
    · exact List.forall_mem_singleton.2 (IsLead.append (by decide) (all_isTextChar_decimal _))
  exact List.forall_mem_cons.2 ⟨by decide, List.forall_mem_append.2 ⟨hdocuments, hoverrides⟩⟩

theorem forall_mem_fileNotices {P : String → Prop} (n : Nat) (paths : List String) :
    (∀ notice ∈ fileNotices n paths, P notice.2) ↔ ∀ path ∈ paths, P path := by
  induction paths generalizing n with
  | nil => simp [fileNotices]
  | cons path paths ih => rw [fileNotices, List.forall_mem_cons, List.forall_mem_cons, ih]

theorem forall_mem_notices {P : String → Prop} (h : P "") (r : ResolvedConfig) :
    (∀ notice ∈ r.notices, P notice.2) ↔ ∀ path ∈ r.files, P path := by
  have hdocuments : (∀ notice ∈ documentNotices r.files, P notice.2) ↔ ∀ path ∈ r.files, P path := by
    cases r.files with
    | nil => simp [documentNotices, h]
    | cons path paths =>
      rw [documentNotices, List.forall_mem_cons, List.forall_mem_cons, forall_mem_fileNotices]
      · exact (and_iff_right h).trans (and_iff_right h)
      · exact List.cons_ne_nil path paths
  have hoverrides : ∀ notice ∈ overrideNotices r.overrideCount, P notice.2 := by
    rw [overrideNotices]
    split <;> simp [h]
  rw [notices, List.forall_mem_cons, List.forall_mem_append, hdocuments]
  exact (and_iff_right h).trans (and_iff_left hoverrides)

/-! ## Lines -/

/-- The lines that a path begins, if it has line breaks, are comments or empty. -/
def CommentsOnly (path : String) : Prop := ∀ line ∈ (path.toList.splitOn '\n').tail, IsCommentLine line

instance : DecidablePred CommentsOnly := fun path =>
  inferInstanceAs (Decidable (∀ line ∈ (path.toList.splitOn '\n').tail, IsCommentLine line))

def CommentText (path : String) : Prop := ∀ line ∈ path.toList.splitOn '\n', IsCommentText line

instance : DecidablePred CommentText := fun path =>
  inferInstanceAs (Decidable (∀ line ∈ path.toList.splitOn '\n', IsCommentText line))

def linesOf (notice : String × String) : List (List Char) := (noticeText notice).toList.splitOn '\n'

theorem exists_linesOf (h : IsLead notice.1) : ∃ first more, notice.2.toList.splitOn '\n' = first :: more ∧
    linesOf notice = (notice.1.toList ++ first) :: more := by
  obtain ⟨first, more, hlines⟩ := List.exists_cons_of_ne_nil (List.splitOn_ne_nil '\n' notice.2.toList)
  refine ⟨first, more, hlines, ?_⟩
  rw [linesOf, noticeText, String.toList_append,
    Text.splitOn_append_of_not_mem (Toml.not_mem_of_isTextChar h.2), hlines, List.modifyHead_cons]

theorem isCommentLine_linesOf_iff (h : IsLead notice.1) :
    (∀ line ∈ linesOf notice, IsCommentLine line) ↔ CommentsOnly notice.2 := by
  obtain ⟨first, more, hpath, hlines⟩ := exists_linesOf h
  have hfirst : IsCommentLine (notice.1.toList ++ first) :=
    .inr (by rw [List.head?_append, h.1, Option.some_or])
  rw [CommentsOnly, hpath, hlines, List.forall_mem_cons, List.tail_cons]
  exact and_iff_right hfirst

theorem isCommentText_linesOf_iff (h : IsLead notice.1) :
    (∀ line ∈ linesOf notice, IsCommentText line) ↔ CommentText notice.2 := by
  obtain ⟨first, more, hpath, hlines⟩ := exists_linesOf h
  rw [CommentText, hpath, hlines, List.forall_mem_cons, List.forall_mem_cons,
    Toml.isCommentText_append h.2]

def headerLines (r : ResolvedConfig) : List (List Char) := r.notices.flatMap linesOf ++ [[]]

theorem headerLines_unbroken (r : ResolvedConfig) : ∀ line ∈ r.headerLines, '\n' ∉ line := by
  refine List.forall_mem_append.2 ⟨fun line hline => ?_, by simp⟩
  obtain ⟨notice, -, hline⟩ := List.mem_flatMap.1 hline
  exact Text.not_mem_of_mem_splitOn hline

theorem unlines_linesOf (ns : List (String × String)) :
    Text.unlines (ns.flatMap linesOf) = (noticeLines ns).toList := by
  induction ns with
  | nil => rfl
  | cons notice ns ih =>
    rw [List.flatMap_cons, Text.unlines_append, ih, linesOf, Text.unlines_splitOn, noticeLines_cons,
      String.toList_append, String.toList_append]
    rfl

theorem unlines_headerLines (r : ResolvedConfig) : Text.unlines r.headerLines = r.header.toList := by
  rw [headerLines, Text.unlines_append, unlines_linesOf, header_eq, String.toList_append]
  rfl

theorem forall_mem_headerLines {P : List Char → Prop} {Q : String → Prop} (hempty : P []) (hQ : Q "")
    (hlines : ∀ notice : String × String, IsLead notice.1 → ((∀ line ∈ linesOf notice, P line) ↔ Q notice.2))
    (r : ResolvedConfig) : (∀ line ∈ r.headerLines, P line) ↔ ∀ path ∈ r.files, Q path := by
  rw [headerLines, List.forall_mem_append, List.forall_mem_singleton, and_iff_left hempty,
    List.forall_mem_flatMap, ← forall_mem_notices hQ]
  exact forall₂_congr fun notice hnotice => hlines notice (isLead_notices r notice hnotice)

theorem isCommentLine_headerLines_iff (r : ResolvedConfig) :
    (∀ line ∈ r.headerLines, IsCommentLine line) ↔ ∀ path ∈ r.files, CommentsOnly path :=
  forall_mem_headerLines (.inl rfl) (by decide) (fun _ => isCommentLine_linesOf_iff) r

theorem isCommentText_headerLines_iff (r : ResolvedConfig) :
    (∀ line ∈ r.headerLines, IsCommentText line) ↔ ∀ path ∈ r.files, CommentText path :=
  forall_mem_headerLines (by decide) (by decide) (fun _ => isCommentText_linesOf_iff) r

/-! ## The whole document -/

theorem toList_render (r : ResolvedConfig) :
    r.render.toList = Text.unlines r.headerLines ++ r.config.render.toList := by
  rw [render, String.toList_append, unlines_headerLines]

/-- A configuration alone begins with the section of the guest. -/
theorem exists_toList_render (c : Config) :
    ∃ rest, c.render.toList = ['[', 'm', 'o', 'd', 'u', 'l', 'e', ']'] ++ '\n' :: rest := by
  rw [Config.render, ModuleSettings.blocks, String.toList_intercalate]
  simp only [List.cons_append, List.map_cons, List.intercalate_cons_cons, String.toList_append,
    List.append_assoc]
  exact ⟨_, rfl⟩

theorem head?_splitOn_render (c : Config) :
    ∀ line ∈ (c.render.toList.splitOn '\n').head?, ¬ IsCommentLine line := by
  obtain ⟨rest, hrest⟩ := exists_toList_render c
  rw [hrest, List.splitOn_append_cons_self]
  rintro _ ⟨⟩
  decide

/-- The lines of the header are the only ones that can stand before the configuration. -/
theorem exists_comments_iff (r : ResolvedConfig) :
    (∃ lines, (∀ line ∈ lines, '\n' ∉ line ∧ IsCommentLine line) ∧
        r.render.toList = Text.unlines lines ++ r.config.render.toList) ↔
      ∀ path ∈ r.files, CommentsOnly path := by
  rw [← isCommentLine_headerLines_iff]
  constructor
  · rintro ⟨lines, hlines, hrender⟩
    rw [toList_render] at hrender
    have hsplit := congrArg (·.splitOn '\n') (List.append_cancel_right hrender)
    simp only [Text.splitOn_unlines, Text.flatMap_splitOn_of_unbroken (headerLines_unbroken r),
      Text.flatMap_splitOn_of_unbroken fun line hline => (hlines line hline).1] at hsplit
    rw [List.append_cancel_right hsplit]
    exact fun line hline => (hlines line hline).2
  · exact fun h => ⟨r.headerLines, fun line hline => ⟨headerLines_unbroken r line hline, h line hline⟩,
      toList_render r⟩

theorem withoutComments_render_iff (r : ResolvedConfig) :
    withoutComments r.render.toList = r.config.render.toList ↔ ∀ path ∈ r.files, CommentsOnly path := by
  rw [toList_render, Toml.withoutComments_eq_iff (headerLines_unbroken r) (head?_splitOn_render r.config),
    isCommentLine_headerLines_iff]

theorem parse?_render (h : ∀ path ∈ r.files, CommentsOnly path) : Toml.parse? r.render =
    if ∀ path ∈ r.files, CommentText path then Toml.parse? r.config.render else none := by
  obtain ⟨rest, hrest⟩ := exists_toList_render r.config
  rw [Toml.parse?_of_comments (toList_render r) ((isCommentLine_headerLines_iff r).2 h)
    (headerLines_unbroken r) (by simp [hrest])]
  simp only [isCommentText_headerLines_iff]

/-- A key with no value is no line of a document. -/
theorem readLines_bare_key (fuel : Nat) (d : Toml.Draft) (rest : List Char) :
    Toml.readLines (fuel + 2) d ('b' :: '.' :: 't' :: 'o' :: 'm' :: 'l' :: '\n' :: rest) = none := by
  have hkey : Toml.readKey ('b' :: '.' :: 't' :: 'o' :: 'm' :: 'l' :: '\n' :: rest) =
      some (["b", "toml"], '\n' :: rest) := rfl
  have hassignment : Toml.readAssignment (fuel + 1) Toml.maxNesting
      ('b' :: '.' :: 't' :: 'o' :: 'm' :: 'l' :: '\n' :: rest) = none := by
    rw [Toml.readAssignment, hkey]
    rfl
  have hstatement : Toml.readStatement (fuel + 1) d
      ('b' :: '.' :: 't' :: 'o' :: 'm' :: 'l' :: '\n' :: rest) = none := by
    change (Toml.readAssignment (fuel + 1) Toml.maxNesting _).bind _ = none
    rw [hassignment]
    rfl
  rw [Toml.readLines_statement rfl (by decide) rfl, hstatement]
  rfl

theorem parse?_render_line_break : Toml.parse? (render ⟨.standard, ["a\nb.toml"], 0⟩) = none := by
  let comments : List (List Char) := ["# Resolved kotoba configuration".toList, "#".toList,
    "# Loaded files (in precedence order):".toList, "#   1. a".toList]
  have hlines : headerLines ⟨.standard, ["a\nb.toml"], 0⟩ = comments ++ ["b.toml".toList, []] := by decide
  have hrender : (render ⟨.standard, ["a\nb.toml"], 0⟩).toList = Text.unlines comments ++
      ('b' :: '.' :: 't' :: 'o' :: 'm' :: 'l' :: '\n' :: '\n' :: Config.standard.render.toList) := by
    rw [toList_render, hlines, Text.unlines_append, List.append_assoc]
    rfl
  have hmark : (render ⟨.standard, ["a\nb.toml"], 0⟩).toList.head? ≠ some '\ufeff' := by
    rw [hrender]
    decide
  rw [Toml.parse?_eq_readLines hmark
    ((render ⟨.standard, ["a\nb.toml"], 0⟩).toList.length + 2 + comments.length) (by omega), hrender,
    Toml.readLines_comments (by decide) (by decide), if_pos (by decide), readLines_bare_key]
  rfl

/-- A shown configuration is comments and empty lines, and then the configuration alone, exactly if the
lines that paths begin are comments or empty; dropping the comments and the empty lines at its beginning
gives back the configuration alone in the same case. Then it is read like the configuration alone, unless
a path has a character that no comment may hold, with which it cannot be read at all. -/
theorem header_is_comments_unless_broken (r : ResolvedConfig) :
    ((∃ lines, (∀ line ∈ lines, '\n' ∉ line ∧ IsCommentLine line) ∧
        r.render.toList = Text.unlines lines ++ r.config.render.toList) ↔
          ∀ path ∈ r.files, CommentsOnly path) ∧
      (withoutComments r.render.toList = r.config.render.toList ↔ ∀ path ∈ r.files, CommentsOnly path) ∧
      ((∀ path ∈ r.files, CommentsOnly path) → Toml.parse? r.render =
        if ∀ path ∈ r.files, CommentText path then Toml.parse? r.config.render else none) :=
  ⟨exists_comments_iff r, withoutComments_render_iff r, parse?_render⟩

theorem header_is_comments_unless_broken_tab :
    let r : ResolvedConfig := ⟨.standard, ["home/config.toml", "a\tb.toml"], 2⟩
    (∀ path ∈ r.files, CommentsOnly path) ∧
      withoutComments r.render.toList = r.config.render.toList ∧
      Toml.parse? r.render = Toml.parse? r.config.render := by
  intro r
  obtain ⟨-, hwithout, hparse⟩ := header_is_comments_unless_broken r
  have hcomments : ∀ path ∈ r.files, CommentsOnly path := by decide
  exact ⟨hcomments, hwithout.2 hcomments, (hparse hcomments).trans (if_pos (by decide))⟩

/-- The line break in the path of a document ends its comment, and what is shown cannot be read. -/
theorem line_break_ends_comment :
    let r : ResolvedConfig := ⟨.standard, ["a\nb.toml"], 0⟩
    Config.loadLayers ⟨"home/config.toml", .error .notFound⟩ (some ⟨"a\nb.toml", .ok "".toUTF8⟩) .empty =
        .ok r ∧
      withoutComments r.render.toList ≠ r.config.render.toList ∧ Toml.parse? r.render = none := by
  intro r
  refine ⟨?_, mt (withoutComments_render_iff r).1 (by decide), parse?_render_line_break⟩
  have hexplicit : LayerFile.tree ⟨"a\nb.toml", .ok "".toUTF8⟩ = .ok (.table []) :=
    LayerFile.tree_of_text (by decide) (by cbv)
  rw [Config.loadLayers_explicit rfl hexplicit]
  cbv

end TokenizerHost.ResolvedConfig
