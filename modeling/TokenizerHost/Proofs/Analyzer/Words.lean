import TokenizerHost.CommandLine.Run
import TokenizerHost.Proofs.Analyzer.Batches
import TokenizerHost.Proofs.Run.Dispatch
import TokenizerHost.Proofs.Text.Lines

set_option autoImplicit false

namespace TokenizerHost

namespace AnalysisResult

variable {r : AnalysisResult} {marker : String}

def wordTokens (r : AnalysisResult) (marker : String) : List Token :=
  r.tokens.filter fun t => ¬ marker.toList <+: t.pos.toList

def wordLine (r : AnalysisResult) (marker : String) : List Char :=
  [' '].intercalate ((r.wordTokens marker).map (·.surfaceForm.toList))

theorem clickable_eq (r : AnalysisResult) (marker : String) : r.clickable marker = r.wordTokens marker := by
  refine List.filter_congr fun t _ => ?_
  rw [Token.isClickable, Bool.eq_iff_iff, decide_eq_true_iff, Bool.not_eq_true', ← List.isPrefixOf_iff_prefix,
    Bool.not_eq_true]

def Unbroken (r : AnalysisResult) (marker : String) : Prop :=
  ∀ t ∈ r.wordTokens marker, '\n' ∉ t.surfaceForm.toList

instance : Decidable (r.Unbroken marker) :=
  inferInstanceAs (Decidable (∀ t ∈ r.wordTokens marker, '\n' ∉ t.surfaceForm.toList))

theorem unbroken_iff : r.Unbroken marker ↔ '\n' ∉ r.wordLine marker := by
  rw [wordLine, Text.mem_intercalate_iff (by decide), not_exists]
  simp [Unbroken]

end AnalysisResult

namespace BatchResponse

theorem toList_words (r : BatchResponse) (marker : String) :
    (r.words marker).toList = Text.unlines (r.results.map (·.wordLine marker)) := by
  rw [words, String.toList_join, Text.unlines, List.flatMap_map, List.flatMap_map]
  refine List.flatMap_congr fun result _ => ?_
  rw [String.toList_append, String.toList_intercalate, List.map_map, AnalysisResult.clickable_eq]
  rfl

end BatchResponse

/-! ## Texts and results -/

namespace Analyzer

variable {ρ τ : Type}

theorem texts_analyze (kind : TokenizerKind ρ τ) (texts : List String) (a : Analyzer ρ τ) :
    (analyze kind texts a).1.map (·.text) = texts := by
  induction texts generalizing a with
  | nil => rfl
  | cons text texts ih =>
    rw [analyze, mapM_cons_run, analyzeOne_eq, List.map_cons]
    exact congrArg (text :: ·) (ih _)

theorem texts_handle (kind : TokenizerKind ρ τ) (request : BatchRequest) (a : Analyzer ρ τ) :
    (handle kind request a).1.results.map (·.text) = request.texts := texts_analyze kind request.texts a

end Analyzer

namespace Machine

variable {σ : Type} {m : Machine σ} {c : Config} {a : AnalyzeCommand} {output : String}

def request (m : Machine σ) (a : AnalyzeCommand) : Except String BatchRequest :=
  if a.fromInput then m.readRequest else .ok ⟨a.texts⟩

theorem analyze_eq (m : Machine σ) (c : Config) (a : AnalyzeCommand) :
    m.analyze c a = (m.request a).bind fun request =>
      if request.texts.isEmpty then
        .error "nothing to analyze; pass texts as arguments or use --stdin"
      else
        let response := (Analyzer.handle (m.loader c a.source).kind request (.new c.scriptFilter ())).1
        .ok (if a.wordsOnly then response.words c.analyzer.symbolMarker
          else response.toJson.pretty ++ "\n") := by
  rw [analyze, request]
  split
  · refine congrArg m.readRequest.bind (funext fun request => ?_)
    split <;> rfl
  · dsimp only [pure, bind, Except.pure, Except.bind]
    split <;> rfl

theorem exists_words_of_analyze (hwords : a.wordsOnly = true) (h : m.analyze c a = .ok output) :
    ∃ request, ∃ response : BatchResponse, m.request a = .ok request ∧
      response.results.map (·.text) = request.texts ∧
      output = response.words c.analyzer.symbolMarker := by
  rw [analyze_eq, hwords] at h
  obtain ⟨request, hrequest, h⟩ := except_bind_ok h
  refine ⟨request, _, hrequest,
    Analyzer.texts_handle (m.loader c a.source).kind request (.new c.scriptFilter ()), ?_⟩
  split at h
  case isTrue => cases h
  case isFalse => exact (Except.ok.inj h).symm

end Machine

namespace BatchResponse

theorem splitOn_words (r : BatchResponse) (marker : String) :
    (r.words marker).toList.splitOn '\n' =
      (r.results.map (·.wordLine marker)).flatMap (·.splitOn '\n') ++ [[]] := by
  rw [toList_words, Text.splitOn_unlines]

theorem unbroken_results_iff (r : BatchResponse) (marker : String) :
    (∀ result ∈ r.results, result.Unbroken marker) ↔
      ∀ line ∈ r.results.map (·.wordLine marker), '\n' ∉ line := by
  simp [AnalysisResult.unbroken_iff]

/-- The words of a response, split at line breaks, are one line for each result, with the words of
that result, exactly if no word holds a line break; each line break in a word makes a line more. A
command that prints words prints those of a response whose results are its texts, in order. -/
theorem words_keep_lines_unless_broken (r : BatchResponse) (marker : String) :
    ((r.words marker).toList.splitOn '\n' = r.results.map (·.wordLine marker) ++ [[]] ↔
        ∀ result ∈ r.results, result.Unbroken marker) ∧
      ((r.words marker).toList.count '\n' = r.results.length ↔
        ∀ result ∈ r.results, result.Unbroken marker) ∧
      (r.words marker).toList.count '\n' =
        r.results.length + (r.results.map fun result => (result.wordLine marker).count '\n').sum ∧
      ∀ {σ : Type} (m : Machine σ) (c : Config) (a : AnalyzeCommand) (output : String),
        a.wordsOnly = true → m.analyze c a = .ok output →
          ∃ request, ∃ response : BatchResponse, m.request a = .ok request ∧
            response.results.map (·.text) = request.texts ∧
            output = response.words c.analyzer.symbolMarker := by
  have hcount : (r.words marker).toList.count '\n' =
      r.results.length + ((r.results.map (·.wordLine marker)).map (·.count '\n')).sum := by
    have hlength := congrArg List.length (r.splitOn_words marker)
    rw [Text.length_splitOn, List.length_append, Text.length_flatMap_splitOn, List.length_map] at hlength
    exact Nat.succ.inj hlength
  refine ⟨?lines, ?number, ?exactly, fun m c a output => Machine.exists_words_of_analyze⟩
  case lines =>
    rw [splitOn_words, List.append_left_inj, Text.flatMap_splitOn_eq_self_iff, unbroken_results_iff]
  case number =>
    rw [hcount, Nat.add_eq_left, Text.sum_count_eq_zero_iff, unbroken_results_iff]
  case exactly => rw [hcount, List.map_map]; rfl

def wordAndSkipped : BatchResponse :=
  ⟨[⟨"猫、", [⟨"猫", "", "猫", "名詞,一般", "", none, none, none⟩,
    ⟨"、", "", "、", "記号,読点", "", none, none, none⟩]⟩, ⟨"abc", []⟩]⟩

/-- A command that passes two texts, on a machine that has no module and no home. -/
def bareMachine : Machine Unit where
  read _ := .error .notFound
  home := none
  vars := .empty
  input := .empty
  engine _ := none
  around := ⟨0, 0⟩

theorem words_keep_lines_unless_broken_skipped :
    (wordAndSkipped.words "記号").toList.splitOn '\n' = [['猫'], [], []] ∧
      (wordAndSkipped.words "記号").toList.count '\n' = 2 ∧
      ∃ request, ∃ response : BatchResponse,
        bareMachine.request ⟨["abc", "def"], none, false, true⟩ = .ok request ∧
        response.results.map (·.text) = request.texts ∧ "\n\n" = response.words "記号" := by
  obtain ⟨hlines, hnumber, -, htexts⟩ := words_keep_lines_unless_broken wordAndSkipped "記号"
  have hunbroken : ∀ result ∈ wordAndSkipped.results, result.Unbroken "記号" := by decide
  exact ⟨hlines.2 hunbroken, hnumber.2 hunbroken,
    htexts bareMachine .standard ⟨["abc", "def"], none, false, true⟩ "\n\n" rfl rfl⟩

/-- A token for each character of a text, and the last character is a line break. -/
def brokenWords : BatchResponse :=
  ⟨[⟨"猫犬\n", [⟨"猫", "", "猫", "名詞,一般", "", none, none, none⟩,
    ⟨"犬", "", "犬", "記号,一般", "", none, none, none⟩,
    ⟨"\n", "", "\n", "名詞,一般", "", none, none, none⟩]⟩]⟩

/-- One result, and two lines: the second is no result's. -/
theorem word_breaks_its_line :
    brokenWords.words "記号" = "猫 \n\n" ∧
      ((brokenWords.words "記号").toList.splitOn '\n').length ≠ brokenWords.results.length + 1 := by
  decide

end BatchResponse

end TokenizerHost
