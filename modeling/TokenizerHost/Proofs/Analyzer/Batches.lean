import TokenizerHost.Analyzer

set_option autoImplicit false

namespace TokenizerHost

variable {ρ τ : Type}

namespace ScriptFilter

def Targets (f : ScriptFilter) (text : String) : Prop :=
  ∃ c ∈ text.toList, ∃ r ∈ f.ranges, r.first ≤ c ∧ c ≤ r.last

theorem accepts_iff (f : ScriptFilter) (text : String) : f.accepts text = true ↔ f.Targets text := by
  simp [accepts, Targets, CharRange.contains]

instance (f : ScriptFilter) : DecidablePred f.Targets := fun text =>
  decidable_of_iff _ (f.accepts_iff text)

end ScriptFilter

abbrev Tokenized := Except AnalyzerError (List Token)

structure TokenizerCall where
  text : String
  result : Tokenized

namespace TokenizerKind

/-- The same tokenizer, but the loader keeps what its loads came to, and the tokenizer its calls. -/
def recorded (kind : TokenizerKind ρ τ) :
    TokenizerKind (ρ × List (Except AnalyzerError τ)) (τ × List TokenizerCall) where
  load loader :=
    let (result, after) := kind.load loader.1
    (result.map (·, []), after, loader.2 ++ [result])
  tokenize text tokenizer :=
    let (result, after) := kind.tokenize text tokenizer.1
    (result, after, tokenizer.2 ++ [⟨text, result⟩])

end TokenizerKind

inductive AnalyzerCall where
  | load
  | analyzeText (text : String)
  | analyze (texts : List String)
  | handle (request : BatchRequest)

inductive AnalyzerAnswer where
  | loaded (result : Except AnalyzerError Unit)
  | tokens (result : Tokenized)
  | results (results : List AnalysisResult)
  | response (response : BatchResponse)

namespace AnalyzerCall

def perform (kind : TokenizerKind ρ τ) : AnalyzerCall → StateM (Analyzer ρ τ) AnalyzerAnswer
  | load => return .loaded (← Analyzer.load kind)
  | analyzeText text => return .tokens (← Analyzer.analyzeText kind text)
  | analyze texts => return .results (← Analyzer.analyze kind texts)
  | handle request => return .response (← Analyzer.handle kind request)

def texts : AnalyzerCall → List String
  | load => []
  | analyzeText text => [text]
  | analyze texts => texts
  | handle request => request.texts

/-- Nothing needs a tokenizer but a load and texts that the filter targets. -/
def Needs (filter : ScriptFilter) : AnalyzerCall → Prop
  | load => True
  | call => ∃ text ∈ call.texts, filter.Targets text

end AnalyzerCall

/-- Items are answered one after the other; what each of them takes is put in a row. -/
inductive Each {α β γ : Type} (R : α → List γ → β → Prop) : List α → List γ → List β → Prop where
  | nil : Each R [] [] []
  | cons {x : α} {y : β} {row rows : List γ} {xs : List α} {ys : List β} (head : R x row y)
      (tail : Each R xs rows ys) : Each R (x :: xs) (row ++ rows) (y :: ys)

theorem Each.map_eq {α β γ δ : Type} {R : α → List γ → β → Prop} {xs : List α} {rows : List γ}
    {ys : List β} {f : γ → δ} (h : Each R xs rows ys) (g : α → List δ)
    (hR : ∀ x row y, R x row y → row.map f = g x) : rows.map f = xs.flatMap g := by
  induction h with
  | nil => rfl
  | cons head tail ih => rw [List.map_append, hR _ _ _ head, ih, List.flatMap_cons]

inductive TextAnswered (filter : ScriptFilter) (first : Except AnalyzerError Unit) (text : String) :
    List TokenizerCall → Tokenized → Prop where
  | skipped (off : ¬ filter.Targets text) : TextAnswered filter first text [] (.ok [])
  | unloaded {e : AnalyzerError} (on : filter.Targets text) (failed : first = .error e) :
      TextAnswered filter first text [] (.error e)
  | tokenized (on : filter.Targets text) (ready : first = .ok ()) (result : Tokenized) :
      TextAnswered filter first text [⟨text, result⟩] result

def tokensOf : Tokenized → List Token
  | .ok tokens => tokens
  | .error _ => []

/-- A batch has one result for each text, in order, with the tokens that come of it. -/
def BatchAnswered (filter : ScriptFilter) (first : Except AnalyzerError Unit) (texts : List String)
    (calls : List TokenizerCall) (results : List AnalysisResult) : Prop :=
  results.map (·.text) = texts ∧
    ∃ outcomes, Each (TextAnswered filter first) texts calls outcomes ∧
      results.map (·.tokens) = outcomes.map tokensOf

inductive AnalyzerCall.Answered (filter : ScriptFilter) (first : Except AnalyzerError Unit) :
    AnalyzerCall → List TokenizerCall → AnalyzerAnswer → Prop where
  | load : Answered filter first .load [] (.loaded first)
  | text {text : String} {calls : List TokenizerCall} {result : Tokenized}
      (h : TextAnswered filter first text calls result) :
      Answered filter first (.analyzeText text) calls (.tokens result)
  | batch {texts : List String} {calls : List TokenizerCall} {results : List AnalysisResult}
      (h : BatchAnswered filter first texts calls results) :
      Answered filter first (.analyze texts) calls (.results results)
  | request {request : BatchRequest} {calls : List TokenizerCall} {results : List AnalysisResult}
      (h : BatchAnswered filter first request.texts calls results) :
      Answered filter first (.handle request) calls (.response ⟨results⟩)

section Texts

variable {filter : ScriptFilter} {first : Except AnalyzerError Unit} {calls : List TokenizerCall}

def calledOn (filter : ScriptFilter) (first : Except AnalyzerError Unit) (texts : List String) :
    List String :=
  match first with
  | .ok () => texts.filter (filter.Targets ·)
  | .error _ => []

theorem flatMap_calledOn {α : Type} (f : α → List String) (xs : List α) :
    (xs.flatMap fun x => calledOn filter first (f x)) = calledOn filter first (xs.flatMap f) := by
  cases first with
  | ok => exact List.filter_flatMap.symm
  | error => exact List.flatMap_eq_nil_iff.2 fun _ _ => rfl

theorem TextAnswered.called {text : String} {result : Tokenized}
    (h : TextAnswered filter first text calls result) :
    calls.map (·.text) = calledOn filter first [text] := by
  cases h with
  | skipped off =>
    cases first with
    | ok => simp [calledOn, off]
    | error => rfl
  | unloaded on failed => rw [failed]; rfl
  | tokenized on ready => simp [calledOn, ready, on]

theorem BatchAnswered.called {texts : List String} {results : List AnalysisResult}
    (h : BatchAnswered filter first texts calls results) :
    calls.map (·.text) = calledOn filter first texts := by
  obtain ⟨-, outcomes, heach, -⟩ := h
  rw [heach.map_eq (fun text => calledOn filter first [text]) fun _ _ _ h => h.called,
    flatMap_calledOn, List.flatMap_singleton']

theorem AnalyzerCall.Answered.called {call : AnalyzerCall} {answer : AnalyzerAnswer}
    (h : call.Answered filter first calls answer) :
    calls.map (·.text) = calledOn filter first call.texts := by
  cases h with
  | load => cases first <;> rfl
  | text h => exact h.called
  | batch h => exact h.called
  | request h => exact h.called

end Texts

namespace Analyzer

section

variable {kind : TokenizerKind ρ τ} {text : String} {a a' : Analyzer ρ τ}

theorem analyzeText_eq (kind : TokenizerKind ρ τ) (text : String) (a : Analyzer ρ τ) :
    analyzeText kind text a =
      if a.filter.accepts text then
        match ensureLoaded kind a with
        | (.error e, a') => (.error e, a')
        | (.ok tokenizer, a') => ((kind.tokenize text tokenizer).1,
            { a' with loaded := some (.ok (kind.tokenize text tokenizer).2) })
      else (.ok [], a) := by
  cases h : a.filter.accepts text with
  | false =>
    simp [analyzeText, get, getThe, MonadStateOf.get, StateT.get, bind, StateT.bind, pure, h]
    rfl
  | true =>
    rcases hload : ensureLoaded kind a with ⟨_ | _, a'⟩ <;>
      simp [analyzeText, get, getThe, MonadStateOf.get, StateT.get, bind, StateT.bind, pure, h, hload] <;>
      rfl

theorem analyzeText_skipped (h : a.filter.accepts text = false) :
    analyzeText kind text a = (.ok [], a) := by
  rw [analyzeText_eq, h]
  rfl

theorem analyzeText_unloaded {e : AnalyzerError} (h : a.filter.accepts text = true)
    (hload : ensureLoaded kind a = (.error e, a')) : analyzeText kind text a = (.error e, a') := by
  rw [analyzeText_eq, if_pos h, hload]

theorem analyzeText_tokenized {tokenizer : τ} (h : a.filter.accepts text = true)
    (hload : ensureLoaded kind a = (.ok tokenizer, a')) :
    analyzeText kind text a = ((kind.tokenize text tokenizer).1,
      { a' with loaded := some (.ok (kind.tokenize text tokenizer).2) }) := by
  rw [analyzeText_eq, if_pos h, hload]

theorem analyzeOne_eq (kind : TokenizerKind ρ τ) (text : String) (a : Analyzer ρ τ) :
    analyzeOne kind text a =
      (⟨text, tokensOf (analyzeText kind text a).1⟩, (analyzeText kind text a).2) := by
  simp only [analyzeOne, bind, StateT.bind]
  rcases analyzeText kind text a with ⟨_ | _, a'⟩ <;> rfl

theorem mapM_cons_run {σ α β : Type} (f : α → StateM σ β) (x : α) (xs : List α) (s : σ) :
    (x :: xs).mapM f s =
      ((f x s).1 :: (xs.mapM f (f x s).2).1, (xs.mapM f (f x s).2).2) := by
  rw [List.mapM_cons]
  rfl

end

def record (a : Analyzer (ρ × List (Except AnalyzerError τ)) (τ × List TokenizerCall)) :
    List TokenizerCall :=
  match a.loaded with
  | some (.ok tokenizer) => tokenizer.2
  | _ => []

/-- Where an analyzer stands that keeps a record, and one beside it that keeps none. Whether the
tokenizer has been needed says whether it was loaded; the record is of the calls since then. -/
inductive Stands (kind : TokenizerKind ρ τ) (filter : ScriptFilter) (loader : ρ) (needed : Prop)
    (calls : List TokenizerCall) :
    Analyzer (ρ × List (Except AnalyzerError τ)) (τ × List TokenizerCall) → Analyzer ρ τ → Prop where
  | fresh (idle : ¬ needed) (unused : calls = []) :
      Stands kind filter loader needed calls (.new filter (loader, [])) (.new filter loader)
  | failed {e : AnalyzerError} {after : ρ} (tried : needed) (unused : calls = [])
      (loads : kind.load loader = (.error e, after)) :
      Stands kind filter loader needed calls ⟨filter, (after, [.error e]), some (.error e)⟩
        ⟨filter, after, some (.error e)⟩
  | ready {start tokenizer : τ} {after : ρ} (tried : needed)
      (loads : kind.load loader = (.ok start, after)) :
      Stands kind filter loader needed calls
        ⟨filter, (after, [.ok start]), some (.ok (tokenizer, calls))⟩
        ⟨filter, after, some (.ok tokenizer)⟩

namespace Stands

variable {kind : TokenizerKind ρ τ} {filter : ScriptFilter} {loader : ρ} {needed : Prop}
  {calls : List TokenizerCall} {b : Analyzer ρ τ}
  {a : Analyzer (ρ × List (Except AnalyzerError τ)) (τ × List TokenizerCall)}

theorem filter_eq (h : Stands kind filter loader needed calls a b) :
    a.filter = filter ∧ b.filter = filter := by
  cases h with
  | fresh => exact ⟨rfl, rfl⟩
  | failed => exact ⟨rfl, rfl⟩
  | ready => exact ⟨rfl, rfl⟩

theorem congr {needed' : Prop} (h : Stands kind filter loader needed calls a b)
    (hneeded : needed ↔ needed') : Stands kind filter loader needed' calls a b :=
  propext hneeded ▸ h

def first (kind : TokenizerKind ρ τ) (loader : ρ) : Except AnalyzerError Unit :=
  (kind.load loader).1.map fun _ => ()

theorem first_error {e : AnalyzerError} {after : ρ} (h : kind.load loader = (.error e, after)) :
    first kind loader = .error e := by
  rw [first, h]
  rfl

theorem first_ok {start : τ} {after : ρ} (h : kind.load loader = (.ok start, after)) :
    first kind loader = .ok () := by
  rw [first, h]
  rfl

/-- However often the tokenizer is asked for, it is what the first load gave, with the calls since. -/
theorem ensureLoaded (h : Stands kind filter loader needed calls a b) :
    (∃ e after, kind.load loader = (.error e, after) ∧ calls = [] ∧
      Analyzer.ensureLoaded kind.recorded a =
        (.error e, ⟨filter, (after, [.error e]), some (.error e)⟩) ∧
      Analyzer.ensureLoaded kind b = (.error e, ⟨filter, after, some (.error e)⟩)) ∨
    ∃ start tokenizer after, kind.load loader = (.ok start, after) ∧
      Analyzer.ensureLoaded kind.recorded a = (.ok (tokenizer, calls),
        ⟨filter, (after, [.ok start]), some (.ok (tokenizer, calls))⟩) ∧
      Analyzer.ensureLoaded kind b = (.ok tokenizer, ⟨filter, after, some (.ok tokenizer)⟩) := by
  cases h with
  | fresh idle unused =>
    cases hload : kind.load loader with
    | mk result after =>
      cases result with
      | error e =>
        refine .inl ⟨e, after, rfl, unused, ?_, ?_⟩
        · simp [Analyzer.ensureLoaded, new, TokenizerKind.recorded, hload]
          rfl
        · simp [Analyzer.ensureLoaded, new, hload]
      | ok start =>
        subst unused
        refine .inr ⟨start, start, after, rfl, ?_, ?_⟩
        · simp [Analyzer.ensureLoaded, new, TokenizerKind.recorded, hload]
          rfl
        · simp [Analyzer.ensureLoaded, new, hload]
  | failed tried unused loads => exact .inl ⟨_, _, loads, unused, rfl, rfl⟩
  | ready tried loads => exact .inr ⟨_, _, _, loads, rfl, rfl⟩

theorem load (h : Stands kind filter loader needed calls a b) :
    ∃ a' b', Analyzer.load kind.recorded a = (first kind loader, a') ∧
      Analyzer.load kind b = (first kind loader, b') ∧
      Stands kind filter loader True calls a' b' := by
  rcases h.ensureLoaded with ⟨e, after, hload, hnone, ha, hb⟩ | ⟨start, tokenizer, after, hload, ha, hb⟩
  · refine ⟨_, _, ?_, ?_, .failed trivial hnone hload⟩
    · simp only [Analyzer.load, bind, StateT.bind, ha, first_error hload]
      rfl
    · simp only [Analyzer.load, bind, StateT.bind, hb, first_error hload]
      rfl
  · refine ⟨_, ⟨filter, after, some (.ok tokenizer)⟩, ?_, ?_, .ready trivial hload⟩
    · simp only [Analyzer.load, bind, StateT.bind, ha, first_ok hload]
      rfl
    · simp only [Analyzer.load, bind, StateT.bind, hb, first_ok hload]
      rfl

theorem analyzeText (h : Stands kind filter loader needed calls a b) (text : String) :
    ∃ row result a' b', Analyzer.analyzeText kind.recorded text a = (result, a') ∧
      Analyzer.analyzeText kind text b = (result, b') ∧
      TextAnswered filter (first kind loader) text row result ∧
      Stands kind filter loader (needed ∨ filter.Targets text) (calls ++ row) a' b' := by
  obtain ⟨hfa, hfb⟩ := h.filter_eq
  by_cases hon : filter.Targets text
  · have haccepts := (filter.accepts_iff text).2 hon
    rcases h.ensureLoaded with
      ⟨e, after, hload, hnone, ha, hb⟩ | ⟨start, tokenizer, after, hload, ha, hb⟩
    · refine ⟨[], .error e, _, _, analyzeText_unloaded (hfa ▸ haccepts) ha,
        analyzeText_unloaded (hfb ▸ haccepts) hb, .unloaded hon (first_error hload), ?_⟩
      exact .failed (.inr hon) (by rw [hnone, List.append_nil]) hload
    · refine ⟨_, _, _, _, analyzeText_tokenized (hfa ▸ haccepts) ha,
        analyzeText_tokenized (hfb ▸ haccepts) hb,
        .tokenized hon (first_ok hload) (kind.tokenize text tokenizer).1, ?_⟩
      exact .ready (.inr hon) hload
  · have haccepts := eq_false_of_ne_true (mt (filter.accepts_iff text).1 hon)
    refine ⟨[], .ok [], a, b, analyzeText_skipped (hfa ▸ haccepts),
      analyzeText_skipped (hfb ▸ haccepts), .skipped hon, ?_⟩
    rw [List.append_nil]
    exact h.congr (or_iff_left hon).symm

theorem analyze (h : Stands kind filter loader needed calls a b) (texts : List String) :
    ∃ rows results a' b', Analyzer.analyze kind.recorded texts a = (results, a') ∧
      Analyzer.analyze kind texts b = (results, b') ∧
      BatchAnswered filter (first kind loader) texts rows results ∧
      Stands kind filter loader (needed ∨ ∃ text ∈ texts, filter.Targets text) (calls ++ rows) a' b' := by
  induction texts generalizing needed calls a b with
  | nil =>
    refine ⟨[], [], a, b, rfl, rfl, ⟨rfl, [], .nil, rfl⟩, ?_⟩
    rw [List.append_nil]
    exact h.congr (by simp)
  | cons text texts ih =>
    obtain ⟨row, result, a₁, b₁, ha, hb, htext, h₁⟩ := h.analyzeText text
    obtain ⟨rows, results, a₂, b₂, ha₂, hb₂, ⟨htexts, outcomes, heach, htokens⟩, h₂⟩ := ih h₁
    rw [List.append_assoc] at h₂
    refine ⟨row ++ rows, ⟨text, tokensOf result⟩ :: results, a₂, b₂, ?_, ?_, ?_, h₂.congr ?_⟩
    · rw [Analyzer.analyze, mapM_cons_run, analyzeOne_eq, ha]
      exact congrArg (fun r => (⟨text, tokensOf result⟩ :: r.1, r.2)) ha₂
    · rw [Analyzer.analyze, mapM_cons_run, analyzeOne_eq, hb]
      exact congrArg (fun r => (⟨text, tokensOf result⟩ :: r.1, r.2)) hb₂
    · refine ⟨congrArg (text :: ·) htexts, result :: outcomes, .cons htext heach, ?_⟩
      exact congrArg (tokensOf result :: ·) htokens
    · simp only [List.mem_cons, exists_eq_or_imp, or_assoc]

theorem perform (h : Stands kind filter loader needed calls a b) (call : AnalyzerCall) :
    ∃ row answer a' b', call.perform kind.recorded a = (answer, a') ∧
      call.perform kind b = (answer, b') ∧ call.Answered filter (first kind loader) row answer ∧
      Stands kind filter loader (needed ∨ call.Needs filter) (calls ++ row) a' b' := by
  cases call with
  | load =>
    obtain ⟨a', b', ha, hb, h'⟩ := h.load
    refine ⟨[], .loaded (first kind loader), a', b', ?_, ?_, .load, ?_⟩
    · exact congrArg (fun r => (AnalyzerAnswer.loaded r.1, r.2)) ha
    · exact congrArg (fun r => (AnalyzerAnswer.loaded r.1, r.2)) hb
    · rw [List.append_nil]
      exact h'.congr (iff_of_true trivial (.inr trivial))
  | analyzeText text =>
    obtain ⟨row, result, a', b', ha, hb, htext, h'⟩ := h.analyzeText text
    refine ⟨row, .tokens result, a', b', ?_, ?_, .text htext, h'.congr ?_⟩
    · exact congrArg (fun r => (AnalyzerAnswer.tokens r.1, r.2)) ha
    · exact congrArg (fun r => (AnalyzerAnswer.tokens r.1, r.2)) hb
    · simp [AnalyzerCall.Needs, AnalyzerCall.texts]
  | analyze texts =>
    obtain ⟨row, results, a', b', ha, hb, hbatch, h'⟩ := h.analyze texts
    refine ⟨row, .results results, a', b', ?_, ?_, .batch hbatch, h'⟩
    · exact congrArg (fun r => (AnalyzerAnswer.results r.1, r.2)) ha
    · exact congrArg (fun r => (AnalyzerAnswer.results r.1, r.2)) hb
  | handle request =>
    obtain ⟨row, results, a', b', ha, hb, hbatch, h'⟩ := h.analyze request.texts
    refine ⟨row, .response ⟨results⟩, a', b', ?_, ?_, .request hbatch, h'⟩
    · exact congrArg (fun r => (AnalyzerAnswer.response ⟨r.1⟩, r.2)) ha
    · exact congrArg (fun r => (AnalyzerAnswer.response ⟨r.1⟩, r.2)) hb

theorem session (h : Stands kind filter loader needed calls a b) (asked : List AnalyzerCall) :
    ∃ rows answers a' b', asked.mapM (·.perform kind.recorded) a = (answers, a') ∧
      asked.mapM (·.perform kind) b = (answers, b') ∧
      Each (AnalyzerCall.Answered filter (first kind loader)) asked rows answers ∧
      Stands kind filter loader (needed ∨ ∃ call ∈ asked, call.Needs filter) (calls ++ rows) a' b' := by
  induction asked generalizing needed calls a b with
  | nil =>
    refine ⟨[], [], a, b, rfl, rfl, .nil, ?_⟩
    rw [List.append_nil]
    exact h.congr (by simp)
  | cons call asked ih =>
    obtain ⟨row, answer, a₁, b₁, ha, hb, hcall, h₁⟩ := h.perform call
    obtain ⟨rows, answers, a₂, b₂, ha₂, hb₂, heach, h₂⟩ := ih h₁
    rw [List.append_assoc] at h₂
    refine ⟨row ++ rows, answer :: answers, a₂, b₂, ?_, ?_, .cons hcall heach, h₂.congr ?_⟩
    · rw [mapM_cons_run, ha, ha₂]
    · rw [mapM_cons_run, hb, hb₂]
    · simp only [List.mem_cons, exists_eq_or_imp, or_assoc]

theorem record_eq (h : Stands kind filter loader needed calls a b) : a.record = calls := by
  cases h with
  | fresh idle unused => exact unused.symm
  | failed tried unused => exact unused.symm
  | ready => rfl

theorem loads_eq (h : Stands kind filter loader needed calls a b) :
    (needed → a.loader.2 = [(kind.load loader).1]) ∧ (¬ needed → a.loader.2 = []) := by
  cases h with
  | fresh idle => exact ⟨fun hneeded => absurd hneeded idle, fun _ => rfl⟩
  | failed tried unused loads => exact ⟨fun _ => by rw [loads], fun hidle => absurd tried hidle⟩
  | ready tried loads => exact ⟨fun _ => by rw [loads], fun hidle => absurd tried hidle⟩

end Stands

/-- Every session of an analyzer is answered as its filter, the first load and the tokenizer say: a
batch has one result for each text, in order; a text outside the filter is not looked at, one inside
it takes exactly one call of the tokenizer, whose result it has, or meets the failure of the load.
The first load is the only one, and there is none unless a load is asked for or a text is inside the
filter. That a record is kept changes no answer. -/
theorem batches_are_answered (kind : TokenizerKind ρ τ) (filter : ScriptFilter) (loader : ρ)
    (asked : List AnalyzerCall) :
    let first := (kind.load loader).1
    let run := asked.mapM (·.perform kind.recorded) (new filter (loader, []))
    (asked.mapM (·.perform kind) (new filter loader)).1 = run.1 ∧
    Each (AnalyzerCall.Answered filter (first.map fun _ => ())) asked run.2.record run.1 ∧
    run.2.record.map (·.text) =
      (match first with
      | .ok _ => (asked.flatMap (·.texts)).filter (filter.Targets ·)
      | .error _ => []) ∧
    ((∃ call ∈ asked, call.Needs filter) → run.2.loader.2 = [first]) ∧
    ((¬ ∃ call ∈ asked, call.Needs filter) → run.2.loader.2 = []) := by
  intro first run
  have hfresh : Stands kind filter loader False [] (new filter (loader, [])) (new filter loader) :=
    .fresh not_false rfl
  obtain ⟨rows, answers, a, b, ha, hb, heach, hstands⟩ := hfresh.session asked
  have hrun : run = (answers, a) := ha
  have hcalled : rows.map (·.text) =
      calledOn filter (Stands.first kind loader) (asked.flatMap (·.texts)) := by
    rw [heach.map_eq (fun call => calledOn filter (Stands.first kind loader) call.texts)
      fun _ _ _ h => h.called, flatMap_calledOn]
  rw [hrun, hb, hstands.record_eq, List.nil_append]
  refine ⟨rfl, heach, hcalled.trans ?_, ?_⟩
  · change calledOn filter (first.map fun _ => ()) _ = _
    cases first <;> rfl
  · have hloads := hstands.loads_eq
    rwa [false_or] at hloads

end Analyzer

end TokenizerHost
