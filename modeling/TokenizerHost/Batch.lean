import TokenizerHost.Token

namespace TokenizerHost

structure BatchRequest where
  texts : List String
  deriving DecidableEq, Repr, Inhabited

/-- The tokens of one text; none if the text was skipped or could not be analysed. -/
structure AnalysisResult where
  text : String
  tokens : List Token
  deriving DecidableEq, Repr, Inhabited

structure BatchResponse where
  results : List AnalysisResult
  deriving DecidableEq, Repr, Inhabited

namespace AnalysisResult

def clickable (r : AnalysisResult) (symbolMarker : String) : List Token :=
  r.tokens.filter (·.isClickable symbolMarker)

def toJson (r : AnalysisResult) : Json :=
  .record [("text", .string r.text), ("tokens", .array (r.tokens.map Token.toJson))]

def ofJson? (j : Json) : Option AnalysisResult := do
  match ← j.fields? ["text", "tokens"] with
  | [text, tokens] =>
    some ⟨← Json.required Json.string? text, ← Json.required (Json.list? Token.ofJson?) tokens⟩
  | _ => none

end AnalysisResult

namespace BatchRequest

def toJson (r : BatchRequest) : Json := .record [("texts", .array (r.texts.map .string))]

def ofJson? (j : Json) : Option BatchRequest := do
  match ← j.fields? ["texts"] with
  | [texts] => some ⟨← Json.required (Json.list? Json.string?) texts⟩
  | _ => none

end BatchRequest

namespace BatchResponse

def toJson (r : BatchResponse) : Json :=
  .record [("results", .array (r.results.map AnalysisResult.toJson))]

def ofJson? (j : Json) : Option BatchResponse := do
  match ← j.fields? ["results"] with
  | [results] => some ⟨← Json.required (Json.list? AnalysisResult.ofJson?) results⟩
  | _ => none

def words (r : BatchResponse) (symbolMarker : String) : String :=
  String.join (r.results.map fun result =>
    " ".intercalate ((result.clickable symbolMarker).map (·.surfaceForm)) ++ "\n")

end BatchResponse

end TokenizerHost
