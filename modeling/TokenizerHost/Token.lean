import TokenizerHost.Fault
import TokenizerHost.Heap.Text
import TokenizerHost.Json.Record

namespace TokenizerHost

structure Token where
  surfaceForm : String
  reading : String
  /-- The form under which a dictionary lists the token. -/
  baseForm : String
  /-- The parts of speech, from the widest to the narrowest, joined by commas. -/
  pos : String
  pronunciation : String
  wordId : Option Int
  wordType : Option String
  wordPosition : Option Int
  deriving DecidableEq, Repr, Inhabited

/-- The part of speech of symbols and punctuation. -/
def defaultSymbolMarker : String := "記号"

namespace Token

/-- Whether a token is a word: one whose part of speech does not begin with the marker. -/
def isClickable (t : Token) (symbolMarker : String) : Bool := !symbolMarker.toList.isPrefixOf t.pos.toList

def textOf (h : Heap) (v : Value) : Except Fault String :=
  match h.text? v with
  | some text => .ok text
  | none => .error .stackExhausted

/-- The text of a property. What is `undefined` or `null` reads as empty. -/
def textField (h : Heap) (v : Value) (key : String) : Except Fault String :=
  let field := h.get v key
  if field.isNullish then .ok "" else textOf h field

def posField (h : Heap) (v : Value) : Except Fault String :=
  match h.elements? (h.get v "pos") with
  | some parts => (parts.toList.mapM (textOf h)).map (",".intercalate ·)
  | none => textField h v "pos"

/-- An integer property, moved to the nearest integer of 64 bits. -/
def intField (h : Heap) (v : Value) (key : String) : Option Int :=
  ((h.get v key).number?.bind Double.toInt?).map fun n =>
    max Int64.minValue.toInt (min Int64.maxValue.toInt n)

/-- The token that an object describes; no other value describes one. -/
def ofHost? (h : Heap) (v : Value) : Except Fault (Option Token) :=
  match v with
  | .object _ => do
    let surfaceForm ← textField h v "surface_form"
    let reading ← textField h v "reading"
    let baseForm ← textField h v "base_form"
    let pos ← posField h v
    let pronunciation ← textField h v "pronunciation"
    let wordType ← textField h v "word_type"
    return some {
      surfaceForm, reading, baseForm, pos, pronunciation
      wordId := intField h v "word_id"
      wordType := if wordType.isEmpty then none else some wordType
      wordPosition := intField h v "word_position" }
  | _ => return none

/-- The tokens in an array; what is no object is left out. -/
def listOfHost (h : Heap) (v : Value) : Except Fault (List Token) := do
  let tokens ← ((h.elements? v).elim [] Elements.toList).mapM (ofHost? h)
  return tokens.filterMap id

def optional {α : Type} (name : String) (write : α → Json) (x : Option α) :
    List (String × Json) :=
  (x.map fun a => (name, write a)).toList

def toJson (t : Token) : Json :=
  .record ([("surface_form", .string t.surfaceForm), ("reading", .string t.reading),
    ("base_form", .string t.baseForm), ("pos", .string t.pos),
    ("pronunciation", .string t.pronunciation)] ++
      optional "word_id" .integer t.wordId ++ optional "word_type" .string t.wordType ++
      optional "word_position" .integer t.wordPosition)

def fieldNames : List String :=
  ["surface_form", "reading", "base_form", "pos", "pronunciation", "word_id", "word_type",
    "word_position"]

def ofJson? (j : Json) : Option Token := do
  match ← j.fields? fieldNames with
  | [surfaceForm, reading, baseForm, pos, pronunciation, wordId, wordType, wordPosition] =>
    some {
      surfaceForm := ← Json.required Json.string? surfaceForm
      reading := ← Json.orElse "" Json.string? reading
      baseForm := ← Json.orElse "" Json.string? baseForm
      pos := ← Json.orElse "" Json.string? pos
      pronunciation := ← Json.orElse "" Json.string? pronunciation
      wordId := ← Json.orElse none (Json.nullable? Json.int64?) wordId
      wordType := ← Json.orElse none (Json.nullable? Json.string?) wordType
      wordPosition := ← Json.orElse none (Json.nullable? Json.int64?) wordPosition }
  | _ => none

end Token

end TokenizerHost
