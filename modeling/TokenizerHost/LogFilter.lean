import TokenizerHost.LogFilter.Pattern
import TokenizerHost.Text.Blank
import TokenizerHost.Text.Digits

/-!
# Log filters

A filter is a list of directives. A directive is a level, or a target, a span in brackets or both,
perhaps with a level after an equals sign. A span is a name, perhaps with a list of fields in
braces. A target and a span may have any name, but a target begins with a letter, a number or one of
three signs. A comma may end a directive.

White space around a directive does not count where its parts are told apart. The parts are cut out
of the whole text all the same, at the positions that they have without it, so a level has no
white space before it or after it.
-/

namespace TokenizerHost.LogFilter

/-- The part of a text between two positions, which count bytes. -/
def cut? (text : String) (start finish : Nat) : Option String :=
  String.fromUTF8? (text.toUTF8.extract start finish)

def levelNames : List String := ["trace", "debug", "info", "warn", "error", "off"]

/-- Whether digits, which may be many, denote one of the levels, 0 to 5. -/
def isLevelNumber (cs : List Char) : Bool :=
  let ds := match cs with
    | '+' :: ds => ds
    | ds => ds
  !ds.isEmpty && ds.all Char.isDigit && decide (Text.natOfDigits ds ≤ 5)

def isLevel (text : String) : Bool :=
  levelNames.contains (text.map Char.toLower) || isLevelNumber text.toList

def isLevelAt (text : String) (start finish : Nat) : Bool :=
  (cut? text start finish).any fun level => level == "" || isLevel level

def isLevelPart (text : String) (start pos : Nat) : List Char → Bool
  | [] => isLevelAt text start text.utf8ByteSize
  | c :: rest =>
    if c = ',' then rest.isEmpty && isLevelAt text start pos
    else isLevelPart text start (pos + c.utf8Size) rest

def endsAfterSpan (text : String) (pos : Nat) : List Char → Bool
  | [] => true
  | '=' :: rest => isLevelPart text (pos + 1) (pos + 1) rest
  | _ => false

def isFieldAt (text : String) (start finish : Nat) : Bool :=
  match (cut? text start finish).map (·.splitOn "=") with
  | some (_ :: value :: _) => isComparable value
  | some _ => decide (start < finish)
  | none => false

/-- Whether a directive goes on with fields, the first of which begins at `start`. -/
def isFieldsPart (text : String) (start pos : Nat) : List Char → Bool
  | [] => false
  | c :: rest =>
    if c = '\x7d' then
      match rest with
      | ']' :: rest => isFieldAt text start pos && endsAfterSpan text (pos + 2) rest
      | _ => false
    else if c = ',' then isFieldAt text start pos && isFieldsPart text (pos + 1) (pos + 1) rest
    else isFieldsPart text start (pos + c.utf8Size) rest

def isSpanPart (text : String) (pos : Nat) : List Char → Bool
  | [] => false
  | c :: rest =>
    if c = ']' then endsAfterSpan text (pos + 1) rest
    else if c = '\x7b' then isFieldsPart text (pos + 1) (pos + 1) rest
    else isSpanPart text (pos + c.utf8Size) rest

/-- Whether a directive goes on with the rest of a target, or of a level that stands alone. -/
def isTargetPart (text : String) (pos : Nat) : List Char → Bool
  | [] => true
  | c :: rest =>
    if c = '=' then isLevelPart text (pos + 1) (pos + 1) rest
    else if c = '[' then isSpanPart text (pos + 1) rest
    else if c = ',' then rest.isEmpty
    else isTargetPart text (pos + c.utf8Size) rest

def beginsTarget (c : Char) : Bool := c == '-' || c == ':' || c == '_' || Text.isAlphanumeric c

def isDirective (text : String) : Bool :=
  match Text.trim text.toList with
  | [] => false
  | '[' :: rest => isSpanPart text 1 rest
  | c :: rest => beginsTarget c && isTargetPart text c.utf8Size rest

/-- Whether a text is a list of directives, which commas separate; empty ones are left out. -/
def isFilter (text : String) : Bool :=
  ((text.splitOn ",").filter (· ≠ "")).all isDirective

end TokenizerHost.LogFilter
