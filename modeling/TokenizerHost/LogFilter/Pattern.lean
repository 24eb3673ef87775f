import TokenizerHost.Text.Alphanumeric

namespace TokenizerHost.LogFilter

def isHexDigit (c : Char) : Bool := c.isDigit || ('a' ≤ c && c ≤ 'f') || ('A' ≤ c && c ≤ 'F')

def hexDigit (c : Char) : Nat :=
  if c.isDigit then c.toNat - '0'.toNat else c.toLower.toNat - 'a'.toNat + 10

def codePoint? (width : Nat) (cs : List Char) : Option (Char × List Char) :=
  let ds := cs.take width
  let n := ds.foldl (fun n c => n * 16 + hexDigit c) 0
  if ds.length = width ∧ ds.all isHexDigit ∧ n.isValidChar then
    some (.ofNat n, cs.drop width)
  else none

def escaped? : List Char → Option (Char × List Char)
  | 'x' :: rest => codePoint? 2 rest
  | 'u' :: rest => codePoint? 4 rest
  | 'U' :: rest => codePoint? 8 rest
  | 'a' :: rest => some ('\x07', rest)
  | 'f' :: rest => some ('\x0c', rest)
  | 'n' :: rest => some ('\n', rest)
  | 'r' :: rest => some ('\r', rest)
  | 't' :: rest => some ('\t', rest)
  | 'v' :: rest => some ('\x0b', rest)
  | c :: rest =>
    if c.toNat < 0x80 && !c.isAlphanum && c != '<' && c != '>' then some (c, rest) else none
  | [] => none

def classNames : List String :=
  ["alnum", "alpha", "ascii", "blank", "cntrl", "digit", "graph", "lower", "print", "punct", "space",
    "upper", "word", "xdigit"]

/-- What follows a class in a class that is named between colons, after its bracket. -/
def namedClass? : List Char → Option (List Char)
  | ':' :: rest =>
    let rest := match rest with
      | '^' :: rest => rest
      | rest => rest
    match rest.dropWhile (· != ':') with
    | ':' :: ']' :: after =>
      if classNames.contains (String.ofList (rest.takeWhile (· != ':'))) then some after else none
    | _ => none
  | _ => none

/-- What follows the opening of a class: a circumflex, then hyphens or a closing bracket that stand
for themselves. -/
def classItems (cs : List Char) : List Char :=
  let cs := match cs with
    | '^' :: rest => rest
    | cs => cs
  match cs with
  | ']' :: rest => rest
  | cs => cs.dropWhile (· == '-')

def classChar? : List Char → Option (Char × List Char)
  | '\\' :: rest => escaped? rest
  | c :: rest => some (c, rest)
  | [] => none

/-- What follows a class, in which `depth` more are open. -/
def classEnd? : (fuel depth : Nat) → List Char → Option (List Char)
  | 0, _, _ => none
  | fuel + 1, depth, cs =>
    match cs with
    | ']' :: rest =>
      match depth with
      | 0 => some rest
      | depth + 1 => classEnd? fuel depth rest
    | '[' :: rest =>
      match namedClass? rest with
      | some after => classEnd? fuel depth after
      | none => classEnd? fuel (depth + 1) (classItems rest)
    | '&' :: '&' :: rest => classEnd? fuel depth rest
    | '-' :: '-' :: rest => classEnd? fuel depth rest
    | '~' :: '~' :: rest => classEnd? fuel depth rest
    | cs => do
      let (first, rest) ← classChar? cs
      match rest with
      | '-' :: c :: after =>
        if c = ']' ∨ c = '-' then classEnd? fuel depth rest
        else
          let (last, rest) ← classChar? (c :: after)
          if first ≤ last then classEnd? fuel depth rest else none
      | rest => classEnd? fuel depth rest

/-- Whether flags are good: each at most once, and a minus once and not at the end. -/
def areFlags (cs : List Char) : Bool :=
  cs.all (fun c => "imsUuxR-".contains c) && cs.Nodup && cs.getLast? != some '-'

def isGroupName : List Char → Bool
  | c :: rest =>
    (c == '_' || (Text.isAlphanumeric c && !c.isDigit)) &&
      rest.all fun c => Text.isAlphanumeric c || "_.[]".contains c
  | [] => false

/-- What follows the opening of a group, after its parenthesis, and whether a group is open: flags
may stand in parentheses alone. -/
def groupStart? : List Char → Option (Bool × List Char)
  | '?' :: rest =>
    let named := match rest with
      | 'P' :: '<' :: rest => some rest
      | '<' :: rest => some rest
      | _ => none
    match named with
    | some rest =>
      match rest.dropWhile (· != '>') with
      | '>' :: after => if isGroupName (rest.takeWhile (· != '>')) then some (true, after) else none
      | _ => none
    | none =>
      let isFlag (c : Char) := c != ':' && c != ')'
      let flags := rest.takeWhile isFlag
      match rest.dropWhile isFlag with
      | ':' :: after => if areFlags flags then some (true, after) else none
      | ')' :: after => if areFlags flags && flags != [] then some (false, after) else none
      | _ => none
  | cs => some (true, cs)

/-- Whether the rest of a pattern is good, where `depth` groups are open. What comes next can be
repeated only if there is an `operand` before it. -/
def isPatternRest : (fuel depth : Nat) → (operand : Bool) → List Char → Bool
  | 0, _, _, _ => false
  | fuel + 1, depth, operand, cs =>
    match cs with
    | [] => depth == 0
    | '(' :: rest =>
      match groupStart? rest with
      | some (true, rest) => isPatternRest fuel (depth + 1) false rest
      | some (false, rest) => isPatternRest fuel depth false rest
      | none => false
    | ')' :: rest =>
      match depth with
      | 0 => false
      | depth + 1 => isPatternRest fuel depth true rest
    | '[' :: rest =>
      match classEnd? (rest.length + 1) 0 (classItems rest) with
      | some rest => isPatternRest fuel depth true rest
      | none => false
    | '\\' :: 'A' :: rest => isPatternRest fuel depth true rest
    | '\\' :: 'z' :: rest => isPatternRest fuel depth true rest
    | '\\' :: rest =>
      match escaped? rest with
      | some (_, rest) => isPatternRest fuel depth true rest
      | none => false
    | c :: rest =>
      if c = '\x7b' then false
      else if c = '|' then isPatternRest fuel depth false rest
      else if c = '*' ∨ c = '+' ∨ c = '?' then
        operand && isPatternRest fuel depth true
          (match rest with
            | '?' :: rest => rest
            | rest => rest)
      else isPatternRest fuel depth true rest

def isPattern (text : String) : Bool :=
  let cs := text.toList
  isPatternRest (cs.length + 1) 0 false cs

def isUnsigned (cs : List Char) : Bool :=
  let whole := cs.takeWhile Char.isDigit
  let rest := cs.dropWhile Char.isDigit
  let (places, rest) := match rest with
    | '.' :: rest => (rest.takeWhile Char.isDigit, rest.dropWhile Char.isDigit)
    | rest => ([], rest)
  ["inf", "infinity", "nan"].contains (String.ofList (cs.map Char.toLower)) ||
    (!(whole ++ places).isEmpty && isExponent rest)
where
  isExponent : List Char → Bool
    | [] => true
    | c :: rest =>
      let ds := match rest with
        | '+' :: ds => ds
        | '-' :: ds => ds
        | ds => ds
      (c == 'e' || c == 'E') && !ds.isEmpty && ds.all Char.isDigit

/-- Whether a text can be compared with: a number, or a pattern. Only a number may begin with a
plus. -/
def isComparable (text : String) : Bool :=
  match text.toList with
  | '+' :: cs => isUnsigned cs
  | _ => isPattern text

end TokenizerHost.LogFilter
