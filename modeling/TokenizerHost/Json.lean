import TokenizerHost.Text.Digits

/-!
# JSON values and their text

`Json` keeps what a reader of typed messages needs to know about a document: members in order and
with repetitions, integers apart from numbers written with a fraction or an exponent, and texts
that escape half of a surrogate pair apart from texts that denote characters.

`compact` writes a value without blanks, `pretty` with two blanks of indentation a level.
-/

namespace TokenizerHost

inductive Json where
  | null
  | bool (b : Bool)
  | integer (n : Int)
  /-- Any other number. -/
  | fraction
  | string (s : String)
  /-- A text with an escape that is half of a surrogate pair. -/
  | brokenString
  | array (items : List Json)
  /-- Members in order; a name is `none` where it is a broken text. -/
  | object (members : List (Option String × Json))
  deriving Inhabited

namespace Json

def record (members : List (String × Json)) : Json :=
  .object (members.map fun (k, v) => (some k, v))

def member? (j : Json) (name : String) : Option Json :=
  match j with
  | .object members => (members.reverse.find? fun m => m.1 == some name).map (·.2)
  | _ => none

def hexDigit (n : Nat) : Char := Nat.digitChar (n % 16)

/-- One character of a text between its quotes. Only quotes, backslashes and the controls below
0x20 are escaped. -/
def escapeChar (c : Char) : List Char :=
  if c = '"' then ['\\', '"']
  else if c = '\\' then ['\\', '\\']
  else if c = '\x08' then ['\\', 'b']
  else if c = '\t' then ['\\', 't']
  else if c = '\n' then ['\\', 'n']
  else if c = '\x0c' then ['\\', 'f']
  else if c = '\r' then ['\\', 'r']
  else if c.toNat < 0x20 then ['\\', 'u', '0', '0', hexDigit (c.toNat / 16), hexDigit c.toNat]
  else [c]

def stringChars (s : String) : List Char := '"' :: (s.toList.flatMap escapeChar ++ ['"'])

mutual

/-- The text of a value without blanks. A `fraction` and a broken text have lost their spelling
and are written as `null`. -/
def chars : Json → List Char
  | .null => "null".toList
  | .bool true => "true".toList
  | .bool false => "false".toList
  | .integer n => (Text.decimal n).toList
  | .fraction => "null".toList
  | .string s => stringChars s
  | .brokenString => "null".toList
  | .array items => '[' :: itemChars items
  | .object members => '\x7b' :: memberChars members

def itemChars : List Json → List Char
  | [] => [']']
  | [v] => chars v ++ [']']
  | v :: rest => chars v ++ ',' :: itemChars rest

def memberChars : List (Option String × Json) → List Char
  | [] => ['\x7d']
  | [(k, v)] => stringChars (k.getD "") ++ ':' :: (chars v ++ ['\x7d'])
  | (k, v) :: rest => stringChars (k.getD "") ++ ':' :: (chars v ++ ',' :: memberChars rest)

end

def compact (j : Json) : String := String.ofList j.chars

def newline (level : Nat) : List Char := '\n' :: List.replicate (2 * level) ' '

mutual

def prettyChars (level : Nat) : Json → List Char
  | .array [] => "[]".toList
  | .object [] => ['\x7b', '\x7d']
  | .array items => '[' :: (newline (level + 1) ++ prettyItems level items)
  | .object members => '\x7b' :: (newline (level + 1) ++ prettyMembers level members)
  | other => chars other

def prettyItems (level : Nat) : List Json → List Char
  | [] => newline level ++ [']']
  | [v] => prettyChars (level + 1) v ++ (newline level ++ [']'])
  | v :: rest => prettyChars (level + 1) v ++ ',' :: (newline (level + 1) ++ prettyItems level rest)

def prettyMembers (level : Nat) : List (Option String × Json) → List Char
  | [] => newline level ++ ['\x7d']
  | [(k, v)] =>
    stringChars (k.getD "") ++ ':' :: ' ' ::
      (prettyChars (level + 1) v ++ (newline level ++ ['\x7d']))
  | (k, v) :: rest =>
    stringChars (k.getD "") ++ ':' :: ' ' :: (prettyChars (level + 1) v ++
      ',' :: (newline (level + 1) ++ prettyMembers level rest))

end

/-- A value over several lines, two blanks a level; empty containers stay on one line. -/
def pretty (j : Json) : String := String.ofList (j.prettyChars 0)

end Json

end TokenizerHost
