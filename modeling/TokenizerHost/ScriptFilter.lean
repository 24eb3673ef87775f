namespace TokenizerHost

/-- A range of characters, both ends included. -/
structure CharRange where
  first : Char
  last : Char
  deriving DecidableEq, Repr, Inhabited

namespace CharRange

def contains (r : CharRange) (c : Char) : Bool := r.first ≤ c && c ≤ r.last

end CharRange

structure ScriptFilter where
  ranges : List CharRange
  deriving DecidableEq, Repr, Inhabited

namespace ScriptFilter

def standard : ScriptFilter :=
  ⟨[⟨'\u3040', '\u309f'⟩, ⟨'\u30a0', '\u30ff'⟩, ⟨'\u4e00', '\u9faf'⟩]⟩

def accepts (f : ScriptFilter) (text : String) : Bool :=
  text.toList.any fun c => f.ranges.any (·.contains c)

end ScriptFilter

end TokenizerHost
