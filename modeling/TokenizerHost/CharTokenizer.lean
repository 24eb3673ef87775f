import TokenizerHost.Analyzer

namespace TokenizerHost

namespace Token

def ofChar (c : Char) : Token where
  surfaceForm := c.toString
  reading := c.toString
  baseForm := c.toString
  pos := if c = '。' then "記号,句点" else if c = '、' then "記号,読点" else "名詞,一般"
  pronunciation := c.toString
  wordId := none
  wordType := none
  wordPosition := none

end Token

structure CharTokenizer where
  failing : List String
  loadError : Option String

namespace CharTokenizer

/-- The kind of tokenizer: the loader's state is how often it was asked, the tokenizer's the texts
it was given. -/
def kind (c : CharTokenizer) : TokenizerKind Nat (List String) where
  load loads :=
    match c.loadError with
    | some reason => (.error (.loadFailure reason), loads + 1)
    | none => (.ok [], loads + 1)
  tokenize text seen :=
    if c.failing.contains text then
      (.error (.analysisFailure ("injected failure for " ++ text)), seen ++ [text])
    else (.ok (text.toList.map Token.ofChar), seen ++ [text])

end CharTokenizer

end TokenizerHost
