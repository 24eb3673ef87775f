namespace TokenizerHost.Text

def decimalChars (n : Nat) : List Char := Nat.toDigits 10 n

/-- The decimal text of an integer: a minus sign before a negative one, no leading zeros. -/
def decimal (i : Int) : String :=
  String.ofList (if i < 0 then '-' :: decimalChars i.natAbs else decimalChars i.natAbs)

def natOfDigits (ds : List Char) : Nat := ds.foldl (fun n c => n * 10 + (c.toNat - '0'.toNat)) 0

end TokenizerHost.Text
