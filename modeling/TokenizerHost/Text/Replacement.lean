namespace TokenizerHost.Text

def secondByteRange (first : UInt8) : UInt8 × UInt8 :=
  if first == 0xE0 then (0xA0, 0xBF)
  else if first == 0xED then (0x80, 0x9F)
  else if first == 0xF0 then (0x90, 0xBF)
  else if first == 0xF4 then (0x80, 0x8F)
  else (0x80, 0xBF)

/-- How many bytes a character takes, by its first byte; 1 for a byte that begins none. -/
def announcedWidth (first : UInt8) : Nat :=
  if 0xC2 ≤ first && first ≤ 0xDF then 2
  else if 0xE0 ≤ first && first ≤ 0xEF then 3
  else if 0xF0 ≤ first && first ≤ 0xF4 then 4
  else 1

/-- The number of bytes at `i` that one replacement stands for, where no character is encoded. -/
def brokenWidth (bytes : ByteArray) (i : Nat) : Nat :=
  match bytes[i]? with
  | none => 1
  | some first =>
    let width := announcedWidth first
    let (low, high) := secondByteRange first
    let continues (k : Nat) (low high : UInt8) : Bool :=
      match bytes[i + k]? with
      | some b => low ≤ b && b ≤ high
      | none => false
    if width < 2 || !continues 1 low high then 1
    else if width < 3 || !continues 2 0x80 0xBF then 2
    else 3

theorem brokenWidth_pos (bytes : ByteArray) (i : Nat) : 0 < brokenWidth bytes i := by
  unfold brokenWidth
  split
  · decide
  · dsimp only
    split
    · decide
    · split <;> decide

def replaceFrom (bytes : ByteArray) (i : Nat) (read : String) : String :=
  if i < bytes.size then
    match bytes.utf8DecodeChar? i with
    | some c => replaceFrom bytes (i + c.utf8Size) (read.push c)
    | none => replaceFrom bytes (i + brokenWidth bytes i) (read.push '\ufffd')
  else read
  termination_by bytes.size - i
  decreasing_by
    · have := c.utf8Size_pos
      omega
    · have := brokenWidth_pos bytes i
      omega

def ofBytes (bytes : ByteArray) : String :=
  (String.fromUTF8? bytes).getD (replaceFrom bytes 0 "")

@[simp] theorem ofBytes_toByteArray (s : String) : ofBytes s.toByteArray = s := by
  have h : s.toByteArray.IsValidUTF8 := s.isValidUTF8
  simp [ofBytes, String.fromUTF8?, h, String.fromUTF8]

theorem ofBytes_idem (bytes : ByteArray) : ofBytes (ofBytes bytes).toByteArray = ofBytes bytes :=
  ofBytes_toByteArray _

end TokenizerHost.Text
