import Mathlib.Tactic.SplitIfs
import TokenizerHost.Console

set_option autoImplicit false

namespace TokenizerHost

/-- Bytes are some lines, each with a newline after it, and a rest in which there is none. -/
structure CutInto (bytes : List UInt8) (lines : List (List UInt8)) (rest : List UInt8) : Prop where
  whole : bytes = lines.flatMap (· ++ [0x0A]) ++ rest
  unbroken : ∀ line ∈ lines, 0x0A ∉ line
  unfinished : 0x0A ∉ rest

section Cutting

variable {bytes more rest rest' : List UInt8} {lines lines' : List (List UInt8)}

theorem splitLines_newline (bytes : List UInt8) :
    splitLines (0x0A :: bytes) = ([] :: (splitLines bytes).1, (splitLines bytes).2) := rfl

theorem splitLines_cons_nil {b : UInt8} (hb : b ≠ 0x0A) (h : splitLines bytes = ([], rest)) :
    splitLines (b :: bytes) = ([], b :: rest) := by
  simp only [splitLines, h, if_neg hb]

theorem splitLines_cons_cons {b : UInt8} {line : List UInt8} (hb : b ≠ 0x0A)
    (h : splitLines bytes = (line :: lines, rest)) :
    splitLines (b :: bytes) = ((b :: line) :: lines, rest) := by
  simp only [splitLines, h, if_neg hb]

theorem splitLines_of_not_mem (h : 0x0A ∉ bytes) : splitLines bytes = ([], bytes) := by
  induction bytes with
  | nil => rfl
  | cons b bytes ih =>
    rw [List.mem_cons, not_or] at h
    exact splitLines_cons_nil (Ne.symm h.1) (ih h.2)

theorem splitLines_line {line : List UInt8} (h : 0x0A ∉ line) (more : List UInt8) :
    splitLines (line ++ 0x0A :: more) = (line :: (splitLines more).1, (splitLines more).2) := by
  induction line with
  | nil => exact splitLines_newline more
  | cons b line ih =>
    rw [List.mem_cons, not_or] at h
    exact splitLines_cons_cons (Ne.symm h.1) (ih h.2)

theorem cutInto_splitLines (bytes : List UInt8) :
    CutInto bytes (splitLines bytes).1 (splitLines bytes).2 := by
  induction bytes with
  | nil => exact ⟨rfl, nofun, nofun⟩
  | cons b bytes ih =>
    obtain ⟨hwhole, hunbroken, hunfinished⟩ := ih
    by_cases hb : b = 0x0A
    · subst hb
      rw [splitLines_newline]
      refine ⟨?_, List.forall_mem_cons.2 ⟨nofun, hunbroken⟩, hunfinished⟩
      exact congrArg (0x0A :: ·) hwhole
    -- any other byte belongs to the first line if that is finished, else to the rest
    · cases hcut : splitLines bytes with
      | mk lines rest =>
        rw [hcut] at hwhole hunbroken hunfinished
        cases lines with
        | nil =>
          rw [splitLines_cons_nil hb hcut]
          refine ⟨congrArg (b :: ·) hwhole, nofun, ?_⟩
          exact List.not_mem_cons_of_ne_of_not_mem (Ne.symm hb) hunfinished
        | cons line lines =>
          obtain ⟨hline, hlines⟩ := List.forall_mem_cons.1 hunbroken
          rw [splitLines_cons_cons hb hcut]
          refine ⟨congrArg (b :: ·) hwhole, List.forall_mem_cons.2 ⟨?_, hlines⟩, hunfinished⟩
          exact List.not_mem_cons_of_ne_of_not_mem (Ne.symm hb) hline

theorem cutInto_iff : CutInto bytes lines rest ↔ splitLines bytes = (lines, rest) := by
  constructor
  · rintro ⟨rfl, hunbroken, hunfinished⟩
    induction lines with
    | nil => exact splitLines_of_not_mem hunfinished
    | cons line lines ih =>
      obtain ⟨hline, hlines⟩ := List.forall_mem_cons.1 hunbroken
      rw [List.flatMap_cons, List.append_assoc, List.append_assoc, List.singleton_append,
        splitLines_line hline, ih hlines]
  · intro h
    have hcut := cutInto_splitLines bytes
    rwa [h] at hcut

theorem CutInto.unique (h : CutInto bytes lines rest) (h' : CutInto bytes lines' rest') :
    lines = lines' ∧ rest = rest' :=
  Prod.mk.inj ((cutInto_iff.1 h).symm.trans (cutInto_iff.1 h'))

theorem CutInto.append (h : CutInto bytes lines rest) (h' : CutInto (rest ++ more) lines' rest') :
    CutInto (bytes ++ more) (lines ++ lines') rest' := by
  refine ⟨?_, List.forall_mem_append.2 ⟨h.unbroken, h'.unbroken⟩, h'.unfinished⟩
  rw [h.whole, List.append_assoc, h'.whole, List.flatMap_append, List.append_assoc]

end Cutting

theorem toList_loop (bytes : ByteArray) (i : Nat) (read : List UInt8) :
    ByteArray.toList.loop bytes i read = read.reverse ++ bytes.data.toList.drop i := by
  have hlength : bytes.data.toList.length = bytes.size := Array.length_toList
  induction i, read using ByteArray.toList.loop.induct bytes with
  | case1 i read hi ih =>
    have hin : i < bytes.data.toList.length := by omega
    have hbyte : bytes.get! i = bytes.data.toList[i] := getElem!_pos bytes.data i hi
    rw [ByteArray.toList.loop, if_pos hi, ih, List.drop_eq_getElem_cons hin, ← hbyte,
      List.reverse_cons, List.append_assoc, List.singleton_append]
  | case2 i read hi =>
    rw [ByteArray.toList.loop, if_neg hi, List.drop_of_length_le (by omega), List.append_nil]

theorem toList_eq_data_toList (bytes : ByteArray) : bytes.toList = bytes.data.toList :=
  toList_loop bytes 0 []

namespace Console

variable {c : Console} {stream other : Int} {bytes : List UInt8}

def IsStream (stream : Int) : Prop := stream = 1 ∨ stream = 2

def printed (c : Console) (stream : Int) : List String :=
  (c.lines.toList.filter (·.stream = stream)).map (·.text)

/-- What a console has printed for a stream, and what it keeps, is what the bytes fall into. -/
def Shows (c : Console) (stream : Int) (bytes : List UInt8) : Prop :=
  ∃ lines, CutInto bytes lines (c.pending stream) ∧ c.printed stream = lines.map lineText

theorem Shows.congr {c' : Console} (h : c.Shows stream bytes)
    (hpending : c'.pending stream = c.pending stream) (hprinted : c'.printed stream = c.printed stream) :
    c'.Shows stream bytes := by
  rw [Shows, hpending, hprinted]
  exact h

theorem printed_print (c : Console) (stream other : Int) (lines : List (List UInt8)) :
    (c.print stream lines).printed other =
      c.printed other ++ if stream = other then lines.map lineText else [] := by
  rw [printed, print, Array.toList_append, List.filter_append, List.map_append]
  refine congrArg (c.printed other ++ ·) ?_
  have hstream : ∀ line ∈ lines.map fun bytes => ConsoleLine.mk stream (lineText bytes),
      line.stream = stream := by
    intro line hline
    obtain ⟨_, -, rfl⟩ := List.mem_map.1 hline
    rfl
  rw [List.toList_toArray]
  by_cases hsame : stream = other
  · rw [if_pos hsame, List.filter_eq_self.2 fun line hline => by simp [hstream line hline, hsame],
      List.map_map]
    rfl
  · rw [if_neg hsame,
      List.filter_eq_nil_iff.2 fun line hline => by simp [hstream line hline, hsame]]
    rfl

theorem lines_setPending (c : Console) (stream : Int) (bytes : List UInt8) :
    (c.setPending stream bytes).lines = c.lines := by
  unfold setPending
  split
  · rfl
  · split
    · rfl
    · rfl

theorem printed_setPending (c : Console) (stream other : Int) (bytes : List UInt8) :
    (c.setPending stream bytes).printed other = c.printed other := by
  rw [printed, lines_setPending, printed]

theorem pending_setPending (hstream : IsStream stream) (c : Console) (bytes : List UInt8) :
    (c.setPending stream bytes).pending other = if stream = other then bytes else c.pending other := by
  rcases hstream with rfl | rfl
  · by_cases hother : other = 1
    · simp [setPending, pending, hother]
    · simp [setPending, pending, hother, Ne.symm hother]
  · by_cases hother : other = 2
    · simp [setPending, pending, hother]
    · simp [setPending, pending, hother, Ne.symm hother]

theorem write_of_isStream (hstream : IsStream stream) (c : Console) (bytes : ByteArray) :
    c.write stream bytes = (.ok bytes.size,
      (c.print stream (splitLines (c.pending stream ++ bytes.data.toList)).1).setPending stream
        (splitLines (c.pending stream ++ bytes.data.toList)).2) := by
  have hwrite : stream = 1 ∨ stream = 2 := hstream
  rw [write, write?, if_pos hwrite, toList_eq_data_toList]

theorem write_of_not_isStream (hstream : ¬ IsStream stream) (c : Console) (bytes : ByteArray) :
    c.write stream bytes = (.error (.unsupported s!"write to fd {stream}"), c) := by
  have hnone : c.write? stream bytes = none := if_neg hstream
  rw [write, hnone]

def added (stream other : Int) (bytes : ByteArray) : List UInt8 :=
  if stream = other then bytes.data.toList else []

theorem Shows.write (h : c.Shows other bytes) (hother : IsStream other) (stream : Int)
    (more : ByteArray) : (c.write stream more).2.Shows other (bytes ++ added stream other more) := by
  rw [added]
  by_cases hsame : stream = other
  · subst hsame
    obtain ⟨lines, hcut, hprinted⟩ := h
    rw [if_pos rfl, write_of_isStream hother]
    refine ⟨lines ++ (splitLines (c.pending stream ++ more.data.toList)).1, ?_, ?_⟩
    · rw [pending_setPending hother, if_pos rfl]
      exact hcut.append (cutInto_splitLines _)
    · rw [printed_setPending, printed_print, if_pos rfl, hprinted, List.map_append]
  · rw [if_neg hsame, List.append_nil]
    by_cases hstream : IsStream stream
    · rw [write_of_isStream hstream]
      refine h.congr ?_ ?_
      · rw [pending_setPending hstream, if_neg hsame]
        rfl
      · rw [printed_setPending, printed_print, if_neg hsame, List.append_nil]
    · rw [write_of_not_isStream hstream]
      exact h

/-- Writes bytes to streams, whether the writes succeed or not. -/
def writeAll (c : Console) (writes : List (Int × ByteArray)) : Console :=
  writes.foldl (fun c w => (c.write w.1 w.2).2) c

def written (writes : List (Int × ByteArray)) (stream : Int) : List UInt8 :=
  writes.flatMap fun w => added w.1 stream w.2

theorem Shows.writeAll (h : c.Shows stream bytes) (hstream : IsStream stream)
    (writes : List (Int × ByteArray)) :
    (c.writeAll writes).Shows stream (bytes ++ written writes stream) := by
  induction writes generalizing c bytes with
  | nil =>
    rw [written, List.flatMap_nil, List.append_nil]
    exact h
  | cons w writes ih =>
    rw [written, List.flatMap_cons, ← List.append_assoc]
    exact ih (h.write hstream w.1 w.2)

theorem shows_empty (stream : Int) : empty.Shows stream [] := by
  have hpending : empty.pending stream = [] := by
    unfold pending
    split
    · rfl
    · split <;> rfl
  exact ⟨[], by rw [hpending]; exact ⟨rfl, nofun, nofun⟩, rfl⟩

def unfinished (c : Console) (stream : Int) : List String :=
  if c.pending stream = [] then [] else [lineText (c.pending stream)]

theorem flushStream_cases (c : Console) (stream : Int) :
    (c.pending stream = [] ∧ c.flushStream stream = c) ∨
      c.flushStream stream = (c.print stream [c.pending stream]).setPending stream [] := by
  cases hpending : c.pending stream with
  | nil => exact .inl ⟨rfl, by simp only [flushStream, hpending]⟩
  | cons b rest => exact .inr (by simp only [flushStream, hpending])

theorem pending_flushStream (hstream : IsStream stream) (c : Console) :
    (c.flushStream stream).pending other = if stream = other then [] else c.pending other := by
  rcases c.flushStream_cases stream with ⟨hnone, h⟩ | h
  · rw [h]
    split
    next hsame => rw [← hsame, hnone]
    next => rfl
  · rw [h, pending_setPending hstream]
    rfl

theorem printed_flushStream (c : Console) (stream other : Int) :
    (c.flushStream stream).printed other =
      c.printed other ++ if stream = other then c.unfinished stream else [] := by
  rw [unfinished]
  rcases c.flushStream_cases stream with ⟨hnone, h⟩ | h
  · rw [h, if_pos hnone, ite_self, List.append_nil]
  · by_cases hnone : c.pending stream = []
    · have hkept : c.flushStream stream = c := by simp only [flushStream, hnone]
      rw [hkept, if_pos hnone, ite_self, List.append_nil]
    · rw [h, if_neg hnone, printed_setPending, printed_print]
      rfl

theorem pending_flush (c : Console) (stream : Int) : c.flush.pending stream = [] := by
  rw [flush, pending_flushStream (.inr rfl), pending_flushStream (.inl rfl)]
  unfold pending
  split_ifs <;> simp_all

/-- A flush prints the rest of each stream, if there is any. -/
theorem printed_flush (c : Console) (stream : Int) :
    c.flush.printed stream = c.printed stream ++ c.unfinished stream := by
  have htwo : (c.flushStream 1).unfinished 2 = c.unfinished 2 := by
    have hpending : (c.flushStream 1).pending 2 = c.pending 2 :=
      (pending_flushStream (.inl rfl) c).trans (if_neg (by decide))
    rw [unfinished, unfinished, hpending]
  rw [flush, printed_flushStream, printed_flushStream, htwo, List.append_assoc]
  refine congrArg (c.printed stream ++ ·) ?_
  by_cases hone : stream = 1
  · subst hone
    simp
  · by_cases hstream : stream = 2
    · subst hstream
      simp
    · simp [unfinished, pending, hone, hstream, Ne.symm hone, Ne.symm hstream]

theorem isStream_of_mem_lines (writes : List (Int × ByteArray)) {c : Console}
    (h : ∀ line ∈ c.lines, IsStream line.stream) :
    ∀ line ∈ (c.writeAll writes).lines, IsStream line.stream := by
  induction writes generalizing c with
  | nil => exact h
  | cons w writes ih =>
    refine ih fun line hline => ?_
    dsimp only at hline
    by_cases hstream : IsStream w.1
    · rw [write_of_isStream hstream, lines_setPending, print, Array.mem_append] at hline
      rcases hline with hold | hnew
      · exact h line hold
      · rw [List.mem_toArray] at hnew
        obtain ⟨_, -, rfl⟩ := List.mem_map.1 hnew
        exact hstream
    · rw [write_of_not_isStream hstream] at hline
      exact h line hline

/-- Output does not depend on how it is divided among writes. After any writes to a new console, a
stream's printed lines are the texts of the lines into which all its bytes fall, and what is kept is
their rest. A flush prints the rest, if there is any, as a line more, and keeps nothing. A write takes
all of its bytes, or there is no such stream and it changes nothing. -/
theorem output_is_cut_at_newlines (writes : List (Int × ByteArray)) :
    let c : Console := empty.writeAll writes
    (∀ stream, IsStream stream → ∃ lines rest, CutInto (written writes stream) lines rest ∧
      c.printed stream = lines.map lineText ∧ c.pending stream = rest ∧
      c.flush.printed stream =
        lines.map lineText ++ (if rest = [] then [] else [lineText rest]) ∧
      c.flush.pending stream = []) ∧
    (∀ writes' stream, IsStream stream → written writes' stream = written writes stream →
      (empty.writeAll writes').printed stream = c.printed stream ∧
      (empty.writeAll writes').pending stream = c.pending stream) ∧
    (∀ line ∈ c.lines, IsStream line.stream) ∧
    ∀ stream bytes,
      (IsStream stream → (c.write stream bytes).1 = .ok bytes.size) ∧
      (¬ IsStream stream →
        c.write stream bytes = (.error (.unsupported s!"write to fd {stream}"), c)) := by
  intro c
  have hshows : ∀ writes' stream, IsStream stream →
      (empty.writeAll writes').Shows stream (written writes' stream) := fun writes' stream hstream =>
    (shows_empty stream).writeAll hstream writes'
  refine ⟨fun stream hstream => ?_, fun writes' stream hstream hsame => ?_,
    isStream_of_mem_lines writes nofun, fun stream bytes => ⟨fun hstream => ?_, fun hstream => ?_⟩⟩
  · obtain ⟨lines, hcut, hprinted⟩ := hshows writes stream hstream
    refine ⟨lines, c.pending stream, hcut, hprinted, rfl, ?_, pending_flush c stream⟩
    rw [printed_flush, hprinted]
    rfl
  · obtain ⟨lines, hcut, hprinted⟩ := hshows writes stream hstream
    obtain ⟨lines', hcut', hprinted'⟩ := hshows writes' stream hstream
    rw [hsame] at hcut'
    obtain ⟨rfl, hpending⟩ := hcut'.unique hcut
    exact ⟨hprinted'.trans hprinted.symm, hpending⟩
  · rw [write_of_isStream hstream]
  · exact write_of_not_isStream hstream c bytes

end Console

end TokenizerHost
