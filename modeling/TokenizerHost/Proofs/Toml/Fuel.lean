import TokenizerHost.Proofs.Toml.Readers

set_option autoImplicit false

/-!
# The fuel of the reader is no limit

A reader that succeeds needs no more fuel than the characters it takes (`Thrifty`), since each step of
the recursion takes one. So all fuels that are not less than what there is to read lead to the same
result (`Thrifty.congr`), and a document is read in the same way on any of them (`readLines_congr`).
-/

namespace TokenizerHost.Toml

section Thrifty

variable {α β : Type} {taken : α → List Char} {left : β → List Char} {cs cs' : List Char}
  {first : Nat → Option α} {read : Nat → Option β} {fuel : Nat}

/-- If there is a result on this fuel, it leaves fewer characters than were given, and there is the
same on every fuel not less than the characters taken. -/
def Thrifty (left : β → List Char) (cs : List Char) (read : Nat → Option β) (fuel : Nat) : Prop :=
  ∀ r, read fuel = some r → (left r).length < cs.length ∧
    ∀ fuel', cs.length ≤ (left r).length + fuel' → read fuel' = some r

namespace Thrifty

theorem congr {fuel' : Nat} (h : Thrifty left cs read fuel) (h' : Thrifty left cs read fuel')
    (hfuel : cs.length ≤ fuel) (hfuel' : cs.length ≤ fuel') : read fuel = read fuel' := by
  cases hread : read fuel with
  | some r => exact ((h r hread).2 fuel' (by omega)).symm
  | none =>
    cases hread' : read fuel' with
    | none => rfl
    | some r => cases hread.symm.trans ((h' r hread').2 fuel (by omega))

theorem mono (h : Thrifty left cs read fuel) (hle : cs.length ≤ cs'.length) :
    Thrifty left cs' read fuel := by
  intro r hr
  obtain ⟨hless, hsame⟩ := h r hr
  exact ⟨by omega, fun fuel' hfuel' => hsame fuel' (by omega)⟩

theorem of_none (hread : read fuel = none) : Thrifty left cs read fuel := by
  intro r hr
  cases hread.symm.trans hr

/-- A step takes a character, so it is enough to look at fuels that allow one. -/
theorem of_succ (h : ∀ r, read (fuel + 1) = some r → (left r).length < cs.length ∧
    ∀ fuel', cs.length ≤ (left r).length + (fuel' + 1) → read (fuel' + 1) = some r) :
    Thrifty left cs read (fuel + 1) := by
  intro r hr
  obtain ⟨hless, hsame⟩ := h r hr
  refine ⟨hless, fun fuel' hfuel' => ?_⟩
  cases fuel' with
  | zero => omega
  | succ fuel' => exact hsame fuel' hfuel'

theorem const {s : Option β} (hless : ∀ r, s = some r → (left r).length < cs.length) :
    Thrifty left cs (fun _ => s) fuel := fun r hr => ⟨hless r hr, fun _ _ => hr⟩

theorem const_succ {s : Option β} (hread : ∀ fuel, read (fuel + 1) = s)
    (hless : ∀ r, s = some r → (left r).length < cs.length) : Thrifty left cs read (fuel + 1) := by
  refine of_succ fun r hr => ⟨hless r ((hread fuel).symm.trans hr), fun fuel' _ => ?_⟩
  rw [hread fuel', ← hread fuel, hr]

theorem map {f : α → β} (h : Thrifty taken cs' first fuel) (hless : cs'.length < cs.length)
    (hread : ∀ fuel, read (fuel + 1) = (first fuel).map f) (hleft : ∀ a, left (f a) = taken a) :
    Thrifty left cs read (fuel + 1) := by
  refine of_succ fun r hr => ?_
  rw [hread, Option.map_eq_some_iff] at hr
  obtain ⟨a, ha, rfl⟩ := hr
  obtain ⟨hshorter, hsame⟩ := h a ha
  rw [hleft]
  refine ⟨by omega, fun fuel' hfuel' => ?_⟩
  rw [hread, hsame fuel' (by omega), Option.map_some]

theorem bind {next : Nat → α → Option β} (h : Thrifty taken cs' first fuel)
    (hnext : ∀ a, Thrifty left (taken a) (next · a) fuel) (hle : cs'.length ≤ cs.length)
    (hread : ∀ fuel, read (fuel + 1) = (first fuel).bind (next fuel)) :
    Thrifty left cs read (fuel + 1) := by
  refine of_succ fun r hr => ?_
  rw [hread, Option.bind_eq_some_iff] at hr
  obtain ⟨a, ha, hr⟩ := hr
  obtain ⟨hfirst, hsame⟩ := h a ha
  obtain ⟨hrest, hsameNext⟩ := hnext a r hr
  refine ⟨by omega, fun fuel' hfuel' => ?_⟩
  rw [hread, hsame fuel' (by omega), Option.bind_some]
  exact hsameNext fuel' (by omega)

end Thrifty

end Thrifty

structure ReadersThrifty (fuel : Nat) : Prop where
  value : ∀ depth cs, Thrifty Prod.snd cs (readValue · depth cs) fuel
  items : ∀ depth read cs, Thrifty Prod.snd cs (readItems · depth read cs) fuel
  pairs : ∀ depth read cs, Thrifty Prod.snd cs (readPairs · depth read cs) fuel
  assignment : ∀ depth cs, Thrifty (·.2.2) cs (readAssignment · depth cs) fuel

def readAfterItem (depth : Nat) (read : List Toml) (fuel : Nat) (item : Toml × List Char) :
    Option (List Toml × List Char) :=
  match skipFiller false item.2 with
  | ',' :: rest => readItems fuel depth (item.1 :: read) rest
  | ']' :: rest => some ((item.1 :: read).reverse, rest)
  | _ => none

def readAfterPair (depth : Nat) (read : Entries) (fuel : Nat) (pair : List String × Toml × List Char) :
    Option (Entries × List Char) :=
  match (splitKey? pair.1).bind fun (path, key) => read.assign? path key pair.2.1 .opened with
  | none => none
  | some read =>
    match skipBlanks pair.2.2 with
    | ',' :: rest => readPairs fuel depth read rest
    | '\x7d' :: rest => some (read, rest)
    | _ => none

theorem length_of_map {α β : Type} {f : α → β} {s : Option (α × List Char)} {n : Nat}
    (h : ∀ a rest, s = some (a, rest) → rest.length < n) (r : β × List Char)
    (hr : (s.map fun (a, rest) => (f a, rest)) = some r) : r.2.length < n := by
  obtain ⟨⟨a, rest⟩, ha, rfl⟩ := Option.map_eq_some_iff.1 hr
  exact h a rest ha

theorem readItems_of_open {cs : List Char} (h : ∀ rest, skipFiller false cs ≠ ']' :: rest)
    (fuel depth : Nat) (read : List Toml) : readItems (fuel + 1) depth read cs =
      (readValue fuel depth (skipFiller false cs)).bind (readAfterItem depth read fuel) := by
  rw [readItems]
  split
  next rest hrest => cases h rest hrest
  next => cases readValue fuel depth (skipFiller false cs) <;> rfl

theorem readPairs_succ (fuel depth : Nat) (read : Entries) (cs : List Char) :
    readPairs (fuel + 1) depth read cs =
      (readAssignment fuel depth cs).bind (readAfterPair depth read fuel) := by
  rw [readPairs]
  cases readAssignment fuel depth cs <;> rfl

namespace ReadersThrifty

variable {fuel : Nat}

theorem value_succ (h : ReadersThrifty fuel) (depth : Nat) (cs : List Char) :
    Thrifty Prod.snd cs (readValue · depth cs) (fuel + 1) := by
  -- Only an open array (`case7`) and an open inline table (`case10`) use the fuel.
  generalize hsucc : fuel + 1 = fuel₁
  fun_cases readValue fuel₁ depth cs
  case case1 => cases hsucc
  case case2 | case3 => exact .const_succ (fun _ => by rw [readValue]) (by grind)
  case case4 | case5 =>
    exact .const_succ (fun _ => by rw [readValue]) (length_of_map fun s rest hs => length_of_readText hs)
  case case6 | case8 => exact .const_succ (s := none) (fun _ => by rw [readValue]) (by simp)
  case case7 rest depth =>
    obtain rfl := Nat.succ.inj hsucc
    exact (h.items depth [] rest).map (by simp) (fun _ => by rw [readValue]) fun _ => rfl
  case case9 fuel rest depth after hclosed =>
    have hlength := length_skipBlanks_le rest
    rw [hclosed] at hlength
    exact .const_succ (s := some (.table [], after)) (fun _ => by simp only [readValue, hclosed]) (by grind)
  case case10 rest depth hopen =>
    obtain rfl := Nat.succ.inj hsucc
    exact (h.pairs depth [] (skipBlanks rest)).map (f := fun p => (.table (entriesToToml p.1), p.2))
      (by grind) (fun _ => by simp only [readValue]) fun _ => rfl
  case case11 hdate =>
    refine .const_succ (fun _ => ?_)
      (length_of_map (f := Toml.moment) fun s rest hs => length_of_readDateTime hs)
    simp only [readValue, hdate, if_true]
  case case12 hdate htime =>
    refine .const_succ (fun _ => ?_)
      (length_of_map (f := Toml.moment) (s := readTime 23 cs) fun s rest hs => ?_)
    · simp only [readValue, hdate, htime, if_true]
      rfl
    · grind
  case case13 hdate htime =>
    refine .const_succ (s := readNumber cs) (fun _ => ?_) fun r hr => length_of_readNumber (n := r.1) hr
    simp only [readValue, hdate, htime]
    rfl

theorem afterItem (h : ReadersThrifty fuel) (depth : Nat) (read : List Toml) (item : Toml × List Char) :
    Thrifty Prod.snd item.2 (readAfterItem depth read · item) fuel := by
  have hlength := length_skipFiller_le false item.2
  unfold readAfterItem
  split
  next rest hrest => exact (h.items depth (item.1 :: read) rest).mono (by grind)
  next rest hrest => exact .const (by grind)
  next => exact .of_none rfl

theorem afterPair (h : ReadersThrifty fuel) (depth : Nat) (read : Entries)
    (pair : List String × Toml × List Char) :
    Thrifty Prod.snd pair.2.2 (readAfterPair depth read · pair) fuel := by
  have hlength := length_skipBlanks_le pair.2.2
  unfold readAfterPair
  split
  next => exact .of_none rfl
  next read' _ =>
    split
    next rest hrest => exact (h.pairs depth read' rest).mono (by grind)
    next rest hrest => exact .const (by grind)
    next => exact .of_none rfl

theorem items_succ (h : ReadersThrifty fuel) (depth : Nat) (read : List Toml) (cs : List Char) :
    Thrifty Prod.snd cs (readItems · depth read cs) (fuel + 1) := by
  have hlength := length_skipFiller_le false cs
  by_cases hclosed : ∃ rest, skipFiller false cs = ']' :: rest
  · obtain ⟨rest, hrest⟩ := hclosed
    refine .const_succ (s := some (read.reverse, rest)) (fun _ => ?_) (by grind)
    simp only [readItems, hrest]
  · exact (h.value depth (skipFiller false cs)).bind (h.afterItem depth read) hlength
      fun fuel => readItems_of_open (not_exists.1 hclosed) fuel depth read

theorem pairs_succ (h : ReadersThrifty fuel) (depth : Nat) (read : Entries) (cs : List Char) :
    Thrifty Prod.snd cs (readPairs · depth read cs) (fuel + 1) :=
  (h.assignment depth cs).bind (h.afterPair depth read) le_rfl fun fuel => readPairs_succ fuel depth read cs

theorem assignment_succ (h : ReadersThrifty fuel) (depth : Nat) (cs : List Char) :
    Thrifty (·.2.2) cs (readAssignment · depth cs) (fuel + 1) := by
  cases hkey : readKey cs with
  | none => exact .const_succ (s := none) (fun _ => by simp only [readAssignment, hkey]) (by simp)
  | some key =>
    obtain ⟨parts, rest⟩ := key
    by_cases hequals : ∃ after, rest = '=' :: after
    · obtain ⟨after, rfl⟩ := hequals
      refine (h.value depth (skipBlanks after)).map (f := fun p => (parts, p.1, p.2)) ?_
        (fun _ => by simp only [readAssignment, hkey]) fun _ => rfl
      have := length_of_readKey hkey
      have := length_skipBlanks_le after
      grind
    · refine .const_succ (s := none) (fun _ => ?_) (by simp)
      rw [readAssignment, hkey]
      grind

end ReadersThrifty

theorem readersThrifty (fuel : Nat) : ReadersThrifty fuel := by
  -- The four readers call each other on one fuel less, so they go through one induction together.
  induction fuel with
  | zero =>
    exact ⟨fun _ _ => .of_none (by rw [readValue]), fun _ _ _ => .of_none (by rw [readItems]),
      fun _ _ _ => .of_none (by rw [readPairs]), fun _ _ => .of_none (by rw [readAssignment])⟩
  | succ fuel ih => exact ⟨ih.value_succ, ih.items_succ, ih.pairs_succ, ih.assignment_succ⟩

/-! ## Lines -/

variable {fuel fuel' : Nat} {d d' : Draft} {cs rest : List Char}

theorem readAssignment_congr (depth : Nat) (h : cs.length ≤ fuel) (h' : cs.length ≤ fuel') :
    readAssignment fuel depth cs = readAssignment fuel' depth cs :=
  ((readersThrifty fuel).assignment depth cs).congr ((readersThrifty fuel').assignment depth cs) h h'

theorem readStatement_congr (d : Draft) (h : cs.length ≤ fuel) (h' : cs.length ≤ fuel') :
    readStatement fuel d cs = readStatement fuel' d cs := by
  unfold readStatement
  split
  next => rfl
  next => rfl
  next => simp only [readAssignment_congr maxNesting h h']

theorem length_of_readStatement (h : readStatement fuel d cs = some (d', rest)) :
    rest.length < cs.length := by
  unfold readStatement at h
  split at h
  case h_1 header | h_2 header _ =>
    obtain ⟨⟨parts, after⟩, hkey, h⟩ := Option.bind_eq_some_iff.1 h
    have hheader := length_of_readKey hkey
    split at h
    · simp only [Option.bind_eq_bind, Option.bind_eq_some_iff] at h
      grind
    · cases h
  case h_3 =>
    simp only [Option.bind_eq_bind, Option.bind_eq_some_iff] at h
    obtain ⟨⟨parts, value, after⟩, hassignment, _, -, _, hend, h⟩ := h
    have htaken := ((readersThrifty fuel).assignment maxNesting cs _ hassignment).1
    cases h
    exact (length_of_lineEnd? hend).trans_lt htaken

theorem readLines_statement {c : Char} (hskip : skipBlanks cs = c :: rest) (hcomment : c ≠ '#')
    (hbreak : lineBreak? (c :: rest) = none) (fuel : Nat) (d : Draft) : readLines (fuel + 1) d cs =
      (readStatement fuel d (c :: rest)).bind fun p => readLines fuel p.1 p.2 := by
  rw [readLines, hskip]
  split
  case h_1 heq => cases heq
  case h_2 heq =>
    cases heq
    contradiction
  case h_3 heq =>
    cases heq
    rw [hbreak]
    cases readStatement fuel d (c :: rest) <;> rfl

/-- Each line takes a character, so all fuels that are more than the characters left do the same. -/
theorem readLines_congr (d : Draft) (h : cs.length < fuel) (h' : cs.length < fuel') :
    readLines fuel d cs = readLines fuel' d cs := by
  induction fuel generalizing fuel' d cs with
  | zero => cases h
  | succ fuel ih =>
    obtain ⟨fuel', rfl⟩ := Nat.exists_eq_succ_of_ne_zero (Nat.ne_zero_of_lt h')
    have hlength := length_skipBlanks_le cs
    rw [readLines, readLines]
    split
    case h_1 => rfl
    case h_2 comment hcomment =>
      cases hend : lineEnd? ('#' :: comment) with
      | none => rfl
      | some rest =>
        have hrest := length_of_lineEnd?_cons hend
        exact ih d (by grind) (by grind)
    case h_3 c rest _ hline =>
      rw [hline] at hlength
      split
      case h_1 rest' hbreak => exact ih d (by grind) (by grind)
      case h_2 =>
        rw [readStatement_congr d (hlength.trans (Nat.le_of_lt_succ h))
          (hlength.trans (Nat.le_of_lt_succ h'))]
        split
        case h_1 d' rest' hstatement =>
          have hrest := length_of_readStatement hstatement
          exact ih d' (by grind) (by grind)
        case h_2 => rfl

end TokenizerHost.Toml
