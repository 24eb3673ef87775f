import TokenizerHost.Proofs.Json.Records
import TokenizerHost.Proofs.Json.Texts
import TokenizerHost.Proofs.Text.Decimal

set_option autoImplicit false

namespace TokenizerHost.Json

variable {cs cs' rest : List Char} {v : Json} {vs : List Json}
  {name : String} {ms : List (Option String × Json)}

/-! ## Blanks -/

def Blank (cs : List Char) : Prop := ∀ c ∈ cs, isSpace c = true

theorem blank_nil : Blank [] := fun _ hc => by cases hc

theorem blank_newline (level : Nat) : Blank (newline level) := by
  intro c hc
  rcases List.mem_cons.1 hc with rfl | hc
  · rfl
  · rw [List.eq_of_mem_replicate hc]
    rfl

theorem skipSpace_blanks (h : Blank cs) (rest : List Char) :
    skipSpace (cs ++ rest) = skipSpace rest := List.dropWhile_append_of_pos h

theorem exists_blank_append_skipSpace (cs : List Char) :
    ∃ blanks, Blank blanks ∧ cs = blanks ++ skipSpace cs :=
  ⟨cs.takeWhile isSpace, List.all_eq_true.1 List.all_takeWhile,
    List.takeWhile_append_dropWhile.symm⟩

theorem readValue_blanks (h : Blank cs) (fuel : Nat) (rest : List Char) :
    readValue fuel (cs ++ rest) = readValue fuel rest := by
  cases fuel with
  | zero => rfl
  | succ fuel => simp only [readValue, skipSpace_blanks h]

theorem readItems_blanks (h : Blank cs) (fuel : Nat) (rest : List Char) :
    readItems fuel (cs ++ rest) = readItems fuel rest := by
  cases fuel with
  | zero => rfl
  | succ fuel => simp only [readItems, readValue_blanks h]

theorem readMembers_blanks (h : Blank cs) (fuel : Nat) (rest : List Char) :
    readMembers fuel (cs ++ rest) = readMembers fuel rest := by
  cases fuel with
  | zero => rfl
  | succ fuel => simp only [readMembers, skipSpace_blanks h]

theorem readItems_skipSpace (fuel : Nat) (cs : List Char) :
    readItems fuel (skipSpace cs) = readItems fuel cs := by
  obtain ⟨blanks, hblanks, hcs⟩ := exists_blank_append_skipSpace cs
  exact ((congrArg (readItems fuel) hcs).trans (readItems_blanks hblanks fuel _)).symm

theorem readMembers_skipSpace (fuel : Nat) (cs : List Char) :
    readMembers fuel (skipSpace cs) = readMembers fuel cs := by
  obtain ⟨blanks, hblanks, hcs⟩ := exists_blank_append_skipSpace cs
  exact ((congrArg (readMembers fuel) hcs).trans (readMembers_blanks hblanks fuel _)).symm

/-! ## Texts that read as values -/

def Ends (rest : List Char) : Prop :=
  ∀ c ∈ rest.head?, isSpace c = true ∨ c = ',' ∨ c = ']' ∨ c = '\x7d'

/-- Whatever follows, a text reads as a value. -/
def Reads (cs : List Char) (v : Json) : Prop :=
  ∀ fuel rest, cs.length ≤ fuel → Ends rest → readValue fuel (cs ++ rest) = some (v, rest)

def ReadsItems (cs : List Char) (vs : List Json) : Prop :=
  ∀ fuel rest, cs.length ≤ fuel → readItems fuel (cs ++ rest) = some (vs, rest)

def ReadsMembers (cs : List Char) (ms : List (Option String × Json)) : Prop :=
  ∀ fuel rest, cs.length ≤ fuel → readMembers fuel (cs ++ rest) = some (ms, rest)

theorem Reads.blanks (hb : Blank cs') (h : Reads cs v) : Reads (cs' ++ cs) v := by
  intro fuel rest hfuel hends
  rw [List.length_append] at hfuel
  rw [List.append_assoc, readValue_blanks hb]
  exact h fuel rest (by omega) hends

theorem ReadsItems.blanks (hb : Blank cs') (h : ReadsItems cs vs) : ReadsItems (cs' ++ cs) vs := by
  intro fuel rest hfuel
  rw [List.length_append] at hfuel
  rw [List.append_assoc, readItems_blanks hb]
  exact h fuel rest (by omega)

theorem ReadsMembers.blanks (hb : Blank cs') (h : ReadsMembers cs ms) :
    ReadsMembers (cs' ++ cs) ms := by
  intro fuel rest hfuel
  rw [List.length_append] at hfuel
  rw [List.append_assoc, readMembers_blanks hb]
  exact h fuel rest (by omega)

theorem reads_of_succ (hcs : cs ≠ []) (h : ∀ fuel rest, cs.length ≤ fuel + 1 → Ends rest →
    readValue (fuel + 1) (cs ++ rest) = some (v, rest)) : Reads cs v := by
  intro fuel rest hfuel hends
  obtain ⟨fuel, rfl⟩ := Nat.exists_eq_add_one_of_ne_zero
    (Nat.ne_of_gt (Nat.lt_of_lt_of_le (List.length_pos_iff.2 hcs) hfuel))
  exact h fuel rest hfuel hends

/-! ## Values without parts -/

theorem reads_null : Reads "null".toList .null :=
  reads_of_succ (by decide) fun _ _ _ _ => rfl

theorem reads_bool (b : Bool) : Reads (chars (.bool b)) (.bool b) := by
  cases b with
  | false =>
    change Reads "false".toList _
    exact reads_of_succ (by decide) fun _ _ _ _ => rfl
  | true =>
    change Reads "true".toList _
    exact reads_of_succ (by decide) fun _ _ _ _ => rfl

theorem stringChars_append (s : String) (rest : List Char) :
    stringChars s ++ rest = '"' :: (s.toList.flatMap escapeChar ++ '"' :: rest) := by
  simp [stringChars]

theorem reads_string (s : String) : Reads (stringChars s) (.string s) := by
  refine reads_of_succ (List.cons_ne_nil _ _) fun fuel rest _ _ => ?_
  rw [stringChars_append]
  change (readText _).map (fun r => (ofReadText r.text, r.rest)) = _
  rw [readText_escaped, Option.map_some, ofReadText, String.ofList_toList]

/-! ## Numbers -/

theorem Ends.head? (h : Ends rest) : ∀ c ∈ rest.head?,
    c.isDigit = false ∧ c ≠ '.' ∧ c ≠ 'e' ∧ c ≠ 'E' := by
  intro c hc
  rcases h c hc with hspace | rfl | rfl | rfl
  · simp only [isSpace, Bool.or_eq_true, beq_iff_eq] at hspace
    rcases hspace with ((rfl | rfl) | rfl) | rfl <;> decide
  all_goals decide

theorem digits_append {ds : List Char} (hds : ∀ c ∈ ds, c.isDigit = true) (h : Ends rest) :
    digitsOf (ds ++ rest) = ds ∧ afterDigits (ds ++ rest) = rest := by
  unfold digitsOf afterDigits
  rw [List.takeWhile_append_of_pos hds, List.dropWhile_append_of_pos hds]
  cases rest with
  | nil => simp
  | cons c rest => simp [(h.head? c rfl).1]

theorem readWhole_decimalChars (n : Nat) (h : Ends rest) :
    readWhole (Text.decimalChars n ++ rest) = some (n, rest) := by
  obtain ⟨hdigits, hafter⟩ :=
    digits_append (fun _ hc => Text.isDigit_of_mem_decimalChars (n := n) hc) h
  unfold readWhole
  rw [hdigits, hafter]
  split
  next hnone => exact absurd hnone Nat.toDigits_ne_nil
  next hzero => rw [Text.eq_zero_of_head?_decimalChars (n := n) (by rw [hzero]; rfl)]
  next hlead hlong =>
    have hn := Text.eq_zero_of_head?_decimalChars (n := n) (by rw [hlong]; rfl)
    subst hn
    cases hlong
    exact absurd rfl hlead
  next => rw [Text.natOfDigits_decimalChars]

theorem readExponent_ends (h : Ends rest) : readExponent rest = some (false, rest) := by
  cases rest with
  | nil => rfl
  | cons c rest =>
    obtain ⟨-, -, he, hE⟩ := h.head? c rfl
    simp [readExponent, he, hE]

theorem decimalChars_append_ne_minus (n : Nat) (rest r : List Char) :
    Text.decimalChars n ++ rest ≠ '-' :: r := by
  intro hminus
  have hne : Text.decimalChars n ≠ [] := Nat.toDigits_ne_nil
  have hfirst := congrArg List.head? hminus
  rw [List.head?_append, Option.or_of_isSome (List.isSome_head?.2 hne)] at hfirst
  exact absurd (Text.isDigit_of_mem_decimalChars (List.mem_of_head? hfirst)) (by decide)

theorem readNumber_decimal (n : Int) (h : Ends rest) :
    readNumber ((Text.decimal n).toList ++ rest) = some (.integer n, rest) := by
  have hpoint : ∀ r, rest ≠ '.' :: r := fun r hrest => (h.head? '.' (by rw [hrest]; rfl)).2.1 rfl
  rw [Text.toList_decimal]
  by_cases hn : n < 0
  · have hzero : (n.natAbs == 0) = false := by simp; omega
    have hsign : -(n.natAbs : Int) = n := by omega
    rw [if_pos hn]
    simp only [readNumber, List.cons_append, readWhole_decimalChars _ h, readExponent_ends h, hzero,
      Option.bind_eq_bind, Option.bind_some, if_true, hsign]
    rfl
  · have hsign : (n.natAbs : Int) = n := by omega
    have hminus := decimalChars_append_ne_minus n.natAbs rest
    rw [if_neg hn]
    simp only [readNumber, readWhole_decimalChars _ h, readExponent_ends h, Option.bind_eq_bind,
      Option.bind_some, hsign]
    rfl

theorem readValue_number {c : Char} (hc : c = '-' ∨ c.isDigit = true) (fuel : Nat) (cs : List Char) :
    readValue (fuel + 1) (c :: cs) = readNumber (c :: cs) := by
  have hne : ∀ c' : Char, c' ≠ '-' → c'.isDigit = false → c ≠ c' := by
    rintro c' hminus hdigit rfl
    rcases hc with rfl | hc
    · exact hminus rfl
    · exact Bool.false_ne_true (hdigit.symm.trans hc)
  have hspace : isSpace c = false := by
    simp [isSpace, hne ' ' (by decide) (by decide), hne '\t' (by decide) (by decide),
      hne '\n' (by decide) (by decide), hne '\r' (by decide) (by decide)]
  have hskip : skipSpace (c :: cs) = c :: cs := List.dropWhile_cons_of_neg (by simp [hspace])
  simp only [readValue, hskip]
  split
  iterate 6 next heq => exact absurd (List.cons.inj heq).1 (hne _ (by decide) (by decide))
  rfl

theorem reads_integer (n : Int) : Reads (Text.decimal n).toList (.integer n) := by
  obtain ⟨c, cs, hcs, hc⟩ : ∃ c cs, (Text.decimal n).toList = c :: cs ∧
      (c = '-' ∨ c.isDigit = true) := by
    rw [Text.toList_decimal]
    split
    · exact ⟨'-', _, rfl, .inl rfl⟩
    · obtain ⟨c, cs, hcs⟩ := List.exists_cons_of_ne_nil (Nat.toDigits_ne_nil (b := 10)
        (n := n.natAbs))
      exact ⟨c, cs, hcs, .inr (Text.isDigit_of_mem_decimalChars (hcs ▸ List.mem_cons_self))⟩
  refine reads_of_succ (by rw [hcs]; exact List.cons_ne_nil _ _) fun fuel rest _ hends => ?_
  have hread := readNumber_decimal n hends
  rw [hcs, List.cons_append] at hread ⊢
  rw [readValue_number hc, hread]

/-! ## Containers -/

theorem Ends.close {c : Char} (hc : c = ',' ∨ c = ']' ∨ c = '\x7d') (rest : List Char) :
    Ends (c :: rest) := fun _ hhead => by
  cases hhead
  exact .inr hc

theorem Ends.blanks (hb : Blank cs) (h : Ends rest) : Ends (cs ++ rest) := by
  cases cs with
  | nil => exact h
  | cons c cs =>
    intro c' hhead
    cases hhead
    exact .inl (hb c List.mem_cons_self)

theorem readItems_bracket (fuel : Nat) (rest : List Char) : readItems fuel (']' :: rest) = none := by
  match fuel with
  | 0 | 1 | _ + 2 => rfl

theorem readMembers_brace (fuel : Nat) (rest : List Char) :
    readMembers fuel ('\x7d' :: rest) = none := by
  match fuel with
  | 0 | _ + 1 => rfl

theorem ReadsItems.last (h : Reads cs v) (hb : Blank cs') :
    ReadsItems (cs ++ (cs' ++ [']'])) [v] := by
  intro fuel rest hfuel
  simp only [List.length_append, List.length_singleton] at hfuel
  obtain ⟨fuel, rfl⟩ := Nat.exists_eq_add_of_le' (show 1 ≤ fuel by omega)
  have hitem := h fuel (cs' ++ ']' :: rest) (by omega) (.blanks hb (.close (by simp) rest))
  have hclose : skipSpace (cs' ++ ']' :: rest) = ']' :: rest := skipSpace_blanks hb _
  simp only [List.append_assoc, List.singleton_append, readItems, hitem, Option.bind_eq_bind,
    Option.bind_some, hclose]

theorem ReadsItems.cons (h : Reads cs v) (hrest : ReadsItems cs' vs) :
    ReadsItems (cs ++ ',' :: cs') (v :: vs) := by
  intro fuel rest hfuel
  simp only [List.length_append, List.length_cons] at hfuel
  obtain ⟨fuel, rfl⟩ := Nat.exists_eq_add_of_le' (show 1 ≤ fuel by omega)
  have hitem := h fuel (',' :: (cs' ++ rest)) (by omega) (.close (by simp) _)
  have hcomma : skipSpace (',' :: (cs' ++ rest)) = ',' :: (cs' ++ rest) := rfl
  simp only [List.append_assoc, List.cons_append, readItems, hitem, Option.bind_eq_bind,
    Option.bind_some, hcomma, hrest fuel rest (by omega)]

theorem reads_emptyArray : Reads ['[', ']'] (.array []) :=
  reads_of_succ (by decide) fun _ _ _ _ => rfl

theorem Reads.array (h : ReadsItems cs vs) : Reads ('[' :: cs) (.array vs) := by
  refine reads_of_succ (List.cons_ne_nil _ _) fun fuel rest hfuel _ => ?_
  have hitems := h fuel rest (Nat.le_of_succ_le_succ hfuel)
  rw [← readItems_skipSpace] at hitems
  have hopen : ∀ r, skipSpace (cs ++ rest) ≠ ']' :: r := by
    intro r hr
    rw [hr, readItems_bracket] at hitems
    cases hitems
  have hskip : skipSpace ('[' :: (cs ++ rest)) = '[' :: (cs ++ rest) := rfl
  simp only [List.cons_append, readValue, hskip, hitems, Option.map_some]

/-- What is read after the value of a member: more members, or the end of the object. -/
def readMembersAfter (fuel : Nat) (name : String) (v : Json) (rest : List Char) :
    Option (List (Option String × Json) × List Char) :=
  match skipSpace rest with
  | ',' :: rest => (readMembers fuel rest).bind fun (ms, rest) => some ((some name, v) :: ms, rest)
  | '\x7d' :: rest => some ([(some name, v)], rest)
  | _ => none

theorem readMembers_member (name : String) (fuel : Nat) (cs : List Char) :
    readMembers (fuel + 1) (stringChars name ++ ':' :: cs) =
      (readValue fuel cs).bind fun (v, rest) => readMembersAfter fuel name v rest := by
  have hname : ∀ rest, skipSpace ('"' :: rest) = '"' :: rest := fun _ => rfl
  have hcolon : skipSpace (':' :: cs) = ':' :: cs := rfl
  rw [stringChars_append]
  simp only [readMembers, hname, readText_escaped, Option.bind_eq_bind, Option.bind_some, hcolon,
    Option.map_some, String.ofList_toList]
  rfl

theorem ReadsMembers.last (h : Reads cs v) (hb : Blank cs') :
    ReadsMembers (stringChars name ++ ':' :: (cs ++ (cs' ++ ['\x7d']))) [(some name, v)] := by
  intro fuel rest hfuel
  simp only [List.length_append, List.length_cons] at hfuel
  obtain ⟨fuel, rfl⟩ := Nat.exists_eq_add_of_le' (show 1 ≤ fuel by omega)
  have hvalue := h fuel (cs' ++ '\x7d' :: rest) (by omega) (.blanks hb (.close (by simp) rest))
  have hclose : skipSpace (cs' ++ '\x7d' :: rest) = '\x7d' :: rest := skipSpace_blanks hb _
  simp only [List.append_assoc, List.cons_append, List.nil_append, readMembers_member, hvalue,
    readMembersAfter, Option.bind_some, hclose]

theorem ReadsMembers.cons (h : Reads cs v) (hrest : ReadsMembers cs' ms) :
    ReadsMembers (stringChars name ++ ':' :: (cs ++ ',' :: cs')) ((some name, v) :: ms) := by
  intro fuel rest hfuel
  simp only [List.length_append, List.length_cons] at hfuel
  obtain ⟨fuel, rfl⟩ := Nat.exists_eq_add_of_le' (show 1 ≤ fuel by omega)
  have hvalue := h fuel (',' :: (cs' ++ rest)) (by omega) (.close (by simp) _)
  have hcomma : skipSpace (',' :: (cs' ++ rest)) = ',' :: (cs' ++ rest) := rfl
  simp only [List.append_assoc, List.cons_append, readMembers_member, hvalue, readMembersAfter,
    Option.bind_some, hcomma, hrest fuel rest (by omega)]

theorem reads_emptyObject : Reads ['\x7b', '\x7d'] (.object []) :=
  reads_of_succ (by decide) fun _ _ _ _ => rfl

theorem Reads.object (h : ReadsMembers cs ms) : Reads ('\x7b' :: cs) (.object ms) := by
  refine reads_of_succ (List.cons_ne_nil _ _) fun fuel rest hfuel _ => ?_
  have hmembers := h fuel rest (Nat.le_of_succ_le_succ hfuel)
  rw [← readMembers_skipSpace] at hmembers
  have hopen : ∀ r, skipSpace (cs ++ rest) ≠ '\x7d' :: r := by
    intro r hr
    rw [hr, readMembers_brace] at hmembers
    cases hmembers
  have hskip : skipSpace ('\x7b' :: (cs ++ rest)) = '\x7b' :: (cs ++ rest) := rfl
  simp only [List.cons_append, readValue, hskip, hmembers, Option.map_some]

/-! ## Written values -/

/-- A value whose numbers are integers, whose texts are whole and whose members have names. -/
inductive Plain : Json → Prop where
  | null : Plain .null
  | bool (b : Bool) : Plain (.bool b)
  | integer (n : Int) : Plain (.integer n)
  | string (s : String) : Plain (.string s)
  | array {items : List Json} (h : ∀ v ∈ items, Plain v) : Plain (.array items)
  | record {members : List (String × Json)} (h : ∀ m ∈ members, Plain m.2) : Plain (.record members)

theorem readsItems_itemChars {items : List Json} (h : ∀ v ∈ items, Reads (chars v) v)
    (hne : items ≠ []) : ReadsItems (itemChars items) items := by
  induction items with
  | nil => exact absurd rfl hne
  | cons v rest ih =>
    have hv := h v List.mem_cons_self
    cases rest with
    | nil => exact .last hv blank_nil
    | cons v' rest => exact .cons hv (ih (fun w hw => h w (List.mem_cons_of_mem _ hw)) (by simp))

theorem readsMembers_memberChars {members : List (String × Json)}
    (h : ∀ m ∈ members, Reads (chars m.2) m.2) (hne : members ≠ []) :
    ReadsMembers (memberChars (named members)) (named members) := by
  induction members with
  | nil => exact absurd rfl hne
  | cons m rest ih =>
    have hm := h m List.mem_cons_self
    cases rest with
    | nil => exact .last hm blank_nil
    | cons m' rest => exact .cons hm (ih (fun w hw => h w (List.mem_cons_of_mem _ hw)) (by simp))

theorem reads_chars {j : Json} (h : Plain j) : Reads (chars j) j := by
  induction h with
  | null => exact reads_null
  | bool b => exact reads_bool b
  | integer n => exact reads_integer n
  | string s => exact reads_string s
  | @array items _ ih =>
    cases items with
    | nil => exact reads_emptyArray
    | cons v rest => exact .array (readsItems_itemChars ih (List.cons_ne_nil _ _))
  | @record members _ ih =>
    cases members with
    | nil => exact reads_emptyObject
    | cons m rest => exact .object (readsMembers_memberChars ih (List.cons_ne_nil _ _))

theorem readsItems_prettyItems {level : Nat} {items : List Json}
    (h : ∀ v ∈ items, Reads (prettyChars (level + 1) v) v) (hne : items ≠ []) :
    ReadsItems (prettyItems level items) items := by
  induction items with
  | nil => exact absurd rfl hne
  | cons v rest ih =>
    have hv := h v List.mem_cons_self
    cases rest with
    | nil => exact .last hv (blank_newline level)
    | cons v' rest =>
      exact .cons hv (.blanks (blank_newline _)
        (ih (fun w hw => h w (List.mem_cons_of_mem _ hw)) (by simp)))

theorem readsMembers_prettyMembers {level : Nat} {members : List (String × Json)}
    (h : ∀ m ∈ members, Reads (prettyChars (level + 1) m.2) m.2) (hne : members ≠ []) :
    ReadsMembers (prettyMembers level (named members)) (named members) := by
  have hblank : Blank [' '] := by simp [Blank, isSpace]
  induction members with
  | nil => exact absurd rfl hne
  | cons m rest ih =>
    have hm := (h m List.mem_cons_self).blanks hblank
    cases rest with
    | nil => exact .last hm (blank_newline level)
    | cons m' rest =>
      exact .cons hm (.blanks (blank_newline _)
        (ih (fun w hw => h w (List.mem_cons_of_mem _ hw)) (by simp)))

theorem reads_prettyChars {j : Json} (h : Plain j) (level : Nat) :
    Reads (prettyChars level j) j := by
  induction h generalizing level with
  | null => exact reads_null
  | bool b => exact reads_bool b
  | integer n => exact reads_integer n
  | string s => exact reads_string s
  | @array items _ ih =>
    cases items with
    | nil => exact reads_emptyArray
    | cons v rest =>
      exact .array (.blanks (blank_newline _)
        (readsItems_prettyItems (fun w hw => ih w hw _) (List.cons_ne_nil _ _)))
  | @record members _ ih =>
    cases members with
    | nil => exact reads_emptyObject
    | cons m rest =>
      exact .object (.blanks (blank_newline _)
        (readsMembers_prettyMembers (fun w hw => ih w hw _) (List.cons_ne_nil _ _)))

theorem parse?_of_reads {v : Json} (h : Reads cs v) : parse? (String.ofList cs) = some v := by
  have hread := h (cs.length + 1) [] (Nat.le_succ _) (fun _ hc => by cases hc)
  rw [List.append_nil] at hread
  simp [parse?, hread, skipSpace]

theorem parse?_compact {j : Json} (h : Plain j) : parse? j.compact = some j :=
  parse?_of_reads (reads_chars h)

theorem parse?_pretty {j : Json} (h : Plain j) : parse? j.pretty = some j :=
  parse?_of_reads (reads_prettyChars h 0)

end TokenizerHost.Json
