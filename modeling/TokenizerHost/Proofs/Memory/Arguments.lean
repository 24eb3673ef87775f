import Mathlib.Data.Prod.Basic
import TokenizerHost.Config.Options
import TokenizerHost.Config.Validate
import TokenizerHost.Proofs.Memory.Layout
import TokenizerHost.Proofs.Toml.Keys

set_option autoImplicit false

namespace TokenizerHost

namespace Text

/-! ## Bytes of texts -/

def utf8 (s : String) : List UInt8 := s.toUTF8.data.toList

theorem utf8_injective {s s' : String} (h : utf8 s = utf8 s') : s = s' :=
  String.toByteArray_inj.1 (ByteArray.ext (Array.toList_inj.1 h))

theorem utf8_append (s s' : String) : utf8 (s ++ s') = utf8 s ++ utf8 s' := by
  simp only [utf8, String.toUTF8_eq_toByteArray, String.toByteArray_append, ByteArray.data_append,
    Array.toList_append]

theorem utf8_eq (s : String) : utf8 s = s.toList.flatMap String.utf8EncodeChar := by
  have hs : s.toByteArray = (s.toList.flatMap String.utf8EncodeChar).toByteArray :=
    String.utf8Encode_toList.symm
  rw [utf8, String.toUTF8_eq_toByteArray, hs, List.toList_data_toByteArray]

/-- A byte below 128 stands for one character, and is part of no other. -/
theorem mem_utf8EncodeChar_iff {n : Nat} (hn : n < 128) (c : Char) :
    UInt8.ofNat n ∈ String.utf8EncodeChar c ↔ c.toNat = n := by
  have hbyte : ∀ v, UInt8.ofNat n = UInt8.ofNat v ↔ n = v % 256 := fun v => by
    rw [← UInt8.toNat_inj, UInt8.toNat_ofNat', UInt8.toNat_ofNat',
      Nat.mod_eq_of_lt (show n < 2 ^ 8 by omega)]
  have hval : c.val.toNat = c.toNat := rfl
  unfold String.utf8EncodeChar
  simp only [hval]
  split
  · rw [List.mem_singleton, hbyte]
    omega
  · split
    · simp only [List.mem_cons, List.not_mem_nil, or_false, hbyte]
      omega
    · split
      · simp only [List.mem_cons, List.not_mem_nil, or_false, hbyte]
        omega
      · simp only [List.mem_cons, List.not_mem_nil, or_false, hbyte]
        omega

theorem mem_utf8_iff {c : Char} (hc : c.toNat < 128) (s : String) :
    UInt8.ofNat c.toNat ∈ utf8 s ↔ c ∈ s.toList := by
  simp only [utf8_eq, List.mem_flatMap, mem_utf8EncodeChar_iff hc, Char.toNat_inj, exists_eq_right]

theorem zero_mem_utf8_iff (s : String) : 0 ∈ utf8 s ↔ '\x00' ∈ s.toList :=
  mem_utf8_iff (c := '\x00') (by decide) s

theorem equals_mem_utf8_iff (s : String) : 0x3D ∈ utf8 s ↔ '=' ∈ s.toList :=
  mem_utf8_iff (c := '=') (by decide) s

end Text

/-! ## What a guest reads -/

def upToZero? : List UInt8 → Option (List UInt8)
  | [] => none
  | b :: rest => if b = 0 then some [] else (upToZero? rest).map (b :: ·)

def splitBinding? : List UInt8 → Option (List UInt8 × List UInt8)
  | [] => none
  | b :: rest =>
    if b = 0x3D then some ([], rest) else (splitBinding? rest).map fun x => (b :: x.1, x.2)

def cut (bytes : List UInt8) : List UInt8 := bytes.takeWhile (· ≠ 0)

theorem upToZero?_append (bytes rest : List UInt8) :
    upToZero? (bytes ++ 0 :: rest) = some (cut bytes) := by
  induction bytes with
  | nil => rfl
  | cons b bytes ih =>
    rw [List.cons_append, upToZero?, ih]
    by_cases hb : b = 0
    · simp [cut, hb]
    · simp [cut, hb]

theorem cut_eq_self_iff {bytes : List UInt8} : cut bytes = bytes ↔ 0 ∉ bytes := by
  induction bytes with
  | nil => exact iff_of_true rfl List.not_mem_nil
  | cons b bytes ih =>
    by_cases hb : b = 0
    · simp [cut, hb]
    · have hcons : cut (b :: bytes) = b :: cut bytes :=
        List.takeWhile_cons_of_pos (decide_eq_true hb)
      rw [hcons, List.cons.injEq, ih]
      simp [Ne.symm hb]

theorem splitBinding?_eq_some_iff {bytes name value : List UInt8} :
    splitBinding? bytes = some (name, value) ↔ bytes = name ++ 0x3D :: value ∧ 0x3D ∉ name := by
  induction bytes generalizing name with
  | nil => simp [splitBinding?]
  | cons b bytes ih =>
    rw [splitBinding?]
    split
    next hb =>
      subst hb
      cases name with
      | nil => simp [eq_comm]
      | cons c name => simp; grind
    next hb =>
      cases name with
      | nil => simp [hb]
      | cons c name => simp [ih]; grind

/-- A binding is read as it was given if it has no zero and its name no `=`. -/
theorem splitBinding?_cut_iff {name value : List UInt8} :
    splitBinding? (cut (name ++ 0x3D :: value)) = some (name, value) ↔
      0 ∉ name ∧ 0x3D ∉ name ∧ 0 ∉ value := by
  rw [splitBinding?_eq_some_iff, cut_eq_self_iff]
  simp only [List.mem_append, List.mem_cons, not_or]
  have hne : ¬ (0 : UInt8) = 0x3D := by decide
  tauto

namespace Memory

variable {m m' : Memory} {cell address : Nat}

/-- The pointer in a cell of eight bytes. -/
def pointer? (m : Memory) (cell : Nat) : Option Nat := (m.getI64 cell).toOption.bind Int.toNat?

def pointers? (m : Memory) : (count cell : Nat) → Option (List Nat)
  | 0, _ => some []
  | count + 1, cell => do
    let pointer ← m.pointer? cell
    return pointer :: (← m.pointers? count (cell + 8))

theorem lt_of_pointer? {p : Nat} (h : m.pointer? cell = some p) : cell < m.size := by
  by_contra hout
  have herror : ∃ e, m.getI64 cell = .error e := by
    refine ⟨.memoryAccess cell 4, ?_⟩
    rw [getI64, getU32, getWord, slice, inBounds_eq, if_neg (by simp only [decide_eq_true_eq]; omega)]
    rfl
  obtain ⟨e, he⟩ := herror
  rw [pointer?, he] at h
  cases h

def pointersToNull? (m : Memory) (cell : Nat) : Option (List Nat) :=
  match h : m.pointer? cell with
  | none => none
  | some p => if p = 0 then some [] else (m.pointersToNull? (cell + 8)).map (p :: ·)
termination_by m.size - cell
decreasing_by
  have := lt_of_pointer? h
  omega

def zeroEnded? (m : Memory) (address : Nat) : Option (List UInt8) :=
  upToZero? (m.bytes.data.toList.drop address)

def guestArguments? (m : Memory) (t : ArgumentTable) : Option (List (List UInt8)) := do
  let pointers ← m.pointers? t.argc.toInt.toNat t.argv.toInt.toNat
  pointers.mapM m.zeroEnded?

/-- The environment as a guest reads it: names and values. What is no binding is passed over. -/
def guestEnvironment? (m : Memory) (t : ArgumentTable) :
    Option (List (List UInt8 × List UInt8)) := do
  let null := t.argv.toInt.toNat + 8 * t.argc.toInt.toNat
  guard (m.pointer? null = some 0)
  let pointers ← m.pointersToNull? (null + 8)
  return (← pointers.mapM m.zeroEnded?).filterMap splitBinding?

theorem pointer?_of_hasPointer {p : Nat} (h : m.HasPointer cell p) (hcell : cell + 4 ≤ maxAddress) :
    m.pointer? cell = some p := by
  obtain ⟨low, hlow, rfl⟩ : ∃ low, m.getU32 cell = .ok low ∧ low.toNat = p := by
    have hword := h.low
    cases hcase : m.getU32 cell with
    | ok low =>
      rw [hcase] at hword
      exact ⟨low, rfl, Except.ok.inj hword⟩
    | error e =>
      rw [hcase] at hword
      cases hword
  have hhigh : m.getI32 (cell + 4) = .ok 0 := by
    rw [getI32, h.high]
    rfl
  rw [pointer?, getI64, addressAfter, Nat.min_eq_left hcell, hlow, hhigh]
  simp [bind, Except.bind, Except.toOption, Int.toNat?]

theorem toList_of_slice {length : Nat} {bytes : ByteArray}
    (h : m.slice address length = .ok bytes) :
    bytes.data.toList = (m.bytes.data.toList.drop address).take length := by
  obtain ⟨-, rfl⟩ := slice_eq_ok_iff.1 h
  rw [ByteArray.data_extract, Array.toList_extract, List.extract_eq_take_drop,
    Nat.add_sub_cancel_left]

/-- Where a byte is read, the bytes from there on begin with it. -/
theorem drop_of_getU8 {b : UInt8} (h : m.getU8 address = .ok b) :
    ∃ rest, m.bytes.data.toList.drop address = b :: rest := by
  cases hbytes : m.slice address 1 with
  | error e =>
    rw [getU8, getWord, hbytes] at h
    cases h
  | ok bytes =>
    have hread := toList_of_slice hbytes
    have hin := (slice_eq_ok_iff.1 hbytes).1
    rw [getU8, getWord, hbytes] at h
    have hb : UInt8.ofNat (ofLittleEndian bytes.data.toList) = b := Except.ok.inj h
    cases hdrop : m.bytes.data.toList.drop address with
    | nil =>
      have hlength : m.bytes.data.toList.length = m.bytes.size := Array.length_toList
      have hsize := m.size_le_bytes
      have hend := List.drop_eq_nil_iff.1 hdrop
      omega
    | cons first rest =>
      rw [hdrop] at hread
      rw [hread] at hb
      change UInt8.ofNat (first.toNat + 256 * 0) = b at hb
      rw [Nat.mul_zero, Nat.add_zero, UInt8.ofNat_toNat] at hb
      exact ⟨rest, congrArg (· :: rest) hb⟩

theorem zeroEnded?_of_hasString {s : String} (h : m.HasString address s) :
    m.zeroEnded? address = some (cut (Text.utf8 s)) := by
  obtain ⟨rest, hrest⟩ := drop_of_getU8 h.terminator
  have hbytes : Text.utf8 s = (m.bytes.data.toList.drop address).take s.utf8ByteSize :=
    toList_of_slice h.bytes
  have hsplit : m.bytes.data.toList.drop address = Text.utf8 s ++ 0 :: rest := by
    rw [hbytes, ← hrest, ← List.drop_drop, List.take_append_drop]
  rw [zeroEnded?, hsplit, upToZero?_append]

theorem pointers?_eq {ps : List Nat}
    (h : ∀ (i p : Nat), ps[i]? = some p → m.pointer? (cell + 8 * i) = some p) :
    m.pointers? ps.length cell = some ps := by
  induction ps generalizing cell with
  | nil => rfl
  | cons p ps ih =>
    have hfirst : m.pointer? cell = some p := h 0 p rfl
    have hrest : m.pointers? ps.length (cell + 8) = some ps := ih fun i q hq => by
      rw [Nat.add_assoc, show 8 + 8 * i = 8 * (i + 1) by omega]
      exact h (i + 1) q hq
    rw [List.length_cons, pointers?, hfirst, hrest]
    rfl

theorem pointersToNull?_eq {ps : List Nat} (hps : ∀ p ∈ ps, p ≠ 0)
    (h : ∀ (i p : Nat), (ps ++ [0])[i]? = some p → m.pointer? (cell + 8 * i) = some p) :
    m.pointersToNull? cell = some ps := by
  induction ps generalizing cell with
  | nil =>
    have hnull : m.pointer? cell = some 0 := h 0 0 rfl
    rw [pointersToNull?]
    split
    next hnone => cases hnull.symm.trans hnone
    next p hp =>
      cases hnull.symm.trans hp
      rfl
  | cons p ps ih =>
    obtain ⟨hp, hps⟩ := List.forall_mem_cons.1 hps
    have hfirst : m.pointer? cell = some p := h 0 p rfl
    have hrest : m.pointersToNull? (cell + 8) = some ps := ih hps fun i q hq => by
      rw [Nat.add_assoc, show 8 + 8 * i = 8 * (i + 1) by omega]
      exact h (i + 1) q hq
    rw [pointersToNull?]
    split
    next hnone => cases hfirst.symm.trans hnone
    next q hq =>
      cases hfirst.symm.trans hq
      rw [if_neg hp, hrest]
      rfl

theorem mapM_zeroEnded? {placed : List (Nat × String)}
    (h : ∀ x ∈ placed, m.HasString x.1 x.2) : (placed.map (·.1)).mapM m.zeroEnded? =
      some (placed.map fun x => cut (Text.utf8 x.2)) := by
  induction placed with
  | nil => rfl
  | cons x placed ih =>
    obtain ⟨hx, hrest⟩ := List.forall_mem_cons.1 h
    rw [List.map_cons, List.mapM_cons, zeroEnded?_of_hasString hx, ih hrest]
    rfl

/-! ## Reading what was written -/

section Written

variable {argv : List String} {env : Environment} {table : ArgumentTable}

theorem toInt_tableOf (h : argumentsSize argv env < 8192) :
    (tableOf argv env).argc.toInt = argv.length ∧
      (tableOf argv env).argv.toInt = (argumentLayout argv env).table := by
  have htotal := argumentsSize_eq argv env
  have htable : (argumentLayout argv env).table =
    argumentsBase + paddedTotal argv + paddedTotal env.strings := rfl
  have hbase : argumentsBase = 4096 := rfl
  have hmax : Int32.maxValue.toInt = 2147483647 := rfl
  constructor
  · rw [tableOf, Int32.toInt_ofInt_of_le (by omega) (by omega)]
    omega
  · rw [tableOf, Int32.toInt_ofNat_of_lt (by omega), htable]

/-- What a guest reads are the texts it was given, each up to its first zero. -/
theorem guest_reads (h : writeArguments argv env m = .ok table m') :
    m'.guestArguments? table = some (argv.map fun s => cut (Text.utf8 s)) ∧
    m'.guestEnvironment? table =
      some (env.sorted.filterMap fun x => splitBinding? (cut (Text.utf8 (x.1 ++ "=" ++ x.2)))) := by
  obtain ⟨hsmall, rfl, -, hl⟩ := writeArguments_ok h
  obtain ⟨hargc, hargv⟩ := toInt_tableOf hsmall
  have hstrings : (argumentLayout argv env).bindings.map (·.2) = env.strings := map_snd_placed _ _
  generalize argumentLayout argv env = l at hl hargv hstrings
  let front := l.arguments.map (·.1)
  let back := l.bindings.map (·.1)
  have hfront : front.length = argv.length := by
    rw [List.length_map, ← hl.argv, List.length_map]
  have hcells : l.cells = front ++ ([0] ++ (back ++ [0])) := by
    simp only [ArgumentLayout.cells, List.append_assoc, front, back]
  have hpointer : ∀ (i p : Nat), l.cells[i]? = some p → m'.pointer? (l.table + 8 * i) = some p := by
    intro i p hp
    refine pointer?_of_hasPointer (hl.cells i p hp) ?_
    have hi : i < l.cells.length := (List.getElem?_eq_some_iff.1 hp).1
    have hfinish := hl.finish
    have hbase : argumentsBase = 4096 := rfl
    simp only [maxAddress, UInt64.size]
    omega
  have hnull : m'.pointer? (l.table + 8 * argv.length) = some 0 := by
    refine hpointer _ 0 ?_
    rw [hcells, List.getElem?_append_right (by omega), hfront, Nat.sub_self]
    rfl
  constructor
  · have hpointers : m'.pointers? argv.length l.table = some front := by
      rw [← hfront]
      refine pointers?_eq fun i p hp => hpointer i p ?_
      rw [hcells, List.getElem?_append_left (List.getElem?_eq_some_iff.1 hp).1, hp]
    have hread : front.mapM m'.zeroEnded? = _ :=
      mapM_zeroEnded? fun x hx => hl.strings x (List.mem_append_left _ hx)
    rw [guestArguments?, hargc, hargv, Int.toNat_natCast, Int.toNat_natCast, hpointers]
    change front.mapM m'.zeroEnded? = _
    rw [hread, ← hl.argv, List.map_map]
    rfl
  · have hpointers : m'.pointersToNull? (l.table + 8 * argv.length + 8) = some back := by
      refine pointersToNull?_eq (fun p hp => ?_) fun i p hp => ?_
      · obtain ⟨x, hx, rfl⟩ := List.mem_map.1 hp
        have hbase : argumentsBase = 4096 := rfl
        have := (hl.bounds x (List.mem_append_right _ hx)).1
        omega
      · rw [show l.table + 8 * argv.length + 8 + 8 * i = l.table + 8 * (argv.length + 1 + i) by omega]
        refine hpointer _ p ?_
        rw [hcells, ← List.append_assoc, List.getElem?_append_right (by simp [hfront]), ← hp]
        simp [hfront]
    have hread : back.mapM m'.zeroEnded? = _ :=
      mapM_zeroEnded? fun x hx => hl.strings x (List.mem_append_right _ hx)
    rw [guestEnvironment?, hargc, hargv, Int.toNat_natCast, Int.toNat_natCast]
    change (do
      guard (m'.pointer? (l.table + 8 * argv.length) = some 0)
      let pointers ← m'.pointersToNull? (l.table + 8 * argv.length + 8)
      return (← pointers.mapM m'.zeroEnded?).filterMap splitBinding?) = _
    rw [hnull, hpointers]
    change (do return (← back.mapM m'.zeroEnded?).filterMap splitBinding?) = _
    rw [hread]
    have hbindings : l.bindings.map (fun x => cut (Text.utf8 x.2)) =
        env.sorted.map fun x => cut (Text.utf8 (x.1 ++ "=" ++ x.2)) := by
      have hcut := congrArg (List.map fun s => cut (Text.utf8 s)) hstrings
      rw [Environment.strings, List.map_map, List.map_map] at hcut
      exact hcut
    change some ((l.bindings.map fun x => cut (Text.utf8 x.2)).filterMap splitBinding?) = _
    rw [hbindings, List.filterMap_map]
    rfl

/-- Texts that a guest reads as they were given: without zeros, and no name with an `=`. -/
structure Plain (argv : List String) (env : Environment) : Prop where
  arguments : ∀ s ∈ argv, '\x00' ∉ s.toList
  bindings : ∀ x ∈ env.entries, '\x00' ∉ x.1.toList ∧ '=' ∉ x.1.toList ∧ '\x00' ∉ x.2.toList

theorem guestArguments?_eq_iff (h : writeArguments argv env m = .ok table m') :
    m'.guestArguments? table = some (argv.map Text.utf8) ↔ ∀ s ∈ argv, '\x00' ∉ s.toList := by
  rw [(guest_reads h).1, Option.some.injEq, List.map_inj_left]
  simp only [cut_eq_self_iff, Text.zero_mem_utf8_iff]

theorem filterMap_eq_map_iff {α β : Type} {f : α → Option β} {g : α → β} {xs : List α} :
    xs.filterMap f = xs.map g ↔ ∀ x ∈ xs, f x = some (g x) := by
  induction xs with
  | nil => exact iff_of_true rfl nofun
  | cons x xs ih =>
    rw [List.forall_mem_cons, List.map_cons]
    cases hx : f x with
    | none =>
      rw [List.filterMap_cons_none hx]
      refine iff_of_false (fun h => ?_) fun h => nomatch h.1
      have hshort := List.length_filterMap_le f xs
      rw [h, List.length_cons, List.length_map] at hshort
      omega
    | some y => rw [List.filterMap_cons_some hx, List.cons.injEq, ih, Option.some.injEq]

theorem guestEnvironment?_eq_iff (h : writeArguments argv env m = .ok table m') :
    m'.guestEnvironment? table =
        some (env.sorted.map fun x => (Text.utf8 x.1, Text.utf8 x.2)) ↔
      ∀ x ∈ env.entries, '\x00' ∉ x.1.toList ∧ '=' ∉ x.1.toList ∧ '\x00' ∉ x.2.toList := by
  have hbinding : ∀ x : String × String, Text.utf8 (x.1 ++ "=" ++ x.2) =
      Text.utf8 x.1 ++ 0x3D :: Text.utf8 x.2 := by
    intro x
    have hequals : Text.utf8 "=" = [0x3D] := by decide
    rw [Text.utf8_append, Text.utf8_append, hequals, List.append_assoc, List.singleton_append]
  rw [(guest_reads h).2, Option.some.injEq, filterMap_eq_map_iff]
  simp only [hbinding, splitBinding?_cut_iff, Text.zero_mem_utf8_iff, Text.equals_mem_utf8_iff,
    env.perm_sorted.mem_iff]

theorem find?_eq_of_sorted_eq {env env' : Environment} (h : env.sorted = env'.sorted)
    (name : String) : env.find? name = env'.find? name := by
  have hmem : ∀ (e : Environment) (value : String),
      e.find? name = some value ↔ (name, value) ∈ e.sorted := fun e value =>
    ⟨fun hvalue => e.perm_sorted.mem_iff.2 (Toml.mem_of_lookup hvalue), fun hvalue =>
      Toml.lookup_of_mem e.nodup (e.perm_sorted.mem_iff.1 hvalue)⟩
  exact Option.ext fun value => by rw [hmem, hmem, h]

end Written

/-- A guest reads each text up to its first zero, and the name of a binding up to its first `=`. So it
sees the arguments that it was given exactly if none of them has a zero, and the environment exactly
if nothing in it has one and no name has an `=`; and it can tell any two apart of which this is true.
Validation looks at neither. -/
theorem guest_sees_plain_arguments {argv : List String} {env : Environment} {m m' : Memory}
    {table : ArgumentTable} (h : writeArguments argv env m = .ok table m') :
    (m'.guestArguments? table = some (argv.map fun s => cut (Text.utf8 s)) ∧
      m'.guestEnvironment? table = some (env.sorted.filterMap fun x =>
        splitBinding? (cut (Text.utf8 (x.1 ++ "=" ++ x.2))))) ∧
    (m'.guestArguments? table = some (argv.map Text.utf8) ∧
        m'.guestEnvironment? table =
          some (env.sorted.map fun x => (Text.utf8 x.1, Text.utf8 x.2)) ↔ Plain argv env) ∧
    (∀ (argv' : List String) (env' : Environment) (m₁ m₁' : Memory) (table' : ArgumentTable),
      writeArguments argv' env' m₁ = .ok table' m₁' → Plain argv env → Plain argv' env' →
      m'.guestArguments? table = m₁'.guestArguments? table' →
      m'.guestEnvironment? table = m₁'.guestEnvironment? table' →
      argv = argv' ∧ ∀ name, env.find? name = env'.find? name) ∧
    ∀ c : Config, let given : Config := { c with guest := { c.guest with argv, env } }
      given.validate = c.validate ∧ given.hostOptions.argv = argv ∧ given.hostOptions.env = env := by
  refine ⟨guest_reads h, ⟨fun hseen => ?_, fun hplain => ?_⟩, ?_, fun c => ⟨rfl, rfl, rfl⟩⟩
  · exact ⟨(guestArguments?_eq_iff h).1 hseen.1, (guestEnvironment?_eq_iff h).1 hseen.2⟩
  · exact ⟨(guestArguments?_eq_iff h).2 hplain.arguments,
      (guestEnvironment?_eq_iff h).2 hplain.bindings⟩
  · intro argv' env' m₁ m₁' table' h' hplain hplain' harguments henvironment
    rw [(guestArguments?_eq_iff h).2 hplain.arguments,
      (guestArguments?_eq_iff h').2 hplain'.arguments, Option.some.injEq] at harguments
    rw [(guestEnvironment?_eq_iff h).2 hplain.bindings,
      (guestEnvironment?_eq_iff h').2 hplain'.bindings, Option.some.injEq] at henvironment
    have hutf8 : Function.Injective Text.utf8 := fun _ _ => Text.utf8_injective
    refine ⟨hutf8.list_map harguments, find?_eq_of_sorted_eq ?_⟩
    exact (hutf8.prodMap hutf8).list_map henvironment

def binding (name value : String) : Environment := ⟨[(name, value)], by simp⟩

theorem strings_binding (name value : String) :
    (binding name value).strings = [name ++ "=" ++ value] := by
  rw [Environment.strings, Environment.sorted, binding, List.mergeSort_singleton]
  rfl

/-- The block depends on an environment by its strings only. -/
theorem writeArguments_congr {env env' : Environment} (h : env.strings = env'.strings)
    (argv : List String) : writeArguments argv env = writeArguments argv env' := by
  unfold writeArguments argumentsSize
  rw [h]

theorem written_zeros {argv : List String} {env : Environment}
    (h : argumentsSize argv env < dataBase - argumentsBase) :
    ∃ m, writeArguments argv env (zeros 65536) = .ok (tableOf argv env) m := by
  have hsize : (zeros 65536).size = 65536 := size_zeros (by decide)
  obtain ⟨m, hm, -⟩ : Fits (writeArguments argv env) (zeros 65536) (tableOf argv env) :=
    fits_writeArguments h (by rw [hsize]; decide)
  exact ⟨m, hm⟩

def standardGiven (argv : List String) (env : Environment) : Config :=
  { Config.standard with guest := { ModuleSettings.standard with argv, env } }

/-- Two valid configurations that differ leave the same memory, and of the argument of a third one the
guest sees the beginning only. -/
theorem valid_arguments_misread :
    (standardGiven ["js"] (binding "A" "B=C")).validate = .ok () ∧
    (standardGiven ["js"] (binding "A=B" "C")).validate = .ok () ∧
    (standardGiven ["a\x00b"] .empty).validate = .ok () ∧
    (binding "A" "B=C").find? "A" ≠ (binding "A=B" "C").find? "A" ∧
    (∃ table m, writeArguments ["js"] (binding "A" "B=C") (zeros 65536) = .ok table m ∧
      writeArguments ["js"] (binding "A=B" "C") (zeros 65536) = .ok table m) ∧
    ∃ table m, writeArguments ["a\x00b"] .empty (zeros 65536) = .ok table m ∧
      m.guestArguments? table = some [Text.utf8 "a"] := by
  have hsame : (binding "A" "B=C").strings = (binding "A=B" "C").strings := by
    rw [strings_binding, strings_binding]
    decide
  have hjoined : argumentsSize ["js"] (binding "A" "B=C") < dataBase - argumentsBase := by
    rw [argumentsSize, strings_binding]
    decide
  have hcut : argumentsSize ["a\x00b"] .empty < dataBase - argumentsBase := by
    rw [argumentsSize, Environment.strings, Environment.sorted, Assoc.empty, List.mergeSort_nil]
    decide
  obtain ⟨m, hm⟩ := written_zeros hjoined
  obtain ⟨m', hm'⟩ := written_zeros hcut
  refine ⟨by decide, by decide, by decide, by decide, ⟨_, m, hm, ?_⟩, _, m', hm', ?_⟩
  · rw [← writeArguments_congr hsame]
    exact hm
  · rw [(guest_reads hm').1]
    decide

/-- A guest that is given an argument and a binding sees them. -/
theorem guest_sees_plain_arguments_home : ∃ table m,
    writeArguments ["js"] (binding "HOME" "/root") (zeros 65536) = .ok table m ∧
      m.guestArguments? table = some [Text.utf8 "js"] ∧
      m.guestEnvironment? table = some [(Text.utf8 "HOME", Text.utf8 "/root")] := by
  have hsize : argumentsSize ["js"] (binding "HOME" "/root") < dataBase - argumentsBase := by
    rw [argumentsSize, strings_binding]
    decide
  have hplain : Plain ["js"] (binding "HOME" "/root") := ⟨by decide, by decide⟩
  obtain ⟨m, hm⟩ := written_zeros hsize
  have hseen := (guest_sees_plain_arguments hm).2.1.2 hplain
  rw [Environment.sorted, binding, List.mergeSort_singleton] at hseen
  exact ⟨_, m, hm, hseen⟩

end Memory

end TokenizerHost
