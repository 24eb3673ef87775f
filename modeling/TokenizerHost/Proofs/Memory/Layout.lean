import TokenizerHost.Proofs.Memory.Bytes

set_option autoImplicit false

/-!
# The block of arguments

What a guest finds of its arguments and environment is described apart from how it is written
(`ArgumentLayout.Describes`): strings that end in a zero byte, one after the other, and behind them a
table that points to them. A memory of whole pages holds exactly that after the block has been written,
and is otherwise as it was, or it is not touched at all (`arguments_are_laid_out_or_left_out`).
-/

namespace TokenizerHost

namespace Environment

variable (env : Environment)

theorem perm_sorted : env.sorted.Perm env.entries := List.mergeSort_perm _ _

/-- No two names are the same, so they come in strictly ascending order. -/
theorem pairwise_sorted : env.sorted.Pairwise fun x y => x.1 < y.1 := by
  have hle : env.sorted.Pairwise fun x y => x.1 ≤ y.1 := by
    refine (List.pairwise_mergeSort ?_ ?_ env.entries).imp fun h => of_decide_eq_true h
    · intro x y z hxy hyz
      exact decide_eq_true (String.le_trans (of_decide_eq_true hxy) (of_decide_eq_true hyz))
    · intro x y
      rcases String.le_total x.1 y.1 with h | h
      · simp [h]
      · simp [h]
  have hnodup : (env.sorted.map Prod.fst).Nodup :=
    (env.perm_sorted.map Prod.fst).nodup_iff.2 env.nodup
  have hne : env.sorted.Pairwise fun x y => x.1 ≠ y.1 := List.pairwise_map.1 hnodup
  refine (hle.and hne).imp fun ⟨hxy, hxy'⟩ => ?_
  exact Std.lt_of_le_of_ne hxy hxy'

end Environment

namespace Memory

variable {m m' : Memory} {address : Nat} {s : String}

/-! ## Strings and pointers in memory -/

structure HasString (m : Memory) (address : Nat) (s : String) : Prop where
  bytes : m.slice address s.utf8ByteSize = .ok s.toUTF8
  terminator : m.getU8 (address + s.utf8ByteSize) = .ok 0

/-- A cell of eight bytes holds a pointer in its low word and zero in its high one. -/
structure HasPointer (m : Memory) (cell pointer : Nat) : Prop where
  low : (m.getU32 cell).map UInt32.toNat = .ok pointer
  high : m.getU32 (cell + 4) = .ok 0

theorem HasString.beside {span : Span} (h : m.HasString address s)
    (hm : DiffersWithin [span] m m')
    (hspan : address + s.utf8ByteSize < span.pointer ∨ span.pointer + span.length ≤ address) :
    m'.HasString address s := by
  refine ⟨?_, ?_⟩
  · rw [slice_congr hm.size fun a hfirst hlast => hm.byte?_beside (by omega)]
    exact h.bytes
  · rw [getU8, getWord_congr hm.size fun a hfirst hlast => hm.byte?_beside (by omega)]
    exact h.terminator

theorem HasPointer.beside {span : Span} {cell pointer : Nat} (h : m.HasPointer cell pointer)
    (hm : DiffersWithin [span] m m')
    (hspan : cell + 8 ≤ span.pointer ∨ span.pointer + span.length ≤ cell) :
    m'.HasPointer cell pointer := by
  refine ⟨?_, ?_⟩
  · rw [getU32, getWord_congr hm.size fun a hfirst hlast => hm.byte?_beside (by omega)]
    exact h.low
  · rw [getU32, getWord_congr hm.size fun a hfirst hlast => hm.byte?_beside (by omega)]
    exact h.high

theorem hasString_of_write {m₁ : Memory} {u v : Unit} (hstring : write address s.toUTF8 m = .ok u m₁)
    (hzero : setU8 (address + s.utf8ByteSize) 0 m₁ = .ok v m') : m'.HasString address s := by
  have hafter := differs_setWord hzero
  obtain ⟨hin, rfl⟩ := write_eq_ok_iff.1 hstring
  refine ⟨?_, getU8_setU8 hzero⟩
  rw [slice_congr hafter.size fun a _ hlast => hafter.byte?_beside (.inl hlast)]
  exact slice_overlay hin

theorem hasPointer_of_set {cell pointer : Nat} {m₁ : Memory} {u v : Unit}
    (hpointer : pointer < UInt32.size) (hlow : setU32 cell (UInt32.ofNat pointer) m = .ok u m₁)
    (hhigh : setU32 (cell + 4) 0 m₁ = .ok v m') : m'.HasPointer cell pointer := by
  have hafter := differs_setWord hhigh
  refine ⟨?_, getU32_setU32 hhigh⟩
  rw [getU32, getWord_congr hafter.size fun a _ hlast => hafter.byte?_beside (.inl hlast), ← getU32,
    getU32_setU32 hlow]
  exact congrArg Except.ok (UInt32.toNat_ofNat_of_lt hpointer)

/-! ## Writing them -/

/-- Strings and where they begin, when they are written one after the other. -/
def placed : List String → (offset : Nat) → List (Nat × String)
  | [], _ => []
  | s :: rest, offset => (offset, s) :: placed rest (offset + paddedSize s.utf8ByteSize)

theorem paddedTotal_cons (s : String) (rest : List String) :
    paddedTotal (s :: rest) = paddedSize s.utf8ByteSize + paddedTotal rest := by
  simp only [paddedTotal, List.map_cons, List.sum_cons]

theorem map_snd_placed (strings : List String) (offset : Nat) :
    (placed strings offset).map (·.2) = strings := by
  induction strings generalizing offset with
  | nil => rfl
  | cons s rest ih => exact congrArg (s :: ·) (ih _)

theorem placed_append (first second : List String) (offset : Nat) :
    placed (first ++ second) offset =
      placed first offset ++ placed second (offset + paddedTotal first) := by
  induction first generalizing offset with
  | nil => rfl
  | cons s rest ih =>
    rw [List.cons_append, placed, placed, ih, paddedTotal_cons, Nat.add_assoc, List.cons_append]

theorem placed_bounds {strings : List String} {offset : Nat} {x : Nat × String}
    (hx : x ∈ placed strings offset) :
    offset ≤ x.1 ∧ x.1 + x.2.utf8ByteSize < offset + paddedTotal strings ∧ x.1 % 8 = offset % 8 := by
  induction strings generalizing offset with
  | nil => cases hx
  | cons s rest ih =>
    have hpad := length_lt_paddedSize s.utf8ByteSize
    have hround : paddedSize s.utf8ByteSize % 8 = 0 := Nat.mul_mod_left _ _
    rw [paddedTotal_cons]
    rcases List.mem_cons.1 hx with rfl | hrest
    · exact ⟨Nat.le_refl _, by dsimp only; omega, rfl⟩
    · obtain ⟨hfirst, hlast, haligned⟩ := ih hrest
      exact ⟨by omega, by omega, by omega⟩

/-- No string reaches the next one. -/
theorem pairwise_placed (strings : List String) (offset : Nat) :
    (placed strings offset).Pairwise fun x y => x.1 + x.2.utf8ByteSize < y.1 := by
  induction strings generalizing offset with
  | nil => exact .nil
  | cons s rest ih =>
    refine List.pairwise_cons.2 ⟨fun y hy => ?_, ih _⟩
    have hpad := length_lt_paddedSize s.utf8ByteSize
    have hfirst := (placed_bounds hy).1
    dsimp only
    omega

theorem writeStrings_ok {strings : List String} {offset finish : Nat} {pointers : List Nat}
    (h : writeStrings strings offset m = .ok (pointers, finish) m') :
    pointers = (placed strings offset).map (·.1) ∧ finish = offset + paddedTotal strings ∧
      DiffersWithin [⟨offset, paddedTotal strings⟩] m m' ∧
      ∀ x ∈ placed strings offset, m'.HasString x.1 x.2 := by
  induction strings generalizing offset m pointers finish with
  | nil =>
    cases h
    exact ⟨rfl, rfl, .refl _ _, nofun⟩
  | cons s rest ih =>
    obtain ⟨_, m₁, hstring, h⟩ := exists_of_bind_ok h
    obtain ⟨_, m₂, hzero, h⟩ := exists_of_bind_ok h
    obtain ⟨⟨restPointers, restFinish⟩, m₃, hrest, h⟩ := exists_of_bind_ok h
    cases h
    obtain ⟨rfl, rfl, hafter, hstrings⟩ := ih hrest
    have hpad := length_lt_paddedSize s.utf8ByteSize
    have hbytes : s.toUTF8.size = s.utf8ByteSize := rfl
    have htotal := paddedTotal_cons s rest
    let whole : Span := ⟨offset, paddedTotal (s :: rest)⟩
    have hfirst : DiffersWithin [whole] m m₁ :=
      (differs_write hstring).widen (Nat.le_refl _) (by dsimp only [whole]; omega)
    have hsecond : DiffersWithin [whole] m₁ m₂ :=
      (differs_setWord hzero).widen (Nat.le_add_right _ _) (by dsimp only [whole]; omega)
    have hthird : DiffersWithin [whole] m₂ m' :=
      hafter.widen (Nat.le_add_right _ _) (by dsimp only [whole]; omega)
    refine ⟨rfl, by omega, hfirst.trans (hsecond.trans hthird), List.forall_mem_cons.2 ⟨?_, hstrings⟩⟩
    -- what is written later lies behind the padding of this string
    exact (hasString_of_write hstring hzero).beside hafter (.inl (by dsimp only; omega))

theorem writePointers_ok {pointers : List Nat} {offset : Nat} {u : Unit}
    (hpointers : ∀ p ∈ pointers, p < UInt32.size)
    (h : writePointers pointers offset m = .ok u m') :
    DiffersWithin [⟨offset, 8 * pointers.length⟩] m m' ∧
      ∀ (i p : Nat), pointers[i]? = some p → m'.HasPointer (offset + 8 * i) p := by
  induction pointers generalizing offset m with
  | nil =>
    cases h
    exact ⟨.refl _ _, nofun⟩
  | cons pointer rest ih =>
    obtain ⟨_, m₁, hlow, h⟩ := exists_of_bind_ok h
    obtain ⟨_, m₂, hhigh, h⟩ := exists_of_bind_ok h
    obtain ⟨hpointer, hrest⟩ := List.forall_mem_cons.1 hpointers
    obtain ⟨hafter, hcells⟩ := ih hrest h
    let whole : Span := ⟨offset, 8 * (rest.length + 1)⟩
    have hfirst : DiffersWithin [whole] m m₁ :=
      (differs_setWord hlow).widen (Nat.le_refl _) (by dsimp only [whole]; omega)
    have hsecond : DiffersWithin [whole] m₁ m₂ :=
      (differs_setWord hhigh).widen (Nat.le_add_right _ _) (by dsimp only [whole]; omega)
    have hthird : DiffersWithin [whole] m₂ m' :=
      hafter.widen (Nat.le_add_right _ _) (by dsimp only [whole]; omega)
    refine ⟨hfirst.trans (hsecond.trans hthird), fun i p hp => ?_⟩
    cases i with
    | zero =>
      cases hp
      exact (hasPointer_of_set hpointer hlow hhigh).beside hafter (.inl (Nat.le_refl _))
    | succ i =>
      have hcell := hcells i p hp
      rwa [Nat.add_assoc, show 8 + 8 * i = 8 * (i + 1) by omega] at hcell

end Memory

/-! ## The whole block -/

structure ArgumentLayout where
  arguments : List (Nat × String)
  bindings : List (Nat × String)
  table : Nat

namespace ArgumentLayout

def strings (l : ArgumentLayout) : List (Nat × String) := l.arguments ++ l.bindings

def cells (l : ArgumentLayout) : List Nat :=
  l.arguments.map (·.1) ++ [0] ++ l.bindings.map (·.1) ++ [0]

/-- A memory holds arguments and environment as the layout says, from `argumentsBase` on and up to
`finish`, the environment in the order of the names. -/
structure Describes (l : ArgumentLayout) (m : Memory) (argv : List String) (env : Environment)
    (finish : Nat) : Prop where
  argv : l.arguments.map (·.2) = argv
  env : ∃ sorted : List (String × String), sorted.Perm env.entries ∧
    sorted.Pairwise (fun x y => x.1 < y.1) ∧
    l.bindings.map (·.2) = sorted.map fun x => x.1 ++ "=" ++ x.2
  strings : ∀ x ∈ l.strings, m.HasString x.1 x.2
  aligned : ∀ x ∈ l.strings, x.1 % 8 = 0
  cells : ∀ (i p : Nat), l.cells[i]? = some p → m.HasPointer (l.table + 8 * i) p
  apart : l.strings.Pairwise fun x y => x.1 + x.2.utf8ByteSize < y.1
  bounds : ∀ x ∈ l.strings, argumentsBase ≤ x.1 ∧ x.1 + x.2.utf8ByteSize < l.table
  finish : l.table + 8 * l.cells.length = finish

end ArgumentLayout

namespace Memory

variable {m m' : Memory} {argv : List String} {env : Environment}

def argumentLayout (argv : List String) (env : Environment) : ArgumentLayout where
  arguments := placed argv argumentsBase
  bindings := placed env.strings (argumentsBase + paddedTotal argv)
  table := argumentsBase + paddedTotal argv + paddedTotal env.strings

theorem strings_argumentLayout (argv : List String) (env : Environment) :
    (argumentLayout argv env).strings = placed (argv ++ env.strings) argumentsBase :=
  (placed_append argv env.strings argumentsBase).symm

theorem paddedTotal_append (first second : List String) :
    paddedTotal (first ++ second) = paddedTotal first + paddedTotal second := by
  simp only [paddedTotal, List.map_append, List.sum_append]

theorem length_cells (argv : List String) (env : Environment) :
    (argumentLayout argv env).cells.length = argv.length + env.strings.length + 2 := by
  have hlength : ∀ strings offset, (placed strings offset).length = strings.length := by
    intro strings offset
    rw [← List.length_map (f := Prod.snd), map_snd_placed]
  simp only [ArgumentLayout.cells, argumentLayout, List.length_append, List.length_map, hlength,
    List.length_singleton]
  omega

theorem finish_argumentLayout (argv : List String) (env : Environment) :
    (argumentLayout argv env).table + 8 * (argumentLayout argv env).cells.length =
      argumentsBase + argumentsSize argv env := by
  have htable : (argumentLayout argv env).table =
      argumentsBase + paddedTotal argv + paddedTotal env.strings := rfl
  rw [length_cells, argumentsSize_eq, htable]
  omega

theorem writeArguments_ok {table : ArgumentTable} (h : writeArguments argv env m = .ok table m') :
    argumentsSize argv env < 8192 ∧ table = tableOf argv env ∧
      DiffersWithin [⟨argumentsBase, argumentsSize argv env⟩] m m' ∧
      (argumentLayout argv env).Describes m' argv env (argumentsBase + argumentsSize argv env) := by
  have hspace : dataBase - argumentsBase = 8192 ∧ argumentsBase = 4096 := ⟨rfl, rfl⟩
  have htotal := argumentsSize_eq argv env
  have hword : UInt32.size = 4294967296 := rfl
  unfold writeArguments at h
  split at h
  next => cases h
  next hsize =>
    have hsmall : argumentsSize argv env < 8192 := by omega
    obtain ⟨⟨argPointers, offset⟩, m₁, hargv, h⟩ := exists_of_bind_ok h
    obtain ⟨⟨envPointers, finish⟩, m₂, henv, h⟩ := exists_of_bind_ok h
    obtain ⟨_, m₃, hpointers, h⟩ := exists_of_bind_ok h
    cases h
    obtain ⟨rfl, rfl, hfirst, hargStrings⟩ := writeStrings_ok hargv
    obtain ⟨rfl, rfl, hsecond, henvStrings⟩ := writeStrings_ok henv
    let l := argumentLayout argv env
    have hbounds : ∀ x ∈ l.strings, argumentsBase ≤ x.1 ∧ x.1 + x.2.utf8ByteSize < l.table := by
      intro x hx
      rw [strings_argumentLayout] at hx
      obtain ⟨hlow, hhigh, -⟩ := placed_bounds hx
      rw [paddedTotal_append, ← Nat.add_assoc] at hhigh
      exact ⟨hlow, hhigh⟩
    have hreach : ∀ p ∈ l.cells, p < UInt32.size := by
      have htable : l.table = argumentsBase + paddedTotal argv + paddedTotal env.strings := rfl
      intro p hp
      simp only [ArgumentLayout.cells, List.mem_append, List.mem_singleton, List.mem_map] at hp
      rcases hp with ((⟨x, hx, rfl⟩ | rfl) | ⟨x, hx, rfl⟩) | rfl
      · have := (hbounds x (List.mem_append_left _ hx)).2
        omega
      · omega
      · have := (hbounds x (List.mem_append_right _ hx)).2
        omega
      · omega
    have hfinish := finish_argumentLayout argv env
    obtain ⟨hthird, hcells⟩ := writePointers_ok hreach hpointers
    let whole : Span := ⟨argumentsBase, argumentsSize argv env⟩
    refine ⟨hsmall, rfl, ?_, ?_⟩
    · have hone : DiffersWithin [whole] m m₁ := hfirst.widen (Nat.le_refl _) (by
        dsimp only [whole]; omega)
      have htwo : DiffersWithin [whole] m₁ m₂ := hsecond.widen (Nat.le_add_right _ _) (by
        dsimp only [whole]; omega)
      have hthree : DiffersWithin [whole] m₂ m' := by
        refine hthird.widen (by dsimp only [whole]; omega) ?_
        exact Nat.le_of_eq hfinish
      exact hone.trans (htwo.trans hthree)
    · refine ⟨map_snd_placed _ _, ⟨env.sorted, env.perm_sorted, env.pairwise_sorted,
        map_snd_placed _ _⟩, fun x hx => ?_, fun x hx => ?_, hcells, ?_, hbounds, hfinish⟩
      -- the table lies behind all strings, and the environment behind the arguments
      · have htable : m₂.HasString x.1 x.2 := by
          rcases List.mem_append.1 hx with harg | henv
          · have := (placed_bounds harg).2.1
            exact (hargStrings x harg).beside hsecond (.inl (by dsimp only; omega))
          · exact henvStrings x henv
        exact htable.beside hthird (.inl (hbounds x hx).2)
      · rw [strings_argumentLayout] at hx
        exact (placed_bounds hx).2.2
      · rw [strings_argumentLayout]
        exact pairwise_placed _ _

theorem eq_of_writeArguments_error {e : Fault} (hempty : m.size = 0)
    (h : writeArguments argv env m = .error e m') : m' = m := by
  have hwrite : ∀ (address : Nat) (data : ByteArray), 0 < address →
      ∃ e, write address data m = .error e m := by
    intro address data haddress
    refine ⟨_, if_neg ?_⟩
    simp only [inBounds_eq, decide_eq_true_eq]
    omega
  have hstrings : ∀ strings, strings = [] ∨
      ∃ e, writeStrings strings argumentsBase m = .error e m := by
    intro strings
    cases strings with
    | nil => exact .inl rfl
    | cons s rest =>
      obtain ⟨e, he⟩ := hwrite argumentsBase s.toUTF8 (by decide)
      exact .inr ⟨e, bind_error he⟩
  have hall : ∃ e, writeArguments argv env m = .error e m := by
    unfold writeArguments
    split
    next => exact ⟨_, rfl⟩
    next =>
      rcases hstrings argv with rfl | ⟨e, he⟩
      · rcases hstrings env.strings with hnil | ⟨e, he⟩
        · obtain ⟨e, he⟩ := hwrite argumentsBase (littleEndian 4 0).toByteArray (by decide)
          refine ⟨e, ?_⟩
          rw [hnil]
          change ((setU32 argumentsBase 0 >>= _) >>= _) m = _
          exact bind_error (bind_error he)
        · refine ⟨e, ?_⟩
          change (writeStrings env.strings argumentsBase >>= _) m = _
          exact bind_error he
      · exact ⟨e, bind_error he⟩
  obtain ⟨_, hall⟩ := hall
  cases hall.symm.trans h
  rfl

/-- Arguments are laid out exactly, or memory is left as it was. In a memory of whole pages the block
is written exactly if there is a page and the padded strings and the table are smaller than the space
for them. Then the entry point is told how many arguments there are and where the table is, memory
holds the block as a layout describes it, and no byte outside of the block has changed. -/
theorem arguments_are_laid_out_or_left_out (argv : List String) (env : Environment) {m : Memory}
    {pages : Nat} (hpages : m.size = pages * 65536) :
    let required := ((argv ++ env.strings).map fun s => paddedSize s.utf8ByteSize).sum +
      8 * (argv.length + env.size + 2)
    ((∃ table m', writeArguments argv env m = .ok table m') ↔ 0 < pages ∧ required < 8192) ∧
    (∀ table m', writeArguments argv env m = .ok table m' →
      table.argc.toInt = argv.length ∧ m'.size = m.size ∧
      (∃ l : ArgumentLayout, table.argv.toInt = l.table ∧ l.Describes m' argv env (4096 + required)) ∧
      ∀ a, m'.byte? a ≠ m.byte? a → 4096 ≤ a ∧ a < 4096 + required ∧ a < 12288) ∧
    ∀ e m', writeArguments argv env m = .error e m' → m' = m := by
  intro required
  have hrequired : required = argumentsSize argv env := by
    have hstrings : env.strings.length = env.size := by
      rw [Environment.strings, List.length_map, env.perm_sorted.length_eq, Assoc.size]
    have hpadded : required = paddedTotal (argv ++ env.strings) + 8 * (argv.length + env.size + 2) :=
      rfl
    rw [hpadded, argumentsSize_eq, paddedTotal_append, hstrings]
    omega
  have hspace : dataBase - argumentsBase = 8192 ∧ dataBase = 12288 ∧ argumentsBase = 4096 :=
    ⟨rfl, rfl, rfl⟩
  have hwritten : 0 < pages → required < 8192 →
      ∃ m', writeArguments argv env m = .ok (tableOf argv env) m' := by
    intro hpage hsmall
    have hlarge : dataBase ≤ m.size := by omega
    obtain ⟨m', hm', -⟩ : Fits (writeArguments argv env) m (tableOf argv env) :=
      fits_writeArguments (by omega) hlarge
    exact ⟨m', hm'⟩
  refine ⟨⟨?_, fun h => ⟨_, hwritten h.1 h.2⟩⟩, fun table m' h => ?_, fun e m' h => ?_⟩
  · rintro ⟨table, m', h⟩
    obtain ⟨hsmall, -, hdiffers, hdescribes⟩ := writeArguments_ok h
    refine ⟨Nat.pos_of_ne_zero fun hzero => ?_, by omega⟩
    -- the first cell of the table cannot be read from an empty memory
    have hlength := length_cells argv env
    obtain ⟨p, hp⟩ : ∃ p, (argumentLayout argv env).cells[0]? = some p :=
      ⟨_, List.getElem?_eq_getElem (by omega)⟩
    have hcell := (hdescribes.cells 0 p hp).high
    have hsize := hdiffers.size
    rw [getU32, getWord, slice, inBounds_eq, if_neg (by simp only [decide_eq_true_eq]; omega)] at hcell
    cases hcell
  · obtain ⟨hsmall, rfl, hdiffers, hdescribes⟩ := writeArguments_ok h
    have htotal := argumentsSize_eq argv env
    have htable : (argumentLayout argv env).table =
      argumentsBase + paddedTotal argv + paddedTotal env.strings := rfl
    have hmax : Int32.maxValue.toInt = 2147483647 := rfl
    rw [hrequired]
    refine ⟨?_, hdiffers.size, ⟨argumentLayout argv env, ?_, hdescribes⟩, fun a ha => ?_⟩
    · rw [tableOf, Int32.toInt_ofInt_of_le (by omega) (by omega)]
      omega
    · rw [tableOf, Int32.toInt_ofNat_of_lt (by omega), htable]
    · have hnear : ¬(a < 4096 ∨ 4096 + argumentsSize argv env ≤ a) := fun hbeside =>
        ha (hdiffers.byte?_beside hbeside)
      omega
  · by_cases hpage : 0 < pages
    · by_cases hsmall : required < 8192
      · obtain ⟨m'', hok⟩ := hwritten hpage hsmall
        cases hok.symm.trans h
      · unfold writeArguments at h
        rw [if_pos (by omega)] at h
        cases h
        rfl
    · exact eq_of_writeArguments_error (by omega) h

theorem arguments_are_laid_out_or_left_out_one_page :
    let env : Environment := (Assoc.empty.insert "LANG" "ja").insert "HOME" "/root"
    (zeros 65536).size = 1 * 65536 ∧
      ∃ table m', writeArguments ["js", "猫"] env (zeros 65536) = .ok table m' ∧
        table.argc.toInt = 2 ∧ ∃ l : ArgumentLayout, table.argv.toInt = l.table ∧
          l.Describes m' ["js", "猫"] env (4096 + 88) := by
  intro env
  have hstrings : env.strings = ["HOME=/root", "LANG=ja"] := by
    have hsorted : env.sorted = [("HOME", "/root"), ("LANG", "ja")] :=
      List.mergeSort_of_pairwise (by decide +kernel)
    rw [Environment.strings, hsorted]
    decide +kernel
  obtain ⟨hiff, hok, -⟩ := arguments_are_laid_out_or_left_out ["js", "猫"] env
    (show (zeros 65536).size = 1 * 65536 from size_zeros (by decide))
  rw [hstrings] at hiff hok
  obtain ⟨table, m', h⟩ := hiff.2 ⟨by decide, by decide +kernel⟩
  obtain ⟨hargc, -, hl, -⟩ := hok table m' h
  have hrequired : 4096 + ((["js", "猫", "HOME=/root", "LANG=ja"].map fun s =>
      paddedSize s.utf8ByteSize).sum + 8 * (2 + 2 + 2)) = 4096 + 88 := by decide +kernel
  exact ⟨size_zeros (by decide), table, m', h, hargc, hrequired ▸ hl⟩

end Memory

end TokenizerHost
