import TokenizerHost.Config.Options
import TokenizerHost.Proofs.Analyzer.Batches
import TokenizerHost.Proofs.Run.Dispatch

set_option autoImplicit false

namespace TokenizerHost

theorem ensure_eq_ok_iff {p : Prop} [Decidable p] {e : ConfigError} : ensure p e = .ok () ↔ p := by
  unfold ensure
  split
  next hp => exact iff_of_true rfl hp
  next hp => exact iff_of_false nofun hp

theorem except_seq_ok_iff {x : Except ConfigError Unit} {f : Unit → Except ConfigError Unit} :
    (x >>= f) = .ok () ↔ x = .ok () ∧ f () = .ok () := by
  cases x with
  | error e => simp [bind, Except.bind]
  | ok => simp [bind, Except.bind]

/-! ## Ranges -/

namespace CharRange

def points (r : CharRange) : PointRange := ⟨r.first.toNat, r.last.toNat⟩

end CharRange

namespace PointRange

def IsChars (r : PointRange) : Prop := r.start.isValidChar ∧ r.finish.isValidChar ∧ r.start ≤ r.finish

instance : DecidablePred IsChars := fun r =>
  inferInstanceAs (Decidable (r.start.isValidChar ∧ r.finish.isValidChar ∧ r.start ≤ r.finish))

def Covers (r : PointRange) (n : Nat) : Prop := r.start ≤ n ∧ n ≤ r.finish

variable {r : PointRange}

theorem toChars?_isSome_iff : r.toChars?.isSome ↔ r.IsChars := by
  unfold toChars? IsChars
  split
  next h => exact iff_of_true rfl h
  next h => exact iff_of_false nofun h

theorem toNat_ofNat {n : Nat} (h : n.isValidChar) : (Char.ofNat n).toNat = n := by
  rw [Char.ofNat, dif_pos h]
  rfl

theorem points_of_toChars? {chars : CharRange} (h : r.toChars? = some chars) : chars.points = r := by
  unfold toChars? at h
  split at h
  next hvalid =>
    cases h
    obtain ⟨hstart, hfinish, -⟩ := hvalid
    rw [CharRange.points, toNat_ofNat hstart, toNat_ofNat hfinish]
  · cases h

end PointRange

theorem CharRange.contains_iff {r : CharRange} {c : Char} : r.first ≤ c ∧ c ≤ r.last ↔ r.points.Covers c.toNat :=
  Iff.rfl

namespace AnalyzerSettings

theorem validateRanges_eq_ok_iff (index : Nat) (ranges : List PointRange) :
    validateRanges index ranges = .ok () ↔ ∀ r ∈ ranges, r.IsChars := by
  induction ranges generalizing index with
  | nil => simp [validateRanges]
  | cons r ranges ih =>
    rw [validateRanges, except_seq_ok_iff, ensure_eq_ok_iff, PointRange.toChars?_isSome_iff, ih,
      List.forall_mem_cons]

theorem validate_eq_ok_iff {a : AnalyzerSettings} :
    a.validate = .ok () ↔ a.symbolMarker ≠ "" ∧ a.scriptRanges ≠ [] ∧ ∀ r ∈ a.scriptRanges, r.IsChars := by
  rw [validate, except_seq_ok_iff, except_seq_ok_iff, ensure_eq_ok_iff, ensure_eq_ok_iff,
    validateRanges_eq_ok_iff]

/-- What is left out are the ranges that are no ranges of characters; the others keep their order and
their ends. -/
theorem map_points_charRanges (a : AnalyzerSettings) :
    a.charRanges.map CharRange.points = a.scriptRanges.filter (·.IsChars) := by
  rw [charRanges]
  induction a.scriptRanges with
  | nil => rfl
  | cons r ranges ih =>
    cases hchars : r.toChars? with
    | none =>
      have hno : ¬ r.IsChars := by rw [← PointRange.toChars?_isSome_iff, hchars]; exact nofun
      rw [List.filterMap_cons_none hchars, List.filter_cons_of_neg (by simpa using hno), ih]
    | some chars =>
      have hyes : r.IsChars := by rw [← PointRange.toChars?_isSome_iff, hchars]; rfl
      rw [List.filterMap_cons_some hchars, List.map_cons, PointRange.points_of_toChars? hchars,
        List.filter_cons_of_pos (by simpa using hyes), ih]

end AnalyzerSettings

theorem Config.accepts_scriptFilter_iff (c : Config) (text : String) :
    c.scriptFilter.accepts text = true ↔
      ∃ ch ∈ text.toList, ∃ r ∈ c.analyzer.scriptRanges.filter (·.IsChars), r.Covers ch.toNat := by
  rw [ScriptFilter.accepts_iff, ← AnalyzerSettings.map_points_charRanges]
  simp only [ScriptFilter.Targets, List.mem_map, exists_exists_and_eq_and, CharRange.contains_iff]
  rfl

/-! ## Formats -/

namespace LogFormat

theorem parse_name (f : LogFormat) : parse f.name = .ok f := by
  cases f <;> decide +kernel

theorem logFormatNames_eq : logFormatNames = all.map name := rfl

end LogFormat

theorem LoggingSettings.validate_eq_ok_iff {l : LoggingSettings} :
    l.validate = .ok () ↔ l.level ∈ logLevelNames ∧ ∃ f : LogFormat, f.name = l.format := by
  have hformat : l.format ∈ logFormatNames ↔ ∃ f : LogFormat, f.name = l.format := by
    rw [LogFormat.logFormatNames_eq, List.mem_map]
    exact exists_congr fun f => and_iff_right (by cases f <;> decide)
  rw [validate, except_seq_ok_iff, ensure_eq_ok_iff, ensure_eq_ok_iff, hformat]

namespace Config

theorem validate_eq_ok_iff {c : Config} :
    c.validate = .ok () ↔ c.guest.validate = .ok () ∧ c.scheduler.validate = .ok () ∧
      c.analyzer.validate = .ok () ∧ c.logging.validate = .ok () := by
  rw [validate, except_seq_ok_iff, except_seq_ok_iff, except_seq_ok_iff]

theorem format_logConfig {c : Config} {f : LogFormat} (h : LogFormat.parse c.logging.format = .ok f)
    (verbose : Bool) : (c.logConfig verbose).format = f := by
  simp only [logConfig, h]

/-- A valid configuration converts without loss. There is one range of characters for each configured
range, in order and with the same ends; the filter accepts a text exactly if it has a character whose
code point lies in one of the configured ranges; and the format is the one that is named. -/
theorem valid_settings_convert (c : Config) (hvalid : c.validate = .ok ()) :
    c.analyzer.charRanges.map CharRange.points = c.analyzer.scriptRanges ∧
    (∀ r ∈ c.analyzer.scriptRanges, ∃ chars, r.toChars? = some chars) ∧
    (∀ text, c.scriptFilter.accepts text = true ↔
      ∃ ch ∈ text.toList, ∃ r ∈ c.analyzer.scriptRanges, r.start ≤ ch.toNat ∧ ch.toNat ≤ r.finish) ∧
    ∃ f : LogFormat, f.name = c.logging.format ∧ LogFormat.parse c.logging.format = .ok f ∧
      ∀ verbose, (c.logConfig verbose).format = f := by
  obtain ⟨-, -, hanalyzer, hlogging⟩ := validate_eq_ok_iff.1 hvalid
  obtain ⟨-, -, hranges⟩ := AnalyzerSettings.validate_eq_ok_iff.1 hanalyzer
  obtain ⟨-, f, hname⟩ := LoggingSettings.validate_eq_ok_iff.1 hlogging
  have hall : c.analyzer.scriptRanges.filter (·.IsChars) = c.analyzer.scriptRanges :=
    List.filter_eq_self.2 fun r hr => decide_eq_true (hranges r hr)
  have hparse : LogFormat.parse c.logging.format = .ok f := hname ▸ f.parse_name
  refine ⟨?_, fun r hr => ?_, fun text => ?_, f, hname, hparse, format_logConfig hparse⟩
  · rw [AnalyzerSettings.map_points_charRanges, hall]
  · exact Option.isSome_iff_exists.1 (PointRange.toChars?_isSome_iff.2 (hranges r hr))
  · rw [accepts_scriptFilter_iff, hall]
    rfl

/-- A range may reach over code points that no character has. -/
theorem valid_settings_convert_around_surrogates :
    let c : Config := { standard with
      analyzer.scriptRanges := [⟨0xD7FF, 0xE000⟩, ⟨0x10FFFF, 0x10FFFF⟩], logging.format := "json" }
    c.validate = .ok () ∧
    c.analyzer.charRanges.map CharRange.points = [⟨0xD7FF, 0xE000⟩, ⟨0x10FFFF, 0x10FFFF⟩] ∧
    (c.scriptFilter.accepts "a\ue000" = true ↔ ∃ ch ∈ "a\ue000".toList,
      ∃ r ∈ c.analyzer.scriptRanges, r.start ≤ ch.toNat ∧ ch.toNat ≤ r.finish) ∧
    ∃ f : LogFormat, f.name = "json" ∧ (c.logConfig false).format = f := by
  intro c
  have hvalid : c.validate = .ok () := by decide
  obtain ⟨hranges, -, haccepts, f, hname, -, hformat⟩ := valid_settings_convert c hvalid
  exact ⟨hvalid, hranges, haccepts _, f, hname, hformat false⟩

end Config

end TokenizerHost
