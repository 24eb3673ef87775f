import Mathlib.Algebra.Group.Int.Defs
import TokenizerHost.Batch
import TokenizerHost.Proofs.Json.Reading

set_option autoImplicit false

namespace TokenizerHost

open Json

namespace Token

/-! ## Fields of a token -/

def Fits (t : Token) : Prop :=
  ∀ n : Int, t.wordId = some n ∨ t.wordPosition = some n → -2 ^ 63 ≤ n ∧ n < 2 ^ 63

/-- The fields that a token need not have, with what they are read as if they are left out. -/
def omittable : List (String × Json) :=
  [("reading", .string ""), ("base_form", .string ""), ("pos", .string ""),
    ("pronunciation", .string ""), ("word_id", .null), ("word_type", .null),
    ("word_position", .null)]

def ofEntries? (entry : String → Option Json) : Option Token := do
  some {
    surfaceForm := ← Json.required Json.string? (entry "surface_form")
    reading := ← Json.orElse "" Json.string? (entry "reading")
    baseForm := ← Json.orElse "" Json.string? (entry "base_form")
    pos := ← Json.orElse "" Json.string? (entry "pos")
    pronunciation := ← Json.orElse "" Json.string? (entry "pronunciation")
    wordId := ← Json.orElse none (Json.nullable? Json.int64?) (entry "word_id")
    wordType := ← Json.orElse none (Json.nullable? Json.string?) (entry "word_type")
    wordPosition := ← Json.orElse none (Json.nullable? Json.int64?) (entry "word_position") }

theorem ofJson?_eq {j : Json} {entry : String → Option Json}
    (h : j.fields? fieldNames = some (fieldNames.map entry)) : ofJson? j = ofEntries? entry := by
  unfold ofJson?
  rw [h]
  rfl

theorem ofEntries?_or {written : List (String × Json)} (hwritten : written.Sublist omittable)
    (entry : String → Option Json) :
    ofEntries? (fun name => (entry name).or (written.lookup name)) = ofEntries? entry := by
  have hmem : ∀ name j, written.lookup name = some j → (name, j) ∈ omittable := by
    intro name j hj
    obtain ⟨before, after, hsplit, -⟩ := List.lookup_eq_some_iff.1 hj
    exact hwritten.subset (by rw [hsplit]; simp)
  -- The one field that has to be there is none of those that may be left out.
  have hneeded : written.lookup "surface_form" = none := by
    refine Option.eq_none_iff_forall_ne_some.2 fun j hj => ?_
    simpa [omittable] using hmem _ j hj
  have hdefault : ∀ {α : Type} (standard : α) (read? : Json → Option α) (name : String),
      (∀ j, (name, j) ∈ omittable → read? j = some standard) →
      Json.orElse standard read? ((entry name).or (written.lookup name)) =
        Json.orElse standard read? (entry name) := by
    intro α standard read? name hread
    cases hentry : entry name with
    | some j => rfl
    | none =>
      cases hj : written.lookup name with
      | none => rfl
      | some j => exact hread j (hmem name j hj)
  unfold ofEntries?
  dsimp only
  rw [hneeded, Option.or_none,
    hdefault "" Json.string? "reading" (by simp [omittable, Json.string?]),
    hdefault "" Json.string? "base_form" (by simp [omittable, Json.string?]),
    hdefault "" Json.string? "pos" (by simp [omittable, Json.string?]),
    hdefault "" Json.string? "pronunciation" (by simp [omittable, Json.string?]),
    hdefault none (Json.nullable? Json.int64?) "word_id" (by simp [omittable, Json.nullable?]),
    hdefault none (Json.nullable? Json.string?) "word_type" (by simp [omittable, Json.nullable?]),
    hdefault none (Json.nullable? Json.int64?) "word_position" (by simp [omittable, Json.nullable?])]

/-- An object that has some of the omitted fields written out, its members being in another order. -/
theorem ofJson?_written_out {ms ms' : List (Option String × Json)} {written : List (String × Json)}
    (hwritten : written.Sublist omittable) (hnew : ∀ w ∈ written, ∀ m ∈ ms, m.1 ≠ some w.1)
    (hperm : ms'.Perm (ms ++ named written)) : ofJson? (.object ms') = ofJson? (.object ms) := by
  have hnodup : (written.map (·.1)).Nodup :=
    List.Nodup.sublist (hwritten.map _) (by decide : (omittable.map (·.1)).Nodup)
  have hfields := (fields?_of_perm fieldNames hperm).trans (fields?_append hnodup hnew)
  rw [fields?_object fieldNames ms] at hfields
  by_cases hnamed : wellNamed fieldNames ms = true
  · rw [if_pos hnamed, Option.map_some] at hfields
    have hfields' : (object ms).fields? fieldNames = some (fieldNames.map (standing? ms)) := by
      rw [fields?_object, if_pos hnamed]
    rw [ofJson?_eq hfields, ofJson?_eq hfields', ofEntries?_or hwritten]
  · rw [if_neg hnamed, Option.map_none] at hfields
    have hfields' : (object ms).fields? fieldNames = none := by
      rw [fields?_object, if_neg hnamed]
    unfold ofJson?
    rw [hfields, hfields']

/-! ## Writing a token and reading it -/

/-- The members of a token with all of its fields written out. -/
def fullMembers (t : Token) : List (String × Json) :=
  [("surface_form", .string t.surfaceForm), ("reading", .string t.reading),
    ("base_form", .string t.baseForm), ("pos", .string t.pos),
    ("pronunciation", .string t.pronunciation), ("word_id", t.wordId.elim .null .integer),
    ("word_type", t.wordType.elim .null .string),
    ("word_position", t.wordPosition.elim .null .integer)]

theorem nodup_fullMembers (t : Token) : (t.fullMembers.map (·.1)).Nodup := by
  simp [fullMembers]

theorem int64?_of_fits {n : Int} (h : -2 ^ 63 ≤ n ∧ n < 2 ^ 63) :
    Json.nullable? Json.int64? (.integer n) = some (some n) := by
  have hleast : Int64.minValue.toInt = -2 ^ 63 := rfl
  have hgreatest : Int64.maxValue.toInt = 2 ^ 63 - 1 := rfl
  have hfits : Int64.minValue.toInt ≤ n ∧ n ≤ Int64.maxValue.toInt := by omega
  rw [Json.nullable?, Json.int64?, if_pos hfits]
  · rfl
  · exact fun hnull => by cases hnull

theorem orElse_elim {α : Type} {read? : Json → Option α} {write : α → Json} (x : Option α)
    (h : ∀ a, x = some a → Json.nullable? read? (write a) = some (some a)) :
    Json.orElse none (Json.nullable? read?) (some (x.elim .null write)) = some x := by
  cases x with
  | none => rfl
  | some a => exact h a rfl

theorem ofJson?_fullMembers {t : Token} (h : t.Fits) : ofJson? (.record t.fullMembers) = some t := by
  have hid := orElse_elim t.wordId fun n hn => int64?_of_fits (h n (.inl hn))
  have htype : Json.orElse none (Json.nullable? Json.string?)
      (some (t.wordType.elim .null .string)) = some t.wordType := orElse_elim _ fun _ _ => rfl
  have hposition := orElse_elim t.wordPosition fun n hn => int64?_of_fits (h n (.inr hn))
  rw [ofJson?_eq (fields?_record t.nodup_fullMembers)]
  change ofEntries? (t.fullMembers.lookup ·) = some t
  simp only [ofEntries?, show t.fullMembers.lookup "word_id" = some _ from rfl,
    show t.fullMembers.lookup "word_type" = some _ from rfl,
    show t.fullMembers.lookup "word_position" = some _ from rfl, hid, htype, hposition]
  rfl

/-- A token is read from those of its fields that are kept, if the others are empty. -/
theorem ofJson?_kept {t : Token} (h : t.Fits) {kept left : List (String × Json)}
    (hleft : left.Sublist omittable) (hperm : (kept ++ left).Perm t.fullMembers) :
    ofJson? (.record kept) = some t := by
  have hnodup : ((kept ++ left).map (·.1)).Nodup :=
    (hperm.map (·.1)).nodup_iff.2 t.nodup_fullMembers
  rw [List.map_append, List.nodup_append] at hnodup
  have hnew : ∀ w ∈ left, ∀ m ∈ named kept, m.1 ≠ some w.1 := by
    intro w hw m hm hsame
    obtain ⟨k, hk, rfl⟩ := List.mem_map.1 hm
    exact hnodup.2.2 k.1 (List.mem_map_of_mem hk) w.1 (List.mem_map_of_mem hw)
      (Option.some.inj hsame)
  have hall : (named t.fullMembers).Perm (named kept ++ named left) := by
    rw [named, named, named, ← List.map_append]
    exact (hperm.map _).symm
  exact (ofJson?_written_out hleft hnew hall).symm.trans (ofJson?_fullMembers h)

def members (t : Token) : List (String × Json) :=
  [("surface_form", .string t.surfaceForm), ("reading", .string t.reading),
    ("base_form", .string t.baseForm), ("pos", .string t.pos),
    ("pronunciation", .string t.pronunciation)] ++
      optional "word_id" .integer t.wordId ++ optional "word_type" .string t.wordType ++
      optional "word_position" .integer t.wordPosition

def isAbsent : String × Json → Bool
  | (_, .null) => true
  | _ => false

theorem members_eq_filter (t : Token) : t.members = t.fullMembers.filter (!isAbsent ·) := by
  obtain ⟨_, _, _, _, _, wordId, wordType, wordPosition⟩ := t
  cases wordId <;> cases wordType <;> cases wordPosition <;> rfl

theorem absent_sublist_omittable (t : Token) :
    (t.fullMembers.filter isAbsent).Sublist omittable := by
  refine List.Sublist.trans ?_ (List.drop_sublist 4 omittable)
  obtain ⟨_, _, _, _, _, wordId, wordType, wordPosition⟩ := t
  cases wordId <;> cases wordType <;> cases wordPosition <;>
    simp [fullMembers, isAbsent, omittable, List.filter_cons]

theorem nodup_members (t : Token) : (t.members.map (·.1)).Nodup := by
  rw [members_eq_filter]
  exact List.Nodup.sublist (List.filter_sublist.map _) t.nodup_fullMembers

theorem ofJson?_toJson {t : Token} (h : t.Fits) : ofJson? t.toJson = some t := by
  refine ofJson?_kept h t.absent_sublist_omittable ?_
  change (t.members ++ _).Perm _
  rw [members_eq_filter]
  exact List.perm_append_comm.trans (List.filter_append_perm isAbsent _)

theorem lookup_members (t : Token) :
    t.members.lookup "word_id" = t.wordId.map .integer ∧
      t.members.lookup "word_type" = t.wordType.map .string ∧
      t.members.lookup "word_position" = t.wordPosition.map .integer := by
  obtain ⟨_, _, _, _, _, wordId, wordType, wordPosition⟩ := t
  cases wordId <;> cases wordType <;> cases wordPosition <;> exact ⟨rfl, rfl, rfl⟩

theorem plain_toJson (t : Token) : Plain t.toJson := by
  refine .record fun m hm => ?_
  simp only [optional, List.mem_append, List.mem_cons, List.not_mem_nil, or_false,
    Option.mem_toList, Option.map_eq_some_iff] at hm
  rcases hm with (((rfl | rfl | rfl | rfl | rfl) | ⟨n, -, rfl⟩) | ⟨s, -, rfl⟩) | ⟨n, -, rfl⟩
  all_goals constructor

end Token

/-! ## Requests and responses -/

theorem mapM_map_eq {α β : Type} {f : α → β} {g : β → Option α} {xs : List α}
    (h : ∀ x ∈ xs, g (f x) = some x) : (xs.map f).mapM g = some xs := by
  induction xs with
  | nil => rfl
  | cons x xs ih =>
    rw [List.map_cons, List.mapM_cons, h x List.mem_cons_self,
      ih fun y hy => h y (List.mem_cons_of_mem _ hy)]
    rfl

namespace AnalysisResult

theorem plain_toJson (r : AnalysisResult) : Plain r.toJson := by
  refine .record fun m hm => ?_
  simp only [List.mem_cons, List.not_mem_nil, or_false] at hm
  rcases hm with rfl | rfl
  · exact .string _
  · refine .array fun v hv => ?_
    obtain ⟨t, -, rfl⟩ := List.mem_map.1 hv
    exact t.plain_toJson

theorem ofJson?_toJson {r : AnalysisResult} (h : ∀ t ∈ r.tokens, t.Fits) :
    ofJson? r.toJson = some r := by
  have hfields : r.toJson.fields? ["text", "tokens"] =
      some [some (.string r.text), some (.array (r.tokens.map Token.toJson))] := rfl
  have htokens : (r.tokens.map Token.toJson).mapM Token.ofJson? = some r.tokens :=
    mapM_map_eq fun t ht => Token.ofJson?_toJson (h t ht)
  simp only [ofJson?, hfields, required, list?, Json.string?, htokens, Option.bind_eq_bind,
    Option.bind_some]

end AnalysisResult

namespace BatchRequest

theorem plain_toJson (r : BatchRequest) : Plain r.toJson := by
  refine .record fun m hm => ?_
  rw [List.mem_singleton.1 hm]
  refine .array fun v hv => ?_
  obtain ⟨text, -, rfl⟩ := List.mem_map.1 hv
  exact .string text

theorem ofJson?_toJson (r : BatchRequest) : ofJson? r.toJson = some r := by
  have hfields : r.toJson.fields? ["texts"] = some [some (.array (r.texts.map .string))] := rfl
  have htexts : (r.texts.map .string).mapM Json.string? = some r.texts :=
    mapM_map_eq fun _ _ => rfl
  simp only [ofJson?, hfields, required, list?, htexts, Option.bind_eq_bind, Option.bind_some]

end BatchRequest

namespace BatchResponse

def Fits (r : BatchResponse) : Prop := ∀ result ∈ r.results, ∀ t ∈ result.tokens, t.Fits

theorem plain_toJson (r : BatchResponse) : Plain r.toJson := by
  refine .record fun m hm => ?_
  rw [List.mem_singleton.1 hm]
  refine .array fun v hv => ?_
  obtain ⟨result, -, rfl⟩ := List.mem_map.1 hv
  exact result.plain_toJson

theorem ofJson?_toJson {r : BatchResponse} (h : r.Fits) : ofJson? r.toJson = some r := by
  have hfields : r.toJson.fields? ["results"] =
      some [some (.array (r.results.map AnalysisResult.toJson))] := rfl
  have hresults : (r.results.map AnalysisResult.toJson).mapM AnalysisResult.ofJson? =
      some r.results :=
    mapM_map_eq fun result hresult => AnalysisResult.ofJson?_toJson (h result hresult)
  simp only [ofJson?, hfields, required, list?, hresults, Option.bind_eq_bind, Option.bind_some]

end BatchResponse

theorem parse?_bind_written {α : Type} {j : Json} {ofJson? : Json → Option α} {x : α} (hj : Plain j)
    (h : ofJson? j = some x) : (parse? j.compact).bind ofJson? = some x ∧
      (parse? j.pretty).bind ofJson? = some x := by
  rw [parse?_compact hj, parse?_pretty hj]
  exact ⟨h, h⟩

/-- Requests and responses read back from their texts, whether written on one line or on several. A
token is written with each of its integers and its type exactly if it has it. A token object reads the
same whether fields that it need not have are left out or are written as empty, in any order; and it
reads as the token whose fields it has, those that are left out being empty. -/
theorem requests_and_responses_round_trip :
    (∀ r : BatchRequest, (parse? r.toJson.compact).bind BatchRequest.ofJson? = some r ∧
      (parse? r.toJson.pretty).bind BatchRequest.ofJson? = some r) ∧
    (∀ r : BatchResponse, r.Fits →
      (parse? r.toJson.compact).bind BatchResponse.ofJson? = some r ∧
        (parse? r.toJson.pretty).bind BatchResponse.ofJson? = some r) ∧
    (∀ t : Token, ∃ members : List (String × Json),
      parse? t.toJson.compact = some (.record members) ∧ (members.map (·.1)).Nodup ∧
      members.lookup "word_id" = t.wordId.map .integer ∧
      members.lookup "word_type" = t.wordType.map .string ∧
      members.lookup "word_position" = t.wordPosition.map .integer) ∧
    (∀ (text text' : String) (ms ms' : List (Option String × Json)) (written : List (String × Json)),
      parse? text = some (.object ms) → parse? text' = some (.object ms') →
      written.Sublist Token.omittable → (∀ w ∈ written, ∀ m ∈ ms, m.1 ≠ some w.1) →
      ms'.Perm (ms ++ named written) →
      (parse? text').bind Token.ofJson? = (parse? text).bind Token.ofJson?) ∧
    ∀ (t : Token) (text : String) (kept left : List (String × Json)), t.Fits →
      parse? text = some (.record kept) → left.Sublist Token.omittable →
      (kept ++ left).Perm t.fullMembers → (parse? text).bind Token.ofJson? = some t := by
  refine ⟨fun r => parse?_bind_written r.plain_toJson r.ofJson?_toJson,
    fun r hr => parse?_bind_written r.plain_toJson (BatchResponse.ofJson?_toJson hr),
    fun t => ⟨t.members, parse?_compact t.plain_toJson, t.nodup_members, t.lookup_members⟩, ?_, ?_⟩
  · intro text text' ms ms' written htext htext' hwritten hnew hperm
    rw [htext, htext']
    exact Token.ofJson?_written_out hwritten hnew hperm
  · intro t text kept left ht htext hleft hperm
    rw [htext]
    exact Token.ofJson?_kept ht hleft hperm

def extremeToken : Token where
  surfaceForm := "\n\"\x01"
  reading := ""
  baseForm := ""
  pos := "名詞"
  pronunciation := ""
  wordId := some (-2 ^ 63)
  wordType := some ""
  wordPosition := some (2 ^ 63 - 1)

def bareToken : Token where
  surfaceForm := "猫"
  reading := ""
  baseForm := ""
  pos := "名詞"
  pronunciation := ""
  wordId := none
  wordType := none
  wordPosition := none

theorem requests_and_responses_round_trip_extreme :
    (parse? (BatchResponse.mk [⟨"", [extremeToken]⟩]).toJson.compact).bind BatchResponse.ofJson? =
      some ⟨[⟨"", [extremeToken]⟩]⟩ ∧
    (parse? (record [("pos", .string "名詞"), ("word_id", .null),
        ("surface_form", .string "猫")]).compact).bind Token.ofJson? =
      (parse? (record [("surface_form", .string "猫"), ("pos", .string "名詞")]).compact).bind
        Token.ofJson? ∧
    (parse? (record [("surface_form", .string "猫"), ("pos", .string "名詞")]).compact).bind
      Token.ofJson? = some bareToken := by
  obtain ⟨-, hresponse, -, hwritten, hkept⟩ := requests_and_responses_round_trip
  have hextreme : extremeToken.Fits := by
    rintro n (hn | hn) <;> cases hn <;> decide
  have hbare : bareToken.Fits := by
    rintro n (hn | hn) <;> cases hn
  have hshort : parse? (record [("surface_form", .string "猫"), ("pos", .string "名詞")]).compact =
      some (record [("surface_form", .string "猫"), ("pos", .string "名詞")]) :=
    parse?_compact (.record (by simp [Plain.string]))
  have hlong : parse? (record [("pos", .string "名詞"), ("word_id", .null),
        ("surface_form", .string "猫")]).compact =
      some (record [("pos", .string "名詞"), ("word_id", .null), ("surface_form", .string "猫")]) :=
    parse?_compact (.record (by simp [Plain.string, Plain.null]))
  refine ⟨(hresponse _ ?_).1, ?_, ?_⟩
  · simpa [BatchResponse.Fits] using hextreme
  · refine hwritten _ _ _ _ [("word_id", .null)] hshort hlong (by simp [Token.omittable]) ?_ ?_
    · simp
    · exact @List.perm_append_comm _ [_, _] [_]
  · refine hkept bareToken _ _ [("reading", .string ""), ("base_form", .string ""),
      ("pronunciation", .string ""), ("word_id", .null), ("word_type", .null),
      ("word_position", .null)] hbare hshort ?_ ?_
    · simp [Token.omittable]
    · exact .cons _ (@List.perm_middle _ _ [_, _] _).symm

end TokenizerHost
