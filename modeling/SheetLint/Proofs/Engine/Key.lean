import Mathlib.Data.Set.Function
import SheetLint.Cache
import SheetLint.Proofs.Engine.Settings
import SheetLint.Proofs.Json.Loose.RoundTrip
import SheetLint.Proofs.Json.Schema

/-!
# The key loses nothing but fixing

The text that the key of engine settings is made of is printed JSON, while options come from loose
JSON.  Options that are read from the text of settings have just these settings
(`RunOptions.read_toJson`): so nothing is lost on the way to the key, and two settings with one key
text are the same but for fixing.  If the digest tells the key texts apart, no stored result is ever
taken for that of other settings (`RunOptions.key_faithful`).

The values that the settings hold may nest as they like; only their numbers are to be whole.  That
they are sorted and no null, which the way back needs too, holds of all options that are read
(`RunOptions.isSorted_of_read`, `RunOptions.nullFree_of_read`).

The way back has two halves.  The printed text is read by the loose reader as the sorted fields of
the settings, `EngineSettings.parse_toJson`, which is a case of the round trip for any whole and
sorted value.  And the schema of the options takes these fields for a record that leaves out all
other options, `EngineSettings.check_sortedFields`, so that each gets its default.

Nothing is supposed of the digest but that it differs on the two key texts in question.  Two
different texts with one digest exist, and settings with such texts would share their results.
-/

namespace SheetLint

namespace EngineSettings

/-- The configuration and the overrides, as far as the settings have them, have the property. -/
structure AllValues (P : Json → Prop) (s : EngineSettings) : Prop where
  config : ∀ j ∈ s.config, P j
  configOverrides : ∀ j ∈ s.configOverrides, P j

variable {s : EngineSettings} {fields : List (String × Json)}

lemma AllValues.forall_mem_fields {P : Json → Prop} (h : s.AllValues P) (hnull : P .null)
    (hbool : ∀ b, P (.bool b)) (hstr : ∀ t, P (.str t)) (hfields : s.toJson = .obj fields) :
    ∀ p ∈ fields, P p.2 := by
  have hvalue {o : Option Json} (ho : ∀ j ∈ o, P j) : P (o.getD .null) := by
    cases o with
    | none => exact hnull
    | some j => exact ho j rfl
  have htext (o : Option String) : P (Json.optional .str o) := by
    cases o with
    | none => exact hnull
    | some t => exact hstr t
  obtain rfl := Json.obj.inj hfields
  simp only [List.forall_mem_cons]
  exact ⟨hvalue h.config, htext _, htext _, hvalue h.configOverrides, htext _, htext _, hbool _,
    hbool _, hbool _, List.forall_mem_nil _⟩

/-! ### Reading the text of settings -/

/-- The fields of the settings, sorted by name. -/
def sortedFields (s : EngineSettings) : Keyed Json :=
  [("config", s.config.getD .null), ("configBasedir", Json.optional .str s.configBasedir),
    ("configFile", Json.optional .str s.configFile),
    ("configOverrides", s.configOverrides.getD .null),
    ("customSyntax", Json.optional .str s.customDialectName), ("fix", .bool s.fix),
    ("ignoreDisables", .bool s.ignoreDisables),
    ("reportNeedlessDisables", .bool s.reportNeedlessDisables),
    ("syntax", Json.optional .str s.dialectName)]

/-- The regular form of options that give just the settings. -/
def regularForm (s : EngineSettings) : Json :=
  .obj [("cacheLocation", .null), ("code", .null), ("codeFilename", .null),
    ("config", s.config.getD .null), ("configBasedir", Json.optional .str s.configBasedir),
    ("configFile", Json.optional .str s.configFile),
    ("configOverrides", s.configOverrides.getD .null),
    ("customSyntax", Json.optional .str s.customDialectName), ("files", .null),
    ("fix", .bool s.fix), ("formatter", .null), ("ignoreDisables", .bool s.ignoreDisables),
    ("ignorePath", .null), ("ignorePattern", .arr []), ("disableDefaultIgnores", .bool false),
    ("reportNeedlessDisables", .bool s.reportNeedlessDisables),
    ("syntax", Json.optional .str s.dialectName), ("cache", .bool false), ("cwd", .null)]

lemma parse_toJson (hwhole : s.AllValues Json.IsWhole) (hsorted : s.AllValues Json.IsSorted) :
    Json.Loose.parse s.toJson.print = .ok (some (.obj s.sortedFields)) := by
  obtain ⟨fields, hfields⟩ : ∃ fields, s.toJson = .obj fields := ⟨_, rfl⟩
  have hread := Json.Loose.parse_print (hwhole.forall_mem_fields .null .bool .str hfields)
    (hsorted.forall_mem_fields .null .bool .str hfields)
  rw [hfields, hread]
  obtain rfl := Json.obj.inj hfields
  simp only [Json.ofFields, Keyed.ofPairs, Keyed.insert, List.foldl, String.reduceEq,
    String.reduceLT, if_true, if_false, sortedFields]

lemma check_optional_ok (v : Json) : Json.Check.optional .ok v = .ok v := by
  cases v <;> rfl

lemma check_optional_text (expected : String) (o : Option String) :
    Json.Check.optional (Json.Check.text expected) (Json.optional .str o) =
      .ok (Json.optional .str o) := by
  cases o <;> rfl

/-- The fields of settings are options, in which everything else has its default. -/
lemma check_sortedFields (s : EngineSettings) :
    (Json.Shaped.schema RunOptions).check (.obj s.sortedFields) = .ok s.regularForm := by
  simp [Json.Shaped.schema, RunOptions.schemaFields, RunOptions.maybe, RunOptions.flagOff,
    Json.Schema.check, Json.Schema.checkSlots, Json.Check.record, check_optional_ok,
    check_optional_text, Json.Check.flag, Json.assemble, List.lookup_cons, List.lookup_nil, bind,
    Except.bind, pure, Except.pure, Except.map, sortedFields, regularForm]

end EngineSettings

namespace RunOptions

lemma text?_optional (o : Option String) : text? (Json.optional .str o) = some o := by
  cases o <;> rfl

lemma value?_getD {o : Option Json} (h : o ≠ some .null) : value? (o.getD .null) = o := by
  cases o with
  | none => rfl
  | some j =>
    cases j with
    | null => exact absurd rfl h
    | _ => rfl

/-- The options with a regular form that gives just settings. -/
lemma ofRegular_regularForm {s : EngineSettings} (h : s.NullFree) :
    Json.ofRegular s.regularForm = .ok ({ settings := s } : RunOptions) := by
  have hnone : text? .null = some none := rfl
  simp [Json.ofRegular, Json.Shaped.ofRegular?, EngineSettings.regularForm, text?_optional, hnone,
    value?_getD h.config, value?_getD h.configOverrides]

/-- **Settings are read back from their text**, as options with nothing else. -/
theorem read_toJson {s : EngineSettings} (hwhole : s.AllValues Json.IsWhole)
    (hsorted : s.AllValues Json.IsSorted) (hnull : s.NullFree) :
    read s.toJson.print = .ok { settings := s } := by
  have hdecode : Json.decode RunOptions (.obj s.sortedFields) = .ok { settings := s } := by
    rw [Json.decode, EngineSettings.check_sortedFields]
    exact ofRegular_regularForm hnull
  rw [read, EngineSettings.parse_toJson hwhole hsorted]
  simp only [Option.getD_some, hdecode]

/-! ### Settings that are read -/

open Json (Check)

/-- A field of options with its check. -/
def slot (name : String) (field : Json.Schema × Option Json) : Json.Slot Check :=
  ⟨name, field.1.check, field.2⟩

lemma keepsSorted_maybe {schema : Json.Schema} (h : schema.check.KeepsSorted) (name : String) :
    (slot name (maybe schema)).KeepsSorted where
  recognise := by
    rw [slot, maybe, Json.Schema.check]
    exact h.optional
  default := by
    rintro v ⟨⟩
    exact .null

lemma keepsSorted_flagOff (name : String) : (slot name flagOff).KeepsSorted where
  recognise := by
    rw [slot, flagOff, Json.Schema.check]
    exact Check.keepsSorted_flag
  default := by
    rintro v ⟨⟩
    exact .bool _

lemma keepsSorted_slots : ∀ slot ∈ Json.Schema.checkSlots schemaFields, slot.KeepsSorted := by
  have hany : Json.Schema.any.check.KeepsSorted := by
    rw [Json.Schema.check]
    exact Check.keepsSorted_ok
  have htext : Json.Schema.text.check.KeepsSorted := by
    rw [Json.Schema.check]
    exact Check.keepsSorted_text _
  have hpath : Json.Schema.path.check.KeepsSorted := by
    rw [Json.Schema.check]
    exact Check.keepsSorted_text _
  have hfiles : (Json.Shaped.schema FilePatterns).check.KeepsSorted := by
    change (Json.Schema.textOrTexts _).check.KeepsSorted
    rw [Json.Schema.check]
    exact Check.keepsSorted_textOrTexts _
  have hpatterns : (slot "ignorePattern" (.list .text, some (.arr []))).KeepsSorted := by
    refine ⟨?_, ?_⟩
    · rw [slot, Json.Schema.check]
      exact htext.list
    · rintro v ⟨⟩
      exact .arr [] (List.forall_mem_nil _)
  -- One proof for each slot, in the order of the schema; most of them may be left out.
  simp only [schemaFields, Json.Schema.checkSlots, List.forall_mem_cons]
  exact ⟨keepsSorted_maybe hpath _, keepsSorted_maybe htext _, keepsSorted_maybe htext _,
    keepsSorted_maybe hany _, keepsSorted_maybe hpath _, keepsSorted_maybe hpath _,
    keepsSorted_maybe hany _, keepsSorted_maybe htext _, keepsSorted_maybe hfiles _,
    keepsSorted_flagOff _, keepsSorted_maybe htext _, keepsSorted_flagOff _,
    keepsSorted_maybe hpath _, hpatterns, keepsSorted_flagOff _, keepsSorted_flagOff _,
    keepsSorted_maybe htext _, keepsSorted_flagOff _, keepsSorted_maybe hpath _,
    List.forall_mem_nil _⟩

lemma forall_mem_value? {P : Json → Prop} {j : Json} (h : P j) : ∀ v ∈ value? j, P v := by
  intro v hv
  cases j <;> cases hv <;> exact h

lemma allValues_of_ofRegular? {P : Json → Prop} {parts : List (String × Json)}
    (hparts : ∀ p ∈ parts, P p.2) {o : RunOptions}
    (h : Json.Shaped.ofRegular? (.obj parts) = some o) : o.settings.AllValues P := by
  unfold Json.Shaped.ofRegular? instShaped at h
  dsimp only at h
  split at h
  · next hshape =>
    obtain rfl := Json.obj.inj hshape
    -- every field that is read is one step; the last one gives the options
    iterate 12 obtain ⟨_, -, h⟩ := Option.bind_eq_some_iff.mp h
    cases h
    simp only [List.forall_mem_cons] at hparts
    obtain ⟨-, -, -, hconfig, -, -, hoverrides, -⟩ := hparts
    exact ⟨forall_mem_value? hconfig, forall_mem_value? hoverrides⟩
  · exact nomatch h

/-- **Options that are read hold sorted values in their settings.** -/
theorem isSorted_of_read {text : String} {o : RunOptions} (h : read text = .ok o) :
    o.settings.AllValues Json.IsSorted := by
  obtain ⟨j, regular, hparse, hcheck, hregular⟩ := exists_of_read h
  have hsorted : (j.getD (.obj [])).IsSorted := by
    cases j with
    | none => exact .obj [] List.Pairwise.nil (List.forall_mem_nil _)
    | some j => exact Json.Loose.isSorted_of_parse hparse
  change (Json.Schema.record _ schemaFields).check _ = _ at hcheck
  rw [Json.Schema.check] at hcheck
  obtain ⟨parts, rfl, hparts⟩ := Check.exists_of_record keepsSorted_slots hsorted hcheck
  exact allValues_of_ofRegular? hparts hregular

/-! ### The key -/

/-- **The key loses nothing but fixing.**  Let two options be read.  The settings of the first, with
numbers that are whole, come back from their text.  The key texts of both are one just if the
settings are the same but for fixing; and if the digest tells the two texts apart, no stored result
is valid for both unless they are. -/
theorem key_faithful {text text' : String} {o o' : RunOptions} (h : read text = .ok o)
    (h' : read text' = .ok o') :
    (o.settings.AllValues Json.IsWhole → ∃ back, read o.settings.toJson.print = .ok back ∧
      back.settings = o.settings) ∧
    (o.settings.keyText = o'.settings.keyText ↔
      { o.settings with fix := false } = { o'.settings with fix := false }) ∧
    (Set.InjOn Digest.ofString {o.settings.keyText, o'.settings.keyText} →
      ∀ (e : CachedResult) (digest digest' : String), e.isValid digest o.settings.key = true →
        e.isValid digest' o'.settings.key = true →
          { o.settings with fix := false } = { o'.settings with fix := false }) := by
  have hsame := EngineSettings.eq_of_keyText_eq (nullFree_of_read h) (nullFree_of_read h')
  refine ⟨fun hwhole => ?_, ⟨hsame, fun heq => ?_⟩, fun hinj e digest digest' he he' => hsame ?_⟩
  · exact ⟨_, read_toJson hwhole (isSorted_of_read h) (nullFree_of_read h), rfl⟩
  · rw [EngineSettings.keyText, heq, EngineSettings.keyText]
  · simp only [CachedResult.isValid, Bool.and_eq_true, beq_iff_eq] at he he'
    exact hinj (by simp) (by simp) (he.2.symm.trans he'.2)

/-- Options with a nested configuration. -/
def nestedOptions : RunOptions :=
  { settings := {
      config := some (.obj [("a", .arr [.int (-1), .null]), ("b", .str "\x01")]), fix := true } }

/-- Whether options are those.  Options as such cannot be compared, since they can hold a double. -/
def isNestedOptions : RunOptions → Bool
  | ⟨none, none, none, ⟨some (.obj [("a", .arr [.int (.negSucc 0), .null]), ("b", .str "\x01")]),
    none, none, none, none, none, false, false, true⟩, none, none, [], false, false, none, none⟩ =>
    true
  | _ => false

lemma eq_nestedOptions {o : RunOptions} (h : isNestedOptions o = true) : o = nestedOptions := by
  unfold isNestedOptions at h
  split at h
  · rfl
  · exact nomatch h

lemma read_nestedOptions :
    read "\x7bfix: true, config: \x7ba: [-1, null] /* two items */, b: '\\u0001'\x7d\x7d" =
      .ok nestedOptions := by
  have h : (read "\x7bfix: true, config: \x7ba: [-1, null] /* two items */, b: '\\u0001'\x7d\x7d"
      ).toOption.any isNestedOptions = true := by
    decide +kernel
  obtain ⟨o, hread, ho⟩ := (Option.any_eq_true _ _).mp h
  rw [eq_ok_of_toOption hread, eq_nestedOptions ho]

lemma read_noOptions : read "\x7b\x7d" = .ok {} := by
  rfl

lemma digest_nestedOptions_ne :
    Digest.ofString nestedOptions.settings.keyText ≠
      Digest.ofString ({} : RunOptions).settings.keyText := by
  intro h
  have hchars := congrArg String.toList h
  simp only [Digest.ofString, String.toList_ofList] at hchars
  revert hchars
  decide +kernel

/-- The nested configuration comes back from its text, and no stored result is valid both for it and
for no configuration. -/
theorem key_faithful_nested :
    (∃ back, read nestedOptions.settings.toJson.print = .ok back ∧
      back.settings = nestedOptions.settings) ∧
    ∀ (e : CachedResult) (digest digest' : String),
      e.isValid digest nestedOptions.settings.key = true →
        e.isValid digest' ({} : RunOptions).settings.key = false := by
  have hfaithful := key_faithful read_nestedOptions read_noOptions
  obtain ⟨hback, -, hshared⟩ := hfaithful
  have hwhole : nestedOptions.settings.AllValues Json.IsWhole := by
    refine ⟨?_, nofun⟩
    rintro j ⟨⟩
    refine .obj _ ?_
    simp only [List.forall_mem_cons]
    refine ⟨.arr _ ?_, .str _, List.forall_mem_nil _⟩
    simp only [List.forall_mem_cons]
    exact ⟨.int _ (by decide) (by decide), .null, List.forall_mem_nil _⟩
  have hinj : Set.InjOn Digest.ofString
      {nestedOptions.settings.keyText, ({} : RunOptions).settings.keyText} := by
    rintro x (rfl | rfl) y (rfl | rfl) hxy
    · rfl
    · exact absurd hxy digest_nestedOptions_ne
    · exact absurd hxy.symm digest_nestedOptions_ne
    · rfl
  -- of the two configurations, one is there and the other is not
  refine ⟨hback hwhole, fun e digest digest' he => ?_⟩
  by_contra he'
  have hsame := hshared hinj e digest digest' he (Bool.not_eq_false _ ▸ he')
  exact nomatch congrArg EngineSettings.config hsame

end RunOptions

end SheetLint
