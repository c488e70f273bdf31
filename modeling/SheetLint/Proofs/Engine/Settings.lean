import SheetLint.Engine
import SheetLint.Options.Json
import SheetLint.Proofs.Except
import SheetLint.Proofs.Json.Printing

/-!
# What the key of engine settings tells apart

Two settings have one key text only if they agree in everything but fixing.  The text has a name for
each part of the settings, and printing tells all values apart, so this comes down to the values:
settings are known by what they are written as (`EngineSettings.toJson_injective`).

A part that is missing is written as a null.  So the settings must not hold a null where they could
hold nothing, `EngineSettings.NullFree`.  Options that are read never do, since reading takes a null
for nothing: `RunOptions.nullFree_of_read`.
-/

namespace SheetLint

namespace EngineSettings

/-- No value of the settings is a null, for which the settings hold nothing. -/
structure NullFree (s : EngineSettings) : Prop where
  config : s.config ≠ some .null
  configOverrides : s.configOverrides ≠ some .null

lemma optional_str_injective {a b : Option String}
    (h : Json.optional Json.str a = Json.optional Json.str b) : a = b := by
  cases a with
  | none =>
    cases b with
    | none => rfl
    | some t => exact absurd h (by simp [Json.optional])
  | some s =>
    cases b with
    | none => exact absurd h (by simp [Json.optional])
    | some t => simpa [Json.optional] using h

lemma getD_null_injective {a b : Option Json} (ha : a ≠ some .null) (hb : b ≠ some .null)
    (h : a.getD .null = b.getD .null) : a = b := by
  cases a with
  | none =>
    cases b with
    | none => rfl
    | some y =>
      have hy : y = .null := h.symm
      exact absurd (congrArg some hy) hb
  | some x =>
    cases b with
    | none =>
      have hx : x = .null := h
      exact absurd (congrArg some hx) ha
    | some y => exact congrArg some h

lemma toJson_injective {s t : EngineSettings} (hs : s.NullFree) (ht : t.NullFree)
    (h : s.toJson = t.toJson) : s = t := by
  simp only [toJson, Json.obj.injEq, List.cons.injEq, Prod.mk.injEq, true_and, and_true,
    Json.bool.injEq] at h
  obtain ⟨hconfig, hbasedir, hfile, hoverrides, hdialect, hcustom, hignore, hneedless, hfix⟩ := h
  cases s
  cases t
  simp only at *
  rw [EngineSettings.mk.injEq]
  exact ⟨getD_null_injective hs.config ht.config hconfig, optional_str_injective hbasedir,
    optional_str_injective hfile,
    getD_null_injective hs.configOverrides ht.configOverrides hoverrides,
    optional_str_injective hdialect, optional_str_injective hcustom, hignore, hneedless, hfix⟩

/-- **The key text tells settings apart**, up to fixing. -/
theorem eq_of_keyText_eq {s t : EngineSettings} (hs : s.NullFree) (ht : t.NullFree)
    (h : s.keyText = t.keyText) : { s with fix := false } = { t with fix := false } := by
  have hs' : NullFree { s with fix := false } := ⟨hs.config, hs.configOverrides⟩
  have ht' : NullFree { t with fix := false } := ⟨ht.config, ht.configOverrides⟩
  have hprint : (toJson { s with fix := false }).print =
      (toJson { t with fix := false }).print := by
    unfold keyText at h
    exact String.append_right_inj _ |>.1 h
  exact toJson_injective hs' ht' (Json.print_injective hprint)

end EngineSettings

namespace RunOptions

lemma value?_ne_null (j : Json) : value? j ≠ some .null := by
  cases j <;> simp [value?]

lemma nullFree_of_ofRegular? {j : Json} {o : RunOptions}
    (h : Json.Shaped.ofRegular? j = some o) : o.settings.NullFree := by
  unfold Json.Shaped.ofRegular? instShaped at h
  dsimp only at h
  split at h
  · -- every field that is read is one step; the last one gives the options
    iterate 12 obtain ⟨_, -, h⟩ := Option.bind_eq_some_iff.mp h
    cases h
    exact ⟨value?_ne_null _, value?_ne_null _⟩
  · exact nomatch h

/-- **Reading takes three steps**: the text holds a value, the value has a regular form, and the
form names the options. -/
lemma exists_of_read {text : String} {o : RunOptions} (h : read text = .ok o) :
    ∃ j regular, Json.Loose.parse text = .ok j ∧
      (Json.Shaped.schema RunOptions).check (j.getD (.obj [])) = .ok regular ∧
      Json.Shaped.ofRegular? regular = some o := by
  unfold read at h
  split at h
  · exact nomatch h
  next j hparse =>
  split at h
  · exact nomatch h
  next options hdecode =>
  cases h
  obtain ⟨regular, hcheck, hregular⟩ := exists_of_bind_eq_ok hdecode
  refine ⟨j, regular, hparse, hcheck, ?_⟩
  unfold Json.ofRegular at hregular
  split at hregular
  · next hnamed =>
    cases hregular
    exact hnamed
  · exact nomatch hregular

/-- **Options that are read hold no null in their settings.** -/
theorem nullFree_of_read {text : String} {o : RunOptions} (h : read text = .ok o) :
    o.settings.NullFree := by
  obtain ⟨j, regular, -, -, hregular⟩ := exists_of_read h
  exact nullFree_of_ofRegular? hregular

end RunOptions

end SheetLint
