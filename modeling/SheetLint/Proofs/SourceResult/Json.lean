import SheetLint.Format
import SheetLint.Proofs.Json.Schema.Regular

/-!
# Results read back

The `json` output is read back as the results that were written, but for their disabled ranges and
warnings, which it does not have (`read_render_json`).  The flag of a result is data like any other:
it is read as it was written, whether it agrees with the findings or not.

A record is read back field by field.  What is written fills the slots of its schema, a field that
is left out being at its default, and what fills them in any text names a member whose numbers have
32 bits.  So there are two lemmas for each record, `readsAs_toJson` and `namesOnly_fits`: the first
says that the written form of a member is read as that member, the second that whatever is read is a
member that can be written.

Lines and columns are written as whole numbers, and read as numbers of 32 bits.  A result whose
numbers are larger is written but not read back, so the first half asks for `SourceResult.Fits`.
All other texts and lists may be as they like.
-/

namespace SheetLint

open Json

/-! ### Numbers -/

/-- The numbers of a warning have 32 bits. -/
structure Warning.Fits (w : Warning) : Prop where
  line : w.line ≤ unsignedLimit
  column : w.column ≤ unsignedLimit

/-- The numbers of a parse error have 32 bits. -/
structure ParseError.Fits (e : ParseError) : Prop where
  line : e.line ≤ unsignedLimit
  column : e.column ≤ unsignedLimit

/-- The numbers of a result have 32 bits, as far as they are written. -/
structure SourceResult.Fits (r : SourceResult) : Prop where
  parseErrors : ∀ e ∈ r.parseErrors, e.Fits
  warnings : ∀ w ∈ r.warnings, w.Fits

/-! ### What is written is read -/

lemma Severity.ofName?_name (s : Severity) : Severity.ofName? s.name = some s := by
  cases s <;> rfl

lemma Warning.readsAs_toJson {w : Warning} (h : w.Fits) : ReadsAs Warning w.toJson w := by
  have hseverity : w.severity.name ∈ Severity.all.map Severity.name := by
    cases w.severity <;> decide
  refine ⟨w.toJson, ?_, ?_⟩
  · exact Fills.reads (.given (reads_unsigned h.line) (.given (reads_unsigned h.column)
      (.given (reads_text w.rule) (.given (reads_oneOf hseverity)
        (.given (reads_text w.text) .nil))))) (by decide) "Warning"
  · show (Severity.ofName? w.severity.name).map _ = _
    rw [Severity.ofName?_name]
    rfl

lemma ParseError.readsAs_toJson {e : ParseError} (h : e.Fits) : ReadsAs ParseError e.toJson e :=
  ⟨e.toJson, Fills.reads (.given (reads_unsigned h.line) (.given (reads_unsigned h.column)
    (.given (reads_text e.text) .nil))) (by decide) "ParseError", rfl⟩

lemma Deprecation.readsAs_toJson (d : Deprecation) : ReadsAs Deprecation d.toJson d := by
  obtain ⟨text, reference⟩ := d
  cases reference with
  | none =>
    exact ⟨_, Fills.reads (.given (reads_text text) (.default rfl .nil)) (by decide) "Deprecation",
      rfl⟩
  | some reference =>
    have hreference := (reads_text reference).optional (nofun)
    exact ⟨_, Fills.reads (.given (reads_text text) (.given hreference .nil)) (by decide)
      "Deprecation", rfl⟩

lemma InvalidOption.readsAs_toJson (o : InvalidOption) : ReadsAs InvalidOption o.toJson o :=
  ⟨_, Fills.reads (.given (reads_text o.text) .nil) (by decide) "InvalidOptionWarning", rfl⟩

namespace SourceResult

/-- What the public form has of a result. -/
def withoutDisabled (r : SourceResult) : SourceResult :=
  { r with disabledRanges := [], disabledWarnings := [] }

lemma ofRegular?_obj {deprecations options errors warnings : Json} {ds : List Deprecation}
    {os : List InvalidOption} {es : List ParseError} {ws : List Warning}
    (hd : Shaped.ofRegular? deprecations = some ds) (ho : Shaped.ofRegular? options = some os)
    (he : Shaped.ofRegular? errors = some es) (hw : Shaped.ofRegular? warnings = some ws)
    (source : String) (errored : Bool) :
    Shaped.ofRegular? (.obj [("source", .str source), ("deprecations", deprecations),
      ("invalidOptionWarnings", options), ("parseErrors", errors), ("errored", .bool errored),
      ("warnings", warnings)]) =
        some (SourceResult.mk source ds os es errored ws [] []) := by
  show (do
    some {
      source := source
      deprecations := ← Shaped.ofRegular? deprecations
      invalidOptions := ← Shaped.ofRegular? options
      parseErrors := ← Shaped.ofRegular? errors
      errored := errored
      warnings := ← Shaped.ofRegular? warnings
      disabledRanges := []
      disabledWarnings := [] } : Option SourceResult) = _
  rw [hd, ho, he, hw]
  rfl

lemma readsAs_toJson {r : SourceResult} (h : r.Fits) :
    ReadsAs SourceResult r.toJson r.withoutDisabled := by
  obtain ⟨_, hdeprecations, hd⟩ :=
    readsAs_list (List.forall₂_same.mpr fun d (_ : d ∈ r.deprecations) => d.readsAs_toJson)
  obtain ⟨_, hoptions, ho⟩ :=
    readsAs_list (List.forall₂_same.mpr fun o (_ : o ∈ r.invalidOptions) => o.readsAs_toJson)
  obtain ⟨_, herrors, he⟩ :=
    readsAs_list (List.forall₂_same.mpr fun e he => ParseError.readsAs_toJson (h.parseErrors e he))
  obtain ⟨_, hwarnings, hw⟩ :=
    readsAs_list (List.forall₂_same.mpr fun w hw => Warning.readsAs_toJson (h.warnings w hw))
  exact ⟨_, Fills.reads (.given (reads_text r.source) (.given hdeprecations (.given hoptions
    (.given herrors (.given (reads_flag r.errored) (.given hwarnings .nil)))))) (by decide)
    "LintResult", ofRegular?_obj hd ho he hw r.source r.errored⟩

end SourceResult

/-! ### What is read fits -/

lemma Warning.namesOnly_fits : NamesOnly Warning Warning.Fits := by
  intro v hv
  obtain ⟨values, rfl, hvalues⟩ := Yields.record (by decide) hv
  obtain _ | ⟨h₁, _ | ⟨h₂, _ | ⟨h₃, _ | ⟨h₄, _ | ⟨h₅, _ | _⟩⟩⟩⟩⟩ := hvalues
  obtain ⟨_, hline, rfl⟩ := h₁.given
  obtain ⟨_, hcolumn, rfl⟩ := h₂.given
  obtain ⟨_, hrule, rfl⟩ := h₃.given
  obtain ⟨severity, hseverity, rfl⟩ := h₄.given_or_eq
  obtain ⟨_, htext, rfl⟩ := h₅.given
  obtain ⟨line, hline_le, rfl⟩ := hline.unsigned
  obtain ⟨column, hcolumn_le, rfl⟩ := hcolumn.unsigned
  obtain ⟨rule, rfl⟩ := hrule.text
  obtain ⟨text, rfl⟩ := htext.text
  obtain ⟨s, rfl⟩ : ∃ s : Severity, severity = .str s.name := by
    obtain hseverity | rfl := hseverity
    · obtain ⟨name, hname, rfl⟩ := hseverity.oneOf
      obtain ⟨s, -, rfl⟩ := List.mem_map.mp hname
      exact ⟨s, rfl⟩
    · exact ⟨.error, rfl⟩
  refine ⟨⟨line, column, rule, s, text⟩, ?_, ⟨hline_le, hcolumn_le⟩⟩
  show (Severity.ofName? s.name).map _ = _
  rw [Severity.ofName?_name]
  rfl

lemma ParseError.namesOnly_fits : NamesOnly ParseError ParseError.Fits := by
  intro v hv
  obtain ⟨values, rfl, hvalues⟩ := Yields.record (by decide) hv
  obtain _ | ⟨h₁, _ | ⟨h₂, _ | ⟨h₃, _ | _⟩⟩⟩ := hvalues
  obtain ⟨_, hline, rfl⟩ := h₁.given
  obtain ⟨_, hcolumn, rfl⟩ := h₂.given
  obtain ⟨_, htext, rfl⟩ := h₃.given
  obtain ⟨line, hline_le, rfl⟩ := hline.unsigned
  obtain ⟨column, hcolumn_le, rfl⟩ := hcolumn.unsigned
  obtain ⟨text, rfl⟩ := htext.text
  exact ⟨⟨line, column, text⟩, rfl, ⟨hline_le, hcolumn_le⟩⟩

lemma Deprecation.namesOnly : NamesOnly Deprecation fun _ => True := by
  intro v hv
  obtain ⟨values, rfl, hvalues⟩ := Yields.record (by decide) hv
  obtain _ | ⟨h₁, _ | ⟨h₂, _ | _⟩⟩ := hvalues
  obtain ⟨_, htext, rfl⟩ := h₁.given
  obtain ⟨reference, hreference, rfl⟩ := h₂.given_or_eq
  obtain ⟨text, rfl⟩ := htext.text
  obtain ⟨r, hr⟩ : ∃ r : Option String, Shaped.ofRegular? reference = some r := by
    obtain hreference | rfl := hreference
    · obtain ⟨r, hr, -⟩ := namesOnly_string.option reference hreference
      exact ⟨r, hr⟩
    · exact ⟨none, rfl⟩
  exact ⟨⟨text, r⟩, congrArg (Option.map _) hr, trivial⟩

lemma InvalidOption.namesOnly : NamesOnly InvalidOption fun _ => True := by
  intro v hv
  obtain ⟨values, rfl, hvalues⟩ := Yields.record (by decide) hv
  obtain _ | ⟨h₁, _ | _⟩ := hvalues
  obtain ⟨_, htext, rfl⟩ := h₁.given
  obtain ⟨text, rfl⟩ := htext.text
  exact ⟨⟨text⟩, rfl, trivial⟩

namespace SourceResult

/-- A list that can be left out names a list of members. -/
lemma exists_of_given_or_noItems {α : Type} [Shaped α] {P : α → Prop} (h : NamesOnly α P) {v : Json}
    (hv : Yields (Shaped.schema (List α)).reader v ∨ v = .arr []) :
    ∃ as : List α, Shaped.ofRegular? v = some as ∧ ∀ a ∈ as, P a := by
  obtain hv | rfl := hv
  · exact h.list v hv
  · exact ⟨[], rfl, List.forall_mem_nil P⟩

/-- A result that is read has no disabled ranges or warnings. -/
lemma namesOnly_fits :
    NamesOnly SourceResult fun r => r.Fits ∧ r.withoutDisabled = r := by
  intro v hv
  obtain ⟨values, rfl, hvalues⟩ := Yields.record (by decide) hv
  obtain _ | ⟨h₁, _ | ⟨h₂, _ | ⟨h₃, _ | ⟨h₄, _ | ⟨h₅, _ | ⟨h₆, _ | _⟩⟩⟩⟩⟩⟩ := hvalues
  obtain ⟨_, hsource, rfl⟩ := h₁.given
  obtain ⟨_, hd, rfl⟩ := h₂.given_or_eq
  obtain ⟨_, ho, rfl⟩ := h₃.given_or_eq
  obtain ⟨_, he, rfl⟩ := h₄.given_or_eq
  obtain ⟨_, herrored, rfl⟩ := h₅.given
  obtain ⟨_, hw, rfl⟩ := h₆.given_or_eq
  obtain ⟨source, rfl⟩ := hsource.text
  obtain ⟨errored, rfl⟩ := herrored.flag
  obtain ⟨ds, hds, -⟩ := exists_of_given_or_noItems Deprecation.namesOnly hd
  obtain ⟨os, hos, -⟩ := exists_of_given_or_noItems InvalidOption.namesOnly ho
  obtain ⟨es, hes, hfits⟩ := exists_of_given_or_noItems ParseError.namesOnly_fits he
  obtain ⟨ws, hws, hfits'⟩ := exists_of_given_or_noItems Warning.namesOnly_fits hw
  exact ⟨⟨source, ds, os, es, errored, ws, [], []⟩,
    ofRegular?_obj hds hos hes hws source errored, ⟨hfits, hfits'⟩, rfl⟩

end SourceResult

/-! ### Round trips -/

/-- **The `json` output is read back**, as what was written of the results: the numbers of a result
have 32 bits.  And a result that was read from any text is read again from what is written of it,
which is then written the same way once more. -/
theorem read_render_json :
    (∀ results : List SourceResult, (∀ r ∈ results, r.Fits) →
      Json.read (List SourceResult) (OutputFormat.json.render results) =
        .ok (results.map SourceResult.withoutDisabled)) ∧
    ∀ (text : String) (r : SourceResult), Json.read SourceResult text = .ok r →
      Json.read SourceResult r.toJson.print = .ok r ∧
      (Json.read SourceResult r.toJson.print).map (fun s => s.toJson.print) =
        .ok r.toJson.print := by
  constructor
  · intro results hfits
    refine read_print (readsAs_list (List.forall₂_map_right_iff.mpr ?_))
    exact List.forall₂_same.mpr fun r hr => SourceResult.readsAs_toJson (hfits r hr)
  · intro text r hread
    obtain ⟨hfits, hwithout⟩ := SourceResult.namesOnly_fits.of_read hread
    have hagain := read_print (SourceResult.readsAs_toJson hfits)
    rw [hwithout] at hagain
    exact ⟨hagain, by rw [hagain]; rfl⟩

/-- A result whose flag does not agree with its parse error. -/
def staleResult : SourceResult where
  source := "a.css"
  deprecations := []
  invalidOptions := []
  parseErrors := [⟨unsignedLimit, 0, "\x07😀"⟩]
  errored := false
  warnings := []
  disabledRanges := [⟨"all", 1, none⟩]
  disabledWarnings := []

/-- The stale flag stays, also where the fields are given in an array. -/
theorem read_render_json_staleResult :
    Json.read (List SourceResult) (OutputFormat.json.render [staleResult]) =
      .ok [staleResult.withoutDisabled] ∧
    Json.read SourceResult
        "[\"a.css\", [], [], [[4294967295, 0, \"\\u0007\\ud83d\\ude00\"]], false]" =
      .ok staleResult.withoutDisabled ∧
    Json.read SourceResult staleResult.withoutDisabled.toJson.print =
      .ok staleResult.withoutDisabled := by
  have hfits : staleResult.Fits :=
    ⟨List.forall_mem_singleton.mpr ⟨by decide, by decide⟩, List.forall_mem_nil _⟩
  have hread : Json.read SourceResult
      "[\"a.css\", [], [], [[4294967295, 0, \"\\u0007\\ud83d\\ude00\"]], false]" =
        .ok staleResult.withoutDisabled := eq_ok_of_toOption (by decide +kernel)
  obtain ⟨hwritten, hagain⟩ := read_render_json
  exact ⟨hwritten [staleResult] (List.forall_mem_singleton.mpr hfits), hread,
    (hagain _ _ hread).1⟩

end SheetLint
