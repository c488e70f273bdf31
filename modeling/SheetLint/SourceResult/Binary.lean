import SheetLint.Binary
import SheetLint.SourceResult

/-!
# Results in binary form

The form in which results are stored.  It holds everything that a result says, so that a stored
result is the result that was stored.
-/

namespace SheetLint

instance : Binary Severity :=
  Binary.via (· == .error) (fun isError => if isError then .error else .warning) fun s => by
    cases s <;> rfl

instance : Binary Warning :=
  Binary.via (fun w => (w.line, w.column, w.rule, w.severity, w.text))
    (fun (line, column, rule, severity, text) => ⟨line, column, rule, severity, text⟩) fun _ => rfl

instance : Binary ParseError :=
  Binary.via (fun e => (e.line, e.column, e.text))
    (fun (line, column, text) => ⟨line, column, text⟩) fun _ => rfl

instance : Binary Deprecation :=
  Binary.via (fun d => (d.text, d.reference)) (fun (text, reference) => ⟨text, reference⟩)
    fun _ => rfl

instance : Binary InvalidOption :=
  Binary.via InvalidOption.text InvalidOption.mk fun _ => rfl

instance : Binary DisabledRange :=
  Binary.via (fun r => (r.rule, r.start, r.last)) (fun (rule, start, last) => ⟨rule, start, last⟩)
    fun _ => rfl

instance : Binary SourceResult :=
  Binary.via
    (fun r => (r.source, r.deprecations, r.invalidOptions, r.parseErrors, r.errored, r.warnings,
      r.disabledRanges, r.disabledWarnings))
    (fun (source, deprecations, invalidOptions, parseErrors, errored, warnings, ranges,
      suppressed) =>
      ⟨source, deprecations, invalidOptions, parseErrors, errored, warnings, ranges, suppressed⟩)
    fun _ => rfl

end SheetLint
