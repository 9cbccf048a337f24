import TemplateCompiler.Diagnostic

/-! Offsets that are counted from one text to another. Every text on the way out starts
somewhere inside the text around it, so an offset grows by the same amount wherever it is.
On the way in it loses that amount. Stopping at the start of each text comes to the same as
stopping once, at the start of the innermost one. -/
namespace TemplateCompiler.SourceMap

theorem toSource_nested (map : SourceMap) (start offset : Nat) :
    (map.nested start).toSource offset = map.toSource (offset + start) := rfl

/-- An offset is as far behind the start of its text in the source as in the text. -/
theorem toSource_eq_add (map : SourceMap) (offset : Nat) :
    map.toSource offset = map.toSource 0 + offset := by
  obtain ⟨shifts⟩ := map
  induction shifts generalizing offset with
  | nil => exact (Nat.zero_add offset).symm
  | cons shift shifts ih =>
      have hOffset := ih (offset + shift)
      have hStart := ih (0 + shift)
      simp only [toSource, List.foldl_cons] at hOffset hStart ⊢
      omega

/-- Offsets keep their order on the way out. -/
theorem toSource_le_toSource_iff {map : SourceMap} {a b : Nat} :
    map.toSource a ≤ map.toSource b ↔ a ≤ b := by
  rw [toSource_eq_add map a, toSource_eq_add map b]
  omega

/-- Every map was made from that of the source by nesting. -/
@[elab_as_elim]
theorem nested_induction {motive : SourceMap → Prop} (map : SourceMap)
    (identity : motive identity)
    (nested : ∀ map start, motive map → motive (nested map start)) : motive map := by
  obtain ⟨shifts⟩ := map
  induction shifts with
  | nil => exact identity
  | cons start shifts ih => exact nested ⟨shifts⟩ start ih

theorem toSource_nested_zero (map : SourceMap) (start : Nat) :
    (map.nested start).toSource 0 = map.toSource 0 + start := by
  rw [toSource_nested, Nat.zero_add, toSource_eq_add]

theorem toNested_nested (map : SourceMap) (start offset : Nat) :
    (map.nested start).toNested offset = map.toNested offset - start := rfl

/-- An offset of the source is as far inside the nested text as it is behind the start of it. -/
theorem toNested_eq_sub (map : SourceMap) (offset : Nat) :
    map.toNested offset = offset - map.toSource 0 := by
  induction map using nested_induction with
  | identity => rfl
  | nested map start ih => rw [toNested_nested, ih, toSource_nested_zero, Nat.sub_sub]

theorem toNested_toSource (map : SourceMap) (offset : Nat) :
    map.toNested (map.toSource offset) = offset := by
  rw [toNested_eq_sub, toSource_eq_add map offset, Nat.add_sub_cancel_left]

/-- Counting inwards and counting outwards are adjoint. -/
theorem toNested_le_iff {map : SourceMap} {inner outer : Nat} :
    map.toNested outer ≤ inner ↔ outer ≤ map.toSource inner := by
  rw [toNested_eq_sub, toSource_eq_add map inner, Nat.sub_le_iff_le_add']

/-- Outwards undoes inwards for the offsets that lie in the text, or behind it. -/
theorem toSource_toNested (map : SourceMap) (offset : Nat) :
    map.toSource (map.toNested offset) = max offset (map.toSource 0) := by
  rw [toSource_eq_add map (map.toNested offset), toNested_eq_sub]
  omega

/-- A map moves nothing if no shift in it does. -/
theorem isIdentity_nested {map : SourceMap} {start : Nat} :
    (map.nested start).isIdentity = true ↔ start = 0 ∧ map.isIdentity = true := by
  simp [isIdentity, nested]

/-- A map moves nothing if it does not move the start. -/
theorem isIdentity_iff_toSource_zero {map : SourceMap} :
    map.isIdentity = true ↔ map.toSource 0 = 0 := by
  induction map using nested_induction with
  | identity => exact iff_of_true rfl rfl
  | nested map start ih =>
      rw [isIdentity_nested, ih, toSource_nested_zero, Nat.add_eq_zero_iff, and_comm]

/-- A map that is known to move nothing is one that moves nothing outwards. -/
theorem isIdentity_iff_toSource {map : SourceMap} :
    map.isIdentity = true ↔ ∀ offset, map.toSource offset = offset := by
  rw [isIdentity_iff_toSource_zero]
  constructor
  · intro hStart offset
    rw [toSource_eq_add, hStart, Nat.zero_add]
  · intro hAll
    exact hAll 0

theorem isIdentity_iff_toNested {map : SourceMap} :
    map.isIdentity = true ↔ ∀ offset, map.toNested offset = offset := by
  rw [isIdentity_iff_toSource_zero]
  constructor
  · intro hStart offset
    rw [toNested_eq_sub, hStart, Nat.sub_zero]
  · intro hAll
    rw [← hAll (map.toSource 0), toNested_toSource]

/-- Spans stay in the order that they have in the text, and so do the ends of one span. -/
theorem spanToSource_start_le_stop_iff {map : SourceMap} {span other : Span} :
    (map.spanToSource span).start ≤ (map.spanToSource other).stop ↔ span.start ≤ other.stop :=
  toSource_le_toSource_iff

theorem spanToSource_stop_le_start_iff {map : SourceMap} {span other : Span} :
    (map.spanToSource span).stop ≤ (map.spanToSource other).start ↔ span.stop ≤ other.start :=
  toSource_le_toSource_iff

/-- A span is as long in the source as in the text, or as little in order. -/
theorem length?_spanToSource (map : SourceMap) (span : Span) :
    (map.spanToSource span).length? = span.length? := by
  rw [Span.length?, Span.length?, spanToSource]
  simp only [toSource_le_toSource_iff]
  rw [toSource_eq_add map span.start, toSource_eq_add map span.stop, Nat.add_sub_add_left]

/-- To count a diagnostic in the source at once, or in the text around it first, comes to the
same. The line is counted anew at the end, so the text in between does not matter. -/
theorem relocate_nested (map : SourceMap) (start : Nat) (d : Diagnostic) (between source : String) :
    (d.relocate (identity.nested start) between).relocate map source =
      d.relocate (map.nested start) source := by
  obtain ⟨snippet, line, message, span, code⟩ := d
  cases span with
  | none => rfl
  | some span => rfl

/-- Counting outwards and counting inwards are an adjoint pair. Inwards undoes outwards; outwards
undoes inwards but for the offsets in front of the text, which become its start. A map for a
text inside the text of another one is counted through that one, both ways, and so are
diagnostics. A map that is known to move nothing moves nothing, in either direction. The ends
of a span are moved as offsets are, so that spans keep their order and their length. -/
theorem offsets_are_adjoint (map : SourceMap) :
    (∀ inner, map.toNested (map.toSource inner) = inner) ∧
    (∀ inner outer, map.toNested outer ≤ inner ↔ outer ≤ map.toSource inner) ∧
    (∀ outer, map.toSource (map.toNested outer) = max outer (map.toSource 0)) ∧
    (∀ start inner, (map.nested start).toSource inner = map.toSource (inner + start)) ∧
    (∀ start outer, (map.nested start).toNested outer = map.toNested outer - start) ∧
    (map.isIdentity = true ↔ ∀ inner, map.toSource inner = inner) ∧
    (map.isIdentity = true ↔ ∀ outer, map.toNested outer = outer) ∧
    (∀ a b, map.toSource a ≤ map.toSource b ↔ a ≤ b) ∧
    (∀ span : Span,
      map.spanToSource span = ⟨map.toSource span.start, map.toSource span.stop⟩) ∧
    (∀ span other : Span,
      ((map.spanToSource span).start ≤ (map.spanToSource other).stop ↔ span.start ≤ other.stop) ∧
      ((map.spanToSource span).stop ≤ (map.spanToSource other).start ↔ span.stop ≤ other.start)) ∧
    (∀ span : Span, (map.spanToSource span).length? = span.length?) ∧
    ∀ (d : Diagnostic) (start : Nat) (between source : String),
      d.relocate (map.nested start) source =
        (d.relocate (identity.nested start) between).relocate map source :=
  ⟨map.toNested_toSource, fun _ _ => toNested_le_iff, map.toSource_toNested,
    map.toSource_nested, map.toNested_nested, isIdentity_iff_toSource, isIdentity_iff_toNested,
    fun _ _ => toSource_le_toSource_iff, fun _ => rfl,
    fun _ _ => ⟨spanToSource_start_le_stop_iff, spanToSource_stop_le_start_iff⟩,
    map.length?_spanToSource,
    fun d start between source => (map.relocate_nested start d between source).symm⟩

end TemplateCompiler.SourceMap
