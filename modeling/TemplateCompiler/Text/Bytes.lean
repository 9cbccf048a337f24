/-! The UTF-8 bytes of a text. Offsets, spans and sizes in this library count bytes,
so a cut can fall inside a character. Cutting is therefore partial, and says so. -/
namespace TemplateCompiler.Text

/-- The bytes of a text in UTF-8. -/
def bytes (s : String) : List UInt8 := s.toByteArray.data.toList

/-- The text that is written with these bytes, if they are valid UTF-8. -/
def ofBytes? (bs : List UInt8) : Option String := String.fromUTF8? ⟨bs.toArray⟩

@[simp] theorem length_bytes (s : String) : (bytes s).length = s.utf8ByteSize := rfl

@[simp] theorem bytes_append (s t : String) : bytes (s ++ t) = bytes s ++ bytes t := by
  simp [bytes]

theorem bytes_inj {s t : String} : bytes s = bytes t ↔ s = t := by
  rw [← String.toByteArray_inj, ByteArray.ext_iff]
  exact Array.toList_inj

/-- Reading bytes back gives the text they were taken from. -/
@[simp] theorem ofBytes?_bytes (s : String) : ofBytes? (bytes s) = some s := by
  have hValid : (ByteArray.mk (bytes s).toArray).IsValidUTF8 := by
    simpa [bytes] using s.isValidUTF8
  simp only [ofBytes?, String.fromUTF8?, dif_pos hValid, Option.some.injEq]
  rw [← String.toByteArray_inj]
  simp [bytes, String.fromUTF8]

/-- Bytes that are read as a text are the bytes of that text, so no byte is repaired. -/
theorem bytes_of_ofBytes? {bs : List UInt8} {s : String} (h : ofBytes? bs = some s) :
    bytes s = bs := by
  simp only [ofBytes?, String.fromUTF8?] at h
  split at h
  · cases h
    simp [bytes, String.fromUTF8]
  · cases h

/-- Whether an offset is the start of a character of the text, or its end. -/
def isBoundary (s : String) (offset : Nat) : Bool := String.Pos.Raw.isValid s ⟨offset⟩

/-- The part of a text between two offsets. There is none if the offsets are in
the wrong order, lie outside the text, or either of them is inside a character,
even when the part would be empty. -/
def slice? (s : String) (start stop : Nat) : Option String :=
  if start ≤ stop ∧ isBoundary s start ∧ isBoundary s stop then
    ofBytes? (((bytes s).take stop).drop start)
  else none

/-- The number of the line an offset is on, counted from one. An offset past the
end is on the last line. -/
def lineAt (s : String) (offset : Nat) : Nat := ((bytes s).take offset).count 0x0A + 1

end TemplateCompiler.Text
