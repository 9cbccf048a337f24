import TemplateCompiler.Text.Bytes

/-! Where the bytes of a text can be cut. Beside an ASCII byte no cut falls inside a
character, so what stands before it and after it are texts again. -/
namespace TemplateCompiler.Text

theorem bytes_ofList (cs : List Char) :
    bytes (String.ofList cs) = cs.flatMap String.utf8EncodeChar := by
  simp [bytes, String.toByteArray_ofList, List.utf8Encode]

/-- The bytes of a text are those of its characters, one after the other. -/
theorem bytes_eq_flatMap (s : String) : bytes s = s.toList.flatMap String.utf8EncodeChar := by
  rw [← bytes_ofList, String.ofList_toList]

theorem bytes_eq_nil_iff {s : String} : bytes s = [] ↔ s = "" := by
  rw [← bytes_inj]
  rfl

theorem ofBytes?_eq_some_iff {bs : List UInt8} {s : String} :
    ofBytes? bs = some s ↔ bytes s = bs := by
  constructor
  · exact bytes_of_ofBytes?
  · rintro rfl
    exact ofBytes?_bytes s

/-- A byte below 128 is never part of a longer character. -/
theorem utf8EncodeChar_eq_of_mem {c : Char} {b : UInt8} (hMem : b ∈ String.utf8EncodeChar c)
    (hAscii : b < 0x80) : String.utf8EncodeChar c = [b] := by
  rw [UInt8.lt_iff_toNat_lt] at hAscii
  unfold String.utf8EncodeChar at hMem ⊢
  simp only at hMem ⊢
  split at hMem
  · rw [List.mem_singleton] at hMem
    rw [hMem, if_pos ‹_›]
  · exfalso
    split at hMem
    · simp only [List.mem_cons, List.not_mem_nil, or_false] at hMem
      rcases hMem with rfl | rfl <;> simp at hAscii <;> omega
    · split at hMem <;> simp only [List.mem_cons, List.not_mem_nil, or_false] at hMem
      · rcases hMem with rfl | rfl | rfl <;> simp at hAscii <;> omega
      · rcases hMem with rfl | rfl | rfl | rfl <;> simp at hAscii <;> omega

theorem utf8EncodeChar_inj {c d : Char} :
    String.utf8EncodeChar c = String.utf8EncodeChar d ↔ c = d := by
  constructor
  · intro hEncode
    have hBytes : bytes (String.ofList [c]) = bytes (String.ofList [d]) := by
      simp only [bytes_ofList, List.flatMap_cons, List.flatMap_nil, hEncode]
    simpa using congrArg String.toList (bytes_inj.mp hBytes)
  · rintro rfl
    rfl

/-- No character is divided by a cut beside an ASCII byte. -/
theorem flatMap_utf8EncodeChar_cut {cs : List Char} {before after : List UInt8} {b : UInt8}
    (hAscii : b < 0x80) (hCut : cs.flatMap String.utf8EncodeChar = before ++ b :: after) :
    ∃ front c back, cs = front ++ c :: back ∧ String.utf8EncodeChar c = [b] ∧
      front.flatMap String.utf8EncodeChar = before ∧
      back.flatMap String.utf8EncodeChar = after := by
  induction cs generalizing before with
  | nil => simp at hCut
  | cons c cs ih =>
      rw [List.flatMap_cons, List.append_eq_append_iff] at hCut
      rcases hCut with ⟨middle, rfl, hRest⟩ | ⟨middle, hEncode, hRest⟩
      · obtain ⟨front, d, back, rfl, hChar, rfl, hBack⟩ := ih hRest
        exact ⟨c :: front, d, back, rfl, hChar, rfl, hBack⟩
      · cases middle with
        | nil =>
            rw [List.append_nil] at hEncode
            obtain ⟨front, d, back, rfl, hChar, hFront, hBack⟩ := @ih [] hRest.symm
            refine ⟨c :: front, d, back, rfl, hChar, ?_, hBack⟩
            rw [List.flatMap_cons, hFront, List.append_nil, hEncode]
        | cons d middle =>
            obtain ⟨rfl, rfl⟩ := List.cons.inj hRest
            have hChar := utf8EncodeChar_eq_of_mem (c := c) (b := b) (by simp [hEncode]) hAscii
            have hLength := congrArg List.length (hEncode.symm.trans hChar)
            simp only [List.length_append, List.length_cons, List.length_nil] at hLength
            obtain rfl : before = [] := List.eq_nil_of_length_eq_zero (by omega)
            obtain rfl : middle = [] := List.eq_nil_of_length_eq_zero (by omega)
            exact ⟨[], c, cs, rfl, hChar, rfl, rfl⟩

/-- Before and after an ASCII byte of a text there are texts. -/
theorem bytes_cut {s : String} {before after : List UInt8} {b : UInt8} (hAscii : b < 0x80)
    (hCut : bytes s = before ++ b :: after) :
    ∃ front back, bytes front = before ∧ bytes back = after := by
  rw [bytes_eq_flatMap] at hCut
  obtain ⟨front, _, back, _, _, hFront, hBack⟩ := flatMap_utf8EncodeChar_cut hAscii hCut
  exact ⟨String.ofList front, String.ofList back, (bytes_ofList front).trans hFront,
    (bytes_ofList back).trans hBack⟩

/-- The last character of a text is an ASCII character exactly if the last byte is. -/
theorem getLast?_bytes_eq_some_iff {s : String} {c : Char} {b : UInt8} (hAscii : b < 0x80)
    (hChar : String.utf8EncodeChar c = [b]) :
    (bytes s).getLast? = some b ↔ s.toList.getLast? = some c := by
  rw [bytes_eq_flatMap, List.getLast?_eq_some_iff, List.getLast?_eq_some_iff]
  constructor
  · rintro ⟨before, hCut⟩
    obtain ⟨front, d, back, hText, hLast, _, hBack⟩ := flatMap_utf8EncodeChar_cut hAscii hCut
    have hNil : back = [] := by
      cases back with
      | nil => rfl
      | cons e back => simp at hBack
    rw [hNil, utf8EncodeChar_inj.mp (hLast.trans hChar.symm)] at hText
    exact ⟨front, hText⟩
  · rintro ⟨front, hText⟩
    exact ⟨front.flatMap String.utf8EncodeChar, by simp [hText, hChar]⟩

/-- A boundary is where a text can be divided into two. -/
theorem isBoundary_iff {s : String} {offset : Nat} :
    isBoundary s offset ↔ ∃ before after, s = before ++ after ∧ before.utf8ByteSize = offset := by
  rw [isBoundary, String.Pos.Raw.isValid_eq_true_iff, String.Pos.Raw.isValid_iff_exists_append]
  constructor
  · rintro ⟨before, after, hText, hEnd⟩
    exact ⟨before, after, hText, (congrArg String.Pos.Raw.byteIdx hEnd).symm⟩
  · rintro ⟨before, after, hText, rfl⟩
    exact ⟨before, after, hText, rfl⟩

theorem isBoundary_zero (s : String) : isBoundary s 0 :=
  isBoundary_iff.mpr ⟨"", s, String.empty_append.symm, rfl⟩

theorem isBoundary_utf8ByteSize (s : String) : isBoundary s s.utf8ByteSize :=
  isBoundary_iff.mpr ⟨s, "", String.append_empty.symm, rfl⟩

theorem le_of_isBoundary {s : String} {offset : Nat} (hOffset : isBoundary s offset) :
    offset ≤ s.utf8ByteSize := by
  obtain ⟨before, after, rfl, rfl⟩ := isBoundary_iff.mp hOffset
  rw [String.utf8ByteSize_append]
  exact Nat.le_add_right _ _

/-- An ASCII byte of a text is between two of its boundaries. -/
theorem isBoundary_of_ascii {s : String} {i : Nat} {b : UInt8} {rest : List UInt8}
    (hAscii : b < 0x80) (hAt : (bytes s).drop i = b :: rest) :
    isBoundary s i ∧ isBoundary s (i + 1) := by
  have hInside : i < (bytes s).length := by
    refine Nat.lt_of_not_le fun hBeyond => ?_
    rw [List.drop_of_length_le hBeyond] at hAt
    cases hAt
  have hCut : bytes s = (bytes s).take i ++ b :: rest := by rw [← hAt, List.take_append_drop]
  rw [bytes_eq_flatMap s] at hCut
  obtain ⟨front, c, back, hText, hChar, hFront, _⟩ := flatMap_utf8EncodeChar_cut hAscii hCut
  have hFrontSize : (front.flatMap String.utf8EncodeChar).length = i := by
    rw [hFront, ← bytes_eq_flatMap, List.length_take_of_le (Nat.le_of_lt hInside)]
  constructor
  · refine isBoundary_iff.mpr ⟨String.ofList front, String.ofList (c :: back), ?_, ?_⟩
    · rw [← String.ofList_append, ← hText, String.ofList_toList]
    · rw [← length_bytes, bytes_ofList, hFrontSize]
  · refine isBoundary_iff.mpr ⟨String.ofList (front ++ [c]), String.ofList back, ?_, ?_⟩
    · rw [← String.ofList_append, List.append_assoc, List.singleton_append, ← hText,
        String.ofList_toList]
    · rw [← length_bytes, bytes_ofList, List.flatMap_append, List.length_append, hFrontSize,
        List.flatMap_singleton, hChar]
      rfl

/-- A text in the middle of another one is the slice at its place. -/
theorem slice?_append (before s after : String) :
    slice? (before ++ s ++ after) before.utf8ByteSize (before.utf8ByteSize + s.utf8ByteSize) =
      some s := by
  have hStart : isBoundary (before ++ s ++ after) before.utf8ByteSize :=
    isBoundary_iff.mpr ⟨before, s ++ after, by rw [String.append_assoc], rfl⟩
  have hStop : isBoundary (before ++ s ++ after) (before.utf8ByteSize + s.utf8ByteSize) :=
    isBoundary_iff.mpr ⟨before ++ s, after, rfl, String.utf8ByteSize_append⟩
  have hTake : (bytes (before ++ s ++ after)).take (before.utf8ByteSize + s.utf8ByteSize) =
      bytes before ++ bytes s := by
    rw [bytes_append, List.take_left' (by simp), bytes_append]
  rw [slice?, if_pos ⟨Nat.le_add_right _ _, hStart, hStop⟩, hTake,
    List.drop_left' (length_bytes before), ofBytes?_bytes]

/-- Of two beginnings of a text, the longer one goes on where the shorter one ends. -/
theorem exists_append_of_utf8ByteSize_le {before rest front after : String}
    (hText : before ++ rest = front ++ after) (hOrder : before.utf8ByteSize ≤ front.utf8ByteSize) :
    ∃ middle, front = before ++ middle := by
  have hList := congrArg String.toList hText
  rw [String.toList_append, String.toList_append, List.append_eq_append_iff] at hList
  rcases hList with ⟨middle, hFront, _⟩ | ⟨middle, hBefore, _⟩
  · refine ⟨String.ofList middle, ?_⟩
    rw [← String.toList_inj, String.toList_append, String.toList_ofList, hFront]
  · have hSame : before = front ++ String.ofList middle := by
      rw [← String.toList_inj, String.toList_append, String.toList_ofList, hBefore]
    refine ⟨"", ?_⟩
    rw [hSame, String.utf8ByteSize_append] at hOrder
    have hNone : String.ofList middle = "" := String.utf8ByteSize_eq_zero_iff.mp (by omega)
    rw [hSame, hNone, String.append_empty, String.append_empty]

/-- Two boundaries cut a text into three. -/
theorem exists_append_of_boundaries {s : String} {start stop : Nat} (hOrder : start ≤ stop)
    (hStart : isBoundary s start) (hStop : isBoundary s stop) :
    ∃ before middle after, s = before ++ middle ++ after ∧ before.utf8ByteSize = start ∧
      before.utf8ByteSize + middle.utf8ByteSize = stop := by
  obtain ⟨before, rest, hBefore, rfl⟩ := isBoundary_iff.mp hStart
  obtain ⟨front, after, hAfter, rfl⟩ := isBoundary_iff.mp hStop
  obtain ⟨middle, rfl⟩ := exists_append_of_utf8ByteSize_le (hBefore.symm.trans hAfter) hOrder
  exact ⟨before, middle, after, hAfter, rfl, String.utf8ByteSize_append.symm⟩

/-- A slice is a text in the middle of the other, at its place. -/
theorem exists_append_of_slice? {s part : String} {start stop : Nat}
    (hSlice : slice? s start stop = some part) :
    ∃ before after, s = before ++ part ++ after ∧ before.utf8ByteSize = start := by
  have hParts := hSlice
  rw [slice?] at hParts
  split at hParts
  · rename_i hBounds
    obtain ⟨before, middle, after, rfl, rfl, rfl⟩ :=
      exists_append_of_boundaries hBounds.1 hBounds.2.1 hBounds.2.2
    cases (slice?_append before middle after).symm.trans hSlice
    exact ⟨before, after, rfl, rfl⟩
  · cases hParts

/-- Between two boundaries there is a slice. -/
theorem exists_slice? {s : String} {start stop : Nat} (hOrder : start ≤ stop)
    (hStart : isBoundary s start) (hStop : isBoundary s stop) :
    ∃ part, slice? s start stop = some part := by
  obtain ⟨before, middle, after, rfl, rfl, rfl⟩ := exists_append_of_boundaries hOrder hStart hStop
  exact ⟨middle, slice?_append before middle after⟩

/-- The bytes of a slice are those between its ends. -/
theorem bytes_of_slice? {s part : String} {start stop : Nat}
    (hSlice : slice? s start stop = some part) :
    bytes part = ((bytes s).take stop).drop start := by
  rw [slice?] at hSlice
  split at hSlice
  · exact bytes_of_ofBytes? hSlice
  · cases hSlice

end TemplateCompiler.Text
