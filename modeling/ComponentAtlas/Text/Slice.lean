/-!
# Slices of a text by byte offsets

A text may be cut at byte offsets of its UTF-8 form. Offsets past the end are
moved to the end; a cut through a character leaves no text.
-/

namespace ComponentAtlas.Text

def slice? (s : String) (start stop : Nat) : Option String :=
  String.fromUTF8? (s.toUTF8.extract start stop)

theorem fromUTF8?_toUTF8 (text : String) : String.fromUTF8? text.toUTF8 = some text :=
  dif_pos text.isValidUTF8

/-- A text between two others is cut out by the bytes before it and those up to its end. -/
theorem slice?_between (before text after : String) :
    slice? (before ++ text ++ after) before.utf8ByteSize (before ++ text).utf8ByteSize =
      some text := by
  have hbytes : (before ++ text ++ after).toUTF8 = (before ++ text).toUTF8 ++ after.toUTF8 :=
    String.toByteArray_append
  have hend : (before ++ text).utf8ByteSize = (before ++ text).toUTF8.size := rfl
  have hcut : (before ++ text).toUTF8.extract before.utf8ByteSize (before ++ text).utf8ByteSize =
      text.toUTF8 := by
    have hparts : (before ++ text).toUTF8 = before.toUTF8 ++ text.toUTF8 :=
      String.toByteArray_append
    rw [hend, hparts]
    exact ByteArray.extract_append_eq_right rfl ByteArray.size_append
  rw [slice?, hbytes, hend, ByteArray.extract_append_size_left, ← hend, hcut, fromUTF8?_toUTF8]

end ComponentAtlas.Text
