import CircuitGrading.Text.Basic

/-!
# The FNV-1a checksum

The 32-bit FNV-1a checksum of a text runs over the bytes of its UTF-8 encoding. It is a left fold
(`fnv1a_eq`), so the checksum of a text with a suffix depends on the text only through its own
checksum (`fnv1a_append`). A string is folded without listing its characters first.
-/

namespace CircuitGrading.Text

/-- The checksum of no bytes. -/
def fnv1aBasis : UInt32 := 0x811C9DC5

/-- The factor of each step. -/
def fnv1aPrime : UInt32 := 0x01000193

/-- Take one more byte into a checksum: exclusive or, then a multiplication modulo `2 ^ 32`. -/
def fnv1aStep (checksum : UInt32) (byte : UInt8) : UInt32 :=
  (checksum ^^^ byte.toUInt32) * fnv1aPrime

/-- The UTF-8 encoding of a text. -/
def utf8 (text : Text) : List UInt8 := text.flatMap String.utf8EncodeChar

/-- Take the bytes of one more character into a checksum. -/
def fnv1aChar (checksum : UInt32) (c : Char) : UInt32 :=
  (String.utf8EncodeChar c).foldl fnv1aStep checksum

/-- The FNV-1a checksum of a text. -/
def fnv1a (text : Text) : UInt32 := text.foldl fnv1aChar fnv1aBasis

/-- The FNV-1a checksum of a string. -/
def fnv1aString (string : String) : UInt32 := string.foldl fnv1aChar fnv1aBasis

/-- The encoding of a text with a suffix is the encoding of both in order. -/
@[simp] theorem utf8_append (left right : Text) :
    utf8 (left ++ right) = utf8 left ++ utf8 right := by
  simp [utf8]

/-- The checksum is a fold over the bytes of the encoding. -/
theorem fnv1a_eq (text : Text) : fnv1a text = (utf8 text).foldl fnv1aStep fnv1aBasis := by
  simp only [fnv1a, utf8, List.foldl_flatMap]
  rfl

/-- A string has the checksum of its characters. -/
theorem fnv1aString_eq (string : String) : fnv1aString string = fnv1a string.toList :=
  String.foldl_eq_foldl_toList

/-- A suffix continues from the checksum of what is before it. -/
theorem fnv1a_append (left right : Text) :
    fnv1a (left ++ right) = (utf8 right).foldl fnv1aStep (fnv1a left) := by
  simp [fnv1a_eq, List.foldl_append]

end CircuitGrading.Text
