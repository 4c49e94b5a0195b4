/- Texts as bytes.

   Files hold bytes and logs are texts. `utf8` is the encoding of a text, one character after the other, and `ofUtf8?`
   gives the text that bytes encode, if they encode one. -/
namespace LogFanout.Text

abbrev Bytes := List UInt8

def utf8 (s : String) : Bytes := s.toList.flatMap String.utf8EncodeChar

def ofUtf8? (bytes : Bytes) : Option String := String.fromUTF8? ⟨bytes.toArray⟩

/-- Texts are encoded piece by piece. -/
theorem utf8_append (a b : String) : utf8 (a ++ b) = utf8 a ++ utf8 b := by
  simp [utf8]

end LogFanout.Text
