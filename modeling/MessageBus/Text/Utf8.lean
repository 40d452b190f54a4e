/-
Texts as lists of UTF-8 bytes. `ofUtf8?` accepts exactly what `utf8` produces.
-/

namespace MessageBus.Text

/-- the UTF-8 bytes of a text -/
def utf8 (text : String) : List UInt8 := text.toUTF8.data.toList

/-- the text with these UTF-8 bytes, if there is one -/
def ofUtf8? (bytes : List UInt8) : Option String := String.fromUTF8? ⟨bytes.toArray⟩

theorem length_utf8 (text : String) : (utf8 text).length = text.utf8ByteSize := rfl

theorem ofUtf8?_utf8 (text : String) : ofUtf8? (utf8 text) = some text := by
  have valid : text.toByteArray.IsValidUTF8 := text.isValidUTF8
  have same : (⟨(utf8 text).toArray⟩ : ByteArray) = text.toByteArray := by simp [utf8, String.toUTF8]
  rw [ofUtf8?, same, String.fromUTF8?, dif_pos valid]
  rfl

theorem utf8_of_ofUtf8? {bytes : List UInt8} {text : String} (h : ofUtf8? bytes = some text) : utf8 text = bytes := by
  unfold ofUtf8? String.fromUTF8? at h
  split at h
  · cases h; rfl
  · cases h

end MessageBus.Text
