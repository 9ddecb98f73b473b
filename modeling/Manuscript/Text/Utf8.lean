import Manuscript.Text.Basic

/-!
# Text as bytes

Files hold bytes, and a document is the text whose UTF-8 encoding they are. Bytes that encode no
text (`Text.decode?` gives `none`) are no document.

* `Text.decode?_encode`: what was encoded is read back.
* `Text.decode?_eq_some_iff`: bytes encode the text whose encoding they are, and no other.
* `Text.size_encode`: an encoding has as many bytes as its characters have together.
-/

namespace Manuscript
namespace Text

/-- The UTF-8 encoding of a text. -/
def encode (text : Text) : ByteArray := (String.ofList text).toUTF8

/-- The text that some bytes encode, if they encode one. -/
def decode? (bytes : ByteArray) : Option Text := bytes.utf8Decode?.map Array.toList

/-- How many bytes the encoding of a text has. -/
def byteLength : Text → Nat
  | [] => 0
  | c :: rest => c.utf8Size + byteLength rest

theorem byteLength_append (text rest : Text) :
    byteLength (text ++ rest) = byteLength text + byteLength rest := by
  induction text with
  | nil => simp [byteLength]
  | cons c text ih => simp [byteLength, ih, Nat.add_assoc]

theorem decode?_encode (text : Text) : decode? (encode text) = some text := by
  simp [decode?, encode, List.utf8Decode?_utf8Encode]

theorem decode?_eq_some_iff {bytes : ByteArray} {text : Text} :
    decode? bytes = some text ↔ encode text = bytes := by
  constructor
  · intro decoded
    obtain ⟨characters, found, rfl⟩ := Option.map_eq_some_iff.1 decoded
    obtain ⟨encoded, rfl⟩ := ByteArray.isSome_utf8Decode?_iff.1 (Option.isSome_of_eq_some found)
    rw [List.utf8Decode?_utf8Encode, Option.some_inj] at found
    simp [encode, ← found]
  · rintro rfl
    exact decode?_encode text

theorem size_encode (text : Text) : (encode text).size = byteLength text := by
  simp only [encode, String.toUTF8_eq_toByteArray, String.toByteArray_ofList]
  induction text with
  | nil => rfl
  | cons c rest ih =>
    rw [List.utf8Encode_cons, ByteArray.size_append, ih]
    simp [byteLength, List.utf8Encode_singleton]

end Text
end Manuscript
