/-
Characters as bytes. `encode` writes a text in UTF-8, `decode?` reads one and refuses every byte sequence that
`encode` does not produce.
-/

namespace Brainfuck.Text

/-- the UTF-8 bytes of a text -/
def encode (cs : List Char) : List UInt8 := cs.flatMap String.utf8EncodeChar

/-- the text whose UTF-8 bytes these are, if there is one -/
def decode? (bs : List UInt8) : Option (List Char) :=
  bs.toByteArray.utf8Decode?.map Array.toList

/-- the text from byte `first` up to byte `last`, unless that cuts a character in two -/
def byteSlice? (cs : List Char) (first last : Nat) : Option (List Char) :=
  decode? (((encode cs).take last).drop first)

@[simp] theorem encode_nil : encode [] = [] := rfl

@[simp] theorem encode_cons (c : Char) (cs : List Char) :
    encode (c :: cs) = String.utf8EncodeChar c ++ encode cs := by
  simp [encode]

@[simp] theorem encode_append (a b : List Char) : encode (a ++ b) = encode a ++ encode b := by
  simp [encode]

theorem decode?_encode (cs : List Char) : decode? (encode cs) = some cs := by
  have h : (encode cs).toByteArray = cs.utf8Encode := rfl
  simp [decode?, h, List.utf8Decode?_utf8Encode]

theorem byteSlice?_append (a b c : List Char) :
    byteSlice? (a ++ b ++ c) (encode a).length ((encode a).length + (encode b).length) = some b := by
  have h : (encode a).length + (encode b).length = (encode a ++ encode b).length := by simp
  rw [byteSlice?, encode_append, encode_append, h, List.take_left, List.drop_left, decode?_encode]

end Brainfuck.Text
