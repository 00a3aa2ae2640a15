/-!
# UTF-8

Places in a text are counted in bytes of its UTF-8 form. `byteLength` is that count, additive over `++`
(`byteLength_append`); `encode` and `decode?` go between texts and the bytes of a file, and decoding undoes
encoding (`decode?_encode`).
-/

namespace AccessorGen.Text

/-- The number of bytes of the UTF-8 form of a text. -/
def byteLength : List Char → Nat
  | [] => 0
  | c :: s => c.utf8Size + byteLength s

@[simp] theorem byteLength_nil : byteLength [] = 0 := rfl

@[simp] theorem byteLength_cons (c : Char) (s : List Char) : byteLength (c :: s) = c.utf8Size + byteLength s := rfl

@[simp] theorem byteLength_append (s t : List Char) : byteLength (s ++ t) = byteLength s + byteLength t := by
  induction s with
  | nil => simp
  | cons c s ih => simp [ih, Nat.add_assoc]

/-- A text has at least as many bytes as characters. -/
theorem length_le_byteLength (s : List Char) : s.length ≤ byteLength s := by
  induction s with
  | nil => simp
  | cons c s ih => have := c.utf8Size_pos; simp; omega

/-- The UTF-8 form of a text. -/
def encode (s : List Char) : ByteArray :=
  (String.ofList s).toUTF8

/-- The text whose UTF-8 form is given, if the bytes are one. -/
def decode? (bytes : ByteArray) : Option (List Char) :=
  (String.fromUTF8? bytes).map String.toList

/-- Decoding undoes encoding. -/
@[simp] theorem decode?_encode (s : List Char) : decode? (encode s) = some s := by
  have h : (String.ofList s).toUTF8.IsValidUTF8 := (String.ofList s).isValidUTF8
  have e : String.fromUTF8 (String.ofList s).toUTF8 h = String.ofList s := rfl
  rw [decode?, encode, String.fromUTF8?, dif_pos h, e]
  simp

end AccessorGen.Text
