import AccessorGen.Text.Blank
import AccessorGen.Text.Bytes
import AccessorGen.Token

/-!
# Reading tokens

`lex` reads a whole line. Blanks separate tokens, words are as long as possible, `::` is one token, and `//`
hides everything after it. The list ends in `eof` at the end of the line.
-/

namespace AccessorGen

open Text

/-- The kind of token that a character other than a word character, alone, stands for. -/
def TokenKind.ofChar : Char → TokenKind
  | '*' => .star
  | '[' => .openBracket
  | ']' => .closeBracket
  | ';' => .semicolon
  | c => .other c

/-- The tokens of the rest of a line that starts at byte `offset`. -/
def scan (offset : Nat) : List Char → List Token
  | [] => [⟨.eof, .ofNat offset offset⟩]
  | c :: rest =>
    if isBlank c then scan (offset + c.utf8Size) rest
    else if isWordChar c then
      let stop := offset + c.utf8Size + byteLength (rest.takeWhile isWordChar)
      ⟨.word (c :: rest.takeWhile isWordChar), .ofNat offset stop⟩ :: scan stop (rest.dropWhile isWordChar)
    else if c = '/' ∧ rest.head? = some '/' then
      let stop := offset + byteLength (c :: rest)
      [⟨.eof, .ofNat stop stop⟩]
    else if c = ':' ∧ rest.head? = some ':' then
      ⟨.doubleColon, .ofNat offset (offset + 2)⟩ :: scan (offset + 2) rest.tail
    else ⟨.ofChar c, .ofNat offset (offset + c.utf8Size)⟩ :: scan (offset + c.utf8Size) rest
  termination_by s => s.length
  decreasing_by
    all_goals simp only [List.length_cons, List.length_tail]
    · omega
    · have := (List.dropWhile_suffix (l := rest) isWordChar).length_le
      omega
    · omega
    · omega

/-- The tokens of a line. -/
def lex (line : List Char) : List Token :=
  scan 0 line

/-- The kinds of the tokens of a line, without the final `eof`. -/
def lexKinds (line : List Char) : List TokenKind :=
  ((lex line).map (·.kind)).filter (· ≠ .eof)

end AccessorGen
