/-!
# Places in a text

Spans count bytes from the start of a text, locations add the 1-based number of the line. All numbers are 32-bit
words, so they name a place only in texts of fewer than `2 ^ 32` bytes.
-/

namespace AccessorGen

/-- The bytes from `start` up to, not including, `stop`. -/
structure Span where
  start : UInt32
  stop : UInt32
  deriving DecidableEq, Repr, Inhabited

/-- The span between two byte offsets. -/
def Span.ofNat (start stop : Nat) : Span :=
  ⟨start.toUInt32, stop.toUInt32⟩

/-- A 1-based line number together with a span. -/
structure Location where
  line : UInt32
  span : Span
  deriving DecidableEq, Repr, Inhabited

end AccessorGen
