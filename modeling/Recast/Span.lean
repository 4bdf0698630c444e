-- Places in the text of a unit.

namespace Recast

/-- Where a node stands: the offset of its first byte, its length in
bytes, and its line, counted from one. -/
structure Span where
  start : UInt64
  len : UInt64
  line : UInt32
deriving Repr, DecidableEq, Inhabited

/-- The span of a node that has no place. -/
def Span.none : Span := ⟨0, 0, 0⟩

/-- The offset after the last byte. It stops at the greatest offset. -/
def Span.stop (s : Span) : UInt64 :=
  if s.start.toNat + s.len.toNat < 0x10000000000000000 then s.start + s.len else 0xffffffffffffffff

end Recast
