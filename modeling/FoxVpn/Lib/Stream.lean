/-
  FoxVpn.Lib.Stream
  ─────────────────
  **INPUT STREAMS THAT DELIVER IN CHUNKS.**

  What a peer sends arrives in order, but a `read` that asks for `n` may give
  any number between one and `n`.  The number the `i`-th read gives at most is
  `chunks i`, an arbitrary function; nothing else is open.
-/
import Mathlib.Order.Lattice
import Mathlib.Data.List.Basic

namespace FoxVpn.Lib

/-- What is still to come, and how it is cut. -/
structure InputStream (β : Type*) where
  bytes : List β
  chunks : Nat → Nat
  /-- The reads so far. -/
  reads : Nat := 0

namespace InputStream

variable {β : Type*}

/-- How much the next read of `n` gives. -/
def count (s : InputStream β) (n : Nat) : Nat :=
  min n (min s.bytes.length (max 1 (s.chunks s.reads)))

/-- `read(buf)` into a buffer of `n`; `none` is the end of the stream. -/
def read (s : InputStream β) (n : Nat) : Option (List β) × InputStream β :=
  if n = 0 then (some [], s)
  else if s.bytes = [] then (none, s)
  else
    (some (s.bytes.take (s.count n)),
      { s with bytes := s.bytes.drop (s.count n), reads := s.reads + 1 })

/-- `read()` of one byte. -/
def readByte (s : InputStream β) : Option β × InputStream β :=
  let (got, s) := s.read 1
  (got.bind List.head?, s)

/-- A single read gives a prefix, of the length the chunk allows. -/
theorem read_getD (s : InputStream β) (n : Nat) :
    (s.read n).1.getD [] = s.bytes.take (s.count n) := by
  unfold read
  split
  next hn =>
    rw [count, hn, Nat.zero_min, List.take_zero]
    rfl
  next =>
    split
    next hnil =>
      rw [hnil, List.take_nil]
      rfl
    next => rfl

/-- One byte does not depend on the chunks. -/
theorem readByte_cons (b : β) (bytes : List β) (chunks : Nat → Nat) (i : Nat) :
    readByte ⟨b :: bytes, chunks, i⟩ = (some b, ⟨bytes, chunks, i + 1⟩) := by
  have hcount : count ⟨b :: bytes, chunks, i⟩ 1 = 1 := by
    rw [count, List.length_cons]
    omega
  unfold readByte read
  rw [if_neg Nat.one_ne_zero, if_neg (List.cons_ne_nil b bytes), hcount]
  rfl

end InputStream

end FoxVpn.Lib
