/-
  FoxVpn.Net.Dotted
  ─────────────────
  **IPv4 ADDRESSES AND PREFIXES IN THEIR TEXTUAL FORM.**

  Four bytes are written in decimal between dots, and only such a text is
  read back (`ofDotted_dotted`).  A prefix `a.b.c.d/n` is read by
  `Subnet.fromString` as the subnet it denotes (`fromString_toText`), and what
  it covers is an interval of numbers (`covers_iff`).
-/
import FoxVpn.Net.Immutable

namespace FoxVpn.Net

open FoxVpn.Lib

/-! ## §1. Dotted quads. -/

def dot : UInt16 := 46

/-- An IPv4 address. -/
structure Quad where
  a : UInt8
  b : UInt8
  c : UInt8
  d : UInt8
  deriving Repr, DecidableEq

namespace Quad

def bytes (q : Quad) : List UInt8 := [q.a, q.b, q.c, q.d]

/-- The textual form. -/
def dotted (q : Quad) : Text := [dot].intercalate (q.bytes.map fun x => decimal x.toNat)

/-- A byte in decimal, without leading zeros. -/
def octet (t : Text) : Option UInt8 :=
  (digits t).bind fun n => if n < 256 ∧ decimal n = t then some (UInt8.ofNat n) else none

/-- The address with a textual form. -/
def ofDotted (t : Text) : Option Quad :=
  match (t.splitOn dot).mapM octet with
  | some [a, b, c, d] => some ⟨a, b, c, d⟩
  | _ => none

theorem octet_decimal (x : UInt8) : octet (decimal x.toNat) = some x := by
  unfold octet
  rw [digits_decimal, Option.bind_some, if_pos ⟨x.toNat_lt, rfl⟩, UInt8.ofNat_toNat]

theorem dot_not_mem_decimal (n : Nat) : dot ∉ decimal n := by
  have hten : ∀ k < 10, (48 + k).toUInt16 ≠ dot := by decide
  intro h
  obtain ⟨c, hc, hdot⟩ := List.mem_map.mp h
  obtain ⟨k, hlt, hk⟩ := exists_of_isDigit
    (Nat.isDigit_of_mem_toDigits (by decide) (by decide) hc)
  rw [hk] at hdot
  exact hten k hlt hdot

theorem ofDotted_dotted (q : Quad) : ofDotted q.dotted = some q := by
  have hsplit : q.dotted.splitOn dot = q.bytes.map fun x => decimal x.toNat := by
    refine List.splitOn_intercalate dot (fun l hl => ?_) (by simp [bytes])
    obtain ⟨x, -, rfl⟩ := List.mem_map.mp hl
    exact dot_not_mem_decimal x.toNat
  unfold ofDotted
  rw [hsplit]
  simp [bytes, octet_decimal]

theorem dotted_plain (q : Quad) : ∀ c ∈ q.dotted, Plain c := by
  have hdot : Plain dot := by decide
  have hdotted : q.dotted = decimal q.a.toNat ++ dot :: (decimal q.b.toNat
      ++ dot :: (decimal q.c.toNat ++ dot :: decimal q.d.toNat)) := by
    simp [dotted, bytes, List.intercalate]
  intro c hc
  rw [hdotted] at hc
  simp only [List.mem_append, List.mem_cons] at hc
  rcases hc with h | rfl | h | rfl | h | rfl | h
  · exact decimal_plain _ c h
  · exact hdot
  · exact decimal_plain _ c h
  · exact hdot
  · exact decimal_plain _ c h
  · exact hdot
  · exact decimal_plain _ c h

end Quad

/-! ## §2. Addresses by their numeric form. -/

/-- `java.net.InetAddress` with what is documented of numeric IPv4
addresses, and the IPv6 prefix of the routes. -/
class NumericAddress (α : Type) extends InetAddress α where
  getByAddress : Quad → α
  address_getByAddress : ∀ q, address (getByAddress q) = q.bytes
  hostAddress_getByAddress : ∀ q, hostAddress (getByAddress q) = q.dotted
  parse_dotted : ∀ q : Quad, parseNumericAddress q.dotted = some (getByAddress q)
  parse_global : (parseNumericAddress (text "2000::")).map address
    = some (0x20 :: List.replicate 15 0)

/-! ## §3. Prefixes. -/

/-- A prefix of IPv4 addresses. -/
structure Prefix4 where
  quad : Quad
  size : Nat
  size_le : size ≤ 32

namespace Prefix4

/-- `a.b.c.d/n`, as the lists have it. -/
def item (a b c d : UInt8) (n : Fin 33) : Prefix4 := ⟨⟨a, b, c, d⟩, n, by omega⟩

def toText (p : Prefix4) : Text := p.quad.dotted ++ slash :: decimal p.size

example : (item 100 64 0 0 10).toText = text "100.64.0.0/10" := by decide

/-- The numbers of the addresses in the prefix. -/
def interval (p : Prefix4) : Nat × Nat := Bits.block (32 - p.size) (Bits.value p.quad.bytes)

/-- A prefix has no white space. -/
theorem not_mem_toText (p : Prefix4) {c : UInt16} (hc : isWhitespace c = true) : c ∉ p.toText := by
  have hslash : isWhitespace slash = false := by decide
  intro h
  rcases List.mem_append.mp h with h | h
  · exact absurd ((p.quad.dotted_plain c h).2.2.2.symm.trans hc) Bool.false_ne_true
  · rcases List.mem_cons.mp h with rfl | h
    · exact absurd (hslash.symm.trans hc) Bool.false_ne_true
    · exact absurd ((decimal_plain p.size c h).2.2.2.symm.trans hc) Bool.false_ne_true

variable {α : Type} [NumericAddress α]

open NumericAddress

def subnet (p : Prefix4) : Subnet α where
  address := getByAddress p.quad
  prefixSize := p.size
  prefixSize_le := by
    rw [address_getByAddress]
    exact p.size_le

/-- **A prefix is read as its subnet.** -/
theorem fromString_toText (p : Prefix4) :
    Subnet.fromString p.toText = some (p.subnet : Subnet α) := by
  have hle := p.size_le
  have hslash : slash ∉ p.quad.dotted := fun h => (p.quad.dotted_plain slash h).2.1 rfl
  unfold Subnet.fromString toText
  rw [splitFirst_append slash _ _ hslash]
  simp only [parse_dotted, toInt_decimal, if_pos (show p.size ≤ 2147483647 by omega),
    Option.bind_some]
  unfold Subnet.ofPrefix
  rw [dif_neg (by rw [address_getByAddress]; simp [Quad.bytes]; omega)]
  exact congrArg some (Subnet.ext rfl (Int.toNat_natCast _))

theorem toString_subnet {p : Prefix4} (h : p.size < 32) :
    (p.subnet : Subnet α).toString = p.toText := by
  have hlen : (p.subnet : Subnet α).addressLength = 32 := by
    show (InetAddress.address (getByAddress p.quad : α)).length * 8 = 32
    rw [address_getByAddress]
    rfl
  unfold Subnet.toString toText
  rw [if_neg (by rw [hlen]; exact Nat.ne_of_lt h)]
  show InetAddress.hostAddress (getByAddress p.quad : α) ++ _ = _
  rw [hostAddress_getByAddress]
  rfl

theorem covers_iff (p : Prefix4) (q : Quad) :
    (p.subnet : Subnet α).Covers q.bytes ↔ Bits.Within (Bits.value q.bytes) p.interval := by
  have haddr : InetAddress.address (p.subnet : Subnet α).address = p.quad.bytes :=
    address_getByAddress p.quad
  have hlen : q.bytes.length = p.quad.bytes.length := rfl
  rw [Subnet.Covers, haddr, and_iff_right hlen, Bits.take_bits_iff_value hlen, interval,
    Bits.within_block]
  rfl

end Prefix4

end FoxVpn.Net
