/-
  FoxVpn.Bg.FramedReads
  ─────────────────────
  **FRAMES READ WITH ONE `read`.**

  `LocalDnsWorker` reads a two-byte length and then asks ONCE for that many
  bytes, into an array of zeros; it does not look at how many it got.
  `TrafficMonitor` asks ONCE for sixteen bytes, and throws unless it got all
  of them.  A stream may cut what was sent anywhere.

      the query is right        exactly if enough was sent and what the one
                                read leaves out is zero
      the totals are accepted   exactly if the first read gives all sixteen

                                                        `framed_iff`
-/
import FoxVpn.Lib.Stream
import FoxVpn.Bg.TrafficMonitor

namespace FoxVpn.Bg

open FoxVpn.Lib FoxVpn.Database

/-! ## §1. The two readers. -/

namespace LocalDnsWorker

/-- `DataInputStream.readUnsignedShort()`; `none` is the EOFException. -/
def readUnsignedShort (input : InputStream Byte) : Option (Nat × InputStream Byte) :=
  let (ch1, input) := input.readByte
  let (ch2, input) := input.readByte
  match ch1, ch2 with
  | some ch1, some ch2 => some (ch1.toNat * 256 + ch2.toNat, input)
  | _, _ => none

/-- An array of `n` zeros, filled from the front. -/
def filled (n : Nat) (got : List Byte) : List Byte := got ++ List.replicate (n - got.length) 0

/-- `ByteArray(input.readUnsignedShort()).also { input.read(it) }`: the query
the resolver is called with; `none` if it is not called. -/
def query (input : InputStream Byte) : Option (List Byte) :=
  (readUnsignedShort input).map fun (n, input) => filled n ((input.read n).1.getD [])

/-- What a frame stands for: the bytes that follow its length, if all of them
have been sent. -/
def framed : List Byte → Option (List Byte)
  | ch1 :: ch2 :: rest =>
      if ch1.toNat * 256 + ch2.toNat ≤ rest.length then
        some (rest.take (ch1.toNat * 256 + ch2.toNat))
      else none
  | _ => none

end LocalDnsWorker

namespace TrafficMonitor

/-- `acceptInternal(socket)` for a socket with this stream. -/
def acceptStream (m : TrafficMonitor) (input : InputStream Byte) : Except Fault TrafficMonitor :=
  m.acceptInternal ((input.read 16).1.getD [])

/-- The number whose little-endian bytes these are. -/
def littleEndian (bytes : List Byte) : Nat := bytes.foldr (fun b n => b.toNat + 256 * n) 0

theorem getLong_eq (buffer : List Byte) (index : Nat) :
    getLong buffer index = BitVec.ofNat 64 (littleEndian ((buffer.drop index).take 8)) := by
  unfold getLong littleEndian
  induction (buffer.drop index).take 8 with
  | nil => rfl
  | cons b bytes ih =>
      rw [List.foldr_cons, List.foldr_cons, ih]
      -- the byte goes into the eight bits the shift has cleared
      generalize List.foldr (fun (b : Byte) n => b.toNat + 256 * n) 0 bytes = n
      have hb := b.isLt
      have hor := Nat.two_pow_add_eq_or_of_lt (b := b.toNat) hb (n % 2 ^ 56)
      apply BitVec.eq_of_toNat_eq
      have hshift : (BitVec.ofNat 64 n <<< 8).toNat = 2 ^ 8 * (n % 2 ^ 56) := by
        rw [BitVec.toNat_shiftLeft, BitVec.toNat_ofNat, Nat.shiftLeft_eq]
        omega
      have hbyte : (b.zeroExtend 64).toNat = b.toNat := by
        rw [BitVec.toNat_setWidth]
        omega
      rw [BitVec.toNat_or, hshift, hbyte, ← hor, BitVec.toNat_ofNat]
      omega

end TrafficMonitor

/-! ## §2. One read against the frame. -/

namespace LocalDnsWorker

/-- The length is read byte by byte, the rest with one read. -/
theorem query_cons (ch1 ch2 : Byte) (rest : List Byte) (chunks : Nat → Nat) :
    query ⟨ch1 :: ch2 :: rest, chunks, 0⟩
      = some (filled (ch1.toNat * 256 + ch2.toNat)
        (rest.take (min (ch1.toNat * 256 + ch2.toNat) (min rest.length (max 1 (chunks 2)))))) := by
  unfold query readUnsignedShort
  rw [InputStream.readByte_cons]
  dsimp only
  rw [InputStream.readByte_cons]
  show some (filled _ _) = _
  rw [InputStream.read_getD]
  rfl

theorem query_short {sent : List Byte} (h : sent.length < 2) (chunks : Nat → Nat) :
    query ⟨sent, chunks, 0⟩ = none := by
  rcases sent with _ | ⟨b, _ | ⟨b', rest⟩⟩
  · rfl
  · unfold query readUnsignedShort
    rw [InputStream.readByte_cons]
    rfl
  · rw [List.length_cons, List.length_cons] at h
    omega

/-- A prefix filled up with zeros is the frame if the rest of it is zero. -/
theorem filled_take_eq_iff {n : Nat} {rest : List Byte} (hn : n ≤ rest.length) (m : Nat) :
    filled n (rest.take (min n m)) = rest.take n ↔ ∀ x ∈ (rest.take n).drop m, x = 0 := by
  have hlen : (rest.take (min n m)).length = min n m := by
    rw [List.length_take]
    omega
  have hsplit : rest.take n = rest.take (min n m) ++ (rest.take n).drop m := by
    by_cases hm : m ≤ n
    · rw [Nat.min_eq_right hm]
      conv_lhs => rw [← List.take_append_drop m (rest.take n)]
      rw [List.take_take, Nat.min_eq_left hm]
    · rw [Nat.min_eq_left (by omega), List.drop_eq_nil_of_le (by rw [List.length_take]; omega),
        List.append_nil]
  have hdrop : ((rest.take n).drop m).length = n - min n m := by
    rw [List.length_drop, List.length_take]
    omega
  unfold filled
  rw [hlen]
  conv_lhs => rhs; rw [hsplit]
  rw [List.append_cancel_left_eq, eq_comm, List.eq_replicate_iff, hdrop]
  exact and_iff_right rfl

/-- Enough has been sent, and the bytes the one read leaves out are zero. -/
def InOneRead (sent : List Byte) (chunks : Nat → Nat) : Prop :=
  match sent with
  | ch1 :: ch2 :: rest =>
      ch1.toNat * 256 + ch2.toNat ≤ rest.length
        ∧ ∀ x ∈ (rest.take (ch1.toNat * 256 + ch2.toNat)).drop (max 1 (chunks 2)), x = 0
  | _ => True

/-- **The resolver is called as the frame says** exactly if the frame is in
one read. -/
theorem query_iff (sent : List Byte) (chunks : Nat → Nat) :
    query ⟨sent, chunks, 0⟩ = framed sent ↔ InOneRead sent chunks := by
  rcases sent with _ | ⟨ch1, _ | ⟨ch2, rest⟩⟩
  · exact iff_of_true (query_short (by simp) chunks) trivial
  · exact iff_of_true (query_short (by simp) chunks) trivial
  · rw [query_cons, framed, InOneRead]
    generalize ch1.toNat * 256 + ch2.toNat = n
    by_cases hn : n ≤ rest.length
    · rw [if_pos hn, Option.some.injEq, ← filled_take_eq_iff hn, and_iff_right hn]
      have hmin : min n (min rest.length (max 1 (chunks 2))) = min n (max 1 (chunks 2)) := by
        omega
      rw [hmin]
    · rw [if_neg hn]
      exact iff_of_false (by simp) fun h => hn h.1

end LocalDnsWorker

namespace TrafficMonitor

/-- **Sixteen bytes are accepted** exactly if the first read gives them all. -/
theorem acceptStream_iff (m : TrafficMonitor) {sent : List Byte} (h16 : sent.length = 16)
    (chunks : Nat → Nat) :
    (∃ m', m.acceptStream ⟨sent, chunks, 0⟩ = .ok m'
      ∧ m'.totals = (BitVec.ofNat 64 (littleEndian (sent.take 8)),
        BitVec.ofNat 64 (littleEndian (sent.drop 8)))) ↔ 16 ≤ chunks 0 := by
  have hread : (InputStream.read ⟨sent, chunks, 0⟩ 16).1.getD []
      = sent.take (min 16 (max 1 (chunks 0))) := by
    rw [InputStream.read_getD]
    show sent.take (min 16 (min sent.length (max 1 (chunks 0)))) = _
    rw [h16, ← Nat.min_assoc, Nat.min_self]
  unfold acceptStream
  rw [hread]
  constructor
  · rintro ⟨m', hm', -⟩
    by_contra hlt
    have hlen : (sent.take (min 16 (max 1 (chunks 0)))).length = max 1 (chunks 0) := by
      rw [List.length_take]
      omega
    unfold acceptInternal at hm'
    rw [if_neg (by omega), if_neg (by omega)] at hm'
    cases hm'
  · intro hall
    rw [Nat.min_eq_left (by omega), List.take_of_length_le (by omega)]
    cases haccept : m.acceptInternal sent with
    | error e => exact absurd h16 (acceptInternal_error haccept)
    | ok m' =>
        refine ⟨m', rfl, ?_⟩
        have height : (sent.drop 8).take 8 = sent.drop 8 :=
          List.take_of_length_le (by rw [List.length_drop]; omega)
        rw [(acceptInternal_spec haccept).1, reported, if_pos h16, getLong_eq, getLong_eq, height]
        rfl

end TrafficMonitor

/-! ## §3. Both readers. -/

open TrafficMonitor (littleEndian)

/-- **Framed reads do not depend on the chunks** exactly where one read
suffices. -/
theorem framed_iff (m : TrafficMonitor) (sent : List Byte) (chunks : Nat → Nat) :
    (LocalDnsWorker.query ⟨sent, chunks, 0⟩ = LocalDnsWorker.framed sent
      ∧ (sent.length = 16 → ∃ m', m.acceptStream ⟨sent, chunks, 0⟩ = .ok m'
        ∧ m'.totals = (BitVec.ofNat 64 (littleEndian (sent.take 8)),
          BitVec.ofNat 64 (littleEndian (sent.drop 8)))))
      ↔ LocalDnsWorker.InOneRead sent chunks ∧ (sent.length = 16 → 16 ≤ chunks 0) := by
  refine and_congr (LocalDnsWorker.query_iff sent chunks) ?_
  exact forall_congr' fun h16 => m.acceptStream_iff h16 chunks

/-- Sixteen bytes in one read: a frame of fourteen, and a pair of totals. -/
theorem framed_sixteen :
    LocalDnsWorker.query ⟨0 :: 14 :: List.replicate 14 5, fun _ => 16, 0⟩
        = some (List.replicate 14 5)
      ∧ ∃ m', TrafficMonitor.acceptStream {} ⟨0 :: 14 :: List.replicate 14 5, fun _ => 16, 0⟩
          = .ok m'
        ∧ m'.totals = (0x0505050505050E00, 0x0505050505050505) := by
  have hone : LocalDnsWorker.InOneRead (0 :: 14 :: List.replicate 14 5) fun _ => 16 :=
    ⟨by decide, by decide⟩
  have hframed : LocalDnsWorker.framed (0 :: 14 :: List.replicate 14 5)
      = some (List.replicate 14 5) := by decide
  have hvalues : BitVec.ofNat 64 (littleEndian ((0 :: 14 :: List.replicate 14 5).take 8))
        = 0x0505050505050E00
      ∧ BitVec.ofNat 64 (littleEndian ((0 :: 14 :: List.replicate 14 5).drop 8))
        = 0x0505050505050505 := by decide
  obtain ⟨hquery, htotals⟩ := (framed_iff {} (0 :: 14 :: List.replicate 14 5) fun _ => 16).mpr
    ⟨hone, fun _ => Nat.le_refl 16⟩
  rw [hvalues.1, hvalues.2] at htotals
  exact ⟨hquery.trans hframed, htotals (by decide)⟩

/-- A query of two bytes in two chunks: the second byte is lost.  One byte
of two: the resolver is called all the same.  Totals in two chunks: an
exception. -/
theorem chunks_lose_bytes :
    LocalDnsWorker.query ⟨[0, 2, 7, 9], fun _ => 1, 0⟩ = some [7, 0]
      ∧ LocalDnsWorker.framed [0, 2, 7, 9] = some [7, 9]
      ∧ LocalDnsWorker.query ⟨[0, 2, 7], fun _ => 9, 0⟩ = some [7, 0]
      ∧ LocalDnsWorker.framed [0, 2, 7] = none
      ∧ TrafficMonitor.acceptStream {} ⟨List.replicate 16 1, fun _ => 8, 0⟩
        = (.error .io : Except Fault TrafficMonitor) := by
  refine ⟨by decide, by decide, by decide, by decide, rfl⟩

end FoxVpn.Bg
