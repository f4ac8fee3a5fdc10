import GraphBase.Graph.Distance
import GraphBase.Graph.Store
import Mathlib.Algebra.Group.Nat.Defs
import Mathlib.Data.List.DropRight

/-!
# Embeddings and their bytes

An embedding is kept as bytes, four to a component.  Nothing is lost on the way there and back, in
either direction: an embedding is read bit by bit as it was written (`decode_encode`), and bytes are
written again as they were read, but for those behind the last whole component (`encode_decode`).

Both are arithmetic.  The bytes of a component are the digits of its pattern in base 256, the least
significant one first (`getElem?_componentBytes`), and four bytes make the component of which they
are the digits (`toNat_bits_ofComponentBytes`).  What the pattern stands for makes no difference, so
the payload of a NaN and the sign of a zero survive like everything else.

## Dimensions

The dimension of a blob is asked for in several places: components are read, counted by a statement
(as is tried with a single component when a connection is opened), checked by a store and compared
before there is a distance.  Bytes at the end that make no component do not count in any of them, and
all of them find the same number (`hasDimension`).
-/

namespace GraphBase

open GraphBase.Number (Binary32 Binary64)

namespace Embedding

/-! ## Components -/

/-- **The bytes of a component are its digits** in base 256, the least significant one first. -/
theorem getElem?_componentBytes (x : Binary32) {i : Nat} (hi : i < 4) :
    (componentBytes x)[i]? = some (UInt8.ofNat (x.bits.toNat / 256 ^ i)) := by
  have hcases : i = 0 ∨ i = 1 ∨ i = 2 ∨ i = 3 := by omega
  rcases hcases with rfl | rfl | rfl | rfl <;>
    simp [componentBytes, ← UInt8.toNat_inj, Nat.shiftRight_eq_div_pow]

/-- **Four bytes make the component of which they are the digits.** -/
theorem toNat_bits_ofComponentBytes (a b c d : UInt8) : (ofComponentBytes a b c d).bits.toNat =
    a.toNat + 2 ^ 8 * b.toNat + 2 ^ 16 * c.toNat + 2 ^ 24 * d.toNat := by
  have ha := a.toNat_lt
  have hb := b.toNat_lt
  have hc := c.toNat_lt
  have hd := d.toNat_lt
  -- a byte that is shifted to its place loses nothing, and does not overlap with what is below it
  have hshift : ∀ {n k : Nat}, n < 2 ^ 8 → k ≤ 24 → n <<< k % 2 ^ 32 = 2 ^ k * n := by
    intro n k hn hk
    rw [Nat.shiftLeft_eq, Nat.mul_comm, Nat.mod_eq_of_lt]
    calc 2 ^ k * n < 2 ^ k * 2 ^ 8 := Nat.mul_lt_mul_of_pos_left hn (Nat.two_pow_pos k)
      _ = 2 ^ (k + 8) := (Nat.pow_add 2 k 8).symm
      _ ≤ 2 ^ 32 := Nat.pow_le_pow_right (by omega) (by omega)
  have hor : ∀ {low : Nat} (k n : Nat), low < 2 ^ k → low ||| 2 ^ k * n = low + 2 ^ k * n := by
    intro low k n hlow
    rw [Nat.or_comm, ← Nat.two_pow_add_eq_or_of_lt hlow, Nat.add_comm]
  calc (ofComponentBytes a b c d).bits.toNat
    _ = a.toNat ||| b.toNat <<< 8 % 2 ^ 32 ||| c.toNat <<< 16 % 2 ^ 32 |||
          d.toNat <<< 24 % 2 ^ 32 := by
      simp only [ofComponentBytes, UInt32.toNat_or, UInt32.toNat_shiftLeft, UInt8.toNat_toUInt32]
      rfl
    _ = a.toNat ||| 2 ^ 8 * b.toNat ||| 2 ^ 16 * c.toNat ||| 2 ^ 24 * d.toNat := by
      rw [hshift hb (by omega), hshift hc (by omega), hshift hd (by omega)]
    _ = a.toNat + 2 ^ 8 * b.toNat + 2 ^ 16 * c.toNat + 2 ^ 24 * d.toNat := by
      rw [hor 8 _ ha, hor 16 _ (by omega), hor 24 _ (by omega)]

/-- A component is read as it was written. -/
theorem decode_componentBytes_append (x : Binary32) (bytes : List UInt8) :
    decode (componentBytes x ++ bytes) = x :: decode bytes := by
  have hx := x.bits.toNat_lt
  have hbits : (ofComponentBytes x.bits.toUInt8 (x.bits >>> 8).toUInt8 (x.bits >>> 16).toUInt8
      (x.bits >>> 24).toUInt8).bits = x.bits := by
    rw [← UInt32.toNat_inj, toNat_bits_ofComponentBytes]
    simp [Nat.shiftRight_eq_div_pow]
    omega
  exact congrArg (Binary32.mk · :: decode bytes) hbits

/-- Four bytes are written again as they were read. -/
theorem componentBytes_ofComponentBytes (a b c d : UInt8) :
    componentBytes (ofComponentBytes a b c d) = [a, b, c, d] := by
  have ha := a.toNat_lt
  have hb := b.toNat_lt
  have hc := c.toNat_lt
  have hd := d.toNat_lt
  refine List.ext_getElem? fun i => ?_
  rcases Nat.lt_or_ge i 4 with hi | hi
  · rw [getElem?_componentBytes _ hi, toNat_bits_ofComponentBytes]
    have hcases : i = 0 ∨ i = 1 ∨ i = 2 ∨ i = 3 := by omega
    rcases hcases with rfl | rfl | rfl | rfl <;> simp [← UInt8.toNat_inj] <;> omega
  · rw [List.getElem?_eq_none hi, List.getElem?_eq_none hi]

/-! ## Whole embeddings -/

/-- **An embedding is read bit by bit as it was written.** -/
theorem decode_encode (v : Embedding) : decode (encode v) = v := by
  induction v with
  | nil => rfl
  | cons x v ih => rw [encode_cons, decode_componentBytes_append, ih]

theorem encode_injective : Function.Injective encode :=
  Function.LeftInverse.injective decode_encode

/-- What is written for a component stands at its place. -/
theorem getElem?_encode (v : Embedding) (j : Nat) {i : Nat} (hi : i < 4) :
    (encode v)[4 * j + i]? = v[j]?.map fun x => UInt8.ofNat (x.bits.toNat / 256 ^ i) := by
  induction v generalizing j with
  | nil => rfl
  | cons x v ih =>
    have hlength : (componentBytes x).length = 4 := rfl
    rw [encode_cons]
    cases j with
    | zero =>
      rw [List.getElem?_append_left (by omega), Nat.mul_zero, Nat.zero_add,
        getElem?_componentBytes x hi]
      rfl
    | succ j =>
      rw [List.getElem?_append_right (by omega), hlength, List.getElem?_cons_succ, ← ih]
      congr 1
      omega

/-- **Bytes are what is read from them**, and fewer than four more. -/
theorem exists_eq_encode_append (bytes : List UInt8) :
    ∃ rest, bytes = encode (decode bytes) ++ rest ∧ rest.length < 4 := by
  induction bytes using decode.induct with
  | case1 a b c d bytes ih =>
    obtain ⟨rest, hbytes, hrest⟩ := ih
    refine ⟨rest, ?_, hrest⟩
    rw [decode, encode_cons, componentBytes_ofComponentBytes, List.append_assoc, ← hbytes]
    rfl
  | case2 bytes hshort =>
    refine ⟨bytes, by rw [decode.eq_2 _ hshort]; rfl, ?_⟩
    rcases bytes with _ | ⟨a, _ | ⟨b, _ | ⟨c, _ | ⟨d, rest⟩⟩⟩⟩
    case cons.cons.cons.cons => exact absurd rfl (hshort a b c d rest)
    all_goals simp

theorem length_decode (bytes : List UInt8) : (decode bytes).length = bytes.length / 4 := by
  obtain ⟨rest, hbytes, hrest⟩ := exists_eq_encode_append bytes
  have hlength := congrArg List.length hbytes
  rw [List.length_append, length_encode] at hlength
  omega

/-- **Bytes are written again as they were read**, but for those that make no component. -/
theorem encode_decode (bytes : List UInt8) :
    encode (decode bytes) = bytes.rdrop (bytes.length % 4) := by
  obtain ⟨rest, hbytes, hrest⟩ := exists_eq_encode_append bytes
  have hlength := congrArg List.length hbytes
  rw [List.length_append, length_encode] at hlength
  have hmod : bytes.length % 4 = rest.length := by omega
  calc encode (decode bytes) = (encode (decode bytes) ++ rest).rdrop rest.length := by
        rw [List.rdrop, List.length_append, Nat.add_sub_cancel, List.take_left]
    _ = bytes.rdrop (bytes.length % 4) := by rw [← hbytes, hmod]

/-! ## Dimensions -/

/-- The cosine distance of two embeddings whose lengths have been compared. -/
def cosine? (a b : Embedding) : Option Binary64 :=
  if norm a == 0.0 || norm b == 0.0 then none
  else some (Binary64.ofFloat (1.0 - dot a b / (norm a * norm b)))

/-- Only embeddings of one length that are not empty are compared at all. -/
theorem distance?_eq (a b : Embedding) :
    distance? a b = if a.length = b.length ∧ a.length ≠ 0 then cosine? a b else none := by
  rw [distance?]
  by_cases hlength : a.length = b.length ∧ a.length ≠ 0
  · have hnot : ¬(a.length ≠ b.length ∨ a = []) := by
      simpa [not_or, List.length_eq_zero_iff] using hlength
    rw [if_neg hnot, if_pos hlength]
    rfl
  · have hor : a.length ≠ b.length ∨ a = [] := by
      simpa [or_iff_not_imp_left, List.length_eq_zero_iff] using hlength
    rw [if_pos hor, if_neg hlength]

/-- What is not a number is no distance. -/
theorem cellDistance?_blob (a b : List UInt8) : cellDistance? (.blob a) (.blob b) =
    .ok ((distance? (decode a) (decode b)).filter fun d => !d.isNaN) := by
  simp only [cellDistance?, argument, bind, Except.bind, pure, Except.pure]
  cases distance? (decode a) (decode b) with
  | none => rfl
  | some d => cases hnan : d.isNaN <;> simp [Option.filter, hnan]

/-- A blob has a number of components wherever one asks for it. -/
structure HasDimension (bytes : List UInt8) (n : Nat) : Prop where
  /-- So many components are read. -/
  decoded : (decode bytes).length = n
  /-- A statement counts so many. -/
  counted : cellDimension? (.blob bytes) = .ok (some n)
  /-- What is read passes in stores of this dimension, and in no others. -/
  checked : ∀ schema : PropertySchema, schema.checkEmbedding (some (decode bytes)) =
    if n = schema.dimension then .ok () else .error (.dimensionMismatch schema.dimension n)
  /-- Only blobs of this dimension are compared with it. -/
  compared : ∀ other : List UInt8, cellDistance? (.blob bytes) (.blob other) =
    .ok (if n = other.length / 4 ∧ n ≠ 0 then
      (cosine? (decode bytes) (decode other)).filter fun d => !d.isNaN else none)

/-- **Whoever asks for the dimension of a blob is told the same.** -/
theorem hasDimension (bytes : List UInt8) : HasDimension bytes (bytes.length / 4) where
  decoded := length_decode bytes
  counted := rfl
  checked schema := by rw [PropertySchema.checkEmbedding, length_decode]
  compared other := by
    rw [cellDistance?_blob, distance?_eq, length_decode, length_decode, apply_ite (Option.filter _)]
    rfl

/-- The dimension of an embedding that is kept is its length. -/
theorem hasDimension_encode (v : Embedding) : HasDimension (encode v) v.length := by
  have hlength : (encode v).length / 4 = v.length := by
    rw [length_encode, Nat.mul_div_cancel_left _ (by omega)]
  exact hlength ▸ hasDimension (encode v)

end Embedding

end GraphBase
