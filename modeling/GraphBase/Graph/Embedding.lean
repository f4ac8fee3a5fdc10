import GraphBase.Number.Binary

/-!
# Embeddings

An embedding is a list of single precision numbers.  A table keeps it as bytes, four
to a number with the least significant byte first, and `encode` and `decode` go
between the two.  Bytes behind the last whole group of four are ignored.

## Distance

Two embeddings of one length are compared by their cosine distance, one minus the
cosine of the angle between them: `0` for one direction, `1` for a right angle, `2`
for opposite directions.  Everything is computed in double precision, and sums run
from the first component to the last.  There is no distance between embeddings of
different lengths, to an empty one, or to one of length zero.
-/

namespace GraphBase

open GraphBase.Number

/-- A list of components. -/
abbrev Embedding := List Binary32

namespace Embedding

/-- The four bytes of a component, the least significant one first. -/
def componentBytes (x : Binary32) : List UInt8 :=
  [x.bits.toUInt8, (x.bits >>> 8).toUInt8, (x.bits >>> 16).toUInt8, (x.bits >>> 24).toUInt8]

/-- The component of four bytes. -/
def ofComponentBytes (a b c d : UInt8) : Binary32 :=
  ⟨a.toUInt32 ||| (b.toUInt32 <<< 8) ||| (c.toUInt32 <<< 16) ||| (d.toUInt32 <<< 24)⟩

/-- The bytes that a table keeps. -/
def encode (v : Embedding) : List UInt8 := v.flatMap componentBytes

/-- The components of the bytes that a table keeps. -/
def decode : List UInt8 → Embedding
  | a :: b :: c :: d :: rest => ofComponentBytes a b c d :: decode rest
  | _ => []

/-- How many components a blob holds. -/
def dimension (bytes : List UInt8) : Nat := bytes.length / 4

@[simp] theorem encode_nil : encode [] = [] := rfl

@[simp] theorem encode_cons (x : Binary32) (v : Embedding) :
    encode (x :: v) = componentBytes x ++ encode v := rfl

@[simp] theorem length_encode (v : Embedding) : (encode v).length = 4 * v.length := by
  induction v with
  | nil => rfl
  | cons x v ih => simp [componentBytes, ih]; omega

/-! ## Cosine distance -/

/-- A component in the arithmetic of the distance. -/
def component (x : Binary32) : Float := x.toBinary64.toFloat

/-- The sum of the products of the components. -/
def dot (a b : Embedding) : Float :=
  (a.zip b).foldl (fun sum p => sum + component p.1 * component p.2) 0.0

/-- The length of an embedding as a vector. -/
def norm (a : Embedding) : Float :=
  (a.foldl (fun sum x => sum + component x * component x) 0.0).sqrt

/-- The cosine distance, where there is one. -/
def distance? (a b : Embedding) : Option Binary64 :=
  if a.length ≠ b.length ∨ a = [] then none
  else
    let na := norm a
    let nb := norm b
    if na == 0.0 || nb == 0.0 then none
    else some (Binary64.ofFloat (1.0 - dot a b / (na * nb)))

end Embedding

end GraphBase
