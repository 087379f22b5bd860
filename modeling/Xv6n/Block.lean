import Xv6n.Param
import Xv6n.Lib.Bytes

/-!
# Disk blocks

A block is an array of `BSIZE` bytes. `get` reads a byte at any offset (zero beyond the end), `ofFn`
builds a block from a byte function, and `le`/`putLe` are the little-endian integers inside a block
through which the kernel's structures are laid over `bp->data`.
-/

namespace Xv6n

/-- The data of one disk block (C `uchar data[BSIZE]`). -/
def Block : Type := Fin BSIZE → UInt8

namespace Block

/-- The byte at offset `i`. -/
def get (b : Block) (i : Nat) : UInt8 := if h : i < BSIZE then b ⟨i, h⟩ else 0

/-- The block with byte `f i` at offset `i`. -/
def ofFn (f : Nat → UInt8) : Block := fun i => f i

def zero : Block := fun _ => 0

/-- The `k`-byte little-endian integer at offset `o`. -/
def le (b : Block) (o k : Nat) : Nat := Lib.le b.get o k

/-- Store a `k`-byte little-endian integer at offset `o`. -/
def putLe (b : Block) (o k v : Nat) : Block := ofFn (Lib.putLe b.get o k v)

variable {b c : Block} {i o k v o' k' : Nat} {f : Nat → UInt8}

lemma get_ofFn (h : i < BSIZE) : (ofFn f).get i = f i := by
  unfold get ofFn
  rw [dif_pos h]

@[simp] lemma get_zero : zero.get i = 0 := by
  unfold get zero
  split <;> rfl

lemma le_ofFn (h : o + k ≤ BSIZE) : (ofFn f).le o k = Lib.le f o k := by
  apply Lib.le_congr
  intro i _ hi
  exact get_ofFn (by omega)

@[simp] lemma le_zero : zero.le o k = 0 := by
  apply Lib.le_zero
  intro i _ _
  exact get_zero

lemma le_putLe (h : o + k ≤ BSIZE) : (b.putLe o k v).le o k = v % 256 ^ k := by
  rw [putLe, le_ofFn h, Lib.le_putLe]

lemma le_putLe_of_disjoint (h : o' + k' ≤ BSIZE) (hd : o' + k' ≤ o ∨ o + k ≤ o') :
    (b.putLe o k v).le o' k' = b.le o' k' := by
  rw [putLe, le_ofFn h, Lib.le_putLe_of_disjoint hd, le]

end Block

end Xv6n
