import Mathlib.Data.Fintype.Pi
import Xv6n.Block

/-!
# On-disk format

`kernel/fs.h`: the superblock, on-disk inodes, the free map and directory entries, as the kernel lays them
over the bytes of a block.
-/

namespace Xv6n

abbrev NINODE : Nat := 50

instance neZero_NINODE : NeZero NINODE := ⟨by decide⟩

abbrev NDEV : Nat := 10

abbrev ROOTDEV : Nat := 1

abbrev ROOTINO : Nat := 1

abbrev NDIRECT : Nat := 12

instance (priority := 2000) neZero_addrs : NeZero (NDIRECT + 1) := ⟨by decide⟩

abbrev NINDIRECT : Nat := BSIZE / 4

abbrev MAXFILE : Nat := NDIRECT + NINDIRECT

abbrev IPB : Nat := BSIZE / 64

abbrev BPB : Nat := BSIZE * 8

abbrev DIRSIZ : Nat := 14

namespace Fs

abbrev T_DIR : Int16 := 1
abbrev T_FILE : Int16 := 2
abbrev T_DEVICE : Int16 := 3

/-- The superblock (C `struct superblock`): the areas of the disk follow each other as `mkfs` lays them
    out. `datastart` is the block after the free map. -/
class Superblock where
  size : Nat
  ninodes : Nat
  nlog : Nat
  logstart : Nat
  inodestart : Nat
  bmapstart : Nat
  datastart : Nat
  log_le : 2 ≤ logstart
  inode_le : logstart + nlog ≤ inodestart
  bmap_le : inodestart + (ninodes - 1) / IPB < bmapstart
  data_le : bmapstart + (size - 1) / BPB < datastart
  size_le : datastart ≤ size
  size_lt : size < 2 ^ 30
  root_lt : ROOTINO < ninodes
  ninodes_le : ninodes ≤ 2 ^ 16

export Superblock (size ninodes inodestart bmapstart datastart)

section
variable [Superblock]

/-- The block that holds inode `n` (C `IBLOCK`). -/
def iblock (n : Nat) : Nat := n / IPB + inodestart

/-- The block of the free map that holds the bit of block `b` (C `BBLOCK`). -/
def bblock (b : Nat) : Nat := b / BPB + bmapstart

end

/-- On-disk inode (C `struct dinode`); also the part of C `struct inode` that is a copy of it. -/
structure Dinode where
  type : Int16
  major : Int16
  minor : Int16
  nlink : Int16
  size : UInt32
  addrs : Fin (NDIRECT + 1) → UInt32
deriving DecidableEq

namespace Dinode

def zero : Dinode := ⟨0, 0, 0, 0, 0, fun _ => 0⟩

/-- The block address in slot `k`. -/
def addr (x : Dinode) (k : Nat) : Nat := if h : k < NDIRECT + 1 then (x.addrs ⟨k, h⟩).toNat else 0

/-- Store a block address in slot `k`. -/
def setAddr (x : Dinode) (k : Fin (NDIRECT + 1)) (a : Nat) : Dinode :=
  { x with addrs := Function.update x.addrs k (UInt32.ofNat a) }

/-- Byte `j` of the structure in memory. -/
def byte (x : Dinode) (j : Nat) : UInt8 :=
  if j < 2 then .ofNat (x.type.toUInt16.toNat / 256 ^ j)
  else if j < 4 then .ofNat (x.major.toUInt16.toNat / 256 ^ (j - 2))
  else if j < 6 then .ofNat (x.minor.toUInt16.toNat / 256 ^ (j - 4))
  else if j < 8 then .ofNat (x.nlink.toUInt16.toNat / 256 ^ (j - 6))
  else if j < 12 then .ofNat (x.size.toNat / 256 ^ (j - 8))
  else .ofNat (x.addr ((j - 12) / 4) / 256 ^ ((j - 12) % 4))

/-- The inode at offset `o` of a block. -/
def load (d : Block) (o : Nat) : Dinode where
  type := ⟨.ofNat (d.le o 2)⟩
  major := ⟨.ofNat (d.le (o + 2) 2)⟩
  minor := ⟨.ofNat (d.le (o + 4) 2)⟩
  nlink := ⟨.ofNat (d.le (o + 6) 2)⟩
  size := .ofNat (d.le (o + 8) 4)
  addrs := fun k => .ofNat (d.le (o + 12 + 4 * k) 4)

/-- Store an inode at offset `o` of a block. -/
def store (d : Block) (o : Nat) (x : Dinode) : Block :=
  .ofFn fun i => if o ≤ i ∧ i < o + 64 then x.byte (i - o) else d.get i

end Dinode

/-- The place of inode `n` in its block. -/
def ioff (n : Nat) : Nat := n % IPB * 64

/-- The bit of the free map for `bi` inside its byte (C `m`). -/
def mask (bi : Nat) : UInt8 := 1 <<< UInt8.ofNat (bi % 8)

/-- Bit `bi` of a block of the free map is set. -/
def bit (d : Block) (bi : Nat) : Bool := d.get (bi / 8) &&& mask bi ≠ 0

/-- Set bit `bi` of a block of the free map. -/
def setBit (d : Block) (bi : Nat) : Block :=
  .ofFn fun i => if i = bi / 8 then d.get i ||| mask bi else d.get i

/-- Clear bit `bi` of a block of the free map. -/
def clearBit (d : Block) (bi : Nat) : Block :=
  .ofFn fun i => if i = bi / 8 then d.get i &&& ~~~ mask bi else d.get i

/-- Copy at most `n` characters of a string and fill up with zeroes. -/
def strncpy (s : List UInt8) (n : Nat) : List UInt8 :=
  let l := (s.takeWhile (· ≠ 0)).take n
  l ++ List.replicate (n - l.length) 0

/-- Two strings agree in their first `n` characters (C `strncmp`, compared with 0). -/
def strncmp : List UInt8 → List UInt8 → Nat → Bool
  | _, _, 0 => true
  | s, t, n + 1 =>
    if s.headD 0 ≠ t.headD 0 then false
    else if s.headD 0 = 0 then true
    else strncmp s.tail t.tail n

def namecmp (s t : List UInt8) : Bool := strncmp s t DIRSIZ

/-- The bytes of a directory entry (C `struct dirent`). -/
def dirent (inum : Nat) (name : List UInt8) : List UInt8 :=
  [.ofNat inum, .ofNat (inum / 256)] ++ strncpy name DIRSIZ

def direntInum (l : List UInt8) : Nat := (l.getD 0 0).toNat + 256 * (l.getD 1 0).toNat

abbrev direntSize : Nat := 16

/-- Bytes `o`, ..., `o + n - 1` of a block. -/
def slice (d : Block) (o n : Nat) : List UInt8 := (List.range n).map fun j => d.get (o + j)

/-- Store bytes at offset `o` of a block. -/
def paste (d : Block) (o : Nat) (l : List UInt8) : Block := .ofFn (Lib.putBytes d.get o l)

end Fs

end Xv6n
