import Xv6n.Fs.Format

/-!
# Building a file system image

`mkfs/mkfs.c`: the image is an array of blocks, of which the image file has the first `nsect`. A read beyond the end
of the file ends the program, a write extends it. A sector is found by `lseek` with a product of 32 bits.

An input file is its path and what the host's `read`s return for it, or nothing if it cannot be opened.
`inodes`, `blocks` and `wrote` are not part of the program: the inodes and blocks that it has allocated, and the
sectors that it has written. The host's own failures (a full disk) are left out.
-/

namespace Xv6n.Mkfs
open Fs

/-- C `NINODES`. -/
abbrev NINODES : Nat := 200

/-- C `FSSIZE`. -/
abbrev FSSIZE : Nat := 2000

abbrev nbitmap : Nat := FSSIZE / (BSIZE * 8) + 1
abbrev ninodeblocks : Nat := NINODES / IPB + 1
abbrev nlog : Nat := LOGSIZE
abbrev nmeta : Nat := 2 + nlog + ninodeblocks + nbitmap
abbrev nblocks : Nat := FSSIZE - nmeta

/-- C `FSMAGIC`. -/
abbrev FSMAGIC : Nat := 0x10203040

/-- The superblock (C `sb`). -/
@[reducible] def superblock : Superblock where
  size := FSSIZE
  ninodes := NINODES
  nlog := nlog
  logstart := 2
  inodestart := 2 + nlog
  bmapstart := 2 + nlog + ninodeblocks
  datastart := nmeta
  log_le := by decide
  inode_le := by decide
  bmap_le := by decide
  data_le := by decide
  size_le := by decide
  size_lt := by decide
  root_lt := by decide
  ninodes_le := by decide

attribute [local instance] superblock

/-- How the program ends before its time. -/
inductive Abort where
  | die
  | assert
deriving DecidableEq

structure State where
  image : Nat → Block
  nsect : Nat
  freeinode : Nat
  freeblock : Nat
  inodes : List Nat
  blocks : List Nat
  wrote : List Nat

abbrev MkfsM := EStateM Abort State

/-- C `assert`. -/
def assert (p : Prop) [Decidable p] : MkfsM PUnit := if p then return else throw .assert

/-- Where the image file is read and written for sector `sec`. -/
def sector (sec : Nat) : Nat := sec * BSIZE % 2 ^ 32 / BSIZE

def wsect (sec : Nat) (buf : Block) : MkfsM PUnit := modify fun s =>
  { s with
    image := Function.update s.image (sector sec) buf
    nsect := max s.nsect (sector sec + 1)
    wrote := sector sec :: s.wrote }

def rsect (sec : Nat) : MkfsM Block := do
  let s ← get
  if sector sec < s.nsect then return s.image (sector sec) else throw .die

def winode (inum : Nat) (din : Dinode) : MkfsM PUnit := do
  let buf ← rsect (iblock inum)
  wsect (iblock inum) (Dinode.store buf (ioff inum) din)

def rinode (inum : Nat) : MkfsM Dinode := do
  let buf ← rsect (iblock inum)
  return Dinode.load buf (ioff inum)

def ialloc (type : Int16) : MkfsM Nat := do
  let inum := (← get).freeinode
  modify fun s => { s with freeinode := s.freeinode + 1, inodes := inum :: s.inodes }
  winode inum ⟨type, 0, 0, 1, 0, fun _ => 0⟩
  return inum

/-- The free map with the first `used` blocks marked. -/
def bitmap (used : Nat) : Block := (List.range used).foldl setBit .zero

def balloc (used : Nat) : MkfsM PUnit := do
  assert (used < BSIZE * 8)
  wsect bmapstart (bitmap used)

/-- The next free block (C `freeblock++`). -/
def nextBlock : MkfsM Nat := do
  let b := (← get).freeblock
  modify fun s => { s with freeblock := s.freeblock + 1, blocks := b :: s.blocks }
  return b

/-- Give an inode a block in slot `k` if it has none there. -/
def setSlot (din : Dinode) (k : Fin (NDIRECT + 1)) : MkfsM Dinode := do
  if din.addr k = 0 then
    let b ← nextBlock
    return din.setAddr k b
  else return din

/-- The block in entry `j` of an indirect block, which gets one if it has none. -/
def entryBlock (addr j : Nat) : MkfsM Nat := do
  let indirect ← rsect addr
  if indirect.le (4 * j) 4 = 0 then
    let b ← nextBlock
    wsect addr (indirect.putLe (4 * j) 4 b)
    return b
  else return indirect.le (4 * j) 4

/-- The block for block `fbn` of a file. -/
def fileBlock (din : Dinode) (fbn : Nat) : MkfsM (Dinode × Nat) := do
  if h : fbn < NDIRECT then
    let din ← setSlot din ⟨fbn, Nat.lt_succ_of_lt h⟩
    return (din, din.addr fbn)
  else
    let din ← setSlot din (Fin.last NDIRECT)
    let x ← entryBlock (din.addr NDIRECT) (fbn - NDIRECT)
    return (din, x)

/-- The loop of C `iappend`, for at most `fuel` bytes. -/
def iappendLoop : Nat → Dinode → Nat → List UInt8 → MkfsM (Dinode × Nat)
  | 0, din, off, _ => return (din, off)
  | fuel + 1, din, off, p => do
    if p = [] then return (din, off)
    else
      let fbn := off / BSIZE
      assert (fbn < MAXFILE)
      let (din, x) ← fileBlock din fbn
      let n1 := min p.length ((fbn + 1) * BSIZE - off)
      let buf ← rsect x
      wsect x (paste buf (off - fbn * BSIZE) (p.take n1))
      iappendLoop fuel din (off + n1) (p.drop n1)

def iappend (inum : Nat) (p : List UInt8) : MkfsM PUnit := do
  let din ← rinode inum
  let (din, off) ← iappendLoop p.length din din.size.toNat p
  winode inum { din with size := UInt32.ofNat off }

/-- Append what the host's `read`s return. -/
def iappends (inum : Nat) : List (List UInt8) → MkfsM PUnit
  | [] => return
  | chunk :: chunks => do
    iappend inum chunk
    iappends inum chunks

/-- An input file; a `read` returns at most a block. -/
structure HostFile where
  path : List UInt8
  chunks : Option (List (List UInt8))
  short : ∀ l ∈ chunks, ∀ chunk ∈ l, chunk ≠ [] ∧ chunk.length ≤ BSIZE

/-- The path without the leading `user/`. -/
def shortname (path : List UInt8) : List UInt8 :=
  if ['u', 's', 'e', 'r', '/'].map Char.toUInt8 <+: path then path.drop 5 else path

/-- The name in the image, without a leading `_`. -/
def storedName (path : List UInt8) : List UInt8 :=
  if (shortname path).head? = some '_'.toUInt8 then (shortname path).tail else shortname path

/-- Add an input file (the loop body of C `main`). -/
def addFile (rootino : Nat) (f : HostFile) : MkfsM PUnit := do
  assert ('/'.toUInt8 ∉ shortname f.path)
  match f.chunks with
  | none => throw .die
  | some chunks =>
    let inum ← ialloc T_FILE
    iappend rootino (dirent inum (storedName f.path))
    iappends inum chunks

def addFiles (rootino : Nat) : List HostFile → MkfsM PUnit
  | [] => return
  | f :: files => do
    addFile rootino f
    addFiles rootino files

def sbBlock : Block :=
  ([FSMAGIC, FSSIZE, nblocks, NINODES, nlog, 2, 2 + nlog, 2 + nlog + ninodeblocks].foldl
    (fun (b, o) v => (b.putLe o 4 v, o + 4)) (Block.zero, 0)).1

def clear : Nat → MkfsM PUnit
  | 0 => return
  | n + 1 => do
    clear n
    wsect n .zero

def fixRoot (rootino : Nat) : MkfsM PUnit := do
  let din ← rinode rootino
  let off := (din.size.toNat / BSIZE + 1) * BSIZE
  winode rootino { din with size := UInt32.ofNat off }

/-- C `main`, for an image file that can be opened. -/
def main (files : List HostFile) : MkfsM PUnit := do
  clear FSSIZE
  wsect 1 sbBlock
  let rootino ← ialloc T_DIR
  assert (rootino = ROOTINO)
  iappend rootino (dirent rootino ['.'.toUInt8])
  iappend rootino (dirent rootino ['.'.toUInt8, '.'.toUInt8])
  addFiles rootino files
  fixRoot rootino
  balloc (← get).freeblock

def init : State := ⟨fun _ => .zero, 0, 1, nmeta, [], [], []⟩

def mkfs (files : List HostFile) : EStateM.Result Abort State PUnit := main files init

end Xv6n.Mkfs
