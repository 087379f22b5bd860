import Xv6n.Fs.Action

/-!
# Blocks, inodes, directories and paths

The functions of `kernel/fs.c` as programs. A loop of the source is a recursion on the number of iterations
that are left; `uint` arithmetic that can wrap around is that of `UInt32`.
-/

namespace Xv6n.Fs
open Lib

def perform {β : Type} (e : Act β) : FsM β := Prog.perform e

def panic {α : Type} (p : Panic) : FsM α := .act (.panic p) nofun

def panicIf (c : Prop) [Decidable c] (p : Panic) : FsM Unit := if c then panic p else pure ()

def when (c : Prop) [Decidable c] (p : FsM Unit) : FsM Unit := if c then p else pure ()

def bread (b : Nat) : FsM Block := perform (.bread b)
def bset (b : Nat) (d : Block) : FsM Unit := perform (.bset b d)
def brelse (b : Nat) : FsM Unit := perform (.brelse b)
def logWrite (b : Nat) : FsM Unit := perform (.logWrite b)
def beginOp : FsM Unit := perform .beginOp
def endOp : FsM Unit := perform .endOp
def iget (dev inum : Nat) : FsM Slot := perform (.iget dev inum)
def getInode (ip : Slot) : FsM Inode := perform (.getInode ip)
def setInode (ip : Slot) (d : Dinode) : FsM Unit := perform (.setInode ip d)

section
variable [Superblock]

def bzero (b : Nat) : FsM Unit := do
  let _ ← bread b
  bset b .zero
  logWrite b
  brelse b

/-- The inner loop of `balloc`: the first clear bit from `bi` on. -/
def scanBits (d : Block) (b : Nat) : Nat → Nat → Option Nat
  | 0, _ => none
  | n + 1, bi =>
    if b + bi < size then
      if bit d bi then scanBits d b n (bi + 1) else some bi
    else
      none

/-- The outer loop of `balloc`: `n` blocks of the free map from that of block `b` on. -/
def ballocLoop : Nat → Nat → FsM Nat
  | 0, _ => return 0
  | n + 1, b => do
    let d ← bread (bblock b)
    match scanBits d b BPB 0 with
    | some bi =>
      bset (bblock b) (setBit d bi)
      logWrite (bblock b)
      brelse (bblock b)
      bzero (b + bi)
      return b + bi
    | none =>
      brelse (bblock b)
      ballocLoop n (b + BPB)

def balloc : FsM Nat := ballocLoop ((size + BPB - 1) / BPB) 0

def bfree (b : Nat) : FsM Unit := do
  let d ← bread (bblock b)
  if bit d (b % BPB) then
    bset (bblock b) (clearBit d (b % BPB))
    logWrite (bblock b)
    brelse (bblock b)
  else
    panic .freeBlock

/-- The loop of `ialloc`: `n` inodes from `inum` on. -/
def iallocLoop (dev : Nat) (type : Int16) : Nat → Nat → FsM (Option Slot)
  | 0, _ => return none
  | n + 1, inum => do
    let d ← bread (iblock inum)
    if (Dinode.load d (ioff inum)).type = 0 then
      bset (iblock inum) (Dinode.store d (ioff inum) { Dinode.zero with type := type })
      logWrite (iblock inum)
      brelse (iblock inum)
      let ip ← iget dev inum
      return some ip
    else
      brelse (iblock inum)
      iallocLoop dev type n (inum + 1)

def ialloc (dev : Nat) (type : Int16) : FsM (Option Slot) := iallocLoop dev type (ninodes - 1) 1

def iupdate (ip : Slot) : FsM Unit := do
  let x ← getInode ip
  let d ← bread (iblock x.inum)
  bset (iblock x.inum) (Dinode.store d (ioff x.inum) x.d)
  logWrite (iblock x.inum)
  brelse (iblock x.inum)

def ilock (ip : Slot) : FsM Unit := do
  let x ← getInode ip
  panicIf (x.ref < 1) .ilock
  perform (.acquiresleep ip)
  let x ← getInode ip
  when (x.valid = false) do
    let d ← bread (iblock x.inum)
    setInode ip (Dinode.load d (ioff x.inum))
    brelse (iblock x.inum)
    perform (.setValid ip true)
    panicIf ((Dinode.load d (ioff x.inum)).type = 0) .ilockNoType

def iunlock (i : Pid) (ip : Slot) : FsM Unit := do
  let x ← getInode ip
  panicIf (x.lock ≠ some i ∨ x.ref < 1) .iunlock
  perform (.releasesleep ip)

/-- The loop of `itrunc` over the direct blocks: `n` of them are left. -/
def itruncDirect (ip : Slot) : Nat → FsM Unit
  | 0 => return
  | n + 1 => do
    let x ← getInode ip
    let k := NDIRECT - (n + 1)
    when (x.d.addr k ≠ 0) do
      bfree (x.d.addr k)
      setInode ip (x.d.setAddr (Fin.ofNat _ k) 0)
    itruncDirect ip n

/-- The loop of `itrunc` over an indirect block. -/
def itruncIndirect (d : Block) : Nat → FsM Unit
  | 0 => return
  | n + 1 => do
    let a := d.le (4 * (NINDIRECT - (n + 1))) 4
    when (a ≠ 0) (bfree a)
    itruncIndirect d n

def itrunc (ip : Slot) : FsM Unit := do
  let x ← getInode ip
  perform (.note (.trunc x.inum))
  itruncDirect ip NDIRECT
  let x ← getInode ip
  let b := x.d.addr NDIRECT
  when (b ≠ 0) do
    let d ← bread b
    itruncIndirect d NINDIRECT
    brelse b
    bfree b
    setInode ip (x.d.setAddr (Fin.ofNat _ NDIRECT) 0)
  let x ← getInode ip
  setInode ip { x.d with size := 0 }
  iupdate ip

/-- Drop a reference to an inode, and free it with the last one if it has no links. -/
def iput (ip : Slot) : FsM Unit := do
  let last ← perform (.iputTest ip)
  when last do
    itrunc ip
    let x ← getInode ip
    setInode ip { x.d with type := 0 }
    iupdate ip
    perform (.setValid ip false)
    perform (.releasesleep ip)
    perform (.iputDrop ip)

def iunlockput (i : Pid) (ip : Slot) : FsM Unit := do
  iunlock i ip
  iput ip

/-- The block in slot `k` of an inode, allocated if there is none. -/
def bmapSlot (ip : Slot) (k : Fin (NDIRECT + 1)) : FsM Nat := do
  let x ← getInode ip
  if x.d.addr k = 0 then
    let addr ← balloc
    if addr = 0 then
      return 0
    else
      setInode ip (x.d.setAddr k addr)
      return addr
  else
    return x.d.addr k

/-- The address of block `bn` of a file, allocated if there is none; 0 if the disk is full. -/
def bmap (ip : Slot) (bn : Nat) : FsM Nat := do
  if bn < NDIRECT then
    bmapSlot ip (Fin.ofNat _ bn)
  else if bn - NDIRECT < NINDIRECT then
    let b ← bmapSlot ip (Fin.ofNat _ NDIRECT)
    if b = 0 then
      return 0
    else
      let d ← bread b
      let addr := d.le (4 * (bn - NDIRECT)) 4
      if addr = 0 then
        let addr ← balloc
        when (addr ≠ 0) do
          bset b (d.putLe (4 * (bn - NDIRECT)) 4 addr)
          logWrite b
        brelse b
        return addr
      else
        brelse b
        return addr
  else
    panic .bmap

/-- Where `readi` copies to: kernel memory, or an address of a process that has some pages mapped. -/
inductive Dst where
  | kernel
  | user (mapped : Nat → Bool) (addr : Nat)

/-- `n` bytes can be copied to offset `o` of the destination (C `either_copyout`). -/
def Dst.copyout : Dst → Nat → Nat → Bool
  | .kernel, _, _ => true
  | .user mapped addr, o, n => (List.range n).all fun j => mapped ((addr + o + j) % 2 ^ 64)

/-- Where `writei` copies from: kernel memory, or user memory of which some bytes are mapped. -/
inductive Src where
  | kernel (l : List UInt8)
  | user (mem : Nat → Option UInt8) (addr : Nat)

/-- The mapped bytes from an address on, at most `n`. -/
def readUser (mem : Nat → Option UInt8) : Nat → Nat → List UInt8
  | _, 0 => []
  | addr, n + 1 =>
    match mem (addr % 2 ^ 64) with
    | none => []
    | some c => c :: readUser mem (addr + 1) n

/-- The bytes that are copied from offset `o` of the source before a fault, at most `n`
    (C `either_copyin`). -/
def Src.copyin : Src → Nat → Nat → List UInt8
  | .kernel l, o, n => (l.drop o).take n
  | .user mem addr, o, n => readUser mem (addr + o) n

/-- The value of a `uint` as an `int`. -/
def toInt (n : Nat) : Int := (n : Int).bmod (2 ^ 32)

/-- The loop of `readi`; returns the value of `tot` and the bytes that were copied. -/
def readiLoop (ip : Slot) (dst : Dst) (n : Nat) : Nat → Nat → Nat → List UInt8 → FsM (Int × List UInt8)
  | 0, _, tot, l => return (toInt tot, l)
  | fuel + 1, off, tot, l => do
    if tot < n then
      let addr ← bmap ip (off / BSIZE)
      if addr = 0 then
        return (toInt tot, l)
      else
        let d ← bread addr
        let m := min (n - tot) (BSIZE - off % BSIZE)
        brelse addr
        if dst.copyout tot m then
          readiLoop ip dst n fuel (off + m) (tot + m) (l ++ slice d (off % BSIZE) m)
        else
          return (-1, l)
    else
      return (toInt tot, l)

def readi (ip : Slot) (dst : Dst) (off n : UInt32) : FsM (Int × List UInt8) := do
  let x ← getInode ip
  if off > x.d.size ∨ off + n < off then
    return (0, [])
  else
  let n := if off + n > x.d.size then x.d.size - off else n
  readiLoop ip dst n.toNat n.toNat off.toNat 0 []

/-- The loop of `writei`; returns `off` and `tot`. `inum` is only for the trace. -/
def writeiLoop (ip : Slot) (inum : Nat) (src : Src) (n : Nat) : Nat → Nat → Nat → FsM (Nat × Nat)
  | 0, off, tot => return (off, tot)
  | fuel + 1, off, tot => do
    if tot < n then
      let addr ← bmap ip (off / BSIZE)
      if addr = 0 then
        return (off, tot)
      else
        let _ ← bread addr
        let m := min (n - tot) (BSIZE - off % BSIZE)
        let ok ← perform (.copyin addr (off % BSIZE) (src.copyin tot m) m)
        if ok then
          logWrite addr
          perform (.note (.write inum (off / BSIZE) addr))
          brelse addr
          writeiLoop ip inum src n fuel (off + m) (tot + m)
        else
          brelse addr
          return (off, tot)
    else
      return (off, tot)

def writei (ip : Slot) (src : Src) (off n : UInt32) : FsM Int := do
  let x ← getInode ip
  if off > x.d.size ∨ off + n < off ∨ (off + n).toNat > MAXFILE * BSIZE then
    return -1
  else
  let (off, tot) ← writeiLoop ip x.inum src n.toNat n.toNat off.toNat 0
  let x ← getInode ip
  when (off > x.d.size.toNat) (setInode ip { x.d with size := .ofNat off })
  iupdate ip
  return toInt tot

/-- The loop of `dirlookup` from offset `off` on. -/
def dirlookupLoop (dp : Slot) (dev : Nat) (sz : Nat) (name : List UInt8) :
    Nat → Nat → FsM (Option (Slot × Nat))
  | 0, _ => return none
  | fuel + 1, off => do
    if off < sz then
      let (r, de) ← readi dp .kernel (.ofNat off) (.ofNat direntSize)
      panicIf (r ≠ (direntSize : Nat)) .dirlookupRead
      if direntInum de ≠ 0 ∧ namecmp name (de.drop 2) then
        let ip ← iget dev (direntInum de)
        return some (ip, off)
      else
        dirlookupLoop dp dev sz name fuel (off + direntSize)
    else
      return none

/-- Look for an entry in a directory; returns its inode and the offset of the entry. -/
def dirlookup (dp : Slot) (name : List UInt8) : FsM (Option (Slot × Nat)) := do
  let x ← getInode dp
  panicIf (x.d.type ≠ T_DIR) .dirlookupNotDir
  dirlookupLoop dp x.dev x.d.size.toNat name x.d.size.toNat 0

/-- The loop of `dirlink`: the offset of the first free entry from `off` on. -/
def dirlinkLoop (dp : Slot) (sz : Nat) : Nat → Nat → FsM Nat
  | 0, off => return off
  | fuel + 1, off => do
    if off < sz then
      let (r, de) ← readi dp .kernel (.ofNat off) (.ofNat direntSize)
      panicIf (r ≠ (direntSize : Nat)) .dirlinkRead
      if direntInum de = 0 then
        return off
      else
        dirlinkLoop dp sz fuel (off + direntSize)
    else
      return off

def dirlink (dp : Slot) (name : List UInt8) (inum : Nat) : FsM Bool := do
  match ← dirlookup dp name with
  | some (ip, _) =>
    iput ip
    return false
  | none =>
    let x ← getInode dp
    let off ← dirlinkLoop dp x.d.size.toNat x.d.size.toNat 0
    let r ← writei dp (.kernel (dirent inum name)) (.ofNat off) (.ofNat direntSize)
    return r = (direntSize : Nat)

/-- The next element of a path, truncated, and the rest of the path. -/
def skipelem (path : List UInt8) : Option (List UInt8 × List UInt8) :=
  match path.dropWhile (· = '/'.toUInt8) with
  | [] => none
  | c :: path =>
    let elem := (c :: path).takeWhile (· ≠ '/'.toUInt8)
    some (elem.take DIRSIZ, ((c :: path).dropWhile (· ≠ '/'.toUInt8)).dropWhile (· = '/'.toUInt8))

/-- The loop of `namex`; `name` is the last element copied. -/
def namexLoop (i : Pid) (nameiparent : Bool) :
    Nat → Slot → List UInt8 → List UInt8 → FsM (Option (Slot × List UInt8))
  | 0, _, _, _ => return none
  | fuel + 1, ip, path, name => do
    match skipelem path with
    | none =>
      if nameiparent then
        iput ip
        return none
      else
        return some (ip, name)
    | some (name, path) =>
      ilock ip
      let x ← getInode ip
      if x.d.type ≠ T_DIR then
        iunlockput i ip
        return none
      else if nameiparent ∧ path = [] then
        iunlock i ip
        return some (ip, name)
      else
        match ← dirlookup ip name with
        | none =>
          iunlockput i ip
          return none
        | some (next, _) =>
          iunlockput i ip
          namexLoop i nameiparent fuel next path name

def namexStart (path : List UInt8) : FsM Slot :=
  if path.head? = some '/'.toUInt8 then iget ROOTDEV ROOTINO else perform .idupCwd

/-- Look up a path; with `nameiparent` stop at the parent of the last element. -/
def namex (i : Pid) (path : List UInt8) (nameiparent : Bool) : FsM (Option (Slot × List UInt8)) := do
  let ip ← namexStart path
  namexLoop i nameiparent (path.length + 1) ip path []

def namei (i : Pid) (path : List UInt8) : FsM (Option Slot) := do
  match ← namex i path false with
  | none => return none
  | some (ip, _) => return some ip

def nameiparent (i : Pid) (path : List UInt8) : FsM (Option (Slot × List UInt8)) := namex i path true

end

end Xv6n.Fs
