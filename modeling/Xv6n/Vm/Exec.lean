import Xv6n.Vm.Proc

/-!
# Loading programs

`kernel/exec.c` and `sys_exec`. The file is the list of its bytes, and `readi` returns the bytes that
the file system's `readi` copies to kernel memory. `fs` maps a path to the file that `namei` finds.
-/

namespace Xv6n

/-- The bytes that `readi` reads from a file with 32-bit offset and length. -/
def readi (file : List UInt8) (off n : Nat) : List UInt8 :=
  if file.length < off ∨ (off + n) % 2 ^ 32 < off then [] else (file.drop off).take n

/-- The little-endian number at offset `o` of a list of bytes. -/
def getLe (l : List UInt8) (o k : Nat) : Nat := Lib.le (fun i => l.getD i 0) o k

abbrev ELF_MAGIC : Nat := 0x464C457F
abbrev ELF_PROG_LOAD : Nat := 1

/-- The part of C `struct elfhdr` that `exec` reads. -/
structure ElfHdr where
  magic : Nat
  entry : Nat
  phoff : Nat
  phnum : Nat

/-- The size of C `struct elfhdr`. -/
def ElfHdr.size : Nat := 64

def ElfHdr.ofBytes (l : List UInt8) : ElfHdr :=
  { magic := getLe l 0 4, entry := getLe l 24 8, phoff := getLe l 32 8, phnum := getLe l 56 2 }

/-- The part of C `struct proghdr` that `exec` reads. -/
structure ProgHdr where
  type : Nat
  flags : Nat
  off : Nat
  vaddr : Nat
  filesz : Nat
  memsz : Nat

/-- The size of C `struct proghdr`. -/
def ProgHdr.size : Nat := 56

def ProgHdr.ofBytes (l : List UInt8) : ProgHdr :=
  { type := getLe l 0 4, flags := getLe l 4 4, off := getLe l 8 8, vaddr := getLe l 16 8,
    filesz := getLe l 32 8, memsz := getLe l 40 8 }

def flags2perm (flags : Nat) : Nat :=
  (if flags &&& 1 ≠ 0 then PTE_X else 0) ||| (if flags &&& 2 ≠ 0 then PTE_W else 0)

/-- What a call has open in the file system: `log.outstanding`, and the references to the inode that it
    works on and whether it holds the lock of that inode. -/
structure FileOp where
  outstanding : Nat
  ref : Nat
  locked : Bool
deriving DecidableEq, Repr

/-- C `begin_op`. -/
def FileOp.beginOp (op : FileOp) : FileOp := { op with outstanding := op.outstanding + 1 }

/-- C `end_op`. -/
def FileOp.endOp (op : FileOp) : FileOp := { op with outstanding := op.outstanding - 1 }

/-- The reference that C `namei` returns. -/
def FileOp.iget (op : FileOp) : FileOp := { op with ref := op.ref + 1 }

def FileOp.ilock (op : FileOp) : KernM FileOp := do
  if op.ref = 0 then
    throw .ilock
  return { op with locked := true }

def FileOp.iunlockput (op : FileOp) : KernM FileOp := do
  if op.locked = false ∨ op.ref = 0 then
    throw .iunlock
  return { op with locked := false, ref := op.ref - 1 }

/-- The name that `exec` saves: the last element of the path, at most 15 bytes of it. -/
def execName (path : List UInt8) : List UInt8 :=
  (((path.takeWhile (· ≠ 0)).reverse.takeWhile (· ≠ '/'.toUInt8)).reverse).take 15

/-- Subtraction of `uint64`. -/
def sub64 (a b : Nat) : Nat := (a + 2 ^ 64 - b % 2 ^ 64) % 2 ^ 64

namespace KernM
open Lib
variable [Layout]

/-- The loop of `loadseg`: `n` pages from page `k` of the segment on. -/
def loadsegLoop (pagetable va : Nat) (file : List UInt8) (offset sz : Nat) : Nat → Nat → KernM Bool
  | 0, _ => return true
  | n + 1, k => do
    match ← walkaddr pagetable ((va + k * PGSIZE) % 2 ^ 64) with
    | none => throw .loadseg
    | some pa =>
      let len := min (sz - k * PGSIZE) PGSIZE
      let l := readi file ((offset + k * PGSIZE) % 2 ^ 32) len
      putBytes pa l
      if l.length = len then
        loadsegLoop pagetable va file offset sz n (k + 1)
      else
        return false

def loadseg (pagetable va : Nat) (file : List UInt8) (offset sz : Nat) : KernM Bool :=
  loadsegLoop pagetable va file offset sz ((sz + PGSIZE - 1) / PGSIZE) 0

/-- The loop of `exec` over `n` program headers; returns the size reached and whether all is loaded. -/
def loadLoop (pagetable : Nat) (file : List UInt8) : Nat → Nat → Nat → KernM (Nat × Bool)
  | 0, _, sz => return (sz, true)
  | n + 1, off, sz => do
    let l := readi file off ProgHdr.size
    if l.length ≠ ProgHdr.size then
      return (sz, false)
    let ph := ProgHdr.ofBytes l
    if ph.type ≠ ELF_PROG_LOAD then
      loadLoop pagetable file n ((off + ProgHdr.size) % 2 ^ 32) sz
    else if ph.memsz < ph.filesz then
      return (sz, false)
    else if (ph.vaddr + ph.memsz) % 2 ^ 64 < ph.vaddr then
      return (sz, false)
    else if ph.vaddr % PGSIZE ≠ 0 then
      return (sz, false)
    else
      let sz1 ← uvmalloc pagetable sz ((ph.vaddr + ph.memsz) % 2 ^ 64) (flags2perm ph.flags)
      if sz1 = 0 then
        return (sz, false)
      let ok ← loadseg pagetable ph.vaddr file (ph.off % 2 ^ 32) (ph.filesz % 2 ^ 32)
      if ok then
        loadLoop pagetable file n ((off + ProgHdr.size) % 2 ^ 32) sz1
      else
        return (sz1, false)

/-- The string in a page, with its null (what `strlen` and `copyout` read). -/
def getStr (a : Nat) : KernM (List UInt8) := do
  let l ← getBytes a PGSIZE
  return l.takeWhile (· ≠ 0) ++ [0]

/-- Push the argument strings; returns the stack pointer and the pointers pushed, or nothing if they
    do not fit (the loop of `exec` over `argv`). -/
def pushLoop (pagetable stackbase : Nat) :
    List Nat → Nat → List Nat → KernM (Option (Nat × List Nat))
  | [], sp, ustack => return some (sp, ustack)
  | arg :: argv, sp, ustack => do
    if MAXARG ≤ ustack.length then
      return none
    let str ← getStr arg
    let sp := sub64 sp str.length
    let sp := sub64 sp (sp % 16)
    if sp < stackbase then
      return none
    let ok ← copyout pagetable sp str
    if ok then
      pushLoop pagetable stackbase argv sp (ustack ++ [sp])
    else
      return none

/-- The little-endian bytes of an array of `uint64`. -/
def words (l : List Nat) : List UInt8 :=
  l.flatMap fun n => (List.range 8).map fun k => UInt8.ofNat (n / 256 ^ k)

/-- The part of `exec` after the program is loaded: the stack and the arguments. Returns the new
    size, and the stack pointer if everything fits. -/
def execStack (pagetable sz : Nat) (argv : List Nat) : KernM (Nat × Option Nat) := do
  let sz := pgRoundUp sz
  let sz1 ← uvmalloc pagetable sz (sz + 2 * PGSIZE) PTE_W
  if sz1 = 0 then
    return (sz, none)
  uvmclear pagetable (sz1 - 2 * PGSIZE)
  let stackbase := sz1 - PGSIZE
  match ← pushLoop pagetable stackbase argv sz1 [] with
  | none => return (sz1, none)
  | some (sp, ustack) =>
    let sp := sub64 sp ((ustack.length + 1) * 8)
    let sp := sub64 sp (sp % 16)
    if sp < stackbase then
      return (sz1, none)
    let ok ← copyout pagetable sp (words (ustack ++ [0]))
    return (sz1, if ok then some sp else none)

/-- Replace the memory of a process by a program. `ip` is the file that `namei` finds. -/
def exec (i : Fin NPROC) (path : List UInt8) (ip : Option (List UInt8)) (argv : List Nat) (op : FileOp) :
    KernM (Int × FileOp) := do
  let op := op.beginOp
  match ip with
  | none => return (-1, op.endOp)
  | some file =>
    let op ← op.iget.ilock
    let l := readi file 0 ElfHdr.size
    if l.length ≠ ElfHdr.size then
      let op ← op.iunlockput
      return (-1, op.endOp)
    let elf := ElfHdr.ofBytes l
    if elf.magic ≠ ELF_MAGIC then
      let op ← op.iunlockput
      return (-1, op.endOp)
    let p := (← get).proc i
    match ← procPagetable p.trapframe with
    | none =>
      let op ← op.iunlockput
      return (-1, op.endOp)
    | some pagetable =>
      let (sz, ok) ← loadLoop pagetable file elf.phnum (elf.phoff % 2 ^ 32) 0
      if ok then
        let op ← op.iunlockput
        let op := op.endOp
        match ← execStack pagetable sz argv with
        | (sz, none) =>
          procFreepagetable pagetable sz
          return (-1, op)
        | (sz, some sp) =>
          store64 (tfA1 p.trapframe) sp
          setProc i fun p => { p with name := execName path, pagetable := pagetable, sz := sz }
          store64 (tfEpc p.trapframe) elf.entry
          store64 (tfSp p.trapframe) sp
          procFreepagetable p.pagetable p.sz
          return (argv.length, op)
      else
        procFreepagetable pagetable sz
        let op ← op.iunlockput
        return (-1, op.endOp)

/-- Read a `uint64` of user memory. -/
def fetchaddr (i : Fin NPROC) (addr : Nat) : KernM (Option Nat) := do
  let p := (← get).proc i
  if p.sz ≤ addr ∨ p.sz < (addr + 8) % 2 ^ 64 then
    return none
  let (l, ok) ← copyin p.pagetable addr 8
  return if ok then some (getLe l 0 8) else none

/-- The loop of `sys_exec` that copies the arguments, each into a page of its own; returns the pages
    and whether the list is complete. -/
def argvLoop (i : Fin NPROC) (uargv : Nat) : Nat → Nat → List Nat → KernM (List Nat × Bool)
  | 0, _, argv => return (argv, false)
  | n + 1, k, argv => do
    match ← fetchaddr i ((uargv + 8 * k) % 2 ^ 64) with
    | none => return (argv, false)
    | some uarg =>
      if uarg = 0 then
        return (argv, true)
      match ← alloc with
      | none => return (argv, false)
      | some page =>
        let (str, ok) ← copyinstr ((← get).proc i).pagetable uarg PGSIZE
        putBytes page str
        if ok then
          argvLoop i uargv n (k + 1) (argv ++ [page])
        else
          return (argv ++ [page], false)

/-- Run a program (C `sys_exec`). -/
def sysExec (i : Fin NPROC) (upath uargv : Nat) (fs : List UInt8 → Option (List UInt8)) :
    KernM Int := do
  let (path, ok) ← copyinstr ((← get).proc i).pagetable upath MAXPATH
  if ok then
    let (argv, ok) ← argvLoop i uargv MAXARG 0 []
    let (ret, _) ← if ok then exec i path (fs path) argv ⟨0, 0, false⟩ else pure (-1, ⟨0, 0, false⟩)
    for page in argv do
      kfree page
    return ret
  else
    return -1

end KernM

end Xv6n
