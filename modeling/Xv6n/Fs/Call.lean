import Xv6n.Fs.Inode
import Xv6n.Vm.Exec

/-!
# Open files and system calls

The functions of `kernel/file.c` and `kernel/sysfile.c`, and the file-system part of `exec`, `fork` and
`exit`, as programs. What they learn from the rest of the kernel is an argument: a path is what `argstr`
returns, a user buffer is the memory that `copyin` or `copyout` finds mapped, `other` is what a pipe or a
device returns, and memory management succeeds or fails as `Exec` says.
-/

namespace Xv6n.Fs
open Lib

abbrev O_RDONLY : UInt32 := 0x000
abbrev O_WRONLY : UInt32 := 0x001
abbrev O_RDWR : UInt32 := 0x002
abbrev O_CREATE : UInt32 := 0x200
abbrev O_TRUNC : UInt32 := 0x400

/-- A path as `argstr` returns it, or nothing if it fails. -/
abbrev Path : Type := Option (List UInt8)

def devsw (major : Int16) : Bool := major = 1

section
variable [Superblock]

def iputPtr : Option Slot → FsM Unit
  | some ip => iput ip
  | none => return

def fileclose (f : Fin NFILE) : FsM Unit := do
  match ← perform (.filecloseTest f) with
  | none => return
  | some ff =>
    when ff.onInode do
      beginOp
      iputPtr ff.ip
      endOp

/-- Read from a file; `other` is what `piperead` or the device returns. -/
def fileread (i : Pid) (f : Fin NFILE) (dst : Dst) (n : Int32) (other : Int) : FsM Int := do
  let x ← perform (.getFile f)
  if x.readable = false then
    return -1
  else match x.type, x.ip with
  | .pipe, _ => return other
  | .device, _ => return if 0 ≤ x.major ∧ x.major.toInt < NDEV ∧ devsw x.major then other else -1
  | .inode, some ip =>
    ilock ip
    let x ← perform (.getFile f)
    let (r, _) ← readi ip dst x.off n.toUInt32
    when (r > 0) (perform (.addOff f (.ofNat r.toNat)))
    iunlock i ip
    return r
  | _, _ => panic .fileread

/-- The most that `filewrite` writes in one transaction (C `max`). -/
def writeMax : Nat := (MAXOPBLOCKS - 1 - 1 - 2) / 2 * BSIZE

/-- Part `o` of a source. -/
def Src.drop : Src → Nat → Src
  | .kernel l, o => .kernel (l.drop o)
  | .user mem addr, o => .user mem (addr + o)

/-- The loop of `filewrite`; returns the number of bytes written. -/
def filewriteLoop (i : Pid) (f : Fin NFILE) (ip : Slot) (src : Src) (n : Nat) : Nat → Nat → FsM Nat
  | 0, k => return k
  | fuel + 1, k => do
    if k < n then
      let m := min (n - k) writeMax
      beginOp
      ilock ip
      let x ← perform (.getFile f)
      let r ← writei ip (src.drop k) x.off (.ofNat m)
      when (r > 0) (perform (.addOff f (.ofNat r.toNat)))
      iunlock i ip
      endOp
      if r = (m : Int) then
        filewriteLoop i f ip src n fuel (k + m)
      else
        return k
    else
      return k

/-- Write to a file. -/
def filewrite (i : Pid) (f : Fin NFILE) (src : Src) (n : Int32) (other : Int) : FsM Int := do
  let x ← perform (.getFile f)
  if x.writable = false then
    return -1
  else match x.type, x.ip with
  | .pipe, _ => return other
  | .device, _ => return if 0 ≤ x.major ∧ x.major.toInt < NDEV ∧ devsw x.major then other else -1
  | .inode, some ip =>
    let k ← filewriteLoop i f ip src n.toInt.toNat n.toInt.toNat 0
    return if (k : Int) = n.toInt then n.toInt else -1
  | _, _ => panic .filewrite

/-- Metadata of a file; `ok` says whether `copyout` succeeds. -/
def filestat (i : Pid) (f : Fin NFILE) (ok : Bool) : FsM Int := do
  let x ← perform (.getFile f)
  match x.ip with
  | some ip =>
    if x.onInode then
      ilock ip
      let _ ← getInode ip
      iunlock i ip
      return if ok then 0 else -1
    else
      return -1
  | none => return -1

def argfd (fd : Int) : FsM (Option (Fin NOFILE × Fin NFILE)) := do
  if h : 0 ≤ fd ∧ fd < NOFILE then
    let k : Fin NOFILE := ⟨fd.toNat, toNat_lt_NOFILE h⟩
    match ← perform (.getOfile k) with
    | none => return none
    | some f => return some (k, f)
  else
    return none

def sysDup (fd : Int) : FsM Int := do
  match ← argfd fd with
  | none => return -1
  | some (_, f) =>
    match ← perform (.fdalloc f) with
    | none => return -1
    | some fd =>
      perform (.filedup f)
      return fd

def sysRead (i : Pid) (fd : Int) (dst : Dst) (n : Int32) (other : Int) : FsM Int := do
  match ← argfd fd with
  | none => return -1
  | some (_, f) => fileread i f dst n other

def sysWrite (i : Pid) (fd : Int) (src : Src) (n : Int32) (other : Int) : FsM Int := do
  match ← argfd fd with
  | none => return -1
  | some (_, f) => filewrite i f src n other

def sysClose (fd : Int) : FsM Int := do
  match ← argfd fd with
  | none => return -1
  | some (k, f) =>
    perform (.clearOfile k)
    fileclose f
    return 0

def sysFstat (i : Pid) (fd : Int) (ok : Bool) : FsM Int := do
  match ← argfd fd with
  | none => return -1
  | some (_, f) => filestat i f ok

def endFail : FsM Int := do
  endOp
  return -1

/-- The label `bad` of `sys_link`. -/
def linkBad (i : Pid) (ip : Slot) : FsM Int := do
  ilock ip
  let x ← getInode ip
  setInode ip { x.d with nlink := x.d.nlink - 1 }
  iupdate ip
  iunlockput i ip
  endFail

/-- Enter the inode `x` into the directory `dx`, on the same device. -/
def linkEntry (dp : Slot) (dx x : Inode) (name : List UInt8) : FsM Bool :=
  if dx.dev ≠ x.dev then return false else dirlink dp name x.inum

/-- Create the path `new` as a link to the same inode as `old` (C `sys_link`). -/
def sysLink (i : Pid) (old new : Path) : FsM Int := do
  match old, new with
  | some old, some new =>
    beginOp
    match ← namei i old with
    | none => endFail
    | some ip =>
      ilock ip
      let x ← getInode ip
      if x.d.type = T_DIR then
        iunlockput i ip
        endFail
      else
        setInode ip { x.d with nlink := x.d.nlink + 1 }
        iupdate ip
        iunlock i ip
        match ← nameiparent i new with
        | none => linkBad i ip
        | some (dp, name) =>
          ilock dp
          let dx ← getInode dp
          let x ← getInode ip
          let ok ← linkEntry dp dx x name
          if ok then
            iunlockput i dp
            iput ip
            endOp
            return 0
          else
            iunlockput i dp
            linkBad i ip
  | _, _ => return -1

/-- The loop of `isdirempty` from offset `off` on. -/
def isdiremptyLoop (dp : Slot) (sz : Nat) : Nat → Nat → FsM Bool
  | 0, _ => return true
  | fuel + 1, off => do
    if off < sz then
      let (r, de) ← readi dp .kernel (.ofNat off) (.ofNat direntSize)
      panicIf (r ≠ (direntSize : Nat)) .isdirempty
      if direntInum de ≠ 0 then
        return false
      else
        isdiremptyLoop dp sz fuel (off + direntSize)
    else
      return true

/-- The directory is empty except for `.` and `..`. -/
def isdirempty (dp : Slot) : FsM Bool := do
  let x ← getInode dp
  isdiremptyLoop dp x.d.size.toNat x.d.size.toNat (2 * direntSize)

/-- The names `.` and `..`. -/
def dot : List UInt8 := ['.'.toUInt8]

@[inherit_doc dot]
def dotdot : List UInt8 := ['.'.toUInt8, '.'.toUInt8]

/-- The label `bad` of `sys_unlink`. -/
def unlinkBad (i : Pid) (dp : Slot) : FsM Int := do
  iunlockput i dp
  endFail

/-- The inode `x` can be unlinked. -/
def unlinkable (ip : Slot) (x : Inode) : FsM Bool :=
  if x.d.type = T_DIR then isdirempty ip else return true

/-- Remove a name (C `sys_unlink`). -/
def sysUnlink (i : Pid) (path : Path) : FsM Int := do
  match path with
  | none => return -1
  | some path =>
    beginOp
    match ← nameiparent i path with
    | none => endFail
    | some (dp, name) =>
      ilock dp
      if namecmp name dot ∨ namecmp name dotdot then
        unlinkBad i dp
      else
        match ← dirlookup dp name with
        | none => unlinkBad i dp
        | some (ip, off) =>
          ilock ip
          let x ← getInode ip
          panicIf (x.d.nlink < 1) .unlinkNlink
          let ok ← unlinkable ip x
          if ok then
            let r ← writei dp (.kernel (List.replicate direntSize 0)) (.ofNat off) (.ofNat direntSize)
            panicIf (r ≠ (direntSize : Nat)) .unlinkWritei
            when (x.d.type = T_DIR) do
              let dx ← getInode dp
              setInode dp { dx.d with nlink := dx.d.nlink - 1 }
              iupdate dp
            iunlockput i dp
            let x ← getInode ip
            setInode ip { x.d with nlink := x.d.nlink - 1 }
            iupdate ip
            iunlockput i ip
            endOp
            return 0
          else
            iunlockput i ip
            unlinkBad i dp

/-- The label `fail` of `create`. -/
def createFail (i : Pid) (dp ip : Slot) : FsM (Option Slot) := do
  let x ← getInode ip
  setInode ip { x.d with nlink := 0 }
  iupdate ip
  iunlockput i ip
  iunlockput i dp
  return none

/-- Create the entries `.` and `..` of a new directory. -/
def createDots (ip : Slot) (inum parent : Nat) : FsM Bool := do
  let ok ← dirlink ip dot inum
  if ok then
    dirlink ip dotdot parent
  else
    return false

def createEntries (dp ip : Slot) (name : List UInt8) (type : Int16) (inum parent : Nat) : FsM Bool := do
  if type = T_DIR then
    let ok ← createDots ip inum parent
    if ok then
      dirlink dp name inum
    else
      return false
  else
    dirlink dp name inum

/-- Make the new inode `ip` an entry of `dp` (the second half of C `create`). -/
def createLink (i : Pid) (dp ip : Slot) (name : List UInt8) (type major minor : Int16) :
    FsM (Option Slot) := do
  ilock ip
  let x ← getInode ip
  setInode ip { x.d with major := major, minor := minor, nlink := 1 }
  iupdate ip
  let dx ← getInode dp
  let ok ← createEntries dp ip name type x.inum dx.inum
  if ok then
    when (type = T_DIR) do
      let dx ← getInode dp
      setInode dp { dx.d with nlink := dx.d.nlink + 1 }
      iupdate dp
    iunlockput i dp
    return some ip
  else
    createFail i dp ip

/-- Create a file, directory or device, or find an existing file; returns a locked inode. -/
def create (i : Pid) (path : List UInt8) (type major minor : Int16) : FsM (Option Slot) := do
  match ← nameiparent i path with
  | none => return none
  | some (dp, name) =>
    ilock dp
    match ← dirlookup dp name with
    | some (ip, _) =>
      iunlockput i dp
      ilock ip
      let x ← getInode ip
      if type = T_FILE ∧ (x.d.type = T_FILE ∨ x.d.type = T_DEVICE) then
        return some ip
      else
        iunlockput i ip
        return none
    | none =>
      let dx ← getInode dp
      match ← ialloc dx.dev type with
      | none =>
        iunlockput i dp
        return none
      | some ip => createLink i dp ip name type major minor

def putFail (i : Pid) (ip : Slot) : FsM Int := do
  iunlockput i ip
  endFail

/-- The part of `sys_open` that opens a locked inode. -/
def openInode (i : Pid) (ip : Slot) (omode : UInt32) : FsM Int := do
  let x ← getInode ip
  if x.d.type = T_DEVICE ∧ (x.d.major < 0 ∨ NDEV ≤ x.d.major.toInt) then
    putFail i ip
  else
    match ← perform .filealloc with
    | none => putFail i ip
    | some f =>
      match ← perform (.fdalloc f) with
      | none =>
        fileclose f
        putFail i ip
      | some fd =>
        perform (.openFile f ip (if x.d.type = T_DEVICE then some x.d.major else none)
          (omode &&& O_WRONLY = 0) (omode &&& O_WRONLY ≠ 0 ∨ omode &&& O_RDWR ≠ 0))
        when (omode &&& O_TRUNC ≠ 0 ∧ x.d.type = T_FILE) (itrunc ip)
        iunlock i ip
        endOp
        return fd

/-- Open a file (C `sys_open`). -/
def sysOpen (i : Pid) (path : Path) (omode : UInt32) : FsM Int := do
  match path with
  | none => return -1
  | some path =>
    beginOp
    if omode &&& O_CREATE ≠ 0 then
      match ← create i path T_FILE 0 0 with
      | none => endFail
      | some ip => openInode i ip omode
    else
      match ← namei i path with
      | none => endFail
      | some ip =>
        ilock ip
        let x ← getInode ip
        if x.d.type = T_DIR ∧ omode ≠ O_RDONLY then
          putFail i ip
        else
          openInode i ip omode

/-- The end of `sys_mkdir` and `sys_mknod`. -/
def sysCreate (i : Pid) (path : Path) (type major minor : Int16) : FsM Int := do
  beginOp
  match path with
  | none => endFail
  | some path =>
    match ← create i path type major minor with
    | none => endFail
    | some ip =>
      iunlockput i ip
      endOp
      return 0

def sysMkdir (i : Pid) (path : Path) : FsM Int := sysCreate i path T_DIR 0 0

def sysMknod (i : Pid) (path : Path) (major minor : Int16) : FsM Int := sysCreate i path T_DEVICE major minor

def iputCwd : FsM Unit := do
  let cwd ← perform .getCwd
  iputPtr cwd

/-- Change the current directory (C `sys_chdir`). -/
def sysChdir (i : Pid) (path : Path) : FsM Int := do
  beginOp
  match path with
  | none => endFail
  | some path =>
    match ← namei i path with
    | none => endFail
    | some ip =>
      ilock ip
      let x ← getInode ip
      if x.d.type ≠ T_DIR then
        putFail i ip
      else
        iunlock i ip
        iputCwd
        endOp
        perform (.setCwd ip)
        return 0

/-- What memory management does during an `exec`: whether the page table and the pages of each segment can
    be had, and what `exec` returns once the program is loaded. -/
structure ExecEnv where
  pagetable : Bool
  uvmalloc : Nat → Bool
  ret : Int

/-- The loop of `loadseg`: `n` pages from page `k` of the segment on. -/
def loadsegLoop (ip : Slot) (offset sz : Nat) : Nat → Nat → FsM Bool
  | 0, _ => return true
  | n + 1, k => do
    let len := min (sz - k * PGSIZE) PGSIZE
    let (r, _) ← readi ip .kernel (.ofNat (offset + k * PGSIZE)) (.ofNat len)
    if r = (len : Int) then
      loadsegLoop ip offset sz n (k + 1)
    else
      return false

/-- The loop of `exec` over `n` program headers. -/
def loadLoop (ip : Slot) (env : ExecEnv) : Nat → Nat → FsM Bool
  | 0, _ => return true
  | n + 1, off => do
    let (r, l) ← readi ip .kernel (.ofNat off) (.ofNat ProgHdr.size)
    let ph := ProgHdr.ofBytes l
    if r ≠ (ProgHdr.size : Nat) then
      return false
    else if ph.type ≠ ELF_PROG_LOAD then
      loadLoop ip env n (off + ProgHdr.size)
    else if ph.memsz < ph.filesz ∨ (ph.vaddr + ph.memsz) % 2 ^ 64 < ph.vaddr ∨ ph.vaddr % PGSIZE ≠ 0 then
      return false
    else if env.uvmalloc n then
      let sz := ph.filesz % 2 ^ 32
      if ← loadsegLoop ip ph.off sz ((sz + PGSIZE - 1) / PGSIZE) 0 then
        loadLoop ip env n (off + ProgHdr.size)
      else
        return false
    else
      return false

/-- The file-system part of `exec`. -/
def exec (i : Pid) (path : List UInt8) (env : ExecEnv) : FsM Int := do
  beginOp
  match ← namei i path with
  | none => endFail
  | some ip =>
    ilock ip
    let (r, l) ← readi ip .kernel 0 (.ofNat ElfHdr.size)
    let elf := ElfHdr.ofBytes l
    if r ≠ (ElfHdr.size : Nat) ∨ elf.magic ≠ ELF_MAGIC ∨ env.pagetable = false then
      putFail i ip
    else if ← loadLoop ip env elf.phnum elf.phoff then
      iunlockput i ip
      endOp
      return env.ret
    else
      putFail i ip

/-- Give a descriptor to the child `j`. -/
def forkOfile (j : Pid) (fd : Fin NOFILE) : FsM Unit := do
  match ← perform (.getOfile fd) with
  | none => return
  | some f =>
    perform (.filedup f)
    perform (.childOfile j fd f)

/-- The loop of `fork` over the descriptors. -/
def forkLoop (j : Pid) : List (Fin NOFILE) → FsM Unit
  | [] => return
  | fd :: fds => do
    forkOfile j fd
    forkLoop j fds

/-- The file-system part of `fork`; `ok` says whether the memory can be copied. -/
def fork (ok : Bool) : FsM Int := do
  match ← perform .allocproc with
  | none => return -1
  | some j =>
    if ok then
      forkLoop j (List.finRange NOFILE)
      let ip ← perform .idupCwd
      perform (.childCwd j ip)
      return j
    else
      perform (.freeproc j)
      return -1

def exitOfile (fd : Fin NOFILE) : FsM Unit := do
  match ← perform (.getOfile fd) with
  | none => return
  | some f =>
    fileclose f
    perform (.clearOfile fd)

/-- The loop of `exit` over the descriptors. -/
def exitLoop : List (Fin NOFILE) → FsM Unit
  | [] => return
  | fd :: fds => do
    exitOfile fd
    exitLoop fds

/-- The file-system part of `exit`; process 0 is the first one. -/
def exit (i : Pid) : FsM Int := do
  panicIf (i = 0) .initExiting
  exitLoop (List.finRange NOFILE)
  beginOp
  iputCwd
  endOp
  perform .zombie
  return 0

inductive Call where
  | open (path : Path) (omode : UInt32)
  | close (fd : Int)
  | dup (fd : Int)
  | read (fd : Int) (mapped : Nat → Bool) (addr : Nat) (n : Int32) (other : Int)
  | write (fd : Int) (mem : Nat → Option UInt8) (addr : Nat) (n : Int32) (other : Int)
  | fstat (fd : Int) (ok : Bool)
  | link (old new : Path)
  | unlink (path : Path)
  | mkdir (path : Path)
  | mknod (path : Path) (major minor : Int16)
  | chdir (path : Path)
  | exec (path : List UInt8) (env : ExecEnv)
  | fork (ok : Bool)
  | exit

/-- The program of a system call of process `i`. -/
def Call.prog (i : Pid) : Call → FsM Int
  | .open path omode => sysOpen i path omode
  | .close fd => sysClose fd
  | .dup fd => sysDup fd
  | .read fd mapped addr n other => sysRead i fd (.user mapped addr) n other
  | .write fd mem addr n other => sysWrite i fd (.user mem addr) n other
  | .fstat fd ok => sysFstat i fd ok
  | .link old new => sysLink i old new
  | .unlink path => sysUnlink i path
  | .mkdir path => sysMkdir i path
  | .mknod path major minor => sysMknod i path major minor
  | .chdir path => sysChdir i path
  | .exec path env => Fs.exec i path env
  | .fork ok => Fs.fork ok
  | .exit => Fs.exit i

end

end Xv6n.Fs
