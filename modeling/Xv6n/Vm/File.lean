import Xv6n.Vm.Vm

/-!
# Open files and pipes

The file table of `kernel/file.c` and the pipes of `kernel/pipe.c`, as far as they take and free
memory. A `struct pipe` fills its page from the start: the lock, 512 bytes of data, then `nread`,
`nwrite`, `readopen` and `writeopen`. The data and the lock are left out.
-/

namespace Xv6n.KernM
open Lib
variable [Layout]

def setFile (f : Fin NFILE) (g : File → File) : KernM PUnit :=
  modify fun s => { s with file := Function.update s.file f (g (s.file f)) }

def setProc (i : Fin NPROC) (g : Proc → Proc) : KernM PUnit :=
  modify fun s => { s with proc := Function.update s.proc i (g (s.proc i)) }

def setOfile (i : Fin NPROC) (fd : Fin NOFILE) (f : Option (Fin NFILE)) : KernM PUnit :=
  setProc i fun p => { p with ofile := Function.update p.ofile fd f }

/-- The little-endian bytes of an `int`. -/
def int32 (n : Int) : List UInt8 :=
  (List.range 4).map fun k => UInt8.ofNat ((n % 2 ^ 32).toNat / 256 ^ k)

def filealloc : KernM (Option (Fin NFILE)) := do
  let s ← get
  match (List.finRange NFILE).find? fun f => (s.file f).ref = 0 with
  | none => return none
  | some f =>
    setFile f fun x => { x with ref := 1 }
    return some f

def filedup (f : Fin NFILE) : KernM PUnit := do
  let s ← get
  if (s.file f).ref < 1 then
    throw .filedup
  setFile f fun x => { x with ref := x.ref + 1 }

/-- The fields of C `struct pipe`. -/
def pipeNread (pi : Nat) : Nat := pi + 536

@[inherit_doc pipeNread]
def pipeNwrite (pi : Nat) : Nat := pi + 540

@[inherit_doc pipeNread]
def pipeReadopen (pi : Nat) : Nat := pi + 544

@[inherit_doc pipeNread]
def pipeWriteopen (pi : Nat) : Nat := pi + 548

def pipeclose (pi : Nat) (writable : Bool) : KernM PUnit := do
  if writable then
    store32 (pipeWriteopen pi) 0
  else
    store32 (pipeReadopen pi) 0
  let r ← load32 (pipeReadopen pi)
  let w ← load32 (pipeWriteopen pi)
  if r = 0 ∧ w = 0 then
    kfree pi

/-- Drop a reference to a file, and close it with the last one. The inode of a file
    that is not a pipe belongs to the file system. -/
def fileclose (f : Fin NFILE) : KernM PUnit := do
  let s ← get
  let ff := s.file f
  if ff.ref < 1 then
    throw .fileclose
  if 0 < ff.ref - 1 then
    setFile f fun x => { x with ref := x.ref - 1 }
  else
    setFile f fun x => { x with ref := 0, type := .none }
    if ff.type = .pipe then
      pipeclose ff.pipe ff.writable

/-- Allocate a pipe with its two files. -/
def pipealloc : KernM (Option (Fin NFILE × Fin NFILE)) := do
  match ← filealloc with
  | none => return none
  | some f0 =>
    match ← filealloc with
    | none =>
      fileclose f0
      return none
    | some f1 =>
      match ← alloc with
      | none =>
        fileclose f0
        fileclose f1
        return none
      | some pi =>
        store32 (pipeReadopen pi) 1
        store32 (pipeWriteopen pi) 1
        store32 (pipeNwrite pi) 0
        store32 (pipeNread pi) 0
        setFile f0 fun x => { x with type := .pipe, readable := true, writable := false, pipe := pi }
        setFile f1 fun x => { x with type := .pipe, readable := false, writable := true, pipe := pi }
        return some (f0, f1)

def fdalloc (i : Fin NPROC) (f : Fin NFILE) : KernM (Option (Fin NOFILE)) := do
  let s ← get
  match (List.finRange NOFILE).find? fun fd => (s.proc i).ofile fd = none with
  | none => return none
  | some fd =>
    setOfile i fd (some f)
    return some fd

def argfd (i : Fin NPROC) (fd : Int) : KernM (Option (Fin NOFILE × Fin NFILE)) := do
  let s ← get
  if h : 0 ≤ fd ∧ fd < NOFILE then
    let k : Fin NOFILE := ⟨fd.toNat, toNat_lt_NOFILE h⟩
    return ((s.proc i).ofile k).map fun f => (k, f)
  else
    return none

/-- Create a pipe and its two descriptors (C `sys_pipe`). -/
def sysPipe (i : Fin NPROC) (fdarray : Nat) : KernM Int := do
  match ← pipealloc with
  | none => return -1
  | some (rf, wf) =>
    match ← fdalloc i rf with
    | none =>
      fileclose rf
      fileclose wf
      return -1
    | some fd0 =>
      match ← fdalloc i wf with
      | none =>
        setOfile i fd0 none
        fileclose rf
        fileclose wf
        return -1
      | some fd1 =>
        let pagetable := ((← get).proc i).pagetable
        let ok0 ← copyout pagetable fdarray (int32 fd0)
        let ok ← if ok0 then copyout pagetable ((fdarray + 4) % 2 ^ 64) (int32 fd1) else pure false
        if ok then
          return 0
        setOfile i fd0 none
        setOfile i fd1 none
        fileclose rf
        fileclose wf
        return -1

/-- Close a descriptor (C `sys_close`). -/
def sysClose (i : Fin NPROC) (fd : Int) : KernM Int := do
  match ← argfd i fd with
  | none => return -1
  | some (k, f) =>
    setOfile i k none
    fileclose f
    return 0

/-- Duplicate a descriptor (C `sys_dup`). -/
def sysDup (i : Fin NPROC) (fd : Int) : KernM Int := do
  match ← argfd i fd with
  | none => return -1
  | some (_, f) =>
    match ← fdalloc i f with
    | none => return -1
    | some k =>
      filedup f
      return k

end Xv6n.KernM
