import Xv6n.Vm.File

/-!
# Processes

The functions of `kernel/proc.c` that create, grow, end and reap processes. The current directory of
a process belongs to the file system and is left out.
-/

namespace Xv6n.KernM
open Lib
variable [Layout]

/-- The fields of C `struct trapframe` that the kernel writes. -/
def tfEpc (tf : Nat) : Nat := tf + 24

@[inherit_doc tfEpc]
def tfSp (tf : Nat) : Nat := tf + 48

@[inherit_doc tfEpc]
def tfA0 (tf : Nat) : Nat := tf + 112

@[inherit_doc tfEpc]
def tfA1 (tf : Nat) : Nat := tf + 120

/-- The size of C `struct trapframe`. -/
def tfSize : Nat := 288

/-- A page table with only the trampoline and the trapframe (C `proc_pagetable`). -/
def procPagetable (trapframe : Nat) : KernM (Option Nat) := do
  match ← uvmcreate with
  | none => return none
  | some pagetable =>
    let ok ← mappages pagetable TRAMPOLINE PGSIZE Layout.trampoline (PTE_R ||| PTE_X)
    if ok then
      let ok ← mappages pagetable TRAPFRAME PGSIZE trapframe (PTE_R ||| PTE_W)
      if ok then
        return some pagetable
      else
        uvmunmap pagetable TRAMPOLINE 1 false
        uvmfree pagetable 0
        return none
    else
      uvmfree pagetable 0
      return none

/-- Free a page table and the memory it refers to (C `proc_freepagetable`). -/
def procFreepagetable (pagetable sz : Nat) : KernM PUnit := do
  uvmunmap pagetable TRAMPOLINE 1 false
  uvmunmap pagetable TRAPFRAME 1 false
  uvmfree pagetable sz

def freeproc (i : Fin NPROC) : KernM PUnit := do
  let p := (← get).proc i
  if p.trapframe ≠ 0 then
    kfree p.trapframe
  setProc i fun p => { p with trapframe := 0 }
  if p.pagetable ≠ 0 then
    procFreepagetable p.pagetable p.sz
  setProc i fun p => { p with
    pagetable := 0
    sz := 0
    pid := 0
    parent := none
    name := []
    killed := false
    xstate := 0
    state := .unused }

def allocpid : KernM Int := do
  let pid := (← get).nextpid
  modify fun s => { s with nextpid := Int.bmod (pid + 1) (2 ^ 32) }
  return pid

/-- Take an unused process structure. -/
def allocproc : KernM (Option (Fin NPROC)) := do
  let s ← get
  match (List.finRange NPROC).find? fun i => (s.proc i).state = .unused with
  | none => return none
  | some i =>
    let pid ← allocpid
    setProc i fun p => { p with pid := pid, state := .used }
    match ← alloc with
    | none =>
      setProc i fun p => { p with trapframe := 0 }
      freeproc i
      return none
    | some tf =>
      setProc i fun p => { p with trapframe := tf }
      match ← procPagetable tf with
      | none =>
        setProc i fun p => { p with pagetable := 0 }
        freeproc i
        return none
      | some pagetable =>
        setProc i fun p => { p with pagetable := pagetable }
        return some i

def initcode : List UInt8 :=
  [0x17, 0x05, 0x00, 0x00, 0x13, 0x05, 0x45, 0x02, 0x97,
   0x05, 0x00, 0x00, 0x93, 0x85, 0x35, 0x02, 0x93, 0x08,
   0x70, 0x00, 0x73, 0x00, 0x00, 0x00, 0x93, 0x08, 0x20,
   0x00, 0x73, 0x00, 0x00, 0x00, 0xef, 0xf0, 0x9f, 0xff,
   0x2f, 0x69, 0x6e, 0x69, 0x74, 0x00, 0x00, 0x24, 0x00,
   0x00, 0x00, 0x00, 0x00, 0x00, 0x00, 0x00]

def userinit : KernM PUnit := do
  match ← allocproc with
  | none => throw .null
  | some i =>
    modify fun s => { s with initproc := some i }
    let p := (← get).proc i
    uvmfirst p.pagetable initcode
    setProc i fun p => { p with sz := PGSIZE }
    store64 (tfEpc p.trapframe) 0
    store64 (tfSp p.trapframe) PGSIZE
    setProc i fun p => { p with name := "initcode".toUTF8.toList, state := .runnable }

/-- Grow or shrink a process by `n` bytes. -/
def growproc (i : Fin NPROC) (n : Int) : KernM Bool := do
  let p := (← get).proc i
  if 0 < n then
    let sz ← uvmalloc p.pagetable p.sz (toU64 (p.sz + n)) PTE_W
    if sz = 0 then
      return false
    setProc i fun p => { p with sz := sz }
    return true
  else if n < 0 then
    let sz ← uvmdealloc p.pagetable p.sz (toU64 (p.sz + n))
    setProc i fun p => { p with sz := sz }
    return true
  else
    return true

/-- Change the size of a process; returns the old size (C `sys_sbrk`). -/
def sysSbrk (i : Fin NPROC) (n : Int) : KernM Int := do
  let addr := ((← get).proc i).sz
  let ok ← growproc i n
  return if ok then addr else -1

/-- Create a copy of a process. -/
def fork (i : Fin NPROC) : KernM Int := do
  match ← allocproc with
  | none => return -1
  | some j =>
    let p := (← get).proc i
    let np := (← get).proc j
    let ok ← uvmcopy p.pagetable np.pagetable p.sz
    if ok then
      setProc j fun np => { np with sz := p.sz }
      memmove np.trapframe p.trapframe tfSize
      store64 (tfA0 np.trapframe) 0
      for fd in List.finRange NOFILE do
        match p.ofile fd with
        | none => pure ⟨⟩
        | some f =>
          filedup f
          setOfile j fd (some f)
      setProc j fun np => { np with name := p.name, parent := some i, state := .runnable }
      return np.pid
    else
      freeproc j
      return -1

/-- Pass the children of a process to `init`. -/
def reparent (i : Fin NPROC) : KernM PUnit :=
  modify fun s => { s with
    proc := fun j =>
      if (s.proc j).parent = some i then { s.proc j with parent := s.initproc } else s.proc j }

/-- End a process; it stays a zombie until its parent waits for it. -/
def exit (i : Fin NPROC) (status : Int) : KernM PUnit := do
  if (← get).initproc = some i then
    throw .initExiting
  for fd in List.finRange NOFILE do
    match ((← get).proc i).ofile fd with
    | none => pure ⟨⟩
    | some f =>
      fileclose f
      setOfile i fd none
  reparent i
  setProc i fun p => { p with xstate := status, state := .zombie }

/-- Reap an exited child. -/
def wait (i : Fin NPROC) (addr : Nat) : KernM Int := do
  let s ← get
  match (List.finRange NPROC).find? fun j =>
    (s.proc j).parent = some i ∧ (s.proc j).state = .zombie with
  | some j =>
    let ok ← if addr ≠ 0 then
        copyout (s.proc i).pagetable addr (int32 (s.proc j).xstate)
      else
        pure true
    if ok then
      freeproc j
      return (s.proc j).pid
    else
      return -1
  | none =>
    if (∀ j, (s.proc j).parent ≠ some i) ∨ (s.proc i).killed = true then
      return -1
    throw .asleep

def kill (pid : Int) : KernM Int := do
  let s ← get
  match (List.finRange NPROC).find? fun j => (s.proc j).pid = pid with
  | none => return -1
  | some j =>
    setProc j fun p => { p with
      killed := true
      state := if p.state = .sleeping then .runnable else p.state }
    return 0

end Xv6n.KernM
