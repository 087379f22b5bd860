import Xv6n.Lib.Bytes
import Xv6n.Lib.Wp
import Xv6n.Vm.Sv39

/-!
# Kernel memory

The state that the memory and process code of the kernel works on, and the page allocator of
`kernel/kalloc.c`. Physical memory is an array of bytes; a free list is a chain of pages linked
through their first eight bytes, and page tables are read and written in place.

* A `Layout` holds the addresses that the linker fixes.
* A system call runs to its end before the next one starts. What the other harts do in the meantime
  shows in `env`: at the `n`-th allocation the call runs on hart `h` if `env n = some h`, and finds
  no page at all if `env n = none`.
-/

namespace Xv6n

abbrev PER_HART_ALLOC_SIZE : Nat := 1024 * 1024

/-- Addresses of `kernel.ld`: the end of the kernel image and the page of `trampoline.S`. -/
class Layout where
  kend : Nat
  trampoline : Nat
  kernbase_le : KERNBASE ≤ kend
  kend_lt : kend < PHYSTOP
  trampoline_mod : trampoline % PGSIZE = 0
  trampoline_lt : trampoline < kend
  fits : pgRoundUp (kend + NCPU * 32) + NCPU * PER_HART_ALLOC_SIZE ≤ PHYSTOP

/-- The panics of `vm.c`, `kalloc.c`, `proc.c`, `exec.c` and `file.c`. A call that sleeps for ever also
    stops, with `asleep`, and one that reads through a null pointer with `null`. -/
inductive Panic where
  | assert
  | kfree
  | walk
  | mappagesSize
  | remap
  | unmapAligned
  | unmapWalk
  | unmapNotMapped
  | unmapNotLeaf
  | uvmfirst
  | freewalk
  | copyPte
  | copyPresent
  | uvmclear
  | loadseg
  | filedup
  | fileclose
  | initExiting
  | ilock
  | iunlock
  | asleep
  | null
deriving DecidableEq, Repr

/-- Process states (C `enum procstate`). -/
inductive ProcState where
  | unused
  | used
  | sleeping
  | runnable
  | running
  | zombie
deriving DecidableEq, Repr

/-- What an open file is (the `type` of C `struct file`). -/
inductive FileType where
  | none
  | pipe
  | inode
  | device
deriving DecidableEq, Repr

/-- An entry of the file table (C `struct file`, less what only the file system uses). -/
structure File where
  type : FileType
  ref : Int
  readable : Bool
  writable : Bool
  pipe : Nat

/-- An entry of the process table (C `struct proc`); a null pointer is `0`. -/
structure Proc where
  state : ProcState
  killed : Bool
  xstate : Int
  pid : Int
  parent : Option (Fin NPROC)
  sz : Nat
  pagetable : Nat
  trapframe : Nat
  ofile : Fin NOFILE → Option (Fin NFILE)
  name : List UInt8

/-- The kernel's memory and tables. `freelist (some i)` is `per_hart_free_list[i].freelist` and
    `freelist none` is `kmem.freelist`; `boot` are the pages that the kernel took while it booted. -/
structure Kernel where
  mem : Nat → UInt8
  freelist : Option (Fin NCPU) → Nat
  boot : List Nat
  proc : Fin NPROC → Proc
  file : Fin NFILE → File
  initproc : Option (Fin NPROC)
  nextpid : Int
  env : Nat → Option (Fin NCPU)
  clock : Nat

abbrev KernM := EStateM Panic Kernel

namespace KernM
open Lib

def load64 (a : Nat) : KernM Nat := do
  let s ← get
  return le s.mem a 8

def store64 (a v : Nat) : KernM PUnit :=
  modify fun s => { s with mem := putLe s.mem a 8 v }

def load32 (a : Nat) : KernM Nat := do
  let s ← get
  return le s.mem a 4

def store32 (a v : Nat) : KernM PUnit :=
  modify fun s => { s with mem := putLe s.mem a 4 v }

/-- Fill `n` bytes with `c`. -/
def memset (a : Nat) (c : UInt8) (n : Nat) : KernM PUnit :=
  modify fun s => { s with mem := fill s.mem a n c }

/-- Copy `n` bytes. -/
def memmove (dst src n : Nat) : KernM PUnit :=
  modify fun s => { s with mem := copy s.mem dst src n }

/-- Write bytes that are not in the modelled memory, such as those of a kernel stack. -/
def putBytes (a : Nat) (l : List UInt8) : KernM PUnit :=
  modify fun s => { s with mem := Lib.putBytes s.mem a l }

def push (i : Option (Fin NCPU)) (pa : Nat) : KernM PUnit := do
  let s ← get
  store64 pa (s.freelist i)
  modify fun s => { s with freelist := Function.update s.freelist i pa }

def pop (i : Option (Fin NCPU)) : KernM (Option Nat) := do
  let s ← get
  let r := s.freelist i
  if r = 0 then
    return none
  let next ← load64 r
  modify fun s => { s with freelist := Function.update s.freelist i next }
  return some r

variable [Layout]

/-- The first page behind the array of per-hart free lists (the `_s` of `per_hart_alloc_init`). -/
def heapStart : Nat := pgRoundUp (Layout.kend + NCPU * 32)

def pkalloc (id : Fin NCPU) : KernM (Option Nat) := pop (some id)

/-- The index of the hart whose memory a page is in, if it is below `NCPU` (the `_id` of `pkfree`). -/
def hartOf (pa : Nat) : Nat := (pa + 2 ^ 64 - heapStart) % 2 ^ 64 / PER_HART_ALLOC_SIZE

def pkfree (pa : Nat) : KernM Bool := do
  if h : hartOf pa < NCPU then
    push (some ⟨hartOf pa, h⟩) pa
    return true
  else
    return false

def kfree (pa : Nat) : KernM PUnit := do
  if pa % PGSIZE ≠ 0 ∨ pa < Layout.kend ∨ PHYSTOP ≤ pa then
    throw .kfree
  memset pa 1 PGSIZE
  let own ← pkfree pa
  if own = false then
    push none pa

/-- Allocate a page of physical memory on hart `id`. -/
def kalloc (id : Fin NCPU) : KernM (Option Nat) := do
  match ← pkalloc id with
  | some r =>
    memset r 5 PGSIZE
    return some r
  | none =>
    match ← pop none with
    | some r =>
      memset r 5 PGSIZE
      return some r
    | none => return none

/-- The next `kalloc` of a running system call. -/
def alloc : KernM (Option Nat) := do
  let s ← get
  set { s with clock := s.clock + 1 }
  match s.env s.clock with
  | some id => kalloc id
  | none => return none

/-- Give every hart its own memory; returns where the rest starts (C `per_hart_alloc_init`). -/
def perHartAllocInit : KernM Nat := do
  for i in List.finRange NCPU do
    for j in List.range (PER_HART_ALLOC_SIZE / PGSIZE) do
      push (some i) (heapStart + (i * (PER_HART_ALLOC_SIZE / PGSIZE) + j) * PGSIZE)
    if PHYSTOP < heapStart + (i + 1) * PER_HART_ALLOC_SIZE then
      throw .assert
  return heapStart + NCPU * PER_HART_ALLOC_SIZE

def freerange (start stop : Nat) : KernM PUnit := do
  for j in List.range ((stop - pgRoundUp start) / PGSIZE) do
    kfree (pgRoundUp start + j * PGSIZE)

def kinit : KernM PUnit := do
  let start ← perHartAllocInit
  freerange start PHYSTOP

end KernM

end Xv6n
