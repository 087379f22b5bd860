import Xv6n.Lib.Threads
import Xv6n.Vm.Kernel

/-!
# The page allocator on many harts

`kernel/kalloc.c` as programs of atomic actions that harts interleave. The kernel ends at any address that
leaves room for the harts' memory. The heads of the per-hart lists are words of memory behind the kernel, and
the links of a list are the first words of its pages, so nothing but the code keeps them apart.

`use` follows where a page is. It is not part of the source: it changes when a page leaves a list or comes
back to one, when `kalloc` returns it and when it is given to `kfree`. A thread may free the pages that were
handed out, and may write anything to them at any time.
-/

namespace Xv6n.Kalloc
open Lib Function

/-- Where the kernel image ends (`end` of `kernel.ld`). -/
class End where
  kend : Nat
  fits : (kend + NCPU * 32 + PGSIZE - 1) / PGSIZE * PGSIZE + NCPU * PER_HART_ALLOC_SIZE ≤ PHYSTOP

/-- A free list: that of a hart, or `kmem`. -/
abbrev ListId : Type := Option (Fin NCPU)

/-- Where a page is: not given to the allocator, on a list, inside a call, or handed out. -/
inductive Use where
  | kernel
  | free
  | busy
  | out
deriving DecidableEq

/-- Memory, `kmem.freelist`, the holders of the locks of the lists, and where the pages are. -/
structure State (ι : Type) where
  mem : Nat → UInt8
  kmem : Nat
  lock : ListId → Option ι
  use : Nat → Use

/-- Why an action is not taken, or the panic it ends with. -/
inductive Stop where
  | blocked
  | kfree
  | assert
deriving DecidableEq

/-- The atomic actions of `kalloc.c` and of those who use pages. -/
inductive Act : Type → Type where
  | initlock (q : ListId) : Act PUnit
  | acquire (q : ListId) : Act PUnit
  | release (q : ListId) : Act PUnit
  | clear (q : ListId) : Act PUnit
  | getHead (q : ListId) : Act Nat
  | getNext (r : Nat) : Act Nat
  | setNext (r v : Nat) : Act PUnit
  | link (q : ListId) (r : Nat) : Act PUnit
  | unlink (q : ListId) (r next : Nat) : Act PUnit
  | memset (a : Nat) (c : UInt8) (n : Nat) : Act PUnit
  | claim (pa : Nat) : Act PUnit
  | give (pa : Nat) : Act PUnit
  | store (pa o : Nat) (c : UInt8) : Act PUnit
  | panic (e : Stop) : Act PUnit

abbrev KallocM := Prog Act

variable {ι : Type} [DecidableEq ι] [End]

/-- The address of `per_hart_free_list[i].freelist`, behind a lock of 24 bytes. -/
def headAddr (i : Fin NCPU) : Nat := End.kend + i * 32 + 24

namespace State

def head (s : State ι) : ListId → Nat
  | some i => le s.mem (headAddr i) 8
  | none => s.kmem

def setHead (s : State ι) (q : ListId) (v : Nat) : State ι :=
  match q with
  | some i => { s with mem := putLe s.mem (headAddr i) 8 v }
  | none => { s with kmem := v }

/-- The page behind a page of a list (`r->next`). -/
def next (s : State ι) (r : Nat) : Nat := le s.mem r 8

end State

/-- What an action of thread `i` does. -/
def act (i : ι) : {β : Type} → Act β → EStateM Stop (State ι) β
  | _, .initlock q => modify fun s => { s with lock := update s.lock q none }
  | _, .acquire q => do
    let s ← get
    if s.lock q ≠ none then
      throw .blocked
    set { s with lock := update s.lock q (some i) }
  | _, .release q => modify fun s => { s with lock := update s.lock q none }
  | _, .clear q => modify fun s => s.setHead q 0
  | _, .getHead q => do return (← get).head q
  | _, .getNext r => do return (← get).next r
  | _, .setNext r v => modify fun s => { s with mem := putLe s.mem r 8 v }
  | _, .link q r => modify fun s => { s.setHead q r with use := update s.use r .free }
  | _, .unlink q r next => modify fun s => { s.setHead q next with use := update s.use r .busy }
  | _, .memset a c n => modify fun s => { s with mem := fill s.mem a n c }
  | _, .claim pa => do
    let s ← get
    if s.use pa ≠ .out then
      throw .blocked
    set { s with use := update s.use pa .busy }
  | _, .give pa => modify fun s => { s with use := update s.use pa .out }
  | _, .store pa o c => do
    let s ← get
    if s.use pa ≠ .out ∨ PGSIZE ≤ o then
      throw .blocked
    set { s with mem := fill s.mem (pa + o) 1 c }
  | _, .panic e => throw e

open Prog (perform)

def push (q : ListId) (r : Nat) : KallocM PUnit := do
  perform (.acquire q)
  let h ← perform (.getHead q)
  perform (.setNext r h)
  perform (.link q r)
  perform (.release q)

/-- Take the first page of a list, under its lock; 0 if there is none. -/
def pop (q : ListId) : KallocM Nat := do
  perform (.acquire q)
  let r ← perform (.getHead q)
  if r ≠ 0 then
    let next ← perform (.getNext r)
    perform (.unlink q r next)
  perform (.release q)
  return r

/-- The first page behind the array of per-hart lists (the `_s` of `per_hart_alloc_init`). -/
def heapStart : Nat := pgRoundUp (End.kend + NCPU * 32)

def pkalloc (id : Fin NCPU) : KallocM Nat := pop (some id)

/-- The index of the hart whose memory a page is in (the `_id` of `pkfree`). -/
def hartOf (pa : Nat) : Nat := (pa + 2 ^ 64 - heapStart) % 2 ^ 64 / PER_HART_ALLOC_SIZE

def pkfree (pa : Nat) : KallocM Bool :=
  if h : hartOf pa < NCPU then do
    push (some ⟨hartOf pa, h⟩) pa
    return true
  else
    return false

def kfree (pa : Nat) : KallocM PUnit := do
  if pa % PGSIZE ≠ 0 ∨ pa < End.kend ∨ PHYSTOP ≤ pa then
    perform (.panic .kfree)
  perform (.memset pa 1 PGSIZE)
  let own ← pkfree pa
  if own = false then
    push none pa

/-- Allocate a page of physical memory on hart `id`; 0 if there is none. -/
def kalloc (id : Fin NCPU) : KallocM Nat := do
  let ret ← pkalloc id
  if ret ≠ 0 then
    perform (.memset ret 5 PGSIZE)
    return ret
  let r ← pop none
  if r ≠ 0 then
    perform (.memset r 5 PGSIZE)
  return r

/-- Make the per-hart lists empty (the first loop of `per_hart_alloc_init`). -/
def initLoop : List (Fin NCPU) → KallocM PUnit
  | [] => return
  | i :: l => do
    perform (.initlock (some i))
    perform (.clear (some i))
    initLoop l

/-- Put `n` pages from `_s` on at the front of a list, without its lock; returns the address behind them. -/
def pageLoop (q : ListId) : Nat → Nat → KallocM Nat
  | 0, _s => return _s
  | n + 1, _s => do
    let h ← perform (.getHead q)
    perform (.setNext _s h)
    perform (.link q _s)
    pageLoop q n (_s + PGSIZE)

/-- Give each hart its memory from `_s` on (the second loop of `per_hart_alloc_init`). -/
def hartLoop : List (Fin NCPU) → Nat → KallocM Nat
  | [], _s => return _s
  | i :: l, _s => do
    let _s ← pageLoop (some i) (PER_HART_ALLOC_SIZE / PGSIZE) _s
    if PHYSTOP < _s then
      perform (.panic .assert)
    hartLoop l _s

/-- Give every hart its own memory; returns where the rest starts (C `per_hart_alloc_init`). -/
def perHartAllocInit : KallocM Nat := do
  initLoop (List.finRange NCPU)
  hartLoop (List.finRange NCPU) (pgRoundUp (End.kend + NCPU * 32))

/-- The loop of `freerange`. -/
def freeLoop (stop p : Nat) : KallocM PUnit := do
  if p + PGSIZE ≤ stop then
    kfree p
    freeLoop stop (p + PGSIZE)
termination_by stop - p
decreasing_by
  simp only [PGSIZE] at *
  omega

def freerange (start stop : Nat) : KallocM PUnit := freeLoop stop (pgRoundUp start)

def kinit : KallocM PUnit := do
  let start ← perHartAllocInit
  perform (.initlock none)
  freerange start PHYSTOP

/-- What a thread may ask for: a page, on a hart; to give a page back; to write to a page. -/
inductive Call where
  | kalloc (id : Fin NCPU)
  | kfree (pa : Nat)
  | store (pa o : Nat) (c : UInt8)

def call : Call → KallocM PUnit
  | .kalloc id => do
    let r ← kalloc id
    if r ≠ 0 then
      perform (.give r)
  | .kfree pa => do
    perform (.claim pa)
    kfree pa
  | .store pa o c => perform (.store pa o c)

/-- One move of the harts; any number of threads call the allocator. -/
def step : Pool ι Act Stop (State ι) PUnit → Turn ι Call → Option (Pool ι Act Stop (State ι) PUnit) :=
  Pool.step (fun i => act i) (· = .blocked) fun _ _ c => some (call c)

/-- The machine before `kinit`: memory and locks hold anything, and `kmem` is zero as all of `.bss`. -/
def start (mem : Nat → UInt8) (lock : ListId → Option ι) : State ι := ⟨mem, 0, lock, fun _ => .kernel⟩

end Xv6n.Kalloc
