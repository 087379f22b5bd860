import Xv6n.Lib.Exec
import Xv6n.Vm.Kernel

/-!
# Processes, sleep and wakeup

The process table and the system calls that sleep, as the processes run them concurrently: `fork`,
`exit`, `wait` and `kill` of `kernel/proc.c`, `pipewrite`, `piperead` and `pipeclose` of
`kernel/pipe.c`, `consoleread` of `kernel/console.c` and `sys_sleep` of `kernel/sysproc.c`.

Every critical section of a `p->lock` is one step, and so is every iteration of a loop. The spin locks
that are held from one step to the next (`wait_lock`, `pi->lock`, `cons.lock`, `tickslock`) are part of
the state. What the memory of a process does in a step (a page that is not mapped, a byte that is
copied in, the pages that `fork` gets) is the `Outcome` of the step.
-/

namespace Xv6n.Sched
open Lib

abbrev PIPESIZE : Nat := 512
abbrev INPUT_BUF_SIZE : Nat := 128

/-- The first process, which `userinit` puts in the first slot. -/
def initproc : Fin NPROC := 0

/-- The addresses that processes sleep on: the own `struct proc` in `wait`, `&pi->nread`, `&pi->nwrite`,
    `&cons.r` and `&ticks`. -/
inductive Chan where
  | proc (i : Fin NPROC)
  | nread
  | nwrite
  | cons
  | ticks
deriving DecidableEq, Repr

/-- Spin locks that are held across steps. -/
inductive Lock where
  | wait
  | pipe
  | cons
  | ticks
deriving DecidableEq, Repr

/-- An entry of the process table (C `struct proc`); a null pointer is `none` or `0`. -/
structure Slot where
  state : ProcState
  chan : Option Chan
  killed : Bool
  xstate : Int
  pid : Int
  parent : Option (Fin NPROC)
  sz : Nat
  pagetable : Nat
  trapframe : Nat
deriving DecidableEq, Repr

/-- A slot as `procinit` leaves it. -/
def Slot.blank : Slot :=
  { state := .unused, chan := none, killed := false, xstate := 0, pid := 0, parent := none, sz := 0
    pagetable := 0, trapframe := 0 }

def freeproc (_ : Slot) : Slot :=
  { state := .unused, chan := none, killed := false, xstate := 0, pid := 0, parent := none, sz := 0
    pagetable := 0, trapframe := 0 }

/-- Go to sleep (the second half of C `sleep`). -/
def Slot.doze (c : Chan) (p : Slot) : Slot := { p with chan := some c, state := .sleeping }

/-- The turn of C `wakeup` for one process. -/
def Slot.wake (c : Option Chan) (p : Slot) : Slot :=
  if p.state = .sleeping ∧ p.chan = c then { p with state := .runnable } else p

def Slot.kill (p : Slot) : Slot :=
  { p with killed := true, state := if p.state = .sleeping then .runnable else p.state }

/-- The scheduler picks a process; one that slept clears its channel before it releases its lock. -/
def Slot.resume (p : Slot) : Slot := { p with state := .running, chan := none }

/-- A pipe (C `struct pipe`). `sent` and `got` are all bytes ever put in and taken out; no step reads
    them. -/
structure Pipe where
  data : Fin PIPESIZE → UInt8
  nread : Nat
  nwrite : Nat
  readopen : Bool
  writeopen : Bool
  sent : List UInt8
  got : List UInt8

/-- The place of byte number `n`. -/
def ix (n : Nat) : Fin PIPESIZE := ⟨n % PIPESIZE, Nat.mod_lt _ (by decide)⟩

namespace Pipe

/-- `pi->nread == pi->nwrite`. -/
def Empty (p : Pipe) : Prop := p.nread = p.nwrite

/-- `pi->nwrite == pi->nread + PIPESIZE`, in 32 bits. -/
def Full (p : Pipe) : Prop := p.nwrite = (p.nread + PIPESIZE) % 2 ^ 32

instance (p : Pipe) : Decidable p.Empty := inferInstanceAs (Decidable (_ = _))
instance (p : Pipe) : Decidable p.Full := inferInstanceAs (Decidable (_ = _))

/-- `pi->data[pi->nwrite++ % PIPESIZE] = ch`. -/
def put (p : Pipe) (b : UInt8) : Pipe :=
  { p with
    data := Function.update p.data (ix p.nwrite) b
    nwrite := (p.nwrite + 1) % 2 ^ 32
    sent := p.sent ++ [b] }

/-- `pi->data[pi->nread++ % PIPESIZE]`: the byte. -/
def head (p : Pipe) : UInt8 := p.data (ix p.nread)

/-- `pi->data[pi->nread++ % PIPESIZE]`: the pipe after it. -/
def advance (p : Pipe) : Pipe :=
  { p with nread := (p.nread + 1) % 2 ^ 32, got := p.got ++ [p.head] }

def close (p : Pipe) (writable : Bool) : Pipe :=
  if writable then { p with writeopen := false } else { p with readopen := false }

end Pipe

/-- The console's input buffer (C `cons`). -/
structure Cons where
  buf : Fin INPUT_BUF_SIZE → UInt8
  r : Nat
  w : Nat
  e : Nat

/-- The place of character number `n`. -/
def Cons.ix (n : Nat) : Fin INPUT_BUF_SIZE := ⟨n % INPUT_BUF_SIZE, Nat.mod_lt _ (by decide)⟩

/-- End of file (C `C('D')`). -/
def ctrlD : UInt8 := 4

def newline : UInt8 := 10

def Cons.head (c : Cons) : UInt8 := c.buf (Cons.ix c.r)

/-- `cons.r++`. -/
def Cons.advance (c : Cons) : Cons := { c with r := (c.r + 1) % 2 ^ 32 }

/-- Erase characters back to the end of the last line (the `C('U')` of C `consoleintr`). -/
def Cons.kill : Nat → Cons → Cons
  | 0, c => c
  | n + 1, c =>
    if c.e ≠ c.w ∧ c.buf (ix (c.e + 2 ^ 32 - 1)) ≠ newline then
      Cons.kill n { c with e := (c.e + 2 ^ 32 - 1) % 2 ^ 32 }
    else c

/-- A character arrives (C `consoleintr`, less the echo and the wakeup). -/
def Cons.intr (c : Cons) (ch : UInt8) : Cons :=
  if ch = 16 then c
  else if ch = 21 then c.kill INPUT_BUF_SIZE
  else if ch = 8 ∨ ch = 127 then
    if c.e ≠ c.w then { c with e := (c.e + 2 ^ 32 - 1) % 2 ^ 32 } else c
  else if ch ≠ 0 ∧ (c.e + 2 ^ 32 - c.r) % 2 ^ 32 < INPUT_BUF_SIZE then
    let ch := if ch = 13 then newline else ch
    let e := (c.e + 1) % 2 ^ 32
    let c := { c with buf := Function.update c.buf (ix c.e) ch, e := e }
    if ch = newline ∨ ch = ctrlD ∨ (e + 2 ^ 32 - c.r) % 2 ^ 32 = INPUT_BUF_SIZE then { c with w := e }
    else c
  else c

/-- Where a process is. The constructors with a `next` are the calls of `acquire`, `wakeup` and `sleep`
    and what follows them. Two flags are for the proofs alone: `fault` in `readEnd` tells whether a copy has
    failed, and `fresh` in `writeLoop` whether bytes have been put in since the last `wakeup`. -/
inductive Pc where
  | user
  | acquire (l : Lock) (next : Pc)
  | wakeup (c : Option Chan) (k : Nat) (next : Pc)
  | sleep (c : Chan) (l : Lock) (next : Pc)
  | forkScan (k : Nat)
  | forkParent (child : Fin NPROC)
  | forkRun (child : Fin NPROC)
  | exitReparent (status : Int) (k : Nat)
  | exitZombie (status : Int)
  | dead
  | waitScan (addr : Nat) (k : Nat) (havekids : Bool)
  | killScan (pid : Int) (k : Nat)
  | readWait (n : Int)
  | readCopy (n : Int) (i : Nat)
  | readEnd (n : Int) (i : Nat) (fault : Bool)
  | writeLoop (n : Int) (i : Nat) (fresh : Bool)
  | writeEnd (i : Nat)
  | closeEnd (writable : Bool)
  | closeDone
  | consLoop (target n : Nat)
  | sleepStart (n : Int)
  | sleepLoop (n : Int) (ticks0 : Nat)
deriving DecidableEq, Repr

def Pc.lock : Pc → Option Lock
  | .wakeup _ _ next => next.lock
  | .sleep _ l _ => some l
  | .exitReparent _ _ | .exitZombie _ | .waitScan _ _ _ => some .wait
  | .readWait _ | .readCopy _ _ | .readEnd _ _ _ | .writeLoop _ _ _ | .writeEnd _ | .closeEnd _
  | .closeDone => some .pipe
  | .consLoop _ _ => some .cons
  | .sleepStart _ | .sleepLoop _ _ => some .ticks
  | _ => none

/-- The process is inside `piperead` (`writable = false`) or `pipewrite`. -/
def Pc.uses (writable : Bool) : Pc → Bool
  | .acquire _ next | .wakeup _ _ next | .sleep _ _ next => next.uses writable
  | .readWait _ | .readCopy _ _ | .readEnd _ _ _ => !writable
  | .writeLoop _ _ _ | .writeEnd _ => writable
  | _ => false

inductive Call where
  | fork
  | exit (status : Int)
  | wait (addr : Nat)
  | kill (pid : Int)
  | piperead (n : Int)
  | pipewrite (n : Int)
  | pipeclose (writable : Bool)
  | consoleread (n : Int)
  | sleep (n : Int)
deriving DecidableEq, Repr

/-- Where a call starts. -/
def Call.start : Call → Pc
  | .fork => .forkScan 0
  | .exit status => .acquire .wait (.exitReparent status 0)
  | .wait addr => .acquire .wait (.waitScan addr 0 false)
  | .kill pid => .killScan pid 0
  | .piperead n => .acquire .pipe (.readWait n)
  | .pipewrite n => .acquire .pipe (.writeLoop n 0 false)
  | .pipeclose writable => .acquire .pipe (.closeEnd writable)
  | .consoleread n => .acquire .cons (.consLoop n.toNat n.toNat)
  | .sleep n => .acquire .ticks (.sleepStart n)

/-- What the trace records: a process has exited, and a `wait` by `i` has returned process `j`. -/
inductive Event where
  | exited (j : Fin NPROC) (pid status : Int)
  | reaped (i j : Fin NPROC) (pid status : Int)
deriving DecidableEq, Repr

/-- The machine. `ret i` is what the last call of process `i` returned. -/
structure State where
  slot : Fin NPROC → Slot
  pc : Fin NPROC → Pc
  held : Lock → Option (Fin NPROC)
  pipe : Pipe
  cons : Cons
  ticks : Nat
  nextpid : Int
  ret : Fin NPROC → Int
  trace : List Event

/-- What the memory does in a step: whether a copy or an allocation succeeds, the byte that is copied
    in, and the pages of a new process. -/
structure Outcome where
  ok : Bool
  byte : UInt8
  trapframe : Nat
  pagetable : Nat
deriving DecidableEq, Repr

/-- What happens next: a process makes a system call or runs on, the scheduler picks a process or takes
    the hart from it, a character or a clock tick arrives, an interrupt wakes a process. -/
inductive Action where
  | call (i : Fin NPROC) (c : Call)
  | run (i : Fin NPROC) (o : Outcome)
  | sched (i : Fin NPROC)
  | yield (i : Fin NPROC)
  | input (ch : UInt8)
  | tick
  | intr (j : Fin NPROC) (c : Chan)
deriving DecidableEq, Repr

end Xv6n.Sched
