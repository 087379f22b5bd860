import Xv6n.Lib.Exec
import Xv6n.Vm.Exec

/-!
# Runs of the kernel

The machine boots, starts the first process, and then processes make system calls one after the
other, with any register contents. Between calls a program may store to its own memory and the
scheduler may change which processes run. Calls that return, succeed or fail, are steps; a call that
panics or sleeps for ever is none.
-/

namespace Xv6n
open Lib

/-- A system call with its argument registers; `fs` is what `namei` finds at that moment. -/
inductive Call where
  | fork
  | exit (status : UInt64)
  | wait (addr : UInt64)
  | pipe (fdarray : UInt64)
  | kill (pid : UInt64)
  | exec (path argv : UInt64) (fs : List UInt8 → Option (List UInt8))
  | dup (fd : UInt64)
  | sbrk (n : UInt64)
  | close (fd : UInt64)

def Active (s : Kernel) (i : Fin NPROC) : Prop :=
  (s.proc i).state = .sleeping ∨ (s.proc i).state = .runnable ∨ (s.proc i).state = .running

instance (s : Kernel) (i : Fin NPROC) : Decidable (Active s i) := inferInstanceAs (Decidable (_ ∨ _ ∨ _))

/-- The kernel with another entry for process `i`. -/
def Kernel.withProc (s : Kernel) (i : Fin NPROC) (p : Proc) : Kernel :=
  { s with proc := Function.update s.proc i p }

namespace KernM
variable [Layout]

def callFn (i : Fin NPROC) : Call → KernM Int
  | .fork => fork i
  | .exit _ => return 0
  | .wait addr => wait i addr.toNat
  | .pipe fdarray => sysPipe i fdarray.toNat
  | .kill pid => kill (toInt pid.toNat)
  | .exec path argv fs => sysExec i path.toNat argv.toNat fs
  | .dup fd => sysDup i (toInt fd.toNat)
  | .sbrk n => sysSbrk i (toInt n.toNat)
  | .close fd => sysClose i (toInt fd.toNat)

/-- Run a system call of process `i` and store what it returns; `exit` does not return. -/
def syscall (i : Fin NPROC) (c : Call) : KernM PUnit := do
  match c with
  | .exit status => exit i (toInt status.toNat)
  | c =>
    let ret ← callFn i c
    let p := (← get).proc i
    store64 (tfA0 p.trapframe) (toU64 ret)

/-- A page that the kernel takes while it boots: for its page table, a kernel stack or the rings of
    the disk driver. All of these panic if there is none. -/
def bootAlloc (id : Fin NCPU) : KernM PUnit := do
  match ← kalloc id with
  | none => throw .null
  | some pa => modify fun s => { s with boot := pa :: s.boot }

/-- The end of the boot. `uvmfirst` does not notice if `mappages` fails, so whether the first program
    is in memory is part of the result. -/
def bootEnd : KernM Bool := do
  userinit
  let s ← get
  match s.initproc with
  | none => return false
  | some i => return (← walkaddr (s.proc i).pagetable 0).isSome

/-- A store of the user's program. The hardware also wants `PTE_W`. -/
def userStore (i : Fin NPROC) (va : Nat) (b : UInt8) : KernM PUnit := do
  let p := (← get).proc i
  match ← walkaddr p.pagetable va with
  | none => return
  | some pa => putBytes (pa + va % PGSIZE) [b]

end KernM

inductive Kernel.Action where
  | boot (id : Fin NCPU)
  | userinit
  | call (i : Fin NPROC) (c : Call)
  | store (i : Fin NPROC) (va : UInt64) (b : UInt8)
  | sched (i : Fin NPROC) (state : ProcState)

def Kernel.after {α : Type} (s : Kernel) (x : KernM α) : Option Kernel :=
  match x s with
  | .ok _ s' => some s'
  | .error _ _ => none

variable [Layout]

/-- One step of the machine. -/
def Kernel.step (s : Kernel) : Kernel.Action → Option Kernel
  | .boot id => if s.initproc = none then s.after (KernM.bootAlloc id) else none
  | .userinit =>
    if s.initproc = none then
      match KernM.bootEnd s with
      | .ok true s' => some s'
      | _ => none
    else
      none
  | .call i c => if Active s i then s.after (KernM.syscall i c) else none
  | .store i va b => if Active s i then s.after (KernM.userStore i va.toNat b) else none
  | .sched i state =>
    if Active s i ∧ (state = .sleeping ∨ state = .runnable ∨ state = .running) then
      some (s.withProc i { s.proc i with state := state })
    else
      none

/-- The tables of the kernel before `kinit`. -/
structure Kernel.Blank (s : Kernel) : Prop where
  freelist : ∀ i, s.freelist i = 0
  boot : s.boot = []
  proc : ∀ i, (s.proc i).state = .unused ∧ (s.proc i).sz = 0 ∧ (s.proc i).pagetable = 0 ∧
    (s.proc i).trapframe = 0 ∧ ∀ fd, (s.proc i).ofile fd = none
  file : ∀ f, (s.file f).type = .none ∧ (s.file f).ref = 0
  initproc : s.initproc = none

/-- A state that the machine can be in after `kinit`. -/
def Kernel.Reachable (s : Kernel) : Prop :=
  ∃ s0 s1 as, Kernel.Blank s0 ∧ KernM.kinit s0 = .ok ⟨⟩ s1 ∧ Lib.exec Kernel.step s1 as = some s

end Xv6n
