import Xv6n.Lib.Threads
import Xv6n.Vm.Kernel

/-!
# The open-file table

The reference counts of `kernel/file.c` and everything that takes or drops a reference: `open`, `dup`, `pipe`,
`close`, `fork` and `exit`, as programs of atomic actions that any number of processes interleave. An action is
what runs under `ftable.lock` or under a pipe's lock, or one access to a descriptor table, which only its own
process touches, or the parent until `fork` makes the child runnable.

What the calls find elsewhere is part of the call: whether `open` finds an inode, whether `kalloc`, `copyout` and
`uvmcopy` succeed, which slot `allocproc` finds. A pipe is named by the number of its allocation, so two pipes
never share a name although they may have had the same page; `closes` and `frees` count what is done to it.
-/

namespace Xv6n.Ftable
open Lib Function

abbrev FileId : Type := Fin NFILE
abbrev Fd : Type := Fin NOFILE

/-- A process slot: unused, being made by `fork`, able to make system calls, or exited. -/
inductive Life where
  | unused
  | used
  | live
  | zombie
deriving DecidableEq

/-- A pipe (C `struct pipe`), with the number of `pipeclose` calls for each end (the write end is `true`) and of
    `kfree` calls for its page. -/
structure Pipe where
  readopen : Bool
  writeopen : Bool
  closes : Bool → Nat
  frees : Nat

/-- The file table, the descriptor tables, the process slots, and the pipes allocated so far. -/
structure State (ι : Type) where
  file : FileId → File
  ofile : ι → Fd → Option FileId
  life : ι → Life
  pipe : Nat → Pipe
  npipe : Nat

/-- The panics of `file.c`. -/
inductive Stop where
  | filedup
  | fileclose
deriving DecidableEq

inductive Act (ι : Type) : Type → Type where
  | filealloc : Act ι (Option FileId)
  | filedup (f : FileId) : Act ι PUnit
  | fileclose (f : FileId) : Act ι (Option File)
  | setFile (f : FileId) (type : FileType) (readable writable : Bool) : Act ι PUnit
  | setPipe (f : FileId) (readable writable : Bool) (pi : Nat) : Act ι PUnit
  | kalloc (ok : Bool) : Act ι (Option Nat)
  | pipeclose (pi : Nat) (writable : Bool) : Act ι Bool
  | kfree (pi : Nat) : Act ι PUnit
  | getFd (fd : Fd) : Act ι (Option FileId)
  | setFd (fd : Fd) (f : Option FileId) : Act ι PUnit
  | allocproc (np : ι) : Act ι Bool
  | freeproc (np : ι) : Act ι PUnit
  | setChild (np : ι) (fd : Fd) (f : FileId) : Act ι PUnit
  | runnable (np : ι) : Act ι PUnit
  | zombie : Act ι PUnit
  | reap (pp : ι) : Act ι PUnit

abbrev FileM (ι : Type) := Prog (Act ι)

def freeFile (file : FileId → File) : Option FileId := (List.finRange NFILE).find? fun f => (file f).ref = 0

variable {ι : Type} [DecidableEq ι]

namespace State

def setFile (s : State ι) (f : FileId) (x : File) : State ι := { s with file := update s.file f x }

def setPipe (s : State ι) (pi : Nat) (x : Pipe) : State ι := { s with pipe := update s.pipe pi x }

def setFd (s : State ι) (i : ι) (fd : Fd) (f : Option FileId) : State ι :=
  { s with ofile := update s.ofile i (update (s.ofile i) fd f) }

def setLife (s : State ι) (i : ι) (x : Life) : State ι := { s with life := update s.life i x }

end State

/-- One end is closed (the part of C `pipeclose` under the lock). -/
def Pipe.close (pi : Pipe) (writable : Bool) : Pipe :=
  { pi with
    readopen := pi.readopen && writable
    writeopen := pi.writeopen && !writable
    closes := update pi.closes writable (pi.closes writable + 1) }

/-- What an action of process `i` does. -/
def act (i : ι) : {β : Type} → Act ι β → EStateM Stop (State ι) β
  | _, .filealloc => do
    let s ← get
    match freeFile s.file with
    | none => return none
    | some f =>
      set (s.setFile f { s.file f with ref := 1 })
      return some f
  | _, .filedup f => do
    let s ← get
    if (s.file f).ref < 1 then
      throw .filedup
    set (s.setFile f { s.file f with ref := (s.file f).ref + 1 })
  | _, .fileclose f => do
    let s ← get
    if (s.file f).ref < 1 then
      throw .fileclose
    if 0 < (s.file f).ref - 1 then
      set (s.setFile f { s.file f with ref := (s.file f).ref - 1 })
      return none
    set (s.setFile f { s.file f with ref := 0, type := .none })
    return some (s.file f)
  | _, .setFile f type readable writable =>
    modify fun s => s.setFile f { s.file f with type := type, readable := readable, writable := writable }
  | _, .setPipe f readable writable pi =>
    modify fun s => s.setFile f
      { s.file f with type := .pipe, readable := readable, writable := writable, pipe := pi }
  | _, .kalloc ok => do
    let s ← get
    if ok = false then
      return none
    set { s.setPipe s.npipe ⟨true, true, fun _ => 0, 0⟩ with npipe := s.npipe + 1 }
    return some s.npipe
  | _, .pipeclose pi writable => do
    let s ← get
    let x := (s.pipe pi).close writable
    set (s.setPipe pi x)
    return x.readopen = false && x.writeopen = false
  | _, .kfree pi => modify fun s => s.setPipe pi { s.pipe pi with frees := (s.pipe pi).frees + 1 }
  | _, .getFd fd => do return (← get).ofile i fd
  | _, .setFd fd f => modify fun s => s.setFd i fd f
  | _, .allocproc np => do
    let s ← get
    if s.life np ≠ .unused then
      return false
    set (s.setLife np .used)
    return true
  | _, .freeproc np => modify fun s => s.setLife np .unused
  | _, .setChild np fd f => modify fun s => s.setFd np fd (some f)
  | _, .runnable np => modify fun s => s.setLife np .live
  | _, .zombie => modify fun s => s.setLife i .zombie
  | _, .reap pp => modify fun s => if s.life pp = .zombie then s.setLife pp .unused else s

open Prog (perform)

/-- Drop a reference; the last one closes the file (C `fileclose`, less the `iput` of an inode). -/
def fileclose (f : FileId) : FileM ι PUnit := do
  match ← perform (.fileclose f) with
  | none => return
  | some ff =>
    if ff.type = .pipe then
      if ← perform (.pipeclose ff.pipe ff.writable) then
        perform (.kfree ff.pipe)

/-- The loop of `fdalloc` over the descriptors that are left. -/
def fdallocLoop (f : FileId) : List Fd → FileM ι (Option Fd)
  | [] => return none
  | fd :: l => do
    match ← perform (.getFd fd) with
    | none =>
      perform (.setFd fd (some f))
      return some fd
    | some _ => fdallocLoop f l

def fdalloc (f : FileId) : FileM ι (Option Fd) := fdallocLoop f (List.finRange NOFILE)

def argfd (fd : Nat) : FileM ι (Option (Fd × FileId)) :=
  if h : fd < NOFILE then do
    match ← perform (.getFd ⟨fd, h⟩) with
    | none => return none
    | some f => return some (⟨fd, h⟩, f)
  else
    return none

/-- C `sys_dup`. -/
def sysDup (fd : Nat) : FileM ι PUnit := do
  match ← argfd fd with
  | none => return
  | some (_, f) =>
    match ← fdalloc f with
    | none => return
    | some _ => perform (.filedup f)

/-- C `sys_close`. -/
def sysClose (fd : Nat) : FileM ι PUnit := do
  match ← argfd fd with
  | none => return
  | some (fd, f) =>
    perform (.setFd fd none)
    fileclose f

/-- C `sys_open`, from where it has found an inode that it may open. -/
def sysOpen (type : FileType) (readable writable : Bool) : FileM ι PUnit := do
  match ← perform .filealloc with
  | none => return
  | some f =>
    match ← fdalloc f with
    | none => fileclose f
    | some _ => perform (.setFile f type readable writable)

/-- C `pipealloc`; `mem` says whether there is a page for the pipe. -/
def pipealloc (mem : Bool) : FileM ι (Option (FileId × FileId)) := do
  match ← perform .filealloc with
  | none => return none
  | some f0 =>
    match ← perform .filealloc with
    | none =>
      fileclose f0
      return none
    | some f1 =>
      match ← perform (.kalloc mem) with
      | none =>
        fileclose f0
        fileclose f1
        return none
      | some pi =>
        perform (.setPipe f0 true false pi)
        perform (.setPipe f1 false true pi)
        return some (f0, f1)

/-- C `sys_pipe`; `copyout` says whether both descriptors can be copied out. -/
def sysPipe (mem copyout : Bool) : FileM ι PUnit := do
  match ← pipealloc mem with
  | none => return
  | some (rf, wf) =>
    match ← fdalloc rf with
    | none =>
      fileclose rf
      fileclose wf
    | some fd0 =>
      match ← fdalloc wf with
      | none =>
        perform (.setFd fd0 none)
        fileclose rf
        fileclose wf
      | some fd1 =>
        if copyout = false then
          perform (.setFd fd0 none)
          perform (.setFd fd1 none)
          fileclose rf
          fileclose wf

/-- The loop of `fork` over the descriptors that are left. -/
def forkLoop (np : ι) : List Fd → FileM ι PUnit
  | [] => return
  | fd :: l => do
    match ← perform (.getFd fd) with
    | none => forkLoop np l
    | some f =>
      perform (.filedup f)
      perform (.setChild np fd f)
      forkLoop np l

/-- C `fork`; `np` is the slot that `allocproc` looks at, `mem` says whether `uvmcopy` succeeds. -/
def fork (np : ι) (mem : Bool) : FileM ι PUnit := do
  if ← perform (.allocproc np) then
    if mem = false then
      perform (.freeproc np)
    else
      forkLoop np (List.finRange NOFILE)
      perform (.runnable np)

/-- The loop of `exit` over the descriptors that are left. -/
def exitLoop : List Fd → FileM ι PUnit
  | [] => return
  | fd :: l => do
    match ← perform (.getFd fd) with
    | none => exitLoop l
    | some f =>
      fileclose f
      perform (.setFd fd none)
      exitLoop l

/-- C `exit`. -/
def exit : FileM ι PUnit := do
  exitLoop (List.finRange NOFILE)
  perform .zombie

/-- The system calls, with what they find elsewhere. -/
inductive Call (ι : Type) where
  | open (device readable writable : Bool)
  | openFails
  | dup (fd : Nat)
  | close (fd : Nat)
  | pipe (mem copyout : Bool)
  | fork (np : ι) (mem : Bool)
  | exit
  | wait (pp : ι)

def call : Call ι → FileM ι PUnit
  | .open device readable writable => sysOpen (if device then .device else .inode) readable writable
  | .openFails => return
  | .dup fd => sysDup fd
  | .close fd => sysClose fd
  | .pipe mem copyout => sysPipe mem copyout
  | .fork np mem => fork np mem
  | .exit => exit
  | .wait pp => perform (.reap pp)

def step : Pool ι (Act ι) Stop (State ι) PUnit → Turn ι (Call ι) → Option (Pool ι (Act ι) Stop (State ι) PUnit) :=
  Pool.step (fun i => act i) (fun _ => false) fun s i c => if s.life i = .live then some (call c) else none

def start (file : FileId → File) (init : ι) (pipe : Nat → Pipe) : State ι where
  file f := { file f with type := .none, ref := 0 }
  ofile _ _ := none
  life i := if i = init then .live else .unused
  pipe := pipe
  npipe := 0

end Xv6n.Ftable
