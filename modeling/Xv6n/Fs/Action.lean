import Xv6n.Fs.Format
import Xv6n.Lib.Prog
import Xv6n.Log.Basic

/-!
# The state of the file system and the atomic actions on it

The buffer cache, the log, the inode table, the file table and, of each process, its current directory and
descriptors. An action is what a process does without another one in between: a critical section of a
spin-lock, the acquisition or release of a sleep-lock, or an access to what a sleep-lock that it holds
protects. An action can block, on a sleep-lock that is taken or in `begin_op`, and it can panic.

The buffer cache is a partial map from block numbers to contents. Which buffer is recycled is left open: a
buffer that is neither locked nor pinned by the log may leave the cache at any time. A commit is one action;
its steps are those of `Xv6n.Log`.

`State.trace` records, newest first, what has happened. No action reads it.
-/

namespace Xv6n.Fs
open Lib Function

abbrev Pid : Type := Fin NPROC

/-- A place in the inode table, the C `struct inode *`. -/
abbrev Slot : Type := Fin NINODE

/-- In-memory inode (C `struct inode`). -/
structure Inode where
  dev : Nat
  inum : Nat
  ref : Int
  lock : Option Pid
  valid : Bool
  d : Dinode

inductive FdType where
  | none
  | pipe
  | inode
  | device
deriving DecidableEq

/-- Open file (C `struct file`). -/
structure File where
  type : FdType
  ref : Int
  readable : Bool
  writable : Bool
  ip : Option Slot
  off : UInt32
  major : Int16

def File.onInode (f : File) : Prop := f.type = .inode ∨ f.type = .device

instance (f : File) : Decidable f.onInode := inferInstanceAs (Decidable (_ ∨ _))

/-- Whether a place in the process table is free, is being filled by `fork`, or runs. -/
inductive ProcState where
  | unused
  | used
  | live
deriving DecidableEq

/-- What the file system keeps of a process (C `struct proc`). -/
structure Proc where
  state : ProcState
  cwd : Option Slot
  ofile : Fin NOFILE → Option (Fin NFILE)

inductive Panic where
  | log (e : LogPanic)
  | brelse
  | freeBlock
  | igetNoInodes
  | ilock
  | ilockNoType
  | iunlock
  | schedLocks
  | bmap
  | dirlookupNotDir
  | dirlookupRead
  | dirlinkRead
  | isdirempty
  | unlinkNlink
  | unlinkWritei
  | filedup
  | fileclose
  | fileread
  | filewrite
  | initExiting

inductive Stop where
  | blocked
  | panic (p : Panic)

/-- What the trace records. `free` is an `iput` that begins to free its inode and `drop` the end of it;
    `fault` is a copy from user memory that stops part-way through a block; `write` is the end of a copy to
    block `bn` of inode `n`, which is block `b` of the disk, and `trunc` the begin of a truncation. -/
inductive Event where
  | beginOp (i : Pid)
  | endOp (i : Pid)
  | iget (i : Pid) (ip : Slot)
  | iput (i : Pid) (ip : Slot)
  | free (i : Pid) (ip : Slot)
  | drop (i : Pid) (ip : Slot)
  | logWrite (i : Pid) (b : Nat)
  | fault (i : Pid) (b : Nat)
  | write (n bn b : Nat)
  | trunc (n : Nat)
deriving DecidableEq

/-- The state of the file system. `bufLock b` is the holder of the sleep-lock of the buffer of block `b`. -/
structure State where
  log : Log
  disk : Nat → Block
  cache : Nat → Option Block
  bufLock : Nat → Option Pid
  inode : Slot → Inode
  file : Fin NFILE → File
  proc : Pid → Proc
  trace : List Event

namespace State

/-- The contents of a block as the file system sees it, through the buffer cache. -/
def view (s : State) (b : Nat) : Block := (s.cache b).getD (s.disk b)

def setCache (s : State) (b : Nat) (d : Option Block) : State :=
  { s with cache := update s.cache b d }

def setBufLock (s : State) (b : Nat) (l : Option Pid) : State :=
  { s with bufLock := update s.bufLock b l }

def setInode (s : State) (ip : Slot) (x : Inode) : State :=
  { s with inode := update s.inode ip x }

def setFile (s : State) (f : Fin NFILE) (x : File) : State :=
  { s with file := update s.file f x }

def setProc (s : State) (i : Pid) (x : Proc) : State :=
  { s with proc := update s.proc i x }

def setOfile (s : State) (i : Pid) (fd : Fin NOFILE) (f : Option (Fin NFILE)) : State :=
  s.setProc i { s.proc i with ofile := update (s.proc i).ofile fd f }

def emit (s : State) (e : Event) : State := { s with trace := e :: s.trace }

def commit (s : State) : State :=
  { s with
    disk := fun b => if b ∈ s.log.block then s.view b else s.disk b
    log := { s.log with block := [], committing := false } }

end State

inductive Act : Type → Type where
  | panic (p : Panic) : Act Empty
  | note (e : Event) : Act Unit
  | bread (b : Nat) : Act Block
  | bset (b : Nat) (d : Block) : Act Unit
  | copyin (b o : Nat) (l : List UInt8) (m : Nat) : Act Bool
  | logWrite (b : Nat) : Act Unit
  | brelse (b : Nat) : Act Unit
  | beginOp : Act Unit
  | endOp : Act Unit
  | iget (dev inum : Nat) : Act Slot
  | idup (ip : Slot) : Act Unit
  | idupCwd : Act Slot
  | getInode (ip : Slot) : Act Inode
  | setInode (ip : Slot) (d : Dinode) : Act Unit
  | setValid (ip : Slot) (v : Bool) : Act Unit
  | acquiresleep (ip : Slot) : Act Unit
  | releasesleep (ip : Slot) : Act Unit
  | iputTest (ip : Slot) : Act Bool
  | iputDrop (ip : Slot) : Act Unit
  | filealloc : Act (Option (Fin NFILE))
  | filedup (f : Fin NFILE) : Act Unit
  | filecloseTest (f : Fin NFILE) : Act (Option File)
  | getFile (f : Fin NFILE) : Act File
  | openFile (f : Fin NFILE) (ip : Slot) (major : Option Int16) (readable writable : Bool) : Act Unit
  | addOff (f : Fin NFILE) (r : UInt32) : Act Unit
  | getCwd : Act (Option Slot)
  | setCwd (ip : Slot) : Act Unit
  | getOfile (fd : Fin NOFILE) : Act (Option (Fin NFILE))
  | fdalloc (f : Fin NFILE) : Act (Option (Fin NOFILE))
  | clearOfile (fd : Fin NOFILE) : Act Unit
  | allocproc : Act (Option Pid)
  | freeproc (j : Pid) : Act Unit
  | childOfile (j : Pid) (fd : Fin NOFILE) (f : Fin NFILE) : Act Unit
  | childCwd (j : Pid) (ip : Slot) : Act Unit
  | zombie : Act Unit

namespace Act

def fail {α : Type} (p : Panic) : EStateM Stop State α := throw (.panic p)

def block {α : Type} : EStateM Stop State α := throw .blocked

variable (i : Pid)

/-- The lock of a buffer, and its contents (C `bread`). -/
def runBread (b : Nat) : EStateM Stop State Block := do
  let s ← get
  if s.bufLock b = none then
    set ((s.setCache b (some (s.view b))).setBufLock b (some i))
    return s.view b
  else
    block

/-- Release a buffer (C `brelse`). -/
def runBrelse (b : Nat) : EStateM Stop State Unit := do
  let s ← get
  if s.bufLock b = some i then
    set (s.setBufLock b none)
  else
    fail .brelse

/-- Note a modified block in the log (C `log_write`). -/
def runLogWrite (b : Nat) : EStateM Stop State Unit := do
  let s ← get
  match s.log.logWrite b with
  | .error e => fail (.log e)
  | .ok lg => set ({ s with log := lg }.emit (.logWrite i b))

/-- Start a transaction (C `begin_op`). -/
def runBeginOp : EStateM Stop State Unit := do
  let s ← get
  match s.log.beginOp with
  | none => block
  | some lg => set ({ s with log := lg }.emit (.beginOp i))

/-- End a transaction, and commit if it was the last one (C `end_op`). -/
def runEndOp : EStateM Stop State Unit := do
  let s ← get
  match s.log.endOp with
  | .error e => fail (.log e)
  | .ok (lg, last) =>
    let s := { s with log := lg }.emit (.endOp i)
    set (if last then s.commit else s)

/-- Find an inode in the table or make an entry for it (C `iget`). -/
def runIget (dev inum : Nat) : EStateM Stop State Slot := do
  let s ← get
  match (List.finRange NINODE).find? fun ip =>
      0 < (s.inode ip).ref ∧ (s.inode ip).dev = dev ∧ (s.inode ip).inum = inum with
  | some ip =>
    set ((s.setInode ip { s.inode ip with ref := (s.inode ip).ref + 1 }).emit (.iget i ip))
    return ip
  | none =>
    match (List.finRange NINODE).find? fun ip => (s.inode ip).ref = 0 with
    | none => fail .igetNoInodes
    | some ip =>
      set ((s.setInode ip { s.inode ip with dev := dev, inum := inum, ref := 1, valid := false }).emit
        (.iget i ip))
      return ip

/-- Take another reference (C `idup`). -/
def runIdup (ip : Slot) : EStateM Stop State Unit :=
  modify fun s => s.setInode ip { s.inode ip with ref := (s.inode ip).ref + 1 }

/-- Take the sleep-lock of an inode (C `acquiresleep`). -/
def runAcquiresleep (ip : Slot) : EStateM Stop State Unit := do
  let s ← get
  if (s.inode ip).lock = none then
    set (s.setInode ip { s.inode ip with lock := some i })
  else
    block

/-- Release the sleep-lock of an inode (C `releasesleep`). -/
def runReleasesleep (ip : Slot) : EStateM Stop State Unit :=
  modify fun s => s.setInode ip { s.inode ip with lock := none }

/-- The first section of `itable.lock` in `iput`. If the inode has to be freed then its sleep-lock is taken
    inside the section, where a process cannot sleep; otherwise the reference is dropped (C `iput`). -/
def runIputTest (ip : Slot) : EStateM Stop State Bool := do
  let s ← get
  let x := s.inode ip
  if x.ref = 1 ∧ x.valid ∧ x.d.nlink = 0 then
    if x.lock = none then
      set ((s.setInode ip { x with lock := some i }).emit (.free i ip))
      return true
    else
      fail .schedLocks
  else
    set ((s.setInode ip { x with ref := x.ref - 1 }).emit (.iput i ip))
    return false

/-- The second section of `itable.lock` in `iput`. -/
def runIputDrop (ip : Slot) : EStateM Stop State Unit :=
  modify fun s => (s.setInode ip { s.inode ip with ref := (s.inode ip).ref - 1 }).emit (.drop i ip)

/-- Allocate a file structure (C `filealloc`). -/
def runFilealloc : EStateM Stop State (Option (Fin NFILE)) := do
  let s ← get
  match (List.finRange NFILE).find? fun f => (s.file f).ref = 0 with
  | none => return none
  | some f =>
    set (s.setFile f { s.file f with ref := 1 })
    return some f

/-- Take another reference to a file (C `filedup`). -/
def runFiledup (f : Fin NFILE) : EStateM Stop State Unit := do
  let s ← get
  if (s.file f).ref < 1 then
    fail .filedup
  else
    set (s.setFile f { s.file f with ref := (s.file f).ref + 1 })

/-- The section of `ftable.lock` in `fileclose`; returns what is to be closed with the last reference
    (C `fileclose`). -/
def runFilecloseTest (f : Fin NFILE) : EStateM Stop State (Option File) := do
  let s ← get
  let x := s.file f
  if x.ref < 1 then
    fail .fileclose
  else if 0 < x.ref - 1 then
    set (s.setFile f { x with ref := x.ref - 1 })
    return none
  else
    set (s.setFile f { x with ref := 0, type := .none })
    return some x

/-- Copy `m` bytes to offset `o` of a buffer; only the bytes `l` are mapped (C `either_copyin`). -/
def runCopyin (b o : Nat) (l : List UInt8) (m : Nat) : EStateM Stop State Bool := do
  let s ← get
  if l.length = m ∨ l = [] then
    set (s.setCache b (some (paste (s.view b) o l)))
  else
    set ((s.setCache b (some (paste (s.view b) o l))).emit (.fault i b))
  return l.length = m

/-- The lowest free descriptor, set to a file (C `fdalloc`). -/
def runFdalloc (f : Fin NFILE) : EStateM Stop State (Option (Fin NOFILE)) := do
  let s ← get
  match (List.finRange NOFILE).find? fun fd => (s.proc i).ofile fd = none with
  | none => return none
  | some fd =>
    set (s.setOfile i fd (some f))
    return some fd

/-- Reserve a free place in the process table (C `allocproc`). -/
def runAllocproc : EStateM Stop State (Option Pid) := do
  let s ← get
  match (List.finRange NPROC).find? fun j => (s.proc j).state = .unused with
  | none => return none
  | some j =>
    set (s.setProc j { s.proc j with state := .used })
    return some j

/-- What each action does when process `i` performs it. -/
def run : {β : Type} → Act β → EStateM Stop State β
  | _, .panic p => fail p
  | _, .note e => modify fun s => s.emit e
  | _, .bread b => runBread i b
  | _, .bset b d => modify fun s => s.setCache b (some d)
  | _, .copyin b o l m => runCopyin i b o l m
  | _, .logWrite b => runLogWrite i b
  | _, .brelse b => runBrelse i b
  | _, .beginOp => runBeginOp i
  | _, .endOp => runEndOp i
  | _, .iget dev inum => runIget i dev inum
  | _, .idup ip => runIdup ip
  | _, .idupCwd => do
    match ((← get).proc i).cwd with
    | none => block
    | some ip =>
      runIdup ip
      return ip
  | _, .getInode ip => return (← get).inode ip
  | _, .setInode ip d => modify fun s => s.setInode ip { s.inode ip with d := d }
  | _, .setValid ip v => modify fun s => s.setInode ip { s.inode ip with valid := v }
  | _, .acquiresleep ip => runAcquiresleep i ip
  | _, .releasesleep ip => runReleasesleep ip
  | _, .iputTest ip => runIputTest i ip
  | _, .iputDrop ip => runIputDrop i ip
  | _, .filealloc => runFilealloc
  | _, .filedup f => runFiledup f
  | _, .filecloseTest f => runFilecloseTest f
  | _, .getFile f => return (← get).file f
  | _, .openFile f ip major readable writable =>
    modify fun s => s.setFile f (match major with
      | some major => { s.file f with type := .device, major, ip := some ip, readable, writable }
      | none => { s.file f with type := .inode, off := 0, ip := some ip, readable, writable })
  | _, .addOff f r => modify fun s => s.setFile f { s.file f with off := (s.file f).off + r }
  | _, .getCwd => return ((← get).proc i).cwd
  | _, .setCwd ip => modify fun s => s.setProc i { s.proc i with cwd := some ip }
  | _, .getOfile fd => return ((← get).proc i).ofile fd
  | _, .fdalloc f => runFdalloc i f
  | _, .clearOfile fd => modify fun s => s.setOfile i fd none
  | _, .allocproc => runAllocproc
  | _, .freeproc j => modify fun s => s.setProc j { s.proc j with state := .unused }
  | _, .childOfile j fd f => modify fun s => s.setOfile j fd (some f)
  | _, .childCwd j ip => modify fun s => s.setProc j { s.proc j with state := .live, cwd := some ip }
  | _, .zombie => modify fun s => s.setProc i { s.proc i with state := .unused, cwd := none }

end Act

abbrev FsM : Type → Type 1 := Prog Act

end Xv6n.Fs
