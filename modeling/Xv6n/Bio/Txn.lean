import Xv6n.Bio.Machine
import Xv6n.Lib.Threads
import Xv6n.Log.Disk

/-!
# Transactions over the buffer cache

The log of `kernel/log.c` on top of the buffer cache. Any number of processes call `bread`, `brelse`,
`log_write`, `begin_op` and `end_op` and modify the buffers that they hold; the last `end_op` runs `commit`,
whose `bread`, `bwrite` and `brelse` interleave with those of the other processes. The steps of the cache are
those of `Xv6n.Bio.Machine`, and a critical section of `log.lock` is one action.

The processes keep to the rules of the file system: a buffer is modified only by its holder and inside a
transaction, and only a block of the log's device outside of the log is passed to `log_write`. An action that
breaks the rules is not enabled.
-/

namespace Xv6n.Bio.Txn
open Lib Function

/-- The cache and the log. `inOp i` says that process `i` is between `begin_op` and `end_op`, `latest n` is
    what was last written to block `n`, and `installed` counts the blocks of the transaction that
    `install_trans` has written home and unpinned. -/
structure State (ι : Type) where
  bio : Bio.State ι
  dev : Nat
  log : Log
  inOp : ι → Bool
  latest : Nat → Block
  installed : Nat

inductive Stop where
  | blocked
  | bio (p : Bio.Panic)
  | bwrite
  | log (e : LogPanic)

def Stop.blocks : Stop → Bool
  | .blocked => true
  | _ => false

inductive Act : Type → Type where
  | bget (k : Key) : Act BufId
  | acquiresleep : Act Unit
  | read : Act Unit
  | releasesleep (b : BufId) : Act Unit
  | unref : Act Unit
  | change (b : BufId) (d : Block) : Act Unit
  | data (b : BufId) : Act Block
  | memmove (b : BufId) (d : Block) : Act Unit
  | bwrite (b : BufId) : Act Unit
  | bunpin (b : BufId) : Act Unit
  | logWrite (b : BufId) : Act Unit
  | beginOp : Act Unit
  | endOp : Act Bool
  | getLog : Act Log
  | clear : Act Unit
  | endCommit : Act Unit

variable {ι : Type} [DecidableEq ι]

namespace State

/-- The contents of buffer `b`. -/
def setData (s : State ι) (b : BufId) (d : Block) : State ι :=
  { s with bio := s.bio.setBuf b { s.bio.cache.buf b with data := d } }

/-- Block `n` lies in the log. -/
def InLog (s : State ι) (n : Nat) : Prop := s.log.start ≤ n ∧ n < s.log.start + s.log.size

instance (s : State ι) (n : Nat) : Decidable (s.InLog n) := inferInstanceAs (Decidable (_ ∧ _))

/-- Process `i` holds buffer `b`. -/
def Holds (s : State ι) (i : ι) (b : BufId) : Prop := (s.bio.cache.buf b).lock = some i

instance (s : State ι) (i : ι) (b : BufId) : Decidable (s.Holds i b) := inferInstanceAs (Decidable (_ = _))

end State

namespace Act
variable (i : ι)

def runBio (m : Bio.Move ι) : EStateM Stop (State ι) Unit := do
  let s ← get
  match s.bio.step m with
  | none => throw .blocked
  | some x =>
    match x.panicked with
    | some p => throw (.bio p)
    | none => set { s with bio := x }

/-- Find the buffer of a block (C `bget`). -/
def runBget (k : Key) : EStateM Stop (State ι) BufId := do
  runBio (.bget i k)
  let s ← get
  match s.bio.pc i with
  | .wait b _ => return b
  | _ => throw .blocked

def runChange (b : BufId) (d : Block) : EStateM Stop (State ι) Unit := do
  let s ← get
  if s.Holds i b ∧ s.inOp i then
    let x := s.bio.cache.buf b
    set { s.setData b d with
      latest := if x.dev = s.dev then update s.latest x.blockno d else s.latest }
  else
    throw .blocked

/-- Write a buffer to the disk (C `bwrite`). -/
def runBwrite (b : BufId) : EStateM Stop (State ι) Unit := do
  let s ← get
  let x := s.bio.cache.buf b
  if s.Holds i b then
    set { s with bio := { s.bio with disk := update s.bio.disk ⟨x.dev, x.blockno⟩ x.data } }
  else
    throw .bwrite

def runBunpin (b : BufId) : EStateM Stop (State ι) Unit := do
  runBio (.bunpin i b)
  modify fun s => { s with installed := s.installed + 1 }

/-- Note a modified block in the log, and pin its buffer if it is a new one (C `log_write`). -/
def runLogWrite (b : BufId) : EStateM Stop (State ι) Unit := do
  let s ← get
  let x := s.bio.cache.buf b
  if s.Holds i b ∧ x.dev = s.dev ∧ ¬ s.InLog x.blockno then
    match s.log.logWrite x.blockno with
    | .error e => throw (.log e)
    | .ok lg =>
      if x.blockno ∈ s.log.block then
        set { s with log := lg }
      else
        runBio (.bpin i b)
        modify fun s => { s with log := lg, latest := update s.latest x.blockno x.data }
  else
    throw .blocked

/-- Start a transaction (C `begin_op`). -/
def runBeginOp : EStateM Stop (State ι) Unit := do
  let s ← get
  if s.inOp i then
    throw .blocked
  else
    match s.log.beginOp with
    | none => throw .blocked
    | some lg => set { s with log := lg, inOp := update s.inOp i true }

/-- The first critical section of `end_op`; the result is `do_commit` (C `end_op`). -/
def runEndOp : EStateM Stop (State ι) Bool := do
  let s ← get
  if s.inOp i then
    match s.log.endOp with
    | .error e => throw (.log e)
    | .ok (lg, last) =>
      set { s with log := lg, inOp := update s.inOp i false }
      return last
  else
    throw .blocked

/-- What an action of process `i` does. -/
def run : {β : Type} → Act β → EStateM Stop (State ι) β
  | _, .bget k => runBget i k
  | _, .acquiresleep => runBio (.acquiresleep i)
  | _, .read => runBio (.read i)
  | _, .releasesleep b => runBio (.brelse i b)
  | _, .unref => runBio (.unref i)
  | _, .change b d => runChange i b d
  | _, .data b => do return ((← get).bio.cache.buf b).data
  | _, .memmove b d => modify fun s => s.setData b d
  | _, .bwrite b => runBwrite i b
  | _, .bunpin b => runBunpin i b
  | _, .logWrite b => runLogWrite i b
  | _, .beginOp => runBeginOp i
  | _, .endOp => runEndOp i
  | _, .getLog => do return (← get).log
  | _, .clear => modify fun s => { s with log := { s.log with block := [] }, installed := 0 }
  | _, .endCommit => modify fun s => { s with log := s.log.endCommit }

end Act

abbrev TxnM := Prog Act

namespace TxnM
open Prog

def bread (k : Key) : TxnM BufId := do
  let b ← perform (.bget k)
  perform .acquiresleep
  perform .read
  return b

def brelse (b : BufId) : TxnM Unit := do
  perform (.releasesleep b)
  perform .unref

variable (dev start : Nat)

/-- The loop of `write_log` from index `tail` on, over the blocks that are left (C `write_log`). -/
def writeLog (tail : Nat) : List Nat → TxnM Unit
  | [] => pure ()
  | n :: l => do
    let dst ← bread ⟨dev, start + tail + 1⟩
    let src ← bread ⟨dev, n⟩
    let d ← perform (.data src)
    perform (.memmove dst d)
    perform (.bwrite dst)
    brelse src
    brelse dst
    writeLog (tail + 1) l

/-- Write the in-memory log header to disk (C `write_head`). -/
def writeHead : TxnM Unit := do
  let buf ← bread ⟨dev, start⟩
  let lg ← perform .getLog
  let d ← perform (.data buf)
  perform (.memmove buf (d.putHead lg.block))
  perform (.bwrite buf)
  brelse buf

/-- The loop of `install_trans` from index `tail` on, over the blocks that are left (C `install_trans`). -/
def installTrans (tail : Nat) : List Nat → TxnM Unit
  | [] => pure ()
  | n :: l => do
    let lbuf ← bread ⟨dev, start + tail + 1⟩
    let dbuf ← bread ⟨dev, n⟩
    let d ← perform (.data lbuf)
    perform (.memmove dbuf d)
    perform (.bwrite dbuf)
    perform (.bunpin dbuf)
    brelse lbuf
    brelse dbuf
    installTrans (tail + 1) l

def commit : TxnM Unit := do
  let lg ← perform .getLog
  if 0 < lg.n then
    writeLog dev start 0 lg.block
    writeHead dev start
    installTrans dev start 0 lg.block
    perform .clear
    writeHead dev start

/-- End a transaction (C `end_op`). -/
def endOp : TxnM Unit := do
  let last ← perform .endOp
  if last then
    commit dev start
    perform .endCommit

end TxnM

inductive Call where
  | bread (k : Key)
  | change (b : BufId) (d : Block)
  | logWrite (b : BufId)
  | brelse (b : BufId)
  | beginOp
  | endOp

def Call.prog (dev start : Nat) : Call → TxnM Unit
  | .bread k => do
    let _ ← TxnM.bread k
  | .change b d => Prog.perform (.change b d)
  | .logWrite b => Prog.perform (.logWrite b)
  | .brelse b => TxnM.brelse b
  | .beginOp => Prog.perform .beginOp
  | .endOp => TxnM.endOp dev start

abbrev Sys (ι : Type) := Pool ι Act Stop (State ι) Unit

def step : Sys ι → Turn ι Call → Option (Sys ι) :=
  Pool.step (fun i _ e => e.run i) Stop.blocks fun s _ c => some (c.prog s.dev s.log.start)

/-- The machine after `binit` and `initlog` on an empty log. -/
def start (next prev : Ptr → Ptr) (data : BufId → Block) (disk : Key → Block) (dev logstart nlog : Nat) : Sys ι :=
  .rest
    { bio := .start next prev data disk
      dev := dev
      log := .initlog logstart nlog
      inOp := fun _ => false
      latest := fun n => disk ⟨dev, n⟩
      installed := 0 }

end Xv6n.Bio.Txn
