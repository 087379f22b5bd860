import Xv6n.Block
import Xv6n.Lib.Wp
import Xv6n.Log.Basic

/-!
# The log on disk

The sequential code of `kernel/log.c` that writes the disk: `commit` with its four parts, and
`recover_from_log`. A `Machine` is a disk, the valid buffers of the buffer cache with the pins that
`log_write` puts on them, and the in-memory log.

* The power fails after `budget` single-block writes: the write that finds the budget used up does
  not happen and the program stops with `crash`. A panic also stops the program.
* At every `bread` the cache may drop any set of buffers that no pin protects; `evict` chooses which.
* `commits` counts the calls of `commit` that have returned.
-/

namespace Xv6n

/-- On-disk number of logged blocks (C `lh->n`, an `int`). -/
def Block.headN (buf : Block) : Int := Int.bmod (buf.le 0 4) (2 ^ 32)

/-- The header that `read_head` finds in a block: `lh->block[0 .. lh->n)`. -/
def Block.getHead (buf : Block) : List Nat :=
  (List.range buf.headN.toNat).map fun i => buf.le (4 * (i + 1)) 4

/-- The loop of `write_head` from index `i` on. -/
def Block.putBlocks (buf : Block) (i : Nat) : List Nat → Block
  | [] => buf
  | b :: bs => (buf.putLe (4 * (i + 1)) 4 b).putBlocks (i + 1) bs

/-- The block that `write_head` stores over a header buffer. -/
def Block.putHead (buf : Block) (bs : List Nat) : Block :=
  (buf.putLe 0 4 bs.length).putBlocks 0 bs

/-- A disk with its buffer cache and log. -/
structure Machine where
  disk : Nat → Block
  cache : Nat → Option Block
  pin : Nat → Nat
  log : Log
  budget : Nat
  evict : Nat → Nat → Bool
  clock : Nat
  commits : Nat

/-- Why a program stopped before its end. -/
inductive Stop where
  | crash
  | panic (e : LogPanic)
  | sleep
deriving DecidableEq, Repr

namespace Machine

/-- The buffers that are still cached after the evictions of this instant. -/
def evicted (m : Machine) : Nat → Option Block :=
  fun x => if m.evict m.clock x ∧ m.pin x = 0 then none else m.cache x

/-- What a `bread` of block `b` returns at this instant. -/
def view (m : Machine) (b : Nat) : Block := (m.evicted b).getD (m.disk b)

/-- The machine after a `bread` of block `b`. -/
def loaded (m : Machine) (b : Nat) : Machine :=
  { m with cache := Function.update m.evicted b (some (m.view b)), clock := m.clock + 1 }

end Machine

abbrev LogM := EStateM Stop Machine

namespace LogM

/-- The contents of block `b`, from the cache or the disk. -/
def bread (b : Nat) : LogM Block := fun m => .ok (m.view b) (m.loaded b)

/-- Write a buffer with contents `d` to block `b`. -/
def bwrite (b : Nat) (d : Block) : LogM PUnit := fun m =>
  if m.budget = 0 then
    .error .crash m
  else
    .ok ⟨⟩ { m with
      budget := m.budget - 1
      disk := Function.update m.disk b d
      cache := Function.update m.cache b (some d) }

def bpin (b : Nat) : LogM PUnit :=
  modify fun m => { m with pin := Function.update m.pin b (m.pin b + 1) }

def bunpin (b : Nat) : LogM PUnit :=
  modify fun m => { m with pin := Function.update m.pin b (m.pin b - 1) }

/-- The loop of `install_trans` from index `tail` on, over the blocks that are left. -/
def installLoop (recovering : Bool) (tail : Nat) : List Nat → LogM PUnit
  | [] => pure ⟨⟩
  | b :: bs => do
    let m ← get
    let lbuf ← bread (m.log.start + tail + 1)
    let _ ← bread b
    bwrite b lbuf
    if recovering = false then
      bunpin b
    installLoop recovering (tail + 1) bs

/-- Copy committed blocks from the log to their home location (C `install_trans`). -/
def installTrans (recovering : Bool) : LogM PUnit := do
  let m ← get
  installLoop recovering 0 m.log.block

/-- Read the log header from disk into the in-memory log header (C `read_head`). -/
def readHead : LogM PUnit := do
  let m ← get
  let buf ← bread m.log.start
  modify fun m => { m with log := { m.log with block := buf.getHead } }

/-- Write the in-memory log header to disk (C `write_head`). -/
def writeHead : LogM PUnit := do
  let m ← get
  let buf ← bread m.log.start
  bwrite m.log.start (buf.putHead m.log.block)

/-- Forget the logged blocks (C `log.lh.n = 0`). -/
def clearHead : LogM PUnit := modify fun m => { m with log := { m.log with block := [] } }

/-- Replay a committed transaction, then clear the log (C `recover_from_log`). -/
def recoverFromLog : LogM PUnit := do
  readHead
  installTrans true
  clearHead
  writeHead

/-- The loop of `write_log` from index `tail` on, over the blocks that are left. -/
def writeLogLoop (tail : Nat) : List Nat → LogM PUnit
  | [] => pure ⟨⟩
  | b :: bs => do
    let m ← get
    let _ ← bread (m.log.start + tail + 1)
    let src ← bread b
    bwrite (m.log.start + tail + 1) src
    writeLogLoop (tail + 1) bs

/-- Copy modified blocks from the cache to the log (C `write_log`). -/
def writeLog : LogM PUnit := do
  let m ← get
  writeLogLoop 0 m.log.block

def commit : LogM PUnit := do
  let m ← get
  if 0 < m.log.n then
    writeLog
    writeHead
    installTrans false
    clearHead
    writeHead

/-- Record a modified buffer in the log and pin it on its first write (C `log_write`). -/
def logWrite (b : Nat) : LogM PUnit := do
  let m ← get
  match m.log.logWrite b with
  | .error e => throw (.panic e)
  | .ok lg =>
    if b ∉ m.log.block then
      bpin b
    modify fun m => { m with log := lg }

/-- Open an operation (C `begin_op`); alone on the machine, a caller that is not admitted would sleep
    forever. -/
def beginOp : LogM PUnit := do
  let m ← get
  match m.log.beginOp with
  | none => throw .sleep
  | some lg => set { m with log := lg }

/-- Close an operation and commit if it was the last one (C `end_op`). -/
def endOp : LogM PUnit := do
  let m ← get
  match m.log.endOp with
  | .error e => throw (.panic e)
  | .ok (lg, doCommit) =>
    set { m with log := lg }
    if doCommit then
      commit
      modify fun m => { m with log := m.log.endCommit, commits := m.commits + 1 }

/-- Change block `b` to `d` as a file-system operation does: read the buffer, modify it, log it. -/
def update (b : Nat) (d : Block) : LogM PUnit := do
  let _ ← bread b
  modify fun m => { m with cache := Function.update m.cache b (some d) }
  logWrite b

def updates : List (Nat × Block) → LogM PUnit
  | [] => pure ⟨⟩
  | (b, d) :: us => do
    update b d
    updates us

/-- One transaction: `begin_op`, its updates, `end_op`. -/
def runTx (tx : List (Nat × Block)) : LogM PUnit := do
  beginOp
  updates tx
  endOp

def runTxs : List (List (Nat × Block)) → LogM PUnit
  | [] => pure ⟨⟩
  | tx :: txs => do
    runTx tx
    runTxs txs

end LogM

end Xv6n
