import Mathlib.Data.Fintype.Basic
import Xv6n.Block

/-!
# The disk driver and its device

`kernel/virtio_disk.c`, and a device that takes each head from the available ring once, carries out the
requests that it has taken in any order, and puts each head into the used ring once. Any number of processes
call `virtio_disk_rw` and any number of harts take the interrupt, under `vdisk_lock`; the device does not know
about the lock. What the driver does to memory that the device does not look at is one step; the write of a
ring entry and the increment of its index are steps of their own. A process that sleeps may wake at any time.

A pointer in a descriptor names what it points to. `ι` are the processes, `κ` the interrupts and `β` the
buffers; a buffer is passed to `virtio_disk_rw` by the process that holds its sleep-lock, so it is in one call
at a time.

`State.trace` records, newest first, what has happened to each head. No step reads it.
-/

namespace Xv6n.Virtio
open Function

abbrev NUM : Nat := 8

abbrev DescId : Type := Fin NUM

instance lawful_descId : LawfulBEq DescId := inferInstance

/-- The flags of descriptors (C `VRING_DESC_F_NEXT`, `VRING_DESC_F_WRITE`). -/
def VRING_DESC_F_NEXT : Nat := 1

@[inherit_doc VRING_DESC_F_NEXT] def VRING_DESC_F_WRITE : Nat := 2

/-- The types of requests (C `VIRTIO_BLK_T_IN`, `VIRTIO_BLK_T_OUT`). -/
def VIRTIO_BLK_T_IN : Nat := 0

@[inherit_doc VIRTIO_BLK_T_IN] def VIRTIO_BLK_T_OUT : Nat := 1

/-- What a descriptor points to: nothing, `disk.ops[i]`, `b->data` or `disk.info[i].status`. -/
inductive Addr (β : Type) where
  | null
  | op (i : DescId)
  | data (b : β)
  | status (i : DescId)

/-- Descriptor (C `struct virtq_desc`). -/
structure Desc (β : Type) where
  addr : Addr β
  len : Nat
  flags : Nat
  next : Nat

/-- Header of a request (C `struct virtio_blk_req`). -/
structure BlkReq where
  type : Nat
  reserved : Nat
  sector : Nat

/-- What the driver keeps of a request (C `disk.info[i]`). -/
structure Info (β : Type) where
  b : Option β
  status : UInt8

/-- The panics of the driver. `null` is a null `struct buf *` in `virtio_disk_intr`, and `device` a chain that
    the device cannot follow. -/
inductive Panic where
  | freeDesc1
  | freeDesc2
  | intrStatus
  | null
  | device
deriving DecidableEq

/-- The memory that driver and device share, and the driver's own (C `struct disk`); `usedIdx` is
    `disk.used->idx` and `seenIdx` is `disk.used_idx`. -/
structure Disk (β : Type) where
  desc : DescId → Desc β
  availRing : DescId → DescId
  availIdx : UInt16
  usedRing : DescId → DescId
  usedIdx : UInt16
  free : DescId → Bool
  seenIdx : UInt16
  info : DescId → Info β
  ops : DescId → BlkReq

/-- The three descriptors of a request, its buffer and its direction. -/
structure Chain (β : Type) where
  d0 : DescId
  d1 : DescId
  d2 : DescId
  b : β
  write : Bool

def Chain.descs {β : Type} (c : Chain β) : List DescId := [c.d0, c.d1, c.d2]

namespace Disk
variable {β : Type}

def noDesc : Desc β := ⟨.null, 0, 0, 0⟩

/-- Find a free descriptor and mark it non-free (C `alloc_desc`). -/
def allocDesc (s : Disk β) : Option (DescId × Disk β) :=
  ((List.finRange NUM).find? fun i => s.free i).map fun i =>
    (i, { s with free := update s.free i false })

/-- Mark a descriptor as free (C `free_desc`). -/
def freeDesc (s : Disk β) (i : Nat) : Except Panic (Disk β) :=
  if h : i < NUM then
    if s.free ⟨i, h⟩ then
      .error .freeDesc2
    else
      .ok { s with
        desc := update s.desc ⟨i, h⟩ noDesc
        free := update s.free ⟨i, h⟩ true }
  else
    .error .freeDesc1

/-- A descriptor by the number in `next`. -/
def desc? (s : Disk β) (i : Nat) : Option (Desc β) := if h : i < NUM then some (s.desc ⟨i, h⟩) else none

/-- Free a chain of descriptors (C `free_chain`); a chain that comes back to a descriptor panics, so it has
    at most `NUM` of them. -/
def freeChain : Nat → Disk β → Nat → Except Panic (Disk β)
  | 0, s, _ => .ok s
  | fuel + 1, s, i => do
    let d := (s.desc? i).getD noDesc
    let s ← s.freeDesc i
    if d.flags &&& VRING_DESC_F_NEXT ≠ 0 then
      freeChain fuel s d.next
    else
      .ok s

/-- Allocate three descriptors, or none (C `alloc3_desc`). -/
def alloc3Desc (s : Disk β) : Except Panic (Option (DescId × DescId × DescId) × Disk β) :=
  match s.allocDesc with
  | none => .ok (none, s)
  | some (i0, s) =>
    match s.allocDesc with
    | none => do
      let s ← s.freeDesc i0
      return (none, s)
    | some (i1, s) =>
      match s.allocDesc with
      | none => do
        let s ← s.freeDesc i0
        let s ← s.freeDesc i1
        return (none, s)
      | some (i2, s) => .ok (some (i0, i1, i2), s)

def req (blockno : Nat) (write : Bool) : BlkReq where
  type := if write then VIRTIO_BLK_T_OUT else VIRTIO_BLK_T_IN
  reserved := 0
  sector := blockno * (BSIZE / 512) % 2 ^ 32

def desc0 (c : Chain β) : Desc β := ⟨.op c.d0, 16, VRING_DESC_F_NEXT, c.d1⟩

def desc1 (c : Chain β) : Desc β :=
  ⟨.data c.b, BSIZE, (if c.write then 0 else VRING_DESC_F_WRITE) ||| VRING_DESC_F_NEXT, c.d2⟩

def desc2 (c : Chain β) : Desc β := ⟨.status c.d0, 1, VRING_DESC_F_WRITE, 0⟩

/-- Format the three descriptors of a request (the middle of C `virtio_disk_rw`). -/
def format (s : Disk β) (blockno : Nat) (c : Chain β) : Disk β :=
  { s with
    ops := update s.ops c.d0 (req blockno c.write)
    desc := update (update (update s.desc c.d0 (desc0 c)) c.d1 (desc1 c)) c.d2 (desc2 c)
    info := update s.info c.d0 ⟨some c.b, 0xff⟩ }

end Disk

/-- The device: the available entries that it has taken, the heads that it works on, and the head that it has
    put into the used ring without having moved the index. -/
structure Device where
  seen : UInt16
  taken : List DescId
  done : Option DescId

inductive Event (β : Type) where
  | issue (b : β)
  | take
  | complete (b : β)
  | finish (b : β)
  | free

/-- Where a process is in `virtio_disk_rw`: outside, about to take the lock before it looks for descriptors,
    there with the lock, before the ring entry is written, before the index is moved, at the test of
    `b->disk`, or asleep on the buffer. -/
inductive Pc (β : Type) where
  | idle
  | enter (b : β) (write : Bool)
  | alloc (b : β) (write : Bool)
  | ring (c : Chain β)
  | publish (c : Chain β)
  | check (c : Chain β)
  | asleep (c : Chain β)

/-- The machine. `busy b` is `b->disk`, and `platter n` what the disk has from sector `n` on. -/
structure State (ι κ β : Type) where
  disk : Disk β
  busy : β → Bool
  data : β → Block
  blockno : β → Nat
  lock : Option (ι ⊕ κ)
  pc : ι → Pc β
  dev : Device
  platter : Nat → Block
  trace : List (DescId × Event β)
  panicked : Option Panic

inductive Move (ι κ β : Type) where
  | call (i : ι) (b : β) (write : Bool)
  | acquire (i : ι)
  | run (i : ι)
  | intr (k : κ)
  | intrRun (k : κ)
  | take
  | complete (h : DescId)
  | publish

/-- The buffer that a process is in `virtio_disk_rw` with. -/
def Pc.buf {β : Type} : Pc β → Option β
  | .idle => none
  | .enter b _ | .alloc b _ => some b
  | .ring c | .publish c | .check c | .asleep c => some c.b

def Pc.published {β : Type} : Pc β → Bool
  | .check _ | .asleep _ => true
  | _ => false

def Pc.locked {β : Type} : Pc β → Bool
  | .alloc .. | .ring _ | .publish _ | .check _ => true
  | _ => false

def Pc.chain {β : Type} : Pc β → Option (Chain β)
  | .idle | .enter .. | .alloc .. => none
  | .ring c | .publish c | .check c | .asleep c => some c

namespace State
variable {ι κ β : Type} [Fintype ι] [DecidableEq ι] [DecidableEq κ] [DecidableEq β]

/-- Process `i` goes on at `x`. -/
@[simps -fullyApplied] def goto (s : State ι κ β) (i : ι) (x : Pc β) : State ι κ β :=
  { s with pc := update s.pc i x }

@[simps -fullyApplied] def emit (s : State ι κ β) (h : DescId) (e : Event β) : State ι κ β :=
  { s with trace := (h, e) :: s.trace }

def slot (x : UInt16) : DescId := Fin.ofNat NUM x.toNat

def unread (s : State ι κ β) : Nat := (s.disk.availIdx - s.dev.seen).toNat

/-- The machine after `virtio_disk_init`; the queue memory has been zeroed, and all descriptors are free. -/
def start (busy : β → Bool) (data : β → Block) (blockno : β → Nat) (platter : Nat → Block) : State ι κ β where
  disk :=
    { desc := fun _ => Disk.noDesc
      availRing := fun _ => 0
      availIdx := 0
      usedRing := fun _ => 0
      usedIdx := 0
      free := fun _ => true
      seenIdx := 0
      info := fun _ => ⟨none, 0⟩
      ops := fun _ => ⟨0, 0, 0⟩ }
  busy := busy
  data := data
  blockno := blockno
  lock := none
  pc := fun _ => .idle
  dev := ⟨0, [], none⟩
  platter := platter
  trace := []
  panicked := none

/-- The next step of process `i`, which has the lock (C `virtio_disk_rw`). -/
def runRw (s : State ι κ β) (i : ι) : Option (State ι κ β) :=
  match s.pc i with
  | .alloc b w =>
    match s.disk.alloc3Desc with
    | .error p => some { s with panicked := some p }
    | .ok (none, d) => some ({ s with disk := d, lock := none }.goto i (.enter b w))
    | .ok (some (i0, i1, i2), d) =>
      let c : Chain β := ⟨i0, i1, i2, b, w⟩
      some ({ s with disk := d.format (s.blockno b) c, busy := update s.busy b true }.goto i (.ring c))
  | .ring c =>
    some ({ s with disk := { s.disk with
      availRing := update s.disk.availRing (slot s.disk.availIdx) c.d0 } }.goto i (.publish c))
  | .publish c =>
    some (({ s with disk := { s.disk with availIdx := s.disk.availIdx + 1 } }.goto i (.check c)).emit c.d0 (.issue c.b))
  | .check c =>
    if s.busy c.b then
      some ({ s with lock := none }.goto i (.asleep c))
    else
      let d := { s.disk with info := update s.disk.info c.d0 { s.disk.info c.d0 with b := none } }
      match d.freeChain (NUM + 1) c.d0 with
      | .error p => some { s with panicked := some p }
      | .ok d => some (({ s with disk := d, lock := none }.goto i .idle).emit c.d0 .free)
  | _ => none

/-- The next round of the loop of an interrupt, which has the lock (C `virtio_disk_intr`). -/
def runIntr (s : State ι κ β) : State ι κ β :=
  if s.disk.seenIdx ≠ s.disk.usedIdx then
    let id := s.disk.usedRing (slot s.disk.seenIdx)
    if (s.disk.info id).status ≠ 0 then
      { s with panicked := some .intrStatus }
    else
      match (s.disk.info id).b with
      | none => { s with panicked := some .null }
      | some b =>
        { s with
          busy := update s.busy b false
          disk := { s.disk with seenIdx := s.disk.seenIdx + 1 } }.emit id (.finish b)
  else
    { s with lock := none }

/-- The request that the device finds at head `h`: its header, its buffer and the place for its status. -/
def request (s : State ι κ β) (h : DescId) : Option (BlkReq × β × DescId) := do
  let d0 := s.disk.desc h
  guard (d0.flags = VRING_DESC_F_NEXT)
  let d1 ← s.disk.desc? d0.next
  guard (d1.flags &&& VRING_DESC_F_NEXT ≠ 0)
  let d2 ← s.disk.desc? d1.next
  guard (d2.flags = VRING_DESC_F_WRITE)
  match d0.addr, d1.addr, d2.addr with
  | .op k, .data b, .status j =>
    let r := s.disk.ops k
    guard ((d1.flags &&& VRING_DESC_F_WRITE ≠ 0) ↔ r.type = VIRTIO_BLK_T_IN)
    return (r, b, j)
  | _, _, _ => none

/-- The device carries out the request at head `h` and puts it into the used ring. -/
def complete (s : State ι κ β) (h : DescId) : State ι κ β :=
  match s.request h with
  | none => { s with panicked := some .device }
  | some (r, b, j) =>
    { s with
      data := if r.type = VIRTIO_BLK_T_IN then update s.data b (s.platter r.sector) else s.data
      platter := if r.type = VIRTIO_BLK_T_IN then s.platter else update s.platter r.sector (s.data b)
      disk := { s.disk with
        info := update s.disk.info j { s.disk.info j with status := 0 }
        usedRing := update s.disk.usedRing (slot s.disk.usedIdx) h }
      dev := { s.dev with taken := s.dev.taken.erase h, done := some h } }.emit h (.complete b)

/-- One move. After a panic nothing moves any more. -/
def step (s : State ι κ β) (m : Move ι κ β) : Option (State ι κ β) :=
  if s.panicked.isSome then none else
  match m with
  | .call i b w =>
    match s.pc i with
    | .idle => if ∀ j, (s.pc j).buf ≠ some b then some (s.goto i (.enter b w)) else none
    | _ => none
  | .acquire i =>
    match s.lock, s.pc i with
    | none, .enter b w => some ({ s with lock := some (.inl i) }.goto i (.alloc b w))
    | none, .asleep c => some ({ s with lock := some (.inl i) }.goto i (.check c))
    | _, _ => none
  | .run i => if s.lock = some (.inl i) then s.runRw i else none
  | .intr k => if s.lock = none then some { s with lock := some (.inr k) } else none
  | .intrRun k => if s.lock = some (.inr k) then some s.runIntr else none
  | .take =>
    if s.dev.seen ≠ s.disk.availIdx then
      let h := s.disk.availRing (slot s.dev.seen)
      some ({ s with dev := { s.dev with seen := s.dev.seen + 1, taken := h :: s.dev.taken } }.emit h .take)
    else none
  | .complete h => if h ∈ s.dev.taken ∧ s.dev.done = none then some (s.complete h) else none
  | .publish =>
    match s.dev.done with
    | some _ =>
      some { s with disk := { s.disk with usedIdx := s.disk.usedIdx + 1 }, dev := { s.dev with done := none } }
    | none => none

end State

end Xv6n.Virtio
