import Xv6n.Fs.Call

/-!
# A small disk

The state in which the first process starts, and a disk of 64 blocks with an empty root directory, as `mkfs`
makes one, for runs of the model.
-/

namespace Xv6n.Fs
open Lib

/-- The first process starts in the root directory; nothing else is in use (C `userinit`). -/
def State.boot [Superblock] (disk : Nat → Block) : State where
  log := .initlog Superblock.logstart Superblock.nlog
  disk := disk
  cache := fun _ => none
  bufLock := fun _ => none
  inode := fun ip =>
    if ip = 0 then ⟨ROOTDEV, ROOTINO, 1, none, false, .zero⟩ else ⟨0, 0, 0, none, false, .zero⟩
  file := fun _ => ⟨.none, 0, false, false, none, 0, 0⟩
  proc := fun i => if i = 0 then ⟨.live, some 0, fun _ => none⟩ else ⟨.unused, none, fun _ => none⟩
  trace := []

namespace Sample

lemma log_le : 2 ≤ 2 := Nat.le_refl 2

/-- A disk of 64 blocks: 30 of the log, one of inodes, one of the free map, and data from block 34 on. -/
@[reducible] def superblock : Superblock where
  size := 64
  ninodes := 16
  nlog := 30
  logstart := 2
  inodestart := 32
  bmapstart := 33
  datastart := 34
  log_le := log_le
  inode_le := by decide
  bmap_le := by decide
  data_le := by decide
  size_le := by decide
  size_lt := by decide
  root_lt := by decide
  ninodes_le := by decide

/-- The root directory: one block, with the entries `.` and `..`. -/
def root : Dinode := ⟨T_DIR, 0, 0, 1, 32, fun k => if k = 0 then 34 else 0⟩

def disk (b : Nat) : Block :=
  if b = 32 then Dinode.store .zero (ioff ROOTINO) root
  else if b = 33 then .ofFn fun j => if j < 4 then 255 else if j = 4 then 7 else 0
  else if b = 34 then paste (paste .zero 0 (dirent ROOTINO dot)) 16 (dirent ROOTINO dotdot)
  else .zero

def start : State := @State.boot superblock disk

end Sample

end Xv6n.Fs
