import Xv6n.Fs.Writei
import Xv6n.Fs.Image

/-!
# A write fits its reservation

`begin_op` reserves `MAXOPBLOCKS` blocks of the log for each transaction, and `filewrite` cuts a write into
transactions of at most `writeMax` bytes. In one of them the data, the free map, an indirect block and the
inode come to no more than the reservation.
-/

namespace Xv6n.Fs
open Lib Function

section
variable [Superblock] {i : Pid} {F : Stop → Prop} {a a' : Solo} {ip : Slot} {f : Fin NFILE} {s : State} {src : Src}
  {m : Nat}

/-- One transaction of `filewrite`, which writes `m` bytes. -/
def filewriteOp (i : Pid) (f : Fin NFILE) (ip : Slot) (src : Src) (m : Nat) : FsM Int := do
  beginOp
  ilock ip
  let x ← perform (.getFile f)
  let r ← writei ip src x.off (.ofNat m)
  when (r > 0) (perform (.addOff f (.ofNat r.toNat)))
  iunlock i ip
  endOp
  return r

lemma filewriteLoop_succ {n fuel k : Nat} :
    filewriteLoop i f ip src n (fuel + 1) k =
      if k < n then
        filewriteOp i f ip (src.drop k) (min (n - k) writeMax) >>= fun r =>
          if r = (min (n - k) writeMax : Nat) then filewriteLoop i f ip src n fuel (k + min (n - k) writeMax)
          else pure k
      else pure k := by
  unfold filewriteOp
  simp only [Prog.bind_assoc]
  rfl

/-- The inode `ip` is in use in a file system without holes. Nobody is in the middle of a call,
    and the log has room for a transaction. -/
structure Quiet (ip : Slot) (s : State) : Prop where
  bufs : ∀ b, s.bufLock b = none
  size : s.log.size = Superblock.nlog
  admits : s.log.admits
  ops : 0 ≤ s.log.outstanding
  room : s.log.n + MAXOPBLOCKS < Superblock.nlog
  nodup : s.log.block.Nodup
  ref : 1 ≤ (s.inode ip).ref
  lock : (s.inode ip).lock = none
  cached : (s.inode ip).valid = true → (s.inode ip).d = dinodeAt s.view (s.inode ip).inum
  live : Live (dinodeAt s.view) (s.inode ip).inum
  sound : Sound (dinodeAt s.view) s.view

def Solo.locked (i : Pid) (s : State) (ip : Slot) : Solo :=
  ((Solo.start s).setOps (s.log.outstanding + 1)).setInode ip
    { s.inode ip with lock := some i, valid := true, d := dinodeAt s.view (s.inode ip).inum }

namespace Quiet

lemma start_is (h : Quiet ip s) : (Solo.start s).Is i s :=
  ⟨rfl, rfl, rfl, rfl, h.bufs, h.size, rfl, h.admits.1, fun _ hb => .inl (List.mem_toFinset.2 hb), h.nodup,
    [], rfl, rfl⟩

lemma old_card (h : Quiet ip s) : (Solo.start s).old.card = s.log.n := List.toFinset_card_of_nodup h.nodup

lemma ran_begin (h : Quiet ip s) :
    Does i F beginOp (Solo.start s) () ((Solo.start s).setOps (s.log.outstanding + 1)) := by
  refine ran_beginOp ?_
  rw [h.old_card]
  exact h.admits.2

lemma ran_lock (h : Quiet ip s) :
    Does i F (ilock ip) ((Solo.start s).setOps (s.log.outstanding + 1)) () (Solo.locked i s ip) := by
  have hd : ((Solo.start s).setOps (s.log.outstanding + 1)).dinode ip = dinodeAt s.view (s.inode ip).inum := by
    unfold Solo.dinode
    split
    · exact h.cached ‹_›
    · rfl
  have := ran_ilock (i := i) (F := F) (a := (Solo.start s).setOps (s.log.outstanding + 1)) h.ref h.lock
    (Finset.notMem_empty _) (hd ▸ h.live.2)
  rwa [hd] at this

lemma editing (h : Quiet ip s) : Editing ip (Solo.locked i s ip) := by
  have hfiles : (Solo.locked i s ip).files ip = dinodeAt s.view := by
    unfold Solo.files Solo.locked
    simp [Solo.setInode, Solo.setOps, Solo.start, Solo.inum, Solo.d]
  have hinum : (Solo.locked i s ip).inum ip = (s.inode ip).inum := by
    unfold Solo.locked
    simp [Solo.setInode, Solo.inum]
  refine ⟨?_, ?_, rfl, ?_⟩
  · rw [hfiles, hinum]
    exact h.live
  · rw [hfiles]
    exact h.sound
  · have := h.ops
    show 1 ≤ s.log.outstanding + 1
    omega

lemma room_charge (h : Quiet ip s) {off n : UInt32} (hn : n.toNat ≤ writeMax) :
    (Solo.locked i s ip).Room ((Solo.locked i s ip).pay ip + charge off.toNat n.toNat) := by
  have hcharge : charge off.toNat n.toNat ≤ 2 * 3 + 1 := charge_le hn
  have hpay : (Solo.locked i s ip).pay ip ≤ 2 := Solo.pay_le
  have hlogged : (Solo.locked i s ip).logged.card = 0 := rfl
  have hold : (Solo.locked i s ip).old.card = s.log.n := h.old_card
  have hadmits := h.admits.2
  have hops := h.ops
  have hroom := h.room
  unfold Solo.Room
  rw [hlogged, hold]
  simp only [MAXOPBLOCKS, LOGSIZE] at *
  omega

end Quiet

/-- After the write the inode is still locked, and the log holds no more than was reserved. -/
structure Fits (i : Pid) (ip : Slot) (s : State) (a : Solo) : Prop where
  since : a.since = s.trace
  ref : 1 ≤ (a.inode ip).ref
  lock : (a.inode ip).lock = some i
  card : a.logged.card ≤ MAXOPBLOCKS

lemma Writei.fits {off n : UInt32} {r : Int} (h : Quiet ip s) (hn : n.toNat ≤ writeMax)
    (hw : Writei ip src off n (Solo.locked i s ip) r a) : Fits i ip s a := by
  have hself : (Solo.locked i s ip).inode ip =
      { s.inode ip with lock := some i, valid := true, d := dinodeAt s.view (s.inode ip).inum } := update_self ..
  cases hw with
  | refused _ =>
    refine ⟨rfl, ?_, ?_, Nat.zero_le _⟩
    · rw [hself]
      exact h.ref
    · rw [hself]
  | @wrote r a' _ _ hw =>
    have hino := congrFun hw.edits.inode ip
    rw [update_self, hself] at hino
    have hset : ((a'.setD ip ((a'.d ip).grow r.1)).flush ip).inode ip =
        { a'.inode ip with d := (a'.d ip).grow r.1 } := update_self ..
    refine ⟨?_, ?_, ?_, ?_⟩
    · show a'.since = _
      rw [hw.edits.rest]
      rfl
    · rw [hset, hino]
      exact h.ref
    · rw [hset, hino]
    · -- the data and the free map, the indirect block, and now the inode
      have hcard : ((a'.setD ip ((a'.d ip).grow r.1)).flush ip).logged.card ≤ a'.logged.card + 1 :=
        Finset.card_insert_le ..
      have hcost := hw.cost
      have hcharge : charge off.toNat n.toNat ≤ 2 * 3 + 1 := charge_le hn
      have hpay : (Solo.locked i s ip).pay ip ≤ 2 := Solo.pay_le
      have hlogged : (Solo.locked i s ip).logged.card = 0 := rfl
      rw [Nat.sub_zero] at hcost
      simp only [MAXOPBLOCKS]
      omega

/-- One transaction of `filewrite` logs no more blocks than it has reserved. -/
theorem filewriteOp_fits (h : Quiet ip s) (hm : m ≤ writeMax) :
    ∃ r s' es, (filewriteOp i f ip src m).run (Act.run i) s = .ok r s' ∧ s'.trace = es ++ s.trace ∧
      (touched es).card ≤ MAXOPBLOCKS := by
  have hnat : (UInt32.ofNat m).toNat ≤ writeMax := (Nat.mod_le ..).trans hm
  have hran : Ran i (fun _ => False) (filewriteOp i f ip src m) (Solo.start s)
      fun _ a => a.since = s.trace ∧ a.logged.card ≤ MAXOPBLOCKS := by
    refine .next h.ran_begin (.next h.ran_lock (.next ran_getFile ?_))
    refine .bind (ran_writei h.editing (.inr (h.room_charge hnat))) fun r a hw => ?_
    have hfits := hw.fits h hnat
    refine .bind (Q := fun _ a => Fits i ip s a) ?_ fun _ a hfits => ?_
    · refine Tracks.ite (fun _ => ran_addOff.mono ?_) fun _ => .ret hfits
      rintro _ _ ⟨-, rfl⟩
      exact ⟨hfits.since, hfits.ref, hfits.lock, hfits.card⟩
    · exact .next (ran_iunlock hfits.ref hfits.lock) (.next ran_endOp (.ret ⟨hfits.since, hfits.card⟩))
  obtain ⟨r, s', hrun, a, ⟨hsince, hcard⟩, hs'⟩ := (hran s h.start_is).returns
  obtain ⟨es, htrace, htouched⟩ := hs'.trace
  exact ⟨r, s', es, hrun, hsince ▸ htrace, htouched ▸ hcard⟩

end

section sample
attribute [local instance] Sample.superblock

namespace Sample

def file : Dinode := ⟨T_FILE, 0, 0, 1, 100, fun k => if k = 0 then 35 else 0⟩

def fileDisk (b : Nat) : Block :=
  if b = 32 then Dinode.store (disk 32) (ioff 2) file
  else if b = 33 then .ofFn fun j => if j < 4 then 255 else if j = 4 then 15 else 0
  else disk b

def opened : State :=
  { State.boot fileDisk with
    inode := fun ip => if ip = 1 then ⟨ROOTDEV, 2, 1, none, false, .zero⟩ else (State.boot fileDisk).inode ip
    file := fun _ => ⟨.inode, 1, true, true, some 1, 100, 0⟩ }

lemma live {n : Nat} (h : Live (dinodeAt fileDisk) n) : n = 1 ∨ n = 2 := by
  have hall : ∀ n < 16, (dinodeAt fileDisk n).type ≠ 0 → n = 1 ∨ n = 2 := by decide +kernel
  exact hall n h.1 h.2

lemma slot {n : Nat} (h : Live (dinodeAt fileDisk) n) (p : Place) :
    (dinodeAt fileDisk n).slot fileDisk p = if p = .addr 0 then 33 + n else 0 := by
  have hall : ∀ n < 3, n = 1 ∨ n = 2 → ∀ k : Fin (NDIRECT + 1),
      (dinodeAt fileDisk n).addr k = if k = 0 then 33 + n else 0 := by decide +kernel
  have hn : n < 3 := by
    have := live h
    omega
  have haddr := hall n hn (live h)
  cases p with
  | addr k =>
    rw [Dinode.slot, haddr k]
    simp
  | entry j => exact if_pos (haddr (Fin.last NDIRECT))

lemma sound : Sound (dinodeAt fileDisk) fileDisk where
  reserved := by
    unfold Reserved
    decide +kernel
  range n p h hp := by
    have := live h
    rw [slot h] at hp ⊢
    split at hp
    · rw [if_pos ‹_›]
      show 34 ≤ 33 + n ∧ 33 + n < 64
      omega
    · exact absurd rfl hp
  used n p h hp := by
    have hall : ∀ n < 3, n = 1 ∨ n = 2 → Used fileDisk (33 + n) := by decide +kernel
    have hn := live h
    rw [slot h] at hp ⊢
    split at hp
    · rw [if_pos ‹_›]
      exact hall n (by omega) hn
    · exact absurd rfl hp
  inj n p m q hn hm hp e := by
    rw [slot hn, slot hm] at e
    rw [slot hn] at hp
    split at hp
    · rename_i h1
      rw [if_pos h1] at e
      split at e
      · rename_i h2
        exact ⟨by omega, h1.trans h2.symm⟩
      · omega
    · exact absurd rfl hp
  whole n h bn hbn := by
    have hall : ∀ n < 3, n = 1 ∨ n = 2 → (dinodeAt fileDisk n).size.toNat ≤ BSIZE := by decide +kernel
    have hn := live h
    have hsize := hall n (by omega) hn
    have hzero : bn = 0 := by
      simp only [BSIZE] at *
      omega
    subst hzero
    rw [Dinode.block_eq (by decide), slot h]
    exact (if_pos rfl).trans_ne (by omega)
  size_le n h := by
    have hall : ∀ n < 3, n = 1 ∨ n = 2 → (dinodeAt fileDisk n).size.toNat ≤ BSIZE := by decide +kernel
    have hn := live h
    exact (hall n (by omega) hn).trans (by decide)

lemma quiet : Quiet 1 opened where
  bufs _ := rfl
  size := rfl
  admits := by decide
  ops := by decide
  room := by decide
  nodup := by decide
  ref := by decide
  lock := rfl
  cached := by decide
  live := ⟨by decide, by decide +kernel⟩
  sound := sound

end Sample

/-- Three blocks are written at the end of a file that ends inside of a block. -/
theorem filewriteOp_fits_append : ∃ r s' es,
    (filewriteOp 0 0 1 (.kernel (List.replicate writeMax 1)) writeMax).run (Act.run 0) Sample.opened = .ok r s' ∧
      s'.trace = es ++ Sample.opened.trace ∧ (touched es).card ≤ MAXOPBLOCKS :=
  filewriteOp_fits Sample.quiet le_rfl

end sample

end Xv6n.Fs
