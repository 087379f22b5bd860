import Xv6n.Fs.Contents
import Xv6n.Fs.Reserve

/-!
# Files are byte arrays

What `writei` and `readi` are for: a write overwrites a part of the contents of a file and a read returns a
part of them, as long as the log has room for the blocks that the write touches.
-/

namespace Xv6n.Fs
open Lib

section
variable [Superblock] {i : Pid} {ip : Slot} {s : State} {src : Src} {l : List UInt8} {off n : UInt32}

/-- A transaction is open, the inode `ip` of a well-formed file system is in memory, and nobody is in the
    middle of another call. -/
structure InOp (ip : Slot) (s : State) : Prop where
  bufs : ∀ b, s.bufLock b = none
  size : s.log.size = Superblock.nlog
  idle : s.log.committing = false
  op : 1 ≤ s.log.outstanding
  nodup : s.log.block.Nodup
  live : Live (dinodeAt s.view) (s.inode ip).inum
  sound : Sound (dinodeAt s.view) s.view
  synced : (s.inode ip).d = dinodeAt s.view (s.inode ip).inum

/-- The contents of inode `n`. -/
def State.contents (s : State) (n : Nat) : List UInt8 := (dinodeAt s.view n).read s.view

/-- The first `tot` bytes of `l` have been written to the inode `ip` at offset `off`, as `readi` sees it;
    no other inode has changed. -/
structure Overwritten (i : Pid) (ip : Slot) (off : Nat) (l : List UInt8) (tot : Nat) (s s' : State) : Prop where
  size : (dinodeAt s'.view (s.inode ip).inum).size.toNat =
    max (dinodeAt s.view (s.inode ip).inum).size.toNat (off + tot)
  read : ∀ o k : UInt32, o ≤ (dinodeAt s'.view (s.inode ip).inum).size → o.toNat + k.toNat < 2 ^ 32 →
    ∃ s'', (readi ip .kernel o k).run (Act.run i) s' =
      .ok ((min k.toNat ((dinodeAt s'.view (s.inode ip).inum).size.toNat - o.toNat) : Nat),
        ((overwrite (s.contents (s.inode ip).inum) off (l.take tot)).drop o.toNat).take k.toNat) s''
  others : ∀ n, Live (dinodeAt s.view) n → n ≠ (s.inode ip).inum →
    dinodeAt s'.view n = dinodeAt s.view n ∧ s'.contents n = s.contents n

lemma InOp.start_is (h : InOp ip s) : (Solo.start s).Is i s :=
  ⟨rfl, rfl, rfl, rfl, h.bufs, h.size, rfl, h.idle, fun _ hb => .inl (List.mem_toFinset.2 hb), h.nodup,
    [], rfl, rfl⟩

lemma InOp.settled (h : InOp ip s) : Settled ip (Solo.start s) := ⟨h.live, h.sound, rfl, h.op, h.synced⟩

lemma Stored.overwritten {off tot : Nat} {s' : State} {a : Solo} (h : InOp ip s) (hst : Stored ip off tot (Solo.start s) a)
    (hread : (a.d ip).read a.disk = overwrite (((Solo.start s).d ip).read s.view) off (l.take tot)) (hs' : a.Is i s') :
    Overwritten i ip off l tot s s' := by
  have hinum : a.inum ip = (s.inode ip).inum := by
    rw [Solo.inum, hst.inode, Function.update_self]
    rfl
  have hd : a.d ip = dinodeAt s'.view (s.inode ip).inum := by
    rw [hst.settled.synced, hinum, hs'.disk]
  have hold : (Solo.start s).d ip = dinodeAt s.view (s.inode ip).inum := h.synced
  refine ⟨?_, fun o k ho hk => ?_, fun m hm hne => ?_⟩
  · rw [← hd, hst.size, hold]
  · have hlive := hst.settled.live
    have hwhole := hst.settled.sound.whole _ hlive
    have hsize := hst.settled.sound.size_le _ hlive
    rw [← hst.settled.synced] at hwhole hsize
    have hcopy : ∀ o m, Dst.kernel.copyout o m = true := fun _ _ => rfl
    have hran := ran_readi (i := i) (F := fun _ => False) (n := k) hcopy hwhole hsize hst.settled.bufs (hd ▸ ho) hk
    obtain ⟨r, s'', hrun, _, ⟨rfl, -⟩, -⟩ := (hran s' hs').returns
    refine ⟨s'', hrun.trans ?_⟩
    rw [hread, hd, hold]
    rfl
  · have hsame := hst.others m hm.1 hne
    rw [← hs'.disk] at hsame
    refine ⟨hsame.dinode, ?_⟩
    rw [State.contents, hsame.dinode]
    exact hsame.read hm.2

/-- A write and the reads after it are those of a list of bytes. A write stops early only when no block is
    free, and it fails only if the log has no room for what it may have to log. -/
theorem writei_overwrites (h : InOp ip s) (hoff : off ≤ (dinodeAt s.view (s.inode ip).inum).size)
    (hmax : off.toNat + n.toNat ≤ MAXFILE * BSIZE) (hsrc : src.Holds l) (hlen : l.length = n.toNat) :
    wp ((writei ip src off n).run (Act.run i))
      (fun r s' => ∃ tot ≤ n.toNat, r = (tot : Int) ∧ (tot < n.toNat → Full s'.view) ∧
        Overwritten i ip off.toNat l tot s s')
      (fun e _ => e = .panic (.log .tooBig) ∧
        min LOGSIZE (Superblock.nlog - 1) ≤ s.log.n + (2 + charge off.toNat n.toNat)) s := by
  have hpay : (Solo.start s).pay ip ≤ 2 := Solo.pay_le
  have hold : (Solo.start s).old.card = s.log.n := List.toFinset_card_of_nodup h.nodup
  have hlogged : (Solo.start s).logged.card = 0 := rfl
  have hroom : (Solo.start s).Spare (fun e => e = .panic (.log .tooBig) ∧
      min LOGSIZE (Superblock.nlog - 1) ≤ s.log.n + (2 + charge off.toNat n.toNat))
      ((Solo.start s).pay ip + charge off.toNat n.toNat) := by
    by_cases hr : (Solo.start s).Room ((Solo.start s).pay ip + charge off.toNat n.toNat)
    · exact .inr hr
    · refine .inl ⟨rfl, ?_⟩
      unfold Solo.Room at hr
      omega
  have hd : (Solo.start s).d ip = dinodeAt s.view (s.inode ip).inum := h.synced
  refine wp_mono (ran_writei_stored h.settled hroom (hd ▸ hoff) hmax s h.start_is) ?_
  rintro r s' ⟨a, ⟨tot, hle, hr, hst, hl⟩, hs'⟩
  obtain ⟨hfull, hread⟩ := hl l hsrc hlen
  exact ⟨tot, hle, hr, fun hlt => hs'.disk ▸ hfull hlt, hst.overwritten h hread hs'⟩

end

section sample
attribute [local instance] Sample.superblock

namespace Sample

def inOp : State :=
  { opened with
    log := { opened.log with outstanding := 1 }
    inode := fun ip => if ip = 1 then ⟨ROOTDEV, 2, 1, some 0, true, file⟩ else opened.inode ip }

lemma inOp_inOp : InOp 1 inOp where
  bufs _ := rfl
  size := rfl
  idle := rfl
  op := by decide
  nodup := by decide
  live := ⟨by decide, by decide +kernel⟩
  sound := sound
  synced := (Dinode.load_store (d := disk 32) (x := file) ioff_le).symm

def ones : Src := .user (fun _ => some 1) 0

lemma readUser_ones {addr n : Nat} : readUser (fun _ => some 1) addr n = List.replicate n 1 := by
  induction n generalizing addr with
  | zero => rfl
  | succ n ih => exact congrArg (1 :: ·) ih

lemma ones_holds {n : Nat} : ones.Holds (List.replicate n 1) := by
  intro o m h
  rw [List.length_replicate] at h
  rw [ones, Src.copyin, readUser_ones, List.drop_replicate, List.take_replicate, min_eq_left (by omega)]

end Sample

/-- Three bytes are written inside of a file. -/
theorem writei_overwrites_sample :
    wp ((writei 1 (.kernel [1, 2, 3]) 7 3).run (Act.run 0))
      (fun r s' => ∃ tot ≤ 3, r = ((tot : Nat) : Int) ∧ (tot < 3 → Full s'.view) ∧
        Overwritten 0 1 7 [1, 2, 3] tot Sample.inOp s')
      (fun e _ => e = .panic (.log .tooBig) ∧ min LOGSIZE (30 - 1) ≤ Sample.inOp.log.n + (2 + charge 7 3)) Sample.inOp :=
  writei_overwrites Sample.inOp_inOp (by decide +kernel) (by decide) (fun _ _ _ => rfl) rfl

/-- A write of 28 blocks does not return, although the file could hold them. -/
theorem writei_too_big : InOp 1 Sample.inOp ∧
    (0 : UInt32) ≤ (dinodeAt Sample.inOp.view (Sample.inOp.inode 1).inum).size ∧ 0 + 28 * BSIZE ≤ MAXFILE * BSIZE ∧
    Sample.ones.Holds (List.replicate (28 * BSIZE) 1) ∧
    ¬ ∃ r s', (writei 1 Sample.ones 0 (.ofNat (28 * BSIZE))).run (Act.run 0) Sample.inOp = .ok r s' := by
  refine ⟨Sample.inOp_inOp, by decide +kernel, by decide, Sample.ones_holds, ?_⟩
  have hno : returns ((writei 1 Sample.ones 0 (.ofNat (28 * BSIZE))).run (Act.run 0)) Sample.inOp = false := by
    decide +kernel
  rintro ⟨r, s', hrun⟩
  rw [returns, hrun] at hno
  cases hno

end sample

end Xv6n.Fs
