import Xv6n.Mkfs.Fit

/-!
# More files than inodes

The program ends normally for as many empty files as the inode blocks have room for, more than the superblock counts.
Only the root directory grows; `Growing` is what its inode looks like in between.
-/

namespace Xv6n.Mkfs
open Lib Fs Function

attribute [local instance] superblock

abbrev MAXINODE : Nat := ninodeblocks * IPB

abbrev Must {α : Type} (x : MkfsM α) (Q : α → State → Prop) (s : State) : Prop := wp x Q (fun _ _ => False) s

/-- The state after inode `n` has been written. -/
def State.putInode (s : State) (n : Nat) (x : Dinode) : State :=
  s.put (iblock n) (Dinode.store (s.image (iblock n)) (ioff n) x)

section
variable {s : State} {b n k : Nat} {d : Block} {x : Dinode} {p : List UInt8} {files : List HostFile}

lemma Fit.put (h : Fit s) (hb : b < FSSIZE) : Fit (s.put b d) := ⟨h.toCounted.put hb, h.free⟩

lemma rsect_run (h : Fit s) (hb : b < FSSIZE) : rsect b s = .ok (s.image b) s := by
  show (if sector b < s.nsect then pure (s.image (sector b)) else throw .die : MkfsM Block) s = _
  rw [sector_eq hb.le, h.nsect, if_pos hb]
  rfl

lemma wsect_run (hb : b < FSSIZE) : wsect b d s = .ok ⟨⟩ (s.put b d) := by
  show EStateM.Result.ok _ _ = _
  rw [sector_eq hb.le]
  rfl

lemma assert_run {q : Prop} [Decidable q] (h : q) : assert q s = .ok ⟨⟩ s := by
  rw [assert, if_pos h]
  rfl

lemma nextBlock_run : nextBlock s = .ok s.freeblock s.take := rfl

lemma iblock_lt_size (hn : n < MAXINODE) : iblock n < FSSIZE := by
  have h1 : inodestart = 32 := rfl
  unfold iblock
  simp only [MAXINODE, ninodeblocks, NINODES, IPB, BSIZE, FSSIZE] at *
  omega

lemma rinode_run (h : Fit s) (hn : n < MAXINODE) : rinode n s = .ok (dinodeAt s.image n) s := by
  have := rsect_run h (iblock_lt_size hn)
  simp only [rinode, bind, EStateM.bind, this]
  rfl

lemma winode_run (h : Fit s) (hn : n < MAXINODE) : winode n x s = .ok ⟨⟩ (s.putInode n x) := by
  have := rsect_run h (iblock_lt_size hn)
  simp only [winode, bind, EStateM.bind, this]
  exact wsect_run (iblock_lt_size hn)

lemma dinodeAt_putInode : dinodeAt (s.putInode n x).image = Function.update (dinodeAt s.image) n x := dinodeAt_store

/-- The root directory has `k` entries, in blocks of its own. -/
structure Growing (k : Nat) (s : State) : Prop extends Fit s where
  size : (dinodeAt s.image ROOTINO).size.toNat = direntSize * k
  addr : ∀ j < NDIRECT, (dinodeAt s.image ROOTINO).addr j = 0 ∨
    (dinodeAt s.image ROOTINO).addr j ∈ Set.Ico nmeta FSSIZE
  room : s.freeblock ≤ nmeta + k

lemma Growing.must_fileBlock (h : Growing k s) (hk : k < MAXINODE) {j : Nat} (hj : j < NDIRECT) :
    Must (fileBlock (dinodeAt s.image ROOTINO) j) (fun r s' => r.2 ∈ Set.Ico nmeta FSSIZE ∧ Fit s' ∧
      s'.image = s.image ∧ s'.freeinode = s.freeinode ∧ s'.freeblock ≤ nmeta + (k + 1) ∧
      (∀ j < NDIRECT, r.1.addr j = 0 ∨ r.1.addr j ∈ Set.Ico nmeta FSSIZE)) s := by
  have hroom := h.room
  have hmeta : nmeta + MAXINODE < FSSIZE := by decide
  rw [fileBlock, dif_pos hj, Must, wp_bind, setSlot, wp_ite]
  refine ⟨fun h0 => ?_, fun h0 => ?_⟩
  · -- the next free block, which is far from the end of the image
    have hlt : s.freeblock < FSSIZE := by omega
    have hb : s.freeblock ∈ Set.Ico nmeta FSSIZE := ⟨h.block_le, hlt⟩
    have haddr : ∀ l : Fin (NDIRECT + 1), ((dinodeAt s.image ROOTINO).setAddr ⟨j, Nat.lt_succ_of_lt hj⟩ s.freeblock).addr l =
        if (l : Nat) = j then s.freeblock else (dinodeAt s.image ROOTINO).addr l := by
      intro l
      rw [Dinode.addr_eq, Dinode.addr_eq, Dinode.setAddr]
      dsimp only
      by_cases hl : (l : Nat) = j
      · obtain rfl : l = ⟨j, Nat.lt_succ_of_lt hj⟩ := Fin.ext hl
        rw [update_self, if_pos rfl]
        exact UInt32.toNat_ofNat_of_lt' (hlt.trans (by decide))
      · rw [update_of_ne fun e => hl (congrArg Fin.val e), if_neg hl]
    rw [wp_bind, wp_run nextBlock_run, wp_pure, wp_pure]
    refine ⟨?_, ⟨h.toCounted.take, hlt⟩, rfl, rfl, Nat.succ_le_succ hroom, fun l hl => ?_⟩
    · rwa [haddr ⟨j, Nat.lt_succ_of_lt hj⟩, if_pos rfl]
    · rw [haddr ⟨l, Nat.lt_succ_of_lt hl⟩]
      split
      · exact .inr hb
      · exact h.addr l hl
  · rw [wp_pure, wp_pure]
    exact ⟨(h.addr j hj).resolve_left h0, h.toFit, rfl, rfl, by omega, h.addr⟩

lemma Growing.must_iappend (h : Growing k s) (hk : k < MAXINODE) (hp : p.length = direntSize) :
    Must (iappend ROOTINO p) (fun _ s' => Growing (k + 1) s' ∧ s'.freeinode = s.freeinode) s := by
  have hroot : ROOTINO < MAXINODE := by decide
  have hj : direntSize * k / BSIZE < NDIRECT := by
    simp only [MAXINODE, ninodeblocks, NINODES, IPB, BSIZE, NDIRECT, direntSize] at *
    omega
  have hnil : p ≠ [] := by
    rintro rfl
    cases hp
  -- an entry does not cross the end of a block
  have hmin : min p.length ((direntSize * k / BSIZE + 1) * BSIZE - direntSize * k) = p.length := by
    rw [hp]
    simp only [BSIZE, direntSize]
    omega
  rw [iappend, Must, wp_bind, wp_run (rinode_run h.toFit hroot), h.size, hp, wp_bind, iappendLoop, if_neg hnil, wp_bind,
    wp_run (assert_run (hj.trans (by decide))), wp_bind]
  refine wp_mono (h.must_fileBlock hk hj) ?_
  rintro r s₁ ⟨hr, hs₁, himg, hi, hb, haddr⟩
  dsimp only
  rw [hmin, List.drop_length, wp_bind, wp_run (rsect_run hs₁ hr.2), wp_bind, wp_run (wsect_run hr.2), iappendLoop,
    if_pos rfl, wp_pure, wp_run (winode_run (hs₁.put hr.2) hroot)]
  refine ⟨⟨(hs₁.put hr.2).put (iblock_lt_size hroot), ?_, ?_, hb⟩, hi⟩
  · rw [dinodeAt_putInode, update_self, hp]
    refine (UInt32.toNat_ofNat_of_lt' ?_).trans (Nat.mul_succ ..).symm
    simp only [MAXINODE, ninodeblocks, NINODES, IPB, BSIZE, UInt32.size, direntSize] at *
    omega
  · rw [dinodeAt_putInode, update_self]
    exact haddr

lemma Growing.must_ialloc (h : Growing k s) (h1 : ROOTINO < s.freeinode) (hn : s.freeinode < MAXINODE) :
    Must (ialloc T_FILE) (fun _ s' => Growing k s' ∧ s'.freeinode = s.freeinode + 1) s := by
  have hfit : Fit s.takeInode := ⟨h.toCounted.takeInode, h.free⟩
  rw [ialloc, Must, wp_bind, wp_get, wp_bind, wp_modify, wp_bind]
  show wp (winode s.freeinode _) _ _ s.takeInode
  rw [wp_run (winode_run hfit hn), wp_pure]
  refine ⟨⟨hfit.put (iblock_lt_size hn), ?_, ?_, h.room⟩, rfl⟩
  · rw [dinodeAt_putInode, update_of_ne h1.ne]
    exact h.size
  · rw [dinodeAt_putInode, update_of_ne h1.ne]
    exact h.addr

def HostFile.empty (path : List UInt8) : HostFile := ⟨path, some [], by simp⟩

lemma length_dirent {name : List UInt8} : (dirent n name).length = direntSize := by
  simp only [dirent, strncpy, List.length_append, List.length_cons, List.length_nil, List.length_replicate]
  have := List.length_take_le DIRSIZ (name.takeWhile (· ≠ 0))
  simp only [DIRSIZ, direntSize] at *
  omega

section
variable (hf : ∀ f ∈ files, ∃ path, '/'.toUInt8 ∉ shortname path ∧ f = .empty path)
include hf

lemma Growing.must_addFiles (h : Growing k s)
    (hk : s.freeinode = k) (h2 : 2 ≤ k) (hlen : k + files.length ≤ MAXINODE) :
    Must (addFiles ROOTINO files) (fun _ s' => ∃ k, Growing k s') s := by
  induction files generalizing s k with
  | nil => exact wp_pure.2 ⟨k, h⟩
  | cons f files ih =>
    obtain ⟨path, hpath, rfl⟩ := hf f List.mem_cons_self
    rw [List.length_cons] at hlen
    have hplain : '/'.toUInt8 ∉ shortname (HostFile.empty path).path := hpath
    rw [addFiles, Must, wp_bind, addFile, wp_bind, wp_run (assert_run hplain)]
    dsimp only [HostFile.empty]
    rw [wp_bind]
    refine wp_mono (h.must_ialloc (hk.symm ▸ h2) (by omega)) ?_
    rintro inum s₁ ⟨hs₁, hi₁⟩
    rw [wp_bind]
    refine wp_mono (hs₁.must_iappend (by omega) length_dirent) ?_
    rintro _ s₂ ⟨hs₂, hi₂⟩
    refine wp_pure.2 ?_
    exact ih (fun g hg => hf g (List.mem_cons_of_mem _ hg)) hs₂ (by omega) (by omega) (by omega)

lemma must_main (hlen : files.length + 2 ≤ MAXINODE) : Must (main files) (fun _ _ => True) init := by
  have hroot : ROOTINO < MAXINODE := by decide
  rw [main, Must, wp_bind]
  refine wp_mono (wp_clear le_rfl) ?_
  rintro _ s ⟨h1, h2⟩
  have hfit : Fit (s.put 1 sbBlock).takeInode :=
    ⟨((fit_clear h1 h2).toCounted.put (by decide)).takeInode, (fit_clear h1 h2).free⟩
  have hi : (s.put 1 sbBlock).freeinode = 1 := congrArg State.freeinode h1
  rw [wp_bind, wp_run (wsect_run (by decide)), wp_bind, ialloc, wp_bind, wp_get, wp_bind, wp_modify, wp_bind]
  show wp (winode (s.put 1 sbBlock).freeinode _) _ _ (s.put 1 sbBlock).takeInode
  rw [hi, wp_run (winode_run hfit hroot), wp_pure, wp_bind, wp_run (assert_run rfl)]
  have h0 : Growing 0 ((s.put 1 sbBlock).takeInode.putInode ROOTINO ⟨T_DIR, 0, 0, 1, 0, fun _ => 0⟩) := by
    refine ⟨hfit.put (iblock_lt_size hroot), ?_, fun j hj => .inl ?_, (congrArg State.freeblock h1).le⟩
    · rw [dinodeAt_putInode, update_self]
      rfl
    · rw [dinodeAt_putInode, update_self, Dinode.addr_eq (j := ⟨j, Nat.lt_succ_of_lt hj⟩)]
      rfl
  rw [wp_bind]
  refine wp_mono (h0.must_iappend (by decide) length_dirent) ?_
  rintro _ s₁ ⟨hs₁, hi₁⟩
  rw [wp_bind]
  refine wp_mono (hs₁.must_iappend (by decide) length_dirent) ?_
  rintro _ s₂ ⟨hs₂, hi₂⟩
  have hi' : s₂.freeinode = 2 := (hi₂.trans hi₁).trans (congrArg (· + 1) hi)
  rw [wp_bind]
  refine wp_mono (hs₂.must_addFiles hf hi' le_rfl (by omega)) ?_
  rintro _ s₃ ⟨k, hs₃⟩
  rw [wp_bind, fixRoot, wp_bind, wp_run (rinode_run hs₃.toFit hroot), wp_run (winode_run hs₃.toFit hroot), wp_bind, wp_get,
    balloc, wp_bind, wp_run (assert_run ?_), wp_run (wsect_run (by decide))]
  · trivial
  · exact hs₃.free.trans_lt (by decide)

lemma mkfs_empty (hlen : files.length + 2 ≤ MAXINODE) : ∃ s, mkfs files = .ok ⟨⟩ s := by
  obtain ⟨_, s, h, -⟩ := (must_main hf hlen).returns
  exact ⟨s, h⟩

end

end

end Xv6n.Mkfs
