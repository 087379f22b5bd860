import Xv6n.Fs.Layout
import Xv6n.Mkfs.Basic

/-!
# What fits the image

Every sector is read before it is written, after the image has been cleared, and a read beyond the image ends the
program. So an image that is finished has all of its blocks inside. Nothing checks the inode numbers.
-/

namespace Xv6n.Mkfs
open Lib Fs Function
variable {din : Dinode} {inum : Nat}

attribute [local instance] superblock

/-- The image keeps its length, and what was allocated is counted. -/
structure Counted (s : State) : Prop where
  nsect : s.nsect = FSSIZE
  wrote : ∀ b ∈ s.wrote, b < FSSIZE
  inode_pos : 1 ≤ s.freeinode
  inodes : ∀ n, n ∈ s.inodes ↔ 1 ≤ n ∧ n < s.freeinode
  block_le : nmeta ≤ s.freeblock
  blocks : ∀ b, b ∈ s.blocks ↔ nmeta ≤ b ∧ b < s.freeblock

/-- All blocks that were allocated are inside. -/
structure Fit (s : State) : Prop extends Counted s where
  free : s.freeblock ≤ FSSIZE

/-- The state after block `b` has been written. -/
def State.put (s : State) (b : Nat) (buf : Block) : State :=
  { s with image := Function.update s.image b buf, nsect := max s.nsect (b + 1), wrote := b :: s.wrote }

def State.take (s : State) : State := { s with freeblock := s.freeblock + 1, blocks := s.freeblock :: s.blocks }

def State.takeInode (s : State) : State := { s with freeinode := s.freeinode + 1, inodes := s.freeinode :: s.inodes }

abbrev May {α : Type} (x : MkfsM α) (Q : α → State → Prop) (s : State) : Prop := wp x Q (fun _ _ => True) s

section
variable {s : State} {sec b : Nat} {buf : Block} {Q : Block → State → Prop} {R : PUnit → State → Prop}

lemma sector_eq (h : sec ≤ FSSIZE) : sector sec = sec := by
  unfold sector
  simp only [FSSIZE, BSIZE] at *
  omega

lemma may_assert {p : Prop} [Decidable p] (h : p → R ⟨⟩ s) : May (assert p) R s := by
  unfold assert
  rw [May, wp_ite]
  exact ⟨fun hp => wp_pure.2 (h hp), fun _ => wp_throw.2 trivial⟩

lemma may_rsect (h : sector sec < s.nsect → Q (s.image (sector sec)) s) : May (rsect sec) Q s := by
  unfold rsect
  rw [May, wp_bind, wp_get, wp_ite]
  exact ⟨fun hp => wp_pure.2 (h hp), fun _ => wp_throw.2 trivial⟩

lemma Counted.put (h : Counted s) (hb : b < FSSIZE) : Counted (s.put b buf) := by
  refine ⟨?_, fun b hb => ?_, h.inode_pos, h.inodes, h.block_le, h.blocks⟩
  · show max s.nsect (b + 1) = FSSIZE
    rw [h.nsect]
    omega
  · rcases List.mem_cons.1 hb with rfl | hb
    · assumption
    · exact h.wrote b hb

lemma Counted.take (h : Counted s) : Counted s.take := by
  refine ⟨h.nsect, h.wrote, h.inode_pos, h.inodes, Nat.le_succ_of_le h.block_le, fun b => ?_⟩
  have := h.block_le
  show b ∈ s.freeblock :: s.blocks ↔ nmeta ≤ b ∧ b < s.freeblock + 1
  rw [List.mem_cons, h.blocks]
  omega

lemma Counted.takeInode (h : Counted s) : Counted s.takeInode := by
  refine ⟨h.nsect, h.wrote, Nat.le_succ_of_le h.inode_pos, fun n => ?_, h.block_le, h.blocks⟩
  have := h.inode_pos
  show n ∈ s.freeinode :: s.inodes ↔ 1 ≤ n ∧ n < s.freeinode + 1
  rw [List.mem_cons, h.inodes]
  omega

lemma may_update {f : Block → Block} (h : Counted s)
    (hR : ∀ s', Counted s' → s'.freeinode = s.freeinode → s'.freeblock = s.freeblock → R ⟨⟩ s') :
    May (rsect sec >>= fun buf => wsect sec (f buf)) R s := by
  rw [May, wp_bind]
  refine may_rsect fun hlt => ?_
  rw [wsect, wp_modify]
  exact hR _ (h.put (h.nsect ▸ hlt)) rfl rfl

lemma may_winode (h : Counted s)
    (hR : ∀ s', Counted s' → s'.freeinode = s.freeinode → s'.freeblock = s.freeblock → R ⟨⟩ s') :
    May (winode inum din) R s := may_update h hR

lemma may_rinode {Q : Dinode → State → Prop} (hQ : ∀ din, Q din s) : May (rinode inum) Q s := by
  rw [rinode, May, wp_bind]
  exact may_rsect fun _ => wp_pure.2 (hQ _)

lemma may_ialloc {type : Int16} {Q : Nat → State → Prop} (h : Fit s)
    (hQ : ∀ s', Fit s' → s'.freeinode = s.freeinode + 1 → Q s.freeinode s') : May (ialloc type) Q s := by
  rw [ialloc, May, wp_bind, wp_get, wp_bind, wp_modify, wp_bind]
  refine may_winode h.takeInode fun s' hs' hi hb => ?_
  rw [wp_pure]
  exact hQ s' ⟨hs', hb.trans_le h.free⟩ hi

lemma may_nextBlock {Q : Nat → State → Prop} (h : Fit s)
    (hQ : ∀ s', Counted s' → s'.freeinode = s.freeinode → sector s.freeblock = s.freeblock →
      (sector s.freeblock < FSSIZE → Fit s') → Q s.freeblock s') : May nextBlock Q s := by
  have hsec := sector_eq h.free
  rw [nextBlock, May, wp_bind, wp_get, wp_bind, wp_modify, wp_pure]
  exact hQ s.take h.take rfl hsec fun hlt => ⟨h.take, hsec.symm.trans_lt hlt⟩

lemma may_setSlot {k : Fin (NDIRECT + 1)} {Q : Dinode → State → Prop} (h : Fit s)
    (hQ : ∀ din' s', Counted s' → s'.freeinode = s.freeinode → (sector (din'.addr k) < FSSIZE → Fit s') → Q din' s') :
    May (setSlot din k) Q s := by
  rw [setSlot, May, wp_ite]
  refine ⟨fun _ => ?_, fun _ => wp_pure.2 (hQ din s h.toCounted rfl fun _ => h)⟩
  rw [wp_bind]
  refine may_nextBlock h fun s' hs' hi hsec hfit => wp_pure.2 (hQ _ s' hs' hi fun hlt => hfit ?_)
  have haddr : (din.setAddr k s.freeblock).addr k = s.freeblock := by
    have hlt32 : s.freeblock < 2 ^ 32 := h.free.trans_lt (by decide)
    rw [Dinode.addr_eq, Dinode.setAddr]
    dsimp only
    rw [update_self, UInt32.toNat_ofNat', Nat.mod_eq_of_lt hlt32]
  rwa [haddr] at hlt

lemma may_entryBlock {addr j : Nat} {Q : Nat → State → Prop} (h : Counted s) (hfit : sector addr < FSSIZE → Fit s)
    (hQ : ∀ x s', Counted s' → s'.freeinode = s.freeinode → (sector x < FSSIZE → Fit s') → Q x s') :
    May (entryBlock addr j) Q s := by
  rw [entryBlock, May, wp_bind]
  refine may_rsect fun hlt => ?_
  rw [h.nsect] at hlt
  have hf := hfit hlt
  rw [wp_ite]
  refine ⟨fun _ => ?_, fun _ => wp_pure.2 (hQ _ s h rfl fun _ => hf)⟩
  rw [wp_bind]
  refine may_nextBlock hf fun s' hs' hi _ hfit' => ?_
  rw [wp_bind, wsect, wp_modify, wp_pure]
  have hw : Counted (s'.put _ ((s.image (sector addr)).putLe (4 * j) 4 s.freeblock)) := hs'.put hlt
  exact hQ _ _ hw hi fun hx => ⟨hw, (hfit' hx).free⟩

lemma may_fileBlock {fbn : Nat} {Q : Dinode × Nat → State → Prop} (h : Fit s)
    (hQ : ∀ r s', Counted s' → s'.freeinode = s.freeinode → (sector r.2 < FSSIZE → Fit s') → Q r s') :
    May (fileBlock din fbn) Q s := by
  rw [fileBlock]
  split
  · rw [May, wp_bind]
    exact may_setSlot h fun din' s' hs' hi hfit => wp_pure.2 (hQ _ s' hs' hi hfit)
  · rw [May, wp_bind]
    refine may_setSlot h fun din' s' hs' hi hfit => ?_
    rw [wp_bind]
    exact may_entryBlock hs' hfit fun x s'' hs'' hi' hfit' => wp_pure.2 (hQ _ s'' hs'' (hi'.trans hi) hfit')

lemma may_iappendLoop {fuel off : Nat} {p : List UInt8} (h : Fit s) :
    May (iappendLoop fuel din off p) (fun _ s' => Fit s' ∧ s'.freeinode = s.freeinode) s := by
  induction fuel generalizing s din off p with
  | zero => exact wp_pure.2 ⟨h, rfl⟩
  | succ fuel ih =>
    rw [iappendLoop, May, wp_ite]
    refine ⟨fun _ => wp_pure.2 ⟨h, rfl⟩, fun _ => ?_⟩
    rw [wp_bind]
    refine may_assert fun _ => ?_
    rw [wp_bind]
    refine may_fileBlock h fun r s' hs' hi hfit => ?_
    dsimp only
    rw [wp_bind]
    refine may_rsect fun hlt => ?_
    rw [hs'.nsect] at hlt
    rw [wp_bind, wsect, wp_modify]
    have hw : Counted (s'.put _ (paste (s'.image (sector r.2)) (off - off / BSIZE * BSIZE)
      (p.take (min p.length ((off / BSIZE + 1) * BSIZE - off))))) := hs'.put hlt
    refine wp_mono (ih ⟨hw, (hfit hlt).free⟩) fun _ s'' hs'' => ⟨hs''.1, hs''.2.trans hi⟩

lemma may_iappend {p : List UInt8} (h : Fit s) :
    May (iappend inum p) (fun _ s' => Fit s' ∧ s'.freeinode = s.freeinode) s := by
  rw [iappend, May, wp_bind]
  refine may_rinode fun din => ?_
  rw [wp_bind]
  refine wp_mono (may_iappendLoop h) fun r s' hs' => ?_
  refine may_winode hs'.1.toCounted fun s'' hs'' hi hb => ?_
  exact ⟨⟨hs'', hb.trans_le hs'.1.free⟩, hi.trans hs'.2⟩

lemma may_iappends {chunks : List (List UInt8)} (h : Fit s) :
    May (iappends inum chunks) (fun _ s' => Fit s' ∧ s'.freeinode = s.freeinode) s := by
  induction chunks generalizing s with
  | nil => exact wp_pure.2 ⟨h, rfl⟩
  | cons chunk chunks ih =>
    rw [iappends, May, wp_bind]
    refine wp_mono (may_iappend h) fun _ s' hs' => ?_
    exact wp_mono (ih hs'.1) fun _ s'' hs'' => ⟨hs''.1, hs''.2.trans hs'.2⟩

lemma may_addFile {rootino : Nat} {f : HostFile} (h : Fit s) :
    May (addFile rootino f) (fun _ s' => Fit s' ∧ s'.freeinode = s.freeinode + 1) s := by
  rw [addFile, May, wp_bind]
  refine may_assert fun _ => ?_
  split
  · exact wp_throw.2 trivial
  · rw [wp_bind]
    refine may_ialloc h fun s' hs' hi => ?_
    rw [wp_bind]
    refine wp_mono (may_iappend hs') fun _ s'' hs'' => ?_
    refine wp_mono (may_iappends hs''.1) fun _ s₃ hs₃ => ⟨hs₃.1, ?_⟩
    rw [hs₃.2, hs''.2, hi]

lemma may_addFiles {rootino : Nat} {files : List HostFile} (h : Fit s) :
    May (addFiles rootino files) (fun _ s' => Fit s' ∧ s'.freeinode = s.freeinode + files.length) s := by
  induction files generalizing s with
  | nil => exact wp_pure.2 ⟨h, rfl⟩
  | cons f files ih =>
    rw [addFiles, May, wp_bind]
    refine wp_mono (may_addFile h) fun _ s' hs' => ?_
    refine wp_mono (ih hs'.1) fun _ s'' hs'' => ⟨hs''.1, ?_⟩
    rw [hs''.2, hs'.2, List.length_cons]
    omega

lemma wp_clear {n : Nat} {E : Abort → State → Prop} (hn : n ≤ FSSIZE) :
    wp (clear n) (fun _ s' => s' = { init with nsect := n, wrote := s'.wrote } ∧ ∀ b ∈ s'.wrote, b < n) E init := by
  induction n with
  | zero => exact wp_pure.2 ⟨rfl, by nofun⟩
  | succ n ih =>
    rw [clear, wp_bind]
    refine wp_mono (ih (Nat.le_of_succ_le hn)) fun _ s' ⟨h1, h2⟩ => ?_
    rw [wsect, wp_modify, sector_eq (Nat.le_of_succ_le hn)]
    refine ⟨?_, fun b hb => ?_⟩
    · rw [h1]
      simp only [init, State.mk.injEq, and_true]
      exact ⟨update_eq_self_iff.2 rfl, by omega⟩
    · rcases List.mem_cons.1 hb with rfl | hb
      · exact Nat.lt_succ_self b
      · exact Nat.lt_succ_of_lt (h2 b hb)

lemma fit_clear (h : s = { init with nsect := FSSIZE, wrote := s.wrote }) (hw : ∀ b ∈ s.wrote, b < FSSIZE) : Fit s := by
  have hi : s.freeinode = 1 := by rw [h]; rfl
  have hb : s.freeblock = nmeta := by rw [h]; rfl
  refine ⟨⟨by rw [h], hw, hi.ge, fun n => ?_, hb.ge, fun b => ?_⟩, hb.trans_le (by decide)⟩
  · rw [hi, show s.inodes = [] by rw [h]; rfl]
    simp
    omega
  · rw [hb, show s.blocks = [] by rw [h]; rfl]
    simp

lemma may_main {files : List HostFile} :
    May (main files) (fun _ s' => Fit s' ∧ s'.freeinode = files.length + 2) init := by
  rw [main, May, wp_bind]
  refine wp_mono (wp_clear le_rfl) fun _ s ⟨h1, h2⟩ => ?_
  have hs := fit_clear h1 h2
  rw [wp_bind, wsect, wp_modify]
  have hw : Counted (s.put (sector 1) sbBlock) := hs.put (by decide)
  rw [wp_bind]
  refine may_ialloc ⟨hw, hs.free⟩ fun s₁ hs₁ hi₁ => ?_
  rw [wp_bind]
  refine may_assert fun _ => ?_
  rw [wp_bind]
  refine wp_mono (may_iappend hs₁) fun _ s₂ hs₂ => ?_
  rw [wp_bind]
  refine wp_mono (may_iappend hs₂.1) fun _ s₃ hs₃ => ?_
  rw [wp_bind]
  refine wp_mono (may_addFiles hs₃.1) fun _ s₄ hs₄ => ?_
  rw [wp_bind, fixRoot, wp_bind]
  refine may_rinode fun din => ?_
  refine may_winode hs₄.1.toCounted fun s₅ hs₅ hi₅ hb₅ => ?_
  rw [wp_bind, wp_get, balloc, wp_bind]
  refine may_assert fun _ => ?_
  rw [wsect, wp_modify]
  have hend : Counted (s₅.put (sector bmapstart) (bitmap s₅.freeblock)) := hs₅.put (by decide)
  refine ⟨⟨hend, hb₅.trans_le hs₄.1.free⟩, ?_⟩
  dsimp only
  rw [hi₅, hs₄.2, hs₃.2, hs₂.2, hi₁]
  dsimp only
  rw [h1]
  simp only [init]
  omega

end

end Xv6n.Mkfs
