import Xv6n.Fs.Layout

/-!
# Blocks of a file that is being written

The holder of the lock of an inode changes its copy in memory and the blocks of the file. `Edits` says what
such a change leaves alone: the blocks in use that the file does not own, and the places that hold a block.
`bmap` finds the block of a place or gives it a new one.
-/

namespace Xv6n.Fs
open Lib Function
variable [Superblock] {i : Pid} {F : Stop → Prop} {a a' a'' : Solo} {ip : Slot} {b r bn : Nat} {p q : Place}
  {I : Nat → Dinode} {v v' : Nat → Block}

lemma Sound.congr {I' : Nat → Dinode} (h : Sound I v) (hI : ∀ n < ninodes, I' n = I n) : Sound I' v := by
  have hlive : ∀ n, Live I' n → Live I n := fun n hn => ⟨hn.1, hI n hn.1 ▸ hn.2⟩
  refine h.transfer hlive (fun n p hn => by rw [hI n hn.1]) (fun _ _ => id) fun n hn => ?_
  rw [hI n hn.1]
  exact ⟨h.size_le n (hlive n hn), h.whole n (hlive n hn)⟩

namespace Solo

abbrev inum (a : Solo) (ip : Slot) : Nat := (a.inode ip).inum

abbrev d (a : Solo) (ip : Slot) : Dinode := (a.inode ip).d

abbrev slot (a : Solo) (ip : Slot) (p : Place) : Nat := (a.d ip).slot a.disk p

/-- The inodes as the holder of the lock of `ip` sees them: its own one is the copy in memory. -/
def files (a : Solo) (ip : Slot) : Nat → Dinode := update (dinodeAt a.disk) (a.inum ip) (a.d ip)

lemma files_self : a.files ip (a.inum ip) = a.d ip := update_self ..

/-- Room in the log for the indirect block of a file, unless it is there already. -/
def pay (a : Solo) (ip : Slot) : Nat :=
  if (a.d ip).addr NDIRECT ≠ 0 ∧ (a.d ip).addr NDIRECT ∈ a.logged then 0 else 2

omit [Superblock] in
lemma pay_zero (hi : (a.d ip).addr NDIRECT ≠ 0) (hl : (a.d ip).addr NDIRECT ∈ a.logged) : a.pay ip = 0 :=
  if_pos ⟨hi, hl⟩

end Solo

/-- Inode `ip` is being written inside a transaction. -/
structure Editing (ip : Slot) (a : Solo) : Prop where
  live : Live (a.files ip) (a.inum ip)
  sound : Sound (a.files ip) a.disk
  bufs : a.bufs = ∅
  op : 1 ≤ a.ops

/-- What changes while inode `ip` is written: places get new blocks, and the blocks of the file change. -/
structure Edits (ip : Slot) (a a' : Solo) : Prop where
  editing : Editing ip a'
  inode : a'.inode = update a.inode ip { a.inode ip with d := { a.d ip with addrs := (a'.d ip).addrs } }
  slot : ∀ p, a.slot ip p ≠ 0 → a'.slot ip p = a.slot ip p
  fresh : ∀ p, a.slot ip p = 0 → a'.slot ip p ≠ 0 → ¬ Used a.disk (a'.slot ip p)
  used : ∀ b < size, Used a.disk b → Used a'.disk b
  owned : ∀ b < size, Used a'.disk b → Used a.disk b ∨ b ≠ 0 ∧ ∃ p, a'.slot ip p = b
  kept : ∀ b, datastart ≤ b → b < size → Used a.disk b → (∀ p, a.slot ip p ≠ b) → a'.disk b = a.disk b
  below : ∀ b < bmapstart, a'.disk b = a.disk b
  logged : a.logged ⊆ a'.logged
  rest : a' = { a with disk := a'.disk, inode := a'.inode, logged := a'.logged }

namespace Edits

lemma refl (h : Editing ip a) : Edits ip a a :=
  ⟨h, (update_eq_self ..).symm, fun _ _ => rfl, fun _ h0 h1 => absurd h0 h1, fun _ _ => id,
    fun _ _ => .inl, fun _ _ _ _ _ => rfl, fun _ _ => rfl, subset_rfl, rfl⟩

lemma d_eq (h : Edits ip a a') : a'.d ip = { a.d ip with addrs := (a'.d ip).addrs } := by
  have := congrFun h.inode ip
  rw [update_self] at this
  exact congrArg Inode.d this

lemma inum_eq (h : Edits ip a a') : a'.inum ip = a.inum ip := by
  have := congrFun h.inode ip
  rw [update_self] at this
  rw [Solo.inum, this]

lemma size_eq (h : Edits ip a a') : (a'.d ip).size = (a.d ip).size := by rw [h.d_eq]

lemma slot_ne (h : Edits ip a a') (hu : Used a.disk b) (hb : b ≠ 0) (hp : ∀ p, a.slot ip p ≠ b) : a'.slot ip p ≠ b := by
  rintro e
  by_cases h0 : a.slot ip p = 0
  · exact h.fresh p h0 (e ▸ hb) (e ▸ hu)
  · exact hp p ((h.slot p h0).symm.trans e)

lemma trans (h : Edits ip a a') (h' : Edits ip a' a'') : Edits ip a a'' where
  editing := h'.editing
  inode := by
    rw [h'.inode, h.inode, update_idem, update_self, h.d_eq]
  slot p hp := by rw [h'.slot p (by rwa [h.slot p hp]), h.slot p hp]
  fresh p h0 h1 hu := by
    by_cases h2 : a'.slot ip p = 0
    · refine h'.fresh p h2 h1 (h.used _ ?_ hu)
      have := h'.editing.sound.range _ p h'.editing.live
      rw [Solo.files_self] at this
      exact (this h1).2
    · rw [h'.slot p h2] at hu
      exact h.fresh p h0 h2 hu
  used b hb := h'.used b hb ∘ h.used b hb
  owned b hb hu := by
    rcases h'.owned b hb hu with hu | hp
    · refine (h.owned b hb hu).imp_right ?_
      rintro ⟨h0, p, rfl⟩
      exact ⟨h0, p, h'.slot p h0⟩
    · exact .inr hp
  kept b h1 h2 hu hp := by
    rw [h'.kept b h1 h2 (h.used b h2 hu) fun p => h.slot_ne hu (datastart_pos.trans_le h1).ne' hp, h.kept b h1 h2 hu hp]
  below b hb := by rw [h'.below b hb, h.below b hb]
  logged := h.logged.trans h'.logged
  rest := by
    rw [h'.rest, h.rest]

end Edits

lemma Editing.notMem (h : Editing ip a) : b ∉ a.bufs := h.bufs ▸ Finset.notMem_empty b

lemma Editing.busy (h : Editing ip a) : a.Busy := fun _ hb => absurd hb h.notMem

/-- What `bmap` finds in a place of the inode itself. -/
inductive BmapSlot (a : Solo) (ip : Slot) (k : Fin (NDIRECT + 1)) : Nat → Solo → Prop where
  | there (h : (a.d ip).addr k ≠ 0) : BmapSlot a ip k ((a.d ip).addr k) a
  | full (h0 : (a.d ip).addr k = 0) (h : Full a.disk) : BmapSlot a ip k 0 a
  | new {r : Nat} (h0 : (a.d ip).addr k = 0) (hlt : r < size) (hfree : ¬ Used a.disk r) :
    BmapSlot a ip k r ((a.alloc r).setD ip ((a.d ip).setAddr k r))

lemma ran_bmapSlot {k : Fin (NDIRECT + 1)} (h : Editing ip a) (hroom : (a.d ip).addr k = 0 → a.Spare F 1) :
    Ran i F (bmapSlot ip k) a (BmapSlot a ip k) := by
  refine .next ran_getInode ?_
  refine .ite (fun h0 => ?_) fun h0 => .ret (.there h0)
  refine .bind (ran_balloc h.busy h.op (hroom h0)) ?_
  rintro r a' hr
  cases hr with
  | full hf => exact .ite (fun _ => .ret (.full h0 hf)) fun h1 => absurd rfl h1
  | found hlt hfree _ =>
    have hr : r ≠ 0 := (datastart_pos.trans_le (h.sound.reserved.le hfree)).ne'
    exact .ite (fun h1 => absurd h1 hr) fun _ => .next ran_setInode (.ret (.new h0 hlt hfree))

lemma allocated_below (hr : datastart ≤ r) (hb : b < bmapstart) : allocated v r b = v b :=
  allocated_of_ne (fun e => absurd hr (not_le.2 (e ▸ hb.trans_le bmapstart_le)))
    fun e => absurd (bmapstart_le_bblock (b := r)) (not_le.2 (e ▸ hb))

lemma files_update (a' : Solo) {x : Dinode} (hv : ∀ b < bmapstart, a'.disk b = a.disk b)
    (hi : a'.inode ip = { a.inode ip with d := x }) {n : Nat} (hn : n < ninodes) :
    a'.files ip n = update (a.files ip) (a.inum ip) x n := by
  have hd : a'.d ip = x := congrArg Inode.d hi
  have hin : a'.inum ip = a.inum ip := by rw [Solo.inum, hi]
  unfold Solo.files
  rw [hd, hin, update_idem]
  by_cases hm : n = a.inum ip
  · rw [hm, update_self, update_self]
  · rw [update_of_ne hm, update_of_ne hm, dinodeAt_congr hv hn]

lemma allocated_used (hlt : r < size) (hfree : ¬ Used v r) (hb : datastart ≤ b) (hu : Used v b) :
    allocated v r b = v b := by
  refine allocated_of_ne (fun e => hfree (e ▸ hu)) fun e => ?_
  have := bblock_lt hlt
  omega

section add
variable (h : Editing ip a) (hlt : r < size) (hfree : ¬ Used a.disk r)
include h hlt hfree

lemma Editing.addAddr {k : Fin (NDIRECT + 1)} (h0 : (a.d ip).addr k = 0) :
    Edits ip a ((a.alloc r).setD ip ((a.d ip).setAddr k r)) ∧
      ∀ p, ((a.alloc r).setD ip ((a.d ip).setAddr k r)).slot ip p = if p = .addr k then r else a.slot ip p := by
  have hstart := h.sound.reserved.le hfree
  have hbelow : ∀ b < bmapstart, allocated a.disk r b = a.disk b := fun b hb => allocated_below hstart hb
  have hi : ((a.alloc r).setD ip ((a.d ip).setAddr k r)).inode ip =
      { a.inode ip with d := (a.d ip).setAddr k r } := update_self ..
  have hd : ((a.alloc r).setD ip ((a.d ip).setAddr k r)).d ip = (a.d ip).setAddr k r := congrArg Inode.d hi
  have hslot : ∀ p, ((a.alloc r).setD ip ((a.d ip).setAddr k r)).slot ip p = if p = .addr k then r else a.slot ip p := by
    intro p
    rw [Solo.slot, hd]
    have := h.sound.slot_allocated (q := p) hlt hfree h.live
    rw [Solo.files_self] at this
    rw [Solo.slot, ← this]
    exact Sound.slot_setAddr hlt h0 allocated_self
  have hfiles := fun n (hn : n < ninodes) => files_update ((a.alloc r).setD ip ((a.d ip).setAddr k r)) hbelow hi hn
  have hinum : ((a.alloc r).setD ip ((a.d ip).setAddr k r)).inum ip = a.inum ip := by
    rw [Solo.inum, hi]
  have hsound := h.sound.addAddr h.live (k := k) (r := r) (by rwa [Solo.files_self]) hlt hfree
  rw [Solo.files_self] at hsound
  refine ⟨⟨⟨?_, hsound.congr hfiles, h.bufs, h.op⟩, ?_, fun p hp => ?_, fun p hp hne => ?_, fun b hb hu => ?_,
    fun b hb hu => ?_, fun b hb hbs hu hp => ?_, hbelow, fun c hc => ?_, rfl⟩, hslot⟩
  · have hl := h.live
    rw [Live, Solo.files_self] at hl
    refine ⟨hinum ▸ hl.1, ?_⟩
    rw [Solo.files_self, hd]
    exact hl.2
  · show update a.inode ip _ = _
    rw [hd]
    rfl
  · rw [hslot p, if_neg]
    rintro rfl
    exact hp h0
  · rw [hslot p] at hne ⊢
    split at hne
    · rwa [if_pos ‹_›]
    · exact absurd hp hne
  · exact (used_allocated hstart hb).2 (.inr hu)
  · rcases (used_allocated hstart hb).1 hu with rfl | hu
    · exact .inr ⟨(datastart_pos.trans_le hstart).ne', .addr k, (hslot _).trans (if_pos rfl)⟩
    · exact .inl hu
  · exact allocated_used hlt hfree hb hu
  · exact Finset.mem_insert_of_mem (Finset.mem_insert_of_mem hc)

lemma Editing.addEntry {j : Fin NINDIRECT} (hi : (a.d ip).addr NDIRECT ≠ 0) (h0 : a.slot ip (.entry j) = 0) :
    Edits ip a ((a.alloc r).put ((a.d ip).addr NDIRECT) ((a.disk ((a.d ip).addr NDIRECT)).putLe (4 * j) 4 r)) ∧
      ∀ p, ((a.alloc r).put ((a.d ip).addr NDIRECT) ((a.disk ((a.d ip).addr NDIRECT)).putLe (4 * j) 4 r)).slot ip p =
        if p = .entry j then r else a.slot ip p := by
  have hrange := h.sound.range (a.inum ip) (.addr (Fin.last NDIRECT)) h.live (by rwa [Solo.files_self])
  have hind : Used a.disk ((a.d ip).addr NDIRECT) := by
    have := h.sound.used (a.inum ip) (.addr (Fin.last NDIRECT)) h.live (by rwa [Solo.files_self])
    rwa [Solo.files_self] at this
  rw [Solo.files_self] at hrange
  have hle : datastart ≤ (a.d ip).addr NDIRECT := hrange.1
  have hstart := h.sound.reserved.le hfree
  have hsame := allocated_used hlt hfree hle hind
  have hbelow : ∀ b < bmapstart, update (allocated a.disk r) ((a.d ip).addr NDIRECT)
      ((a.disk ((a.d ip).addr NDIRECT)).putLe (4 * j) 4 r) b = a.disk b := fun b hb => by
    rw [update_of_ne, allocated_below hstart hb]
    have := bmapstart_le
    omega
  have hslot : ∀ p, (a.d ip).slot (update (allocated a.disk r) ((a.d ip).addr NDIRECT)
      ((a.disk ((a.d ip).addr NDIRECT)).putLe (4 * j) 4 r)) p = if p = .entry j then r else a.slot ip p := by
    intro p
    have := h.sound.slot_allocated (q := p) hlt hfree h.live
    rw [Solo.files_self] at this
    rw [Solo.slot, ← this, ← hsame]
    exact Sound.slot_putEntry hlt hi
  have hsound := h.sound.addEntry h.live (j := j) (r := r) (by rwa [Solo.files_self]) (by rwa [Solo.files_self]) hlt hfree
  rw [Solo.files_self] at hsound
  refine ⟨⟨⟨?_, hsound.congr fun n hn => ?_, h.bufs, h.op⟩, ?_, fun p hp => ?_, fun p hp hne => ?_, fun b hb hu => ?_,
    fun b hb hu => ?_, fun b hb hbs hu hp => ?_, hbelow, fun c hc => ?_, rfl⟩, hslot⟩
  · have hl := h.live
    rw [Live, Solo.files_self] at hl
    refine ⟨hl.1, ?_⟩
    rw [Solo.files_self]
    exact hl.2
  · refine (files_update ((a.alloc r).put _ _) (x := a.d ip) hbelow rfl hn).trans ?_
    rw [Solo.files, update_idem]
  · exact (update_eq_self ..).symm
  · refine (hslot p).trans (if_neg ?_)
    rintro rfl
    exact hp h0
  · have he := hslot p
    split at he
    · exact (he.symm ▸ hfree :)
    · exact absurd (he.trans hp) hne
  · exact (used_update hle hb).2 ((used_allocated hstart hb).2 (.inr hu))
  · rcases (used_allocated hstart hb).1 ((used_update hle hb).1 hu) with rfl | hu
    · exact .inr ⟨(datastart_pos.trans_le hstart).ne', .entry j, (hslot _).trans (if_pos rfl)⟩
    · exact .inl hu
  · have hne : b ≠ (a.d ip).addr NDIRECT := fun e => hp (.addr (Fin.last NDIRECT)) e.symm
    exact (update_of_ne hne ..).trans (allocated_used hlt hfree hb hu)
  · exact Finset.mem_insert_of_mem (Finset.mem_insert_of_mem (Finset.mem_insert_of_mem hc))

end add

/-- What `bmap` does. -/
structure Bmap (ip : Slot) (bn : Nat) (a : Solo) (r : Nat) (a' : Solo) : Prop where
  edits : Edits ip a a'
  there : (a.d ip).block a.disk bn ≠ 0 → a' = a
  got : (a'.d ip).block a'.disk bn = r
  full : r = 0 → Full a'.disk
  others : ∀ bm < MAXFILE, bm ≠ bn → (a'.d ip).block a'.disk bm = (a.d ip).block a.disk bm
  own : ∀ bm < MAXFILE, (a.d ip).block a.disk bm ≠ 0 →
    a'.disk ((a.d ip).block a.disk bm) = a.disk ((a.d ip).block a.disk bm)
  logged : (a.d ip).block a.disk bn = 0 → r ≠ 0 → r ∈ a'.logged
  cost : a'.logged.card + a'.pay ip ≤
    a.logged.card + a.pay ip + if (a.d ip).block a.disk bn = 0 then 2 else 0

lemma Bmap.refl (bn : Nat) (h : Editing ip a) (hf : (a.d ip).block a.disk bn = 0 → Full a.disk) :
    Bmap ip bn a ((a.d ip).block a.disk bn) a :=
  ⟨.refl h, fun _ => rfl, rfl, hf, fun _ _ _ => rfl, fun _ _ _ => rfl, fun h0 h1 => absurd h0 h1, Nat.le_add_right ..⟩

lemma Editing.block_used (h : Editing ip a) {bm : Nat} (hm : bm < MAXFILE) (hb : (a.d ip).block a.disk bm ≠ 0) :
    datastart ≤ (a.d ip).block a.disk bm ∧ (a.d ip).block a.disk bm < size ∧ Used a.disk ((a.d ip).block a.disk bm) ∧
      (a.d ip).block a.disk bm ≠ (a.d ip).addr NDIRECT := by
  have hrange := h.sound.range (a.inum ip) (.data ⟨bm, hm⟩) h.live
  have hused := h.sound.used (a.inum ip) (.data ⟨bm, hm⟩) h.live
  have hinj := h.sound.inj (a.inum ip) (.data ⟨bm, hm⟩) (a.inum ip) (.addr (Fin.last NDIRECT)) h.live h.live
  rw [Solo.files_self, ← Dinode.block_eq] at hrange hused hinj
  exact ⟨(hrange hb).1, (hrange hb).2, hused hb, fun e => Place.data_ne (hinj hb e).2⟩

omit [Superblock] in
lemma block_of_slot {k : Place} (hslot : ∀ p, a'.slot ip p = if p = k then r else a.slot ip p) {bm : Nat}
    (hm : bm < MAXFILE) : (a'.d ip).block a'.disk bm = if Place.data ⟨bm, hm⟩ = k then r else (a.d ip).block a.disk bm := by
  rw [Dinode.block_eq hm, Dinode.block_eq hm]
  exact hslot _

section add
variable (h : Editing ip a) (hlt : r < size) (hfree : ¬ Used a.disk r)
include h hlt hfree

lemma Bmap.direct {k : Fin (NDIRECT + 1)} (hbn : bn < MAXFILE) (hk : Place.data ⟨bn, hbn⟩ = .addr k)
    (h0 : (a.d ip).addr k = 0) : Bmap ip bn a r ((a.alloc r).setD ip ((a.d ip).setAddr k r)) := by
  obtain ⟨hedits, hslot⟩ := h.addAddr hlt hfree h0
  have hblock : (a.d ip).block a.disk bn = 0 := by rwa [Dinode.block_eq hbn, hk]
  have hr : r ≠ 0 := (datastart_pos.trans_le (h.sound.reserved.le hfree)).ne'
  refine ⟨hedits, fun h1 => absurd hblock h1, ?_, fun h1 => absurd h1 hr, fun bm hm hne => ?_, fun bm hm hb => ?_,
    fun _ _ => Finset.mem_insert_self .., ?_⟩
  · rw [block_of_slot hslot hbn, if_pos hk]
  · rw [block_of_slot hslot hm, if_neg]
    intro e
    exact hne (congrArg Fin.val (Place.data_inj (e.trans hk.symm)))
  · obtain ⟨h1, h2, h3, -⟩ := h.block_used hm hb
    exact allocated_used hlt hfree h1 h3
  · have hcard : (insert r (insert (bblock r) a.logged)).card ≤ a.logged.card + 2 :=
      (Finset.card_insert_le ..).trans (Nat.succ_le_succ (Finset.card_insert_le ..))
    have hpay : ((a.alloc r).setD ip ((a.d ip).setAddr k r)).pay ip ≤ a.pay ip := by
      have hlast := hslot (.addr (Fin.last NDIRECT))
      rw [if_neg (by rw [← hk]; exact Place.data_ne.symm)] at hlast
      have hlast : (((a.alloc r).setD ip ((a.d ip).setAddr k r)).d ip).addr NDIRECT = (a.d ip).addr NDIRECT := hlast
      unfold Solo.pay
      rw [hlast]
      split
      · exact Nat.zero_le _
      · rename_i hn
        rw [if_neg fun hp => hn ⟨hp.1, Finset.mem_insert_of_mem (Finset.mem_insert_of_mem hp.2)⟩]
    rw [if_pos hblock]
    exact (Nat.add_le_add hcard hpay).trans_eq (by ring)

lemma Bmap.indirect (hbn : bn < MAXFILE) {j : Fin NINDIRECT} (hj : Place.data ⟨bn, hbn⟩ = .entry j)
    (h0 : (a.d ip).addr NDIRECT = 0)
    (hb : Bmap ip bn ((a.alloc r).setD ip ((a.d ip).setAddr (Fin.last NDIRECT) r)) b a') : Bmap ip bn a b a' := by
  obtain ⟨hedits, hslot⟩ := h.addAddr (k := Fin.last NDIRECT) hlt hfree h0
  have hblocks : ∀ bm < MAXFILE, (((a.alloc r).setD ip ((a.d ip).setAddr (Fin.last NDIRECT) r)).d ip).block
      ((a.alloc r).setD ip ((a.d ip).setAddr (Fin.last NDIRECT) r)).disk bm = (a.d ip).block a.disk bm := by
    intro bm hm
    rw [block_of_slot hslot hm, if_neg Place.data_ne]
  have hblock : (a.d ip).block a.disk bn = 0 := by
    rw [Dinode.block_eq hbn, hj]
    exact if_pos h0
  refine ⟨hedits.trans hb.edits, fun h1 => absurd hblock h1, hb.got, hb.full, fun bm hm hne => ?_, fun bm hm hbm => ?_,
    fun _ => hb.logged ((hblocks bn hbn).trans hblock), ?_⟩
  · rw [hb.others bm hm hne, hblocks bm hm]
  · have h1 := hb.own bm hm (by rwa [hblocks bm hm])
    rw [hblocks bm hm] at h1
    obtain ⟨h2, -, h3, -⟩ := h.block_used hm hbm
    exact h1.trans (allocated_used hlt hfree h2 h3)
  · have hcost := hb.cost
    have hcard : (insert r (insert (bblock r) a.logged)).card ≤ a.logged.card + 2 :=
      (Finset.card_insert_le ..).trans (Nat.succ_le_succ (Finset.card_insert_le ..))
    have hpay : ((a.alloc r).setD ip ((a.d ip).setAddr (Fin.last NDIRECT) r)).pay ip = 0 := by
      have hlast := hslot (.addr (Fin.last NDIRECT))
      rw [if_pos rfl] at hlast
      have hlast : (((a.alloc r).setD ip ((a.d ip).setAddr (Fin.last NDIRECT) r)).d ip).addr NDIRECT = r := hlast
      refine Solo.pay_zero ?_ ?_
      · rw [hlast]
        exact (datastart_pos.trans_le (h.sound.reserved.le hfree)).ne'
      · rw [hlast]
        exact Finset.mem_insert_self ..
    have hpay' : a.pay ip = 2 := if_neg fun hp => hp.1 h0
    rw [hblocks bn hbn, hpay, if_pos hblock] at hcost
    rw [hpay', if_pos hblock]
    exact hcost.trans (Nat.add_le_add_right (Nat.add_le_add_right hcard 0) 2)

lemma Bmap.entry (hbn : bn < MAXFILE) {j : Fin NINDIRECT} (hj : Place.data ⟨bn, hbn⟩ = .entry j)
    (hi : (a.d ip).addr NDIRECT ≠ 0) (h0 : a.slot ip (.entry j) = 0) :
    Bmap ip bn a r
      ((a.alloc r).put ((a.d ip).addr NDIRECT) ((a.disk ((a.d ip).addr NDIRECT)).putLe (4 * j) 4 r)) := by
  obtain ⟨hedits, hslot⟩ := h.addEntry hlt hfree hi h0
  have hblock : (a.d ip).block a.disk bn = 0 := by rwa [Dinode.block_eq hbn, hj]
  have hr : r ≠ 0 := (datastart_pos.trans_le (h.sound.reserved.le hfree)).ne'
  refine ⟨hedits, fun h1 => absurd hblock h1, ?_, fun h1 => absurd h1 hr, fun bm hm hne => ?_, fun bm hm hb => ?_,
    fun _ _ => Finset.mem_insert_of_mem (Finset.mem_insert_self ..), ?_⟩
  · rw [block_of_slot hslot hbn, if_pos hj]
  · rw [block_of_slot hslot hm, if_neg]
    intro e
    exact hne (congrArg Fin.val (Place.data_inj (e.trans hj.symm)))
  · obtain ⟨h1, -, h3, h4⟩ := h.block_used hm hb
    exact (update_of_ne h4 ..).trans (allocated_used hlt hfree h1 h3)
  · have hcard : (insert r (insert (bblock r) a.logged)).card ≤ a.logged.card + 2 :=
      (Finset.card_insert_le ..).trans (Nat.succ_le_succ (Finset.card_insert_le ..))
    have hpay : ((a.alloc r).put ((a.d ip).addr NDIRECT)
        ((a.disk ((a.d ip).addr NDIRECT)).putLe (4 * j) 4 r)).pay ip = 0 := Solo.pay_zero hi (Finset.mem_insert_self ..)
    rw [if_pos hblock, hpay]
    show (insert ((a.d ip).addr NDIRECT) (insert r (insert (bblock r) a.logged))).card + 0 ≤ _
    by_cases hl : (a.d ip).addr NDIRECT ∈ a.logged
    · rw [Finset.insert_eq_of_mem (Finset.mem_insert_of_mem (Finset.mem_insert_of_mem hl))]
      exact hcard.trans (by omega)
    · have hpay : a.pay ip = 2 := if_neg fun hp => hl hp.2
      have := Finset.card_insert_le ((a.d ip).addr NDIRECT) (insert r (insert (bblock r) a.logged))
      omega

end add

lemma ran_bmapEntry {j : Nat} (hbn : bn < MAXFILE) (hlt : j < NINDIRECT) (hj : Place.data ⟨bn, hbn⟩ = .entry ⟨j, hlt⟩)
    (h : Editing ip a) (hi : (a.d ip).addr NDIRECT ≠ 0) (hroom : (a.d ip).block a.disk bn = 0 → a.Spare F 2) :
    Ran i F (do
      let d ← bread ((a.d ip).addr NDIRECT)
      let addr := d.le (4 * j) 4
      if addr = 0 then
        let addr ← balloc
        when (addr ≠ 0) do
          bset ((a.d ip).addr NDIRECT) (d.putLe (4 * j) 4 addr)
          logWrite ((a.d ip).addr NDIRECT)
        brelse ((a.d ip).addr NDIRECT)
        return addr
      else
        brelse ((a.d ip).addr NDIRECT)
        return addr) a (Bmap ip bn a) := by
  have hslot : a.slot ip (.entry ⟨j, hlt⟩) = (a.disk ((a.d ip).addr NDIRECT)).le (4 * j) 4 := if_neg hi
  have hblock : (a.d ip).block a.disk bn = a.slot ip (.entry ⟨j, hlt⟩) := by rw [Dinode.block_eq hbn, hj]
  have hheld := h.notMem (b := (a.d ip).addr NDIRECT)
  refine .next (ran_bread hheld) (.ite (fun h0 => ?_) fun h0 => ?_)
  · have hb0 : (a.d ip).block a.disk bn = 0 := by rw [hblock, hslot, h0]
    have hbusy : (a.hold ((a.d ip).addr NDIRECT)).Busy := by
      intro c hc
      obtain rfl : c = (a.d ip).addr NDIRECT := by simpa [Solo.hold, h.bufs] using hc
      have hrange := h.sound.range (a.inum ip) (.addr (Fin.last NDIRECT)) h.live (by rwa [Solo.files_self])
      have hused := h.sound.used (a.inum ip) (.addr (Fin.last NDIRECT)) h.live (by rwa [Solo.files_self])
      rw [Solo.files_self] at hrange hused
      exact ⟨hrange.1, hused⟩
    refine .bind (ran_balloc hbusy h.op ((hroom hb0).mono (by decide))) ?_
    rintro r a' hr
    cases hr with
    | full hf =>
      refine .next (a := ()) (Tracks.ite (fun h1 => absurd rfl h1) fun _ => .ret ⟨rfl, rfl⟩) ?_
      refine .next (ran_brelse hheld) (.ret ?_)
      have := Bmap.refl bn h fun _ => hf
      rwa [hb0] at this
    | found hlt hfree _ =>
      have hr : r ≠ 0 := (datastart_pos.trans_le (h.sound.reserved.le hfree)).ne'
      rw [when, if_pos hr]
      have hroom' : (a.alloc r).Spare F 0 := (hroom hb0).log.log
      refine .next (p := bset _ _ >>= fun _ => logWrite _) (.next ran_bset (ran_logWrite h.op hroom')) ?_
      refine .next (ran_brelse (a := (a.alloc r).put ((a.d ip).addr NDIRECT) _) hheld) (.ret ?_)
      exact Bmap.entry h hlt hfree hbn hj hi (by rw [← hblock, hb0])
  · refine .next (ran_brelse hheld) (.ret ?_)
    have hb : (a.d ip).block a.disk bn ≠ 0 := by rwa [hblock, hslot]
    have := Bmap.refl bn h fun h1 => absurd h1 hb
    rwa [hblock, hslot] at this

/-- `bmap` finds block `bn` of the file, or gives it a new one, unless the disk is full. -/
lemma ran_bmap (hbn : bn < MAXFILE) (h : Editing ip a)
    (hroom : (a.d ip).block a.disk bn = 0 → a.Spare F (a.pay ip + 2)) :
    Ran i F (bmap ip bn) a (Bmap ip bn a) := by
  unfold bmap
  refine .ite (fun h1 => ?_) fun h1 => .ite (fun h2 => ?_) fun h2 => absurd h2 (by simp only [MAXFILE] at hbn; omega)
  · have hv : (Fin.ofNat (NDIRECT + 1) bn : Nat) = bn := Nat.mod_eq_of_lt (Nat.lt_succ_of_lt h1)
    have hk : Place.data ⟨bn, hbn⟩ = .addr (Fin.ofNat _ bn) := by
      rw [Place.data, dif_pos h1]
      exact congrArg Place.addr (Fin.ext hv.symm)
    have hblock : (a.d ip).block a.disk bn = (a.d ip).addr (Fin.ofNat (NDIRECT + 1) bn) := by
      rw [Dinode.block_eq hbn, hk]
      rfl
    refine (ran_bmapSlot h fun h0 => (hroom (hblock.trans h0)).mono (by omega)).mono ?_
    rintro r a' hr
    cases hr with
    | there h0 =>
      rw [← hblock] at h0 ⊢
      exact .refl bn h fun h1 => absurd h1 h0
    | full h0 hf =>
      have := Bmap.refl bn h fun _ => hf
      rwa [hblock, h0] at this
    | new h0 hlt hfree => exact .direct h hlt hfree hbn hk h0
  · have hv : (Fin.ofNat (NDIRECT + 1) NDIRECT) = Fin.last NDIRECT := rfl
    have hj : Place.data ⟨bn, hbn⟩ = .entry ⟨bn - NDIRECT, h2⟩ := by
      rw [Place.data, dif_neg h1]
    rw [hv]
    have hblock : (a.d ip).addr NDIRECT = 0 → (a.d ip).block a.disk bn = 0 := by
      intro h0
      rw [Dinode.block_eq hbn, hj]
      exact if_pos h0
    refine .bind (ran_bmapSlot h fun h0 => (hroom (hblock h0)).mono (by omega)) ?_
    rintro r a' hr
    cases hr with
    | there h0 =>
      rw [if_neg h0]
      rw [Fin.val_last] at h0 ⊢
      exact ran_bmapEntry hbn h2 hj h h0 fun h3 => (hroom h3).mono (by omega)
    | full h0 hf =>
      have hb := Bmap.refl bn h fun _ => hf
      rw [hblock h0] at hb
      rw [if_pos rfl]
      exact .ret hb
    | new h0 hlt hfree =>
      have hr : r ≠ 0 := (datastart_pos.trans_le (h.sound.reserved.le hfree)).ne'
      obtain ⟨hedits, hslot⟩ := h.addAddr (k := Fin.last NDIRECT) hlt hfree h0
      have hlast := hslot (.addr (Fin.last NDIRECT))
      rw [if_pos rfl] at hlast
      have hlast : (((a.alloc r).setD ip ((a.d ip).setAddr (Fin.last NDIRECT) r)).d ip).addr NDIRECT = r := hlast
      have hpay : a.pay ip = 2 := if_neg fun hp => hp.1 h0
      have hroom := hroom (hblock h0)
      rw [hpay] at hroom
      refine .ite (fun h3 => absurd h3 hr) fun _ => ?_
      have := ran_bmapEntry (i := i) (F := F) hbn h2 hj hedits.editing (by rwa [hlast]) fun _ => hroom.log.log
      rw [hlast] at this
      exact this.mono fun _ _ hb => Bmap.indirect h hlt hfree hbn hj h0 hb

end Xv6n.Fs
