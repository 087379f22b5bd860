import Xv6n.Fs.Writei
import Xv6n.Lib.Overwrite

/-!
# Files as lists of bytes

The contents of a file are the bytes of its blocks below its size. `readi` returns a part of them, and
`writei` overwrites a part, appending to the file if necessary; it leaves every other file alone.
-/

namespace Xv6n.Fs
open Lib Function

namespace Dinode
variable {x : Dinode} {v v' : Nat → Block} {k : Nat}

/-- Byte `k` of a file. -/
def get (x : Dinode) (v : Nat → Block) (k : Nat) : UInt8 := (v (x.block v (k / BSIZE))).get (k % BSIZE)

def read (x : Dinode) (v : Nat → Block) : List UInt8 := (List.range x.size.toNat).map (x.get v)

@[simp] lemma length_read : (x.read v).length = x.size.toNat := by
  rw [read, List.length_map, List.length_range]

lemma getElem?_read (hk : k < x.size.toNat) : (x.read v)[k]? = some (x.get v k) := by
  rw [read, List.getElem?_map, List.getElem?_range hk, Option.map_some]

lemma read_congr (hs : x.size.toNat ≤ MAXFILE * BSIZE) (hw : x.Whole v)
    (hv : ∀ p, x.slot v p ≠ 0 → v' (x.slot v p) = v (x.slot v p)) : x.read v' = x.read v := by
  have hslot : ∀ p, x.slot v' p = x.slot v p :=
    fun p => Sound.slot_congr fun h0 => hv (.addr (Fin.last NDIRECT)) h0
  refine List.map_congr_left fun k hk => ?_
  have hk : k < x.size.toNat := List.mem_range.1 hk
  have hm : k / BSIZE < MAXFILE := div_lt_maxfile (hk.trans_le hs)
  have hne := hw (k / BSIZE) ((Nat.div_mul_le_self ..).trans_lt hk)
  rw [get, get, block_eq hm, hslot]
  rw [block_eq hm] at hne ⊢
  rw [hv _ hne]

end Dinode

section
variable [Superblock] {i : Pid} {F : Stop → Prop} {a a' : Solo} {ip : Slot} {b r bn n off tot : Nat} {p q : Place}
  {I I' : Nat → Dinode} {v v' : Nat → Block} {l : List UInt8} {src : Src} {x : Dinode}

lemma Sound.congr_disk (h : Sound I v) (hv : ∀ b, bmapstart ≤ b → v' b = v b) : Sound I v' := by
  have hused : ∀ b, Used v' b ↔ Used v b := fun b => by rw [Used, hv _ bmapstart_le_bblock, Used]
  have hslot : ∀ n p, Live I n → (I n).slot v' p = (I n).slot v p := fun n p hn =>
    Sound.slot_congr fun h0 => hv _ (bmapstart_le.trans (h.range n (.addr (Fin.last NDIRECT)) hn h0).1)
  exact h.transfer (fun _ => id) hslot (fun b _ => (hused b).2) fun n hn => ⟨h.size_le n hn, h.whole n hn⟩

lemma Sound.resize {sz : UInt32} (h : Sound I v) (hs : sz.toNat ≤ MAXFILE * BSIZE)
    (hb : ∀ bm, bm * BSIZE < sz.toNat → (I n).block v bm ≠ 0) :
    Sound (update I n { I n with size := sz }) v := by
  have hcases : ∀ m, update I n { I n with size := sz } m = I m ∨
      m = n ∧ update I n { I n with size := sz } m = { I n with size := sz } := by
    intro m
    by_cases hm : m = n
    · subst hm
      exact .inr ⟨rfl, update_self ..⟩
    · exact .inl (update_of_ne hm ..)
  have hslot : ∀ m p, (update I n { I n with size := sz } m).slot v p = (I m).slot v p := by
    intro m p
    rcases hcases m with e | ⟨rfl, e⟩ <;> rw [e]
    cases p <;> rfl
  have hlive : ∀ m, Live (update I n { I n with size := sz }) m → Live I m := by
    intro m hm
    unfold Live at hm
    rcases hcases m with e | ⟨rfl, e⟩ <;> rw [e] at hm <;> exact hm
  refine h.transfer hlive (fun m p _ => hslot m p) (fun _ _ => id) fun m hm => ?_
  rcases hcases m with e | ⟨rfl, e⟩
  · rw [e]
    exact ⟨h.size_le m (hlive m hm), h.whole m (hlive m hm)⟩
  · rw [e]
    exact ⟨hs, hb⟩

/-- Inode `ip` can be written, and its copy in memory is that on disk. -/
structure Settled (ip : Slot) (a : Solo) : Prop where
  live : Live (dinodeAt a.disk) (a.inum ip)
  sound : Sound (dinodeAt a.disk) a.disk
  bufs : a.bufs = ∅
  op : 1 ≤ a.ops
  synced : a.d ip = dinodeAt a.disk (a.inum ip)

lemma Settled.files_eq (h : Settled ip a) : a.files ip = dinodeAt a.disk := by
  rw [Solo.files, h.synced, update_eq_self]

lemma Settled.editing (h : Settled ip a) : Editing ip a := by
  refine ⟨?_, ?_, h.bufs, h.op⟩
  · rw [h.files_eq]
    exact h.live
  · rw [h.files_eq]
    exact h.sound

def Solo.save (a : Solo) (ip : Slot) (x : Dinode) : Solo := (a.setD ip x).flush ip

lemma Solo.inode_save : (a.save ip x).inode = update a.inode ip { a.inode ip with d := x } := rfl

@[simp] lemma Solo.inum_save : (a.save ip x).inum ip = a.inum ip := by
  rw [Solo.inum, Solo.inode_save, update_self]

@[simp] lemma Solo.d_save : (a.save ip x).d ip = x := by
  rw [Solo.d, Solo.inode_save, update_self]

lemma Solo.disk_save : (a.save ip x).disk = update a.disk (iblock (a.inum ip))
    (Dinode.store (a.disk (iblock (a.inum ip))) (ioff (a.inum ip)) x) := by
  show update a.disk (iblock ((a.setD ip x).inum ip)) (Dinode.store (a.disk (iblock ((a.setD ip x).inum ip)))
    (ioff ((a.setD ip x).inum ip)) ((a.setD ip x).d ip)) = _
  simp [Solo.setD, Solo.inum, Solo.d]

lemma dinodeAt_save : dinodeAt (a.save ip x).disk = update (dinodeAt a.disk) (a.inum ip) x := by
  rw [Solo.disk_save, dinodeAt_store]

lemma Solo.disk_save_of_le (hn : a.inum ip < ninodes) (hb : bmapstart ≤ b) : (a.save ip x).disk b = a.disk b := by
  rw [Solo.disk_save, update_of_ne]
  have := iblock_lt hn
  omega

lemma Solo.settled_save (hn : a.inum ip < ninodes) (ht : x.type ≠ 0) (hb : a.bufs = ∅) (hop : 1 ≤ a.ops)
    (hs : Sound (update (dinodeAt a.disk) (a.inum ip) x) a.disk) : Settled ip (a.save ip x) := by
  refine ⟨?_, ?_, hb, hop, ?_⟩
  · rw [dinodeAt_save, inum_save]
    refine ⟨hn, ?_⟩
    rwa [update_self]
  · rw [dinodeAt_save]
    exact hs.congr_disk fun b hb => disk_save_of_le hn hb
  · rw [dinodeAt_save, inum_save, update_self, d_save]

/-- Inode `n`, the blocks that it owns and its contents are the same. -/
structure SameFile (v v' : Nat → Block) (n : Nat) : Prop where
  dinode : dinodeAt v' n = dinodeAt v n
  slot : (dinodeAt v n).type ≠ 0 → ∀ p, (dinodeAt v n).slot v' p = (dinodeAt v n).slot v p
  read : (dinodeAt v n).type ≠ 0 → (dinodeAt v n).read v' = (dinodeAt v n).read v

lemma SameFile.trans {v'' : Nat → Block} (h : SameFile v v' n) (h' : SameFile v' v'' n) : SameFile v v'' n where
  dinode := h'.dinode.trans h.dinode
  slot ht p := by
    have := h'.slot (h.dinode.symm ▸ ht) p
    rw [h.dinode] at this
    exact this.trans (h.slot ht p)
  read ht := by
    have := h'.read (h.dinode.symm ▸ ht)
    rw [h.dinode] at this
    exact this.trans (h.read ht)

lemma SameFile.of_slots (h : Sound I v) (hn : n < ninodes) (hI : I n = dinodeAt v n) (hd : dinodeAt v' n = dinodeAt v n)
    (hv : Live I n → ∀ p, (I n).slot v p ≠ 0 → v' ((I n).slot v p) = v ((I n).slot v p)) : SameFile v v' n := by
  have hlive : (dinodeAt v n).type ≠ 0 → Live I n := fun ht => ⟨hn, hI.symm ▸ ht⟩
  rw [hI] at hv
  refine ⟨hd, fun ht p => Sound.slot_congr fun h0 => hv (hlive ht) (.addr (Fin.last NDIRECT)) h0, fun ht => ?_⟩
  have hsize := h.size_le n (hlive ht)
  have hwhole := h.whole n (hlive ht)
  rw [hI] at hsize hwhole
  exact Dinode.read_congr hsize hwhole (hv (hlive ht))

lemma Exact.change (h : Exact (dinodeAt v) v) (hothers : ∀ m < ninodes, m ≠ n → SameFile v v' m)
    (hown : ∀ b, datastart ≤ b → b < size → Used v' b →
      (∃ p, Live (dinodeAt v') n ∧ (dinodeAt v' n).slot v' p = b) ∨
        Used v b ∧ ∀ p, Live (dinodeAt v) n → (dinodeAt v n).slot v p ≠ b) : Exact (dinodeAt v') v' := by
  intro b h1 h2 hu
  rcases hown b h1 h2 hu with ⟨p, hp⟩ | ⟨hu, hp⟩
  · exact ⟨n, p, hp⟩
  · obtain ⟨m, q, hm, hq⟩ := h b h1 h2 hu
    by_cases hne : m = n
    · subst hne
      exact absurd hq (hp q hm)
    · have hsame := hothers m hm.1 hne
      refine ⟨m, q, ⟨hm.1, hsame.dinode.symm ▸ hm.2⟩, ?_⟩
      rw [hsame.dinode, hsame.slot hm.2, hq]

lemma Edits.others (h : Edits ip a a') (hs : Editing ip a) (hn : n < ninodes) (hne : n ≠ a.inum ip) :
    SameFile a.disk a'.disk n := by
  refine .of_slots hs.sound hn (update_of_ne hne ..) (dinodeAt_congr h.below hn) fun hlive p hp => ?_
  obtain ⟨h1, h2⟩ := hs.sound.range n p hlive hp
  refine h.kept _ h1 h2 (hs.sound.used n p hlive hp) fun q e => hne ?_
  have hq : (a.files ip (a.inum ip)).slot a.disk q = (a.files ip n).slot a.disk p := by rwa [Solo.files_self]
  exact (hs.sound.inj n p _ q hlive hs.live hp hq.symm).1

/-- What `writei` has done to a file after `tot` bytes from offset `off` on. -/
structure Stored (ip : Slot) (off tot : Nat) (a a' : Solo) : Prop where
  settled : Settled ip a'
  inode : a'.inode = update a.inode ip { a.inode ip with
    d := { a.d ip with size := (a'.d ip).size, addrs := (a'.d ip).addrs } }
  size : (a'.d ip).size.toNat = max (a.d ip).size.toNat (off + tot)
  others : ∀ n < ninodes, n ≠ a.inum ip → SameFile a.disk a'.disk n
  exact : Exact (dinodeAt a.disk) a.disk → Exact (dinodeAt a'.disk) a'.disk
  rest : a' = { a with disk := a'.disk, inode := a'.inode, logged := a'.logged }

section
omit [Superblock]

lemma Dinode.size_grow (h : off < 2 ^ 32) : (x.grow off).size.toNat = max x.size.toNat off := by
  unfold Dinode.grow
  split
  · have : (UInt32.ofNat off).toNat = off := UInt32.toNat_ofNat_of_lt' h
    show (UInt32.ofNat off).toNat = _
    omega
  · omega

lemma Dinode.grow_eq : x.grow off = { x with size := (x.grow off).size } := by
  unfold Dinode.grow
  split <;> rfl

lemma Dinode.get_grow {k : Nat} : (x.grow off).get v k = x.get v k := by
  unfold Dinode.grow
  split <;> rfl

lemma Dinode.slot_grow : (x.grow off).slot v p = x.slot v p := by
  unfold Dinode.grow
  split
  · cases p <;> rfl
  · rfl

end

lemma Solo.sameFile_save (h : Sound I a.disk) (hn : a.inum ip < ninodes) (hm : n < ninodes)
    (hne : n ≠ a.inum ip) (hI : I n = dinodeAt a.disk n) : SameFile a.disk (a.save ip x).disk n := by
  refine .of_slots h hm hI ?_ fun hlive p hp => disk_save_of_le hn (bmapstart_le.trans (h.range n p hlive hp).1)
  rw [dinodeAt_save, update_of_ne hne]

lemma Sound.read_eq (h : Sound I v) (hn : Live I n) (hv : ∀ b, bmapstart ≤ b → v' b = v b) :
    (I n).read v' = (I n).read v :=
  Dinode.read_congr (h.size_le n hn) (h.whole n hn) fun p hp => hv _ (bmapstart_le.trans (h.range n p hn hp).1)

section stored
variable {pos : Nat × Nat} (h : Settled ip a) (hmax : off + n ≤ MAXFILE * BSIZE) (hw : Wrote ip src n off 0 a pos a')
include h hmax hw

lemma Wrote.size_grow : ((a'.d ip).grow pos.1).size.toNat = max (a.d ip).size.toNat (off + pos.2) ∧
    max (a.d ip).size.toNat (off + pos.2) ≤ MAXFILE * BSIZE := by
  have h1 := hw.off_eq
  have h2 := hw.le_n
  have h3 := h.sound.size_le _ h.live
  rw [← h.synced] at h3
  have h4 : MAXFILE * BSIZE < 2 ^ 32 := by decide
  rw [Dinode.size_grow (by omega), hw.edits.size_eq]
  omega

variable (hoff : off ≤ (a.d ip).size.toNat)
include hoff

lemma Wrote.sound :
    Sound (update (dinodeAt a'.disk) (a.inum ip) ((a'.d ip).grow pos.1)) a'.disk := by
  obtain ⟨hsize, hle⟩ := hw.size_grow h hmax
  have hpos := hw.off_eq
  have hres := @Sound.resize _ (a'.inum ip) _ _ ((a'.d ip).grow pos.1).size hw.edits.editing.sound (by omega) ?_
  · rwa [Solo.files_self, ← Dinode.grow_eq, Solo.files, update_idem, hw.edits.inum_eq] at hres
  · intro bm hbm
    rw [Solo.files_self]
    by_cases hlt : bm * BSIZE < (a.d ip).size.toNat
    · have hold := h.sound.whole _ h.live bm (h.synced ▸ hlt)
      rw [← h.synced] at hold
      rw [hw.edits.block_eq hold]
      exact hold
    · refine hw.grown bm ?_ (by omega)
      exact Nat.div_le_of_le_mul (by rw [Nat.mul_comm]; omega)

lemma Wrote.stored : Stored ip off pos.2 a (a'.save ip ((a'.d ip).grow pos.1)) := by
  have hinum := hw.edits.inum_eq
  have hn : a'.inum ip < ninodes := hinum ▸ h.live.1
  have hsound := hw.sound h hmax hoff
  rw [← hinum] at hsound
  have htype : ((a'.d ip).grow pos.1).type ≠ 0 := by
    have := hw.edits.editing.live.2
    rw [Solo.files_self] at this
    rw [Dinode.grow_eq]
    exact this
  have hothers : ∀ m < ninodes, m ≠ a.inum ip → SameFile a.disk (a'.save ip ((a'.d ip).grow pos.1)).disk m := by
    intro m hm hne
    have hne' : m ≠ a'.inum ip := hinum.symm ▸ hne
    exact (hw.edits.others h.editing hm hne).trans
      (Solo.sameFile_save hsound hn hm hne' (update_of_ne hne' ..))
  refine ⟨Solo.settled_save hn htype hw.edits.editing.bufs hw.edits.editing.op hsound, ?_, ?_, hothers, ?_, ?_⟩
  · rw [Solo.inode_save, Solo.d_save, hw.edits.inode, update_idem, update_self, Dinode.grow_eq,
      hw.edits.d_eq]
  · rw [Solo.d_save, (hw.size_grow h hmax).1]
  · refine fun he => he.change hothers fun b h1 h2 hu => ?_
    have hat : dinodeAt (a'.save ip ((a'.d ip).grow pos.1)).disk (a.inum ip) = (a'.d ip).grow pos.1 := by
      rw [dinodeAt_save, ← hinum, update_self]
    have hslot : ∀ p, (dinodeAt (a'.save ip ((a'.d ip).grow pos.1)).disk (a.inum ip)).slot
        (a'.save ip ((a'.d ip).grow pos.1)).disk p = a'.slot ip p := by
      intro p
      rw [hat, Dinode.slot_grow]
      refine Sound.slot_congr fun h0 => Solo.disk_save_of_le hn (bmapstart_le.trans ?_)
      have hrange := hw.edits.editing.sound.range _ (.addr (Fin.last NDIRECT)) hw.edits.editing.live
      rw [Solo.files_self] at hrange
      exact (hrange h0).1
    have hlive : Live (dinodeAt (a'.save ip ((a'.d ip).grow pos.1)).disk) (a.inum ip) := ⟨h.live.1, hat.symm ▸ htype⟩
    have hu' : Used a'.disk b := by
      unfold Used at hu ⊢
      rwa [Solo.disk_save_of_le hn bmapstart_le_bblock] at hu
    by_cases hp : ∃ p, a.slot ip p = b
    · obtain ⟨p, rfl⟩ := hp
      have h0 : a.slot ip p ≠ 0 := (datastart_pos.trans_le h1).ne'
      exact .inl ⟨p, hlive, (hslot p).trans (hw.edits.slot p h0)⟩
    · rcases hw.edits.owned b h2 hu' with hu | ⟨-, p, hp'⟩
      · refine .inr ⟨hu, fun p _ e => hp ⟨p, ?_⟩⟩
        rwa [Solo.slot, h.synced]
      · exact .inl ⟨p, hlive, (hslot p).trans hp'⟩
  · rw [hw.edits.rest]
    rfl

lemma Wrote.read (hl : src.Holds l) (hlen : l.length = n) :
    ((a'.d ip).grow pos.1).read (a'.save ip ((a'.d ip).grow pos.1)).disk =
      overwrite ((a.d ip).read a.disk) off (l.take pos.2) := by
  have hinum := hw.edits.inum_eq
  have hn : a'.inum ip < ninodes := hinum ▸ h.live.1
  have hsound := hw.sound h hmax hoff
  obtain ⟨hsize, hle⟩ := hw.size_grow h hmax
  have hpos := hw.off_eq
  have htake : (l.take pos.2).length = pos.2 := List.length_take_of_le (hlen ▸ hw.le_n)
  have hread : ((a'.d ip).grow pos.1).read (a'.save ip ((a'.d ip).grow pos.1)).disk =
      ((a'.d ip).grow pos.1).read a'.disk := by
    have hlive : Live (update (dinodeAt a'.disk) (a.inum ip) ((a'.d ip).grow pos.1)) (a.inum ip) := by
      have := hw.edits.editing.live.2
      rw [Solo.files_self] at this
      refine ⟨h.live.1, ?_⟩
      rw [update_self, Dinode.grow_eq]
      exact this
    have := hsound.read_eq hlive fun b hb => Solo.disk_save_of_le (x := (a'.d ip).grow pos.1) hn hb
    rwa [update_self] at this
  -- each byte of the file, from what the loop says about it
  have hbyte : ∀ j < max (a.d ip).size.toNat (off + pos.2),
      (((a'.d ip).grow pos.1).read a'.disk)[j]? = some (a'.byte ip j) := by
    intro j hj
    rw [Dinode.getElem?_read (hsize.symm ▸ hj), Dinode.get_grow]
    rfl
  rw [hread]
  refine eq_overwrite (by rwa [Dinode.length_read]) ?_ (fun j h1 h2 => ?_) fun j h1 h2 => ?_
  · rw [Dinode.length_read, Dinode.length_read, htake, hsize]
  · rw [htake] at h2
    rw [hbyte j (by omega), (hw.bytes l hl hlen j (by omega)).1 h1 (by omega), List.getElem?_take_of_lt (by omega),
      Nat.zero_add, List.getD_eq_getElem?_getD, List.getElem?_eq_getElem (by have := hw.le_n; omega)]
    rfl
  · rw [Dinode.length_read] at h1
    rw [htake] at h2
    have hold := h.sound.whole _ h.live (j / BSIZE) (h.synced ▸ (Nat.div_mul_le_self ..).trans_lt h1)
    rw [← h.synced] at hold
    rw [hbyte j (by omega), (hw.bytes l hl hlen j (by omega)).2 (by omega) hold, Dinode.getElem?_read h1]
    rfl

end stored

omit [Superblock] in
lemma toInt_of_lt (h : n < 2 ^ 31) : toInt n = n := by
  unfold toInt
  rw [Int.bmod_eq_of_le] <;> omega

/-- What `writei` does to a file, and what the file holds if all bytes of the source could be read. -/
lemma ran_writei_stored {off n : UInt32} (h : Settled ip a)
    (hroom : a.Spare F (a.pay ip + charge off.toNat n.toNat)) (hoff : off ≤ (a.d ip).size)
    (hmax : off.toNat + n.toNat ≤ MAXFILE * BSIZE) :
    Ran i F (writei ip src off n) a fun r a' => ∃ tot ≤ n.toNat, r = (tot : Int) ∧ Stored ip off.toNat tot a a' ∧
      ∀ l, src.Holds l → l.length = n.toNat → (tot < n.toNat → Full a'.disk) ∧
        (a'.d ip).read a'.disk = overwrite ((a.d ip).read a.disk) off.toNat (l.take tot) := by
  refine (ran_writei h.editing hroom).mono fun r a' hw => ?_
  cases hw with
  | refused hc =>
    rw [gt_iff_lt, UInt32.lt_iff_toNat_lt, UInt32.lt_iff_toNat_lt, UInt32.toNat_add] at hc
    have := UInt32.le_iff_toNat_le.1 hoff
    have : MAXFILE * BSIZE < 2 ^ 32 := by decide
    omega
  | @wrote pos a' _ _ hw =>
    have hoff := UInt32.le_iff_toNat_le.1 hoff
    have h1 := hw.le_n
    have h2 : MAXFILE * BSIZE < 2 ^ 31 := by decide
    refine ⟨pos.2, h1, toInt_of_lt (by omega), hw.stored h hmax hoff, fun l hl hlen => ⟨fun hlt b hb => ?_, ?_⟩⟩
    · have hn : a'.inum ip < ninodes := hw.edits.inum_eq ▸ h.live.1
      have := hw.short l hl hlen hlt b hb
      unfold Used at this ⊢
      rwa [show ((a'.setD ip ((a'.d ip).grow pos.1)).flush ip).disk (bblock b) = a'.disk (bblock b) from
        Solo.disk_save_of_le hn bmapstart_le_bblock]
    · show ((a'.save ip ((a'.d ip).grow pos.1)).d ip).read (a'.save ip ((a'.d ip).grow pos.1)).disk = _
      rw [Solo.d_save]
      exact hw.read h hmax hoff hl hlen

lemma ran_bmap_there (hb : (a.d ip).block a.disk bn ≠ 0) (hbufs : a.bufs = ∅) :
    Does i F (bmap ip bn) a ((a.d ip).block a.disk bn) a := by
  have hslot : ∀ k : Fin (NDIRECT + 1), (a.d ip).addr k ≠ 0 → Does i F (bmapSlot ip k) a ((a.d ip).addr k) a :=
    fun k hk => .next ran_getInode (.ite (fun h0 => absurd h0 hk) fun _ => .ret ⟨rfl, rfl⟩)
  have hlt := Dinode.lt_of_block hb
  unfold bmap
  unfold Dinode.block at hb ⊢
  refine .ite (fun h1 => ?_) fun h1 => .ite (fun h2 => ?_) fun h2 => absurd h2 (by simp only [MAXFILE] at hlt; omega)
  · have hv : (Fin.ofNat (NDIRECT + 1) bn : Nat) = bn := Nat.mod_eq_of_lt (Nat.lt_succ_of_lt h1)
    rw [if_pos h1] at hb ⊢
    have := hslot (Fin.ofNat _ bn)
    rw [hv] at this
    exact this hb
  · have hv : (Fin.ofNat (NDIRECT + 1) NDIRECT : Nat) = NDIRECT := rfl
    rw [if_neg h1, if_pos h2] at hb ⊢
    split at hb
    · exact absurd rfl hb
    · rename_i h3
      rw [if_neg h3]
      have := hslot (Fin.ofNat _ NDIRECT)
      rw [hv] at this
      refine .next (this h3) (.ite (fun h0 => absurd h0 h3) fun _ => ?_)
      have hheld : (a.d ip).addr NDIRECT ∉ a.bufs := hbufs ▸ Finset.notMem_empty _
      refine .next (ran_bread hheld) (.ite (fun h0 => absurd h0 hb) fun _ => ?_)
      exact .next (ran_brelse hheld) (.ret ⟨rfl, rfl⟩)

omit [Superblock] in
lemma slice_eq {m : Nat} (hm : m ≤ BSIZE - off % BSIZE) (hs : off + m ≤ x.size.toNat) :
    slice (v (x.block v (off / BSIZE))) (off % BSIZE) m = ((x.read v).drop off).take m := by
  refine List.ext_getElem? fun j => ?_
  by_cases hj : j < m
  · have hdiv : (off + j) / BSIZE = off / BSIZE ∧ (off + j) % BSIZE = off % BSIZE + j := by
      simp only [BSIZE] at *
      omega
    rw [slice, List.getElem?_map, List.getElem?_range hj, List.getElem?_take_of_lt hj, List.getElem?_drop,
      Dinode.getElem?_read (by omega), Dinode.get, hdiv.1, hdiv.2]
    rfl
  · rw [List.getElem?_eq_none (by simp [slice]; omega), List.getElem?_eq_none (by simp; omega)]

lemma ran_readiLoop {dst : Dst} {fuel : Nat} {l : List UInt8} (hdst : ∀ o m, dst.copyout o m = true)
    (hw : (a.d ip).Whole a.disk) (hbufs : a.bufs = ∅) (htot : tot ≤ n) (hfuel : n - tot ≤ fuel)
    (hoff : off + (n - tot) ≤ (a.d ip).size.toNat) :
    Does i F (readiLoop ip dst n fuel off tot l) a
      (toInt n, l ++ (((a.d ip).read a.disk).drop off).take (n - tot)) a := by
  induction fuel generalizing off tot l with
  | zero =>
    have : tot = n := by omega
    subst this
    refine .ret ⟨?_, rfl⟩
    rw [Nat.sub_self, List.take_zero, List.append_nil]
  | succ fuel ih =>
    refine .ite (fun hlt => ?_) fun hlt => ?_
    · have hmod : off % BSIZE < BSIZE := Nat.mod_lt _ (by decide)
      have hne := hw (off / BSIZE) ((Nat.div_mul_le_self ..).trans_lt (by omega))
      refine .next (ran_bmap_there hne hbufs) (.ite (fun h0 => absurd h0 hne) fun _ => ?_)
      have hheld : (a.d ip).block a.disk (off / BSIZE) ∉ a.bufs := hbufs ▸ Finset.notMem_empty _
      refine .next (ran_bread hheld) (.next (ran_brelse hheld) (.ite (fun _ => ?_) fun h0 => absurd (hdst ..) h0))
      rw [slice_eq (min_le_right ..) (by omega)]
      refine (ih (by omega) (by omega) (by omega)).mono ?_
      rintro _ _ ⟨rfl, rfl⟩
      refine ⟨?_, rfl⟩
      rw [List.append_assoc, ← List.drop_drop, ← List.take_add]
      congr 4
      omega
    · have : tot = n := by omega
      subst this
      refine .ret ⟨?_, rfl⟩
      rw [Nat.sub_self, List.take_zero, List.append_nil]

lemma ran_readi {dst : Dst} {off n : UInt32} (hdst : ∀ o m, dst.copyout o m = true) (hw : (a.d ip).Whole a.disk)
    (hs : (a.d ip).size.toNat ≤ MAXFILE * BSIZE) (hbufs : a.bufs = ∅) (hoff : off ≤ (a.d ip).size)
    (hn : off.toNat + n.toNat < 2 ^ 32) :
    Does i F (readi ip dst off n) a
      ((min n.toNat ((a.d ip).size.toNat - off.toNat) : Nat), (((a.d ip).read a.disk).drop off.toNat).take n.toNat) a := by
  have hno : ¬ (off > (a.d ip).size ∨ off + n < off) := by
    rw [gt_iff_lt, UInt32.lt_iff_toNat_lt, UInt32.lt_iff_toNat_lt, UInt32.toNat_add]
    have := UInt32.le_iff_toNat_le.1 hoff
    omega
  refine .next ran_getInode (.ite (fun hc => absurd hc hno) fun _ => ?_)
  show Does i F (readiLoop ip dst (if off + n > (a.d ip).size then (a.d ip).size - off else n).toNat
    (if off + n > (a.d ip).size then (a.d ip).size - off else n).toNat off.toNat 0 []) a _ a
  have hclip := readi_clip hno
  have hlen : (if off + n > (a.d ip).size then (a.d ip).size - off else n).toNat =
      min n.toNat ((a.d ip).size.toNat - off.toNat) := by
    have h1 := UInt32.le_iff_toNat_le.1 hoff
    split
    · rename_i h2
      rw [gt_iff_lt, UInt32.lt_iff_toNat_lt, UInt32.toNat_add, Nat.mod_eq_of_lt hn] at h2
      rw [UInt32.toNat_sub_of_le _ _ hoff]
      omega
    · rename_i h2
      rw [gt_iff_lt, UInt32.lt_iff_toNat_lt, UInt32.toNat_add, Nat.mod_eq_of_lt hn] at h2
      omega
  rw [hlen] at hclip ⊢
  have hmax : MAXFILE * BSIZE < 2 ^ 31 := by decide
  have hdrop : (((a.d ip).read a.disk).drop off.toNat).length = (a.d ip).size.toNat - off.toNat := by
    rw [List.length_drop, Dinode.length_read]
  have hloop := ran_readiLoop (i := i) (F := F) (l := []) (n := min n.toNat ((a.d ip).size.toNat - off.toNat)) hdst hw
    hbufs (Nat.zero_le _) le_rfl (by rwa [Nat.sub_zero])
  rw [List.nil_append, Nat.sub_zero, toInt_of_lt (by omega), ← List.take_take, ← hdrop, List.take_length,
    hdrop] at hloop
  exact hloop

end

end Xv6n.Fs
