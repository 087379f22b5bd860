import Xv6n.Fs.Bmap

/-!
# Writing to a file

What `writei` does to the inode that its caller has locked: the blocks it adds, the bytes it stores, and how
many blocks it logs. The loop is charged for each block of the file that it reaches: two blocks of the log
if the block may be new, its own and one of the free map, and one if it must be there already.
-/

namespace Xv6n.Fs
open Lib Function
variable [Superblock] {i : Pid} {F : Stop → Prop} {a a' a'' : Solo} {ip : Slot} {b r bn : Nat} {p q : Place}
  {I : Nat → Dinode} {v v' : Nat → Block} {d : Block}

lemma Sound.setData {n : Nat} (h : Sound I v) (hn : Live I n) (hb : (I n).slot v p ≠ 0)
    (hp : p ≠ .addr (Fin.last NDIRECT)) : Sound I (update v ((I n).slot v p) d) ∧
      ∀ m q, Live I m → (I m).slot (update v ((I n).slot v p) d) q = (I m).slot v q := by
  have hstart := (h.range n p hn hb).1
  have hslot : ∀ m q, Live I m → (I m).slot (update v ((I n).slot v p) d) q = (I m).slot v q := by
    intro m q hm
    refine Sound.slot_congr fun _ => update_of_ne (fun e => hp ?_) ..
    exact (h.inj n p m (.addr (Fin.last NDIRECT)) hn hm hb e.symm).2
  exact ⟨h.transfer (fun _ => id) hslot (fun _ hlt => (used_update hstart hlt).2)
    fun m hm => ⟨h.size_le m hm, h.whole m hm⟩, hslot⟩

lemma Editing.setData (h : Editing ip a) (hbn : bn < MAXFILE) (hb : (a.d ip).block a.disk bn ≠ 0) :
    Edits ip a (a.setDisk ((a.d ip).block a.disk bn) d) ∧
      ∀ p, (a.setDisk ((a.d ip).block a.disk bn) d).slot ip p = a.slot ip p := by
  have hs := h.sound.setData (d := d) (p := .data ⟨bn, hbn⟩) h.live
    (by rwa [Solo.files_self, ← Dinode.block_eq]) Place.data_ne
  have hstart := (h.block_used hbn hb).1
  rw [Solo.files_self, ← Dinode.block_eq] at hs
  obtain ⟨hsound, hslots⟩ := hs
  have hslot : ∀ p, (a.setDisk ((a.d ip).block a.disk bn) d).slot ip p = a.slot ip p := by
    intro p
    have := hslots (a.inum ip) p h.live
    rwa [Solo.files_self] at this
  have hbelow : ∀ b < bmapstart, (a.setDisk ((a.d ip).block a.disk bn) d).disk b = a.disk b := by
    intro b hlt
    refine update_of_ne ?_ ..
    have := bmapstart_le
    omega
  have hfiles : ∀ n < ninodes, (a.setDisk ((a.d ip).block a.disk bn) d).files ip n = a.files ip n := by
    intro n hn
    refine (files_update (a.setDisk _ d) (x := a.d ip) hbelow rfl hn).trans ?_
    rw [Solo.files, update_idem]
  refine ⟨⟨⟨?_, hsound.congr hfiles, h.bufs, h.op⟩, (update_eq_self ..).symm, fun p _ => hslot p,
    fun p h0 h1 => absurd ((hslot p).trans h0) h1, fun b hlt => (used_update hstart hlt).2,
    fun b hlt hu => .inl ((used_update hstart hlt).1 hu), fun c _ _ _ hc => ?_, hbelow, subset_rfl, rfl⟩, hslot⟩
  · refine ⟨h.live.1, ?_⟩
    show ((a.setDisk _ d).files ip (a.inum ip)).type ≠ 0
    rw [hfiles _ h.live.1]
    exact h.live.2
  · have hne := hc (.data ⟨bn, hbn⟩)
    rw [Solo.slot, ← Dinode.block_eq] at hne
    exact update_of_ne hne.symm ..

lemma Editing.log (h : Editing ip a) : Edits ip a (a.log b) :=
  ⟨⟨h.live, h.sound, h.bufs, h.op⟩, (update_eq_self ..).symm, fun _ _ => rfl, fun _ h0 h1 => absurd h0 h1,
    fun _ _ => id, fun _ _ => .inl, fun _ _ _ _ _ => rfl, fun _ _ => rfl, Finset.subset_insert .., rfl⟩

namespace Solo

/-- Byte `k` of a file. -/
def byte (a : Solo) (ip : Slot) (k : Nat) : UInt8 := (a.disk ((a.d ip).block a.disk (k / BSIZE))).get (k % BSIZE)

omit [Superblock] in
lemma pay_log : (a.log b).pay ip ≤ a.pay ip := by
  unfold pay
  split
  · exact Nat.zero_le _
  · rename_i hn
    exact (if_neg fun hp => hn ⟨hp.1, Finset.mem_insert_of_mem hp.2⟩).ge

omit [Superblock] in
lemma pay_le : a.pay ip ≤ 2 := by
  unfold pay
  split <;> omega

end Solo

omit [Superblock] in
lemma Dinode.lt_of_block {x : Dinode} (h : x.block v bn ≠ 0) : bn < MAXFILE := by
  unfold Dinode.block at h
  simp only [MAXFILE]
  split at h
  · omega
  · split at h
    · omega
    · exact absurd rfl h

lemma Edits.block_eq (h : Edits ip a a') (hb : (a.d ip).block a.disk bn ≠ 0) :
    (a'.d ip).block a'.disk bn = (a.d ip).block a.disk bn := by
  have hm := Dinode.lt_of_block hb
  rw [Dinode.block_eq hm] at hb ⊢
  rw [Dinode.block_eq hm]
  exact h.slot _ hb

lemma Edits.old_eq (h : Edits ip a a') : a'.old = a.old := by rw [h.rest]

/-- What writing `left` bytes from `off` on can add to the log, besides an indirect block. -/
def charge (off left : Nat) : Nat :=
  if left = 0 then 0
  else if off % BSIZE = 0 then 2 * ((left + BSIZE - 1) / BSIZE)
  else 1 + 2 * ((left - (BSIZE - off % BSIZE) + BSIZE - 1) / BSIZE)

omit [Superblock] in
lemma charge_step (off : Nat) {left : Nat} (hl : 0 < left) :
    charge (off + min left (BSIZE - off % BSIZE)) (left - min left (BSIZE - off % BSIZE)) +
      (if off % BSIZE = 0 then 2 else 1) ≤ charge off left := by
  unfold charge
  simp only [BSIZE]
  rcases Nat.le_total left (1024 - off % 1024) with h | h
  · rw [min_eq_left h, Nat.sub_self, if_pos rfl, if_neg hl.ne']
    split <;> omega
  · rw [min_eq_right h, if_neg hl.ne', if_pos (show (off + (1024 - off % 1024)) % 1024 = 0 by omega)]
    split <;> split <;> omega

omit [Superblock] in
lemma charge_le {off left k : Nat} (hl : left ≤ k * BSIZE) : charge off left ≤ 2 * k + 1 := by
  unfold charge
  simp only [BSIZE] at *
  split
  · omega
  · split <;> omega

/-- The source holds the bytes `l`, all of them readable. -/
def Src.Holds (src : Src) (l : List UInt8) : Prop :=
  ∀ o m, o + m ≤ l.length → src.copyin o m = (l.drop o).take m

/-- What the loop of `writei` does from offset `off` on, `tot` bytes having been written; it ends at `r`. -/
structure Wrote (ip : Slot) (src : Src) (n off tot : Nat) (a : Solo) (r : Nat × Nat) (a' : Solo) : Prop where
  edits : Edits ip a a'
  tot_le : tot ≤ r.2
  le_n : r.2 ≤ n
  off_eq : r.1 + tot = off + r.2
  grown : ∀ bm, off / BSIZE ≤ bm → bm * BSIZE < r.1 → (a'.d ip).block a'.disk bm ≠ 0
  bytes : ∀ l, src.Holds l → l.length = n → ∀ k < MAXFILE * BSIZE,
    (off ≤ k → k < r.1 → a'.byte ip k = l.getD (tot + (k - off)) 0) ∧
      (¬ (off ≤ k ∧ k < r.1) → (a.d ip).block a.disk (k / BSIZE) ≠ 0 → a'.byte ip k = a.byte ip k)
  short : ∀ l, src.Holds l → l.length = n → r.2 < n → Full a'.disk
  cost : a'.logged.card + a'.pay ip ≤ a.logged.card + a.pay ip + charge off (n - tot)

omit [Superblock] in
lemma div_lt_maxfile {k : Nat} (hk : k < MAXFILE * BSIZE) : k / BSIZE < MAXFILE :=
  Nat.div_lt_of_lt_mul (by rwa [Nat.mul_comm])

lemma Bmap.byte_eq {k : Nat} (h : Bmap ip bn a r a') (hb : (a.d ip).block a.disk (k / BSIZE) ≠ 0) :
    a'.byte ip k = a.byte ip k := by
  rw [Solo.byte, h.edits.block_eq hb, h.own _ (Dinode.lt_of_block hb) hb, Solo.byte]

omit [Superblock] in
lemma get_paste {o j : Nat} {l : List UInt8} (hj : j < BSIZE) :
    (paste d o l).get j = if o ≤ j ∧ j < o + l.length then l.getD (j - o) 0 else d.get j := Block.get_ofFn hj

lemma Editing.byte_setData {k : Nat} (h : Editing ip a) (hbn : bn < MAXFILE) (hb : (a.d ip).block a.disk bn ≠ 0)
    (hk : k < MAXFILE * BSIZE) : (a.setDisk ((a.d ip).block a.disk bn) d).byte ip k =
      if k / BSIZE = bn then d.get (k % BSIZE) else a.byte ip k := by
  have hm := div_lt_maxfile hk
  have hblock : ((a.setDisk ((a.d ip).block a.disk bn) d).d ip).block
      (a.setDisk ((a.d ip).block a.disk bn) d).disk (k / BSIZE) = (a.d ip).block a.disk (k / BSIZE) := by
    rw [Dinode.block_eq hm, Dinode.block_eq hm]
    exact (h.setData hbn hb).2 _
  rw [Solo.byte, hblock]
  split
  · rename_i e
    rw [e]
    exact congrArg (Block.get · _) (update_self ..)
  · rename_i hne
    refine congrArg (Block.get · _) (update_of_ne (fun e => hne ?_) ..)
    have hinj := h.sound.inj (a.inum ip) (.data ⟨bn, hbn⟩) (a.inum ip) (.data ⟨_, hm⟩) h.live h.live
    rw [Solo.files_self, ← Dinode.block_eq, ← Dinode.block_eq] at hinj
    exact (congrArg Fin.val (Place.data_inj (hinj hb e.symm).2)).symm

section got
variable (hb : Bmap ip bn a r a') (hr : r ≠ 0)
include hb hr

lemma Bmap.setData : Edits ip a' (a'.setDisk r d) := by
  have hne := hb.got.trans_ne hr
  have := hb.edits.editing.setData (d := d) (Dinode.lt_of_block hne) hne
  rw [hb.got] at this
  exact this.1

lemma Bmap.put : Edits ip a' (a'.put r d) := (hb.setData hr).trans (hb.setData hr).editing.log

lemma Bmap.block_put : ((a'.put r d).d ip).block (a'.put r d).disk bn ≠ 0 := by
  have hne := hb.got.trans_ne hr
  rw [(hb.put hr).block_eq hne]
  exact hne

lemma Bmap.byte_put {k : Nat} (hk : k < MAXFILE * BSIZE) :
    (a'.put r d).byte ip k = if k / BSIZE = bn then d.get (k % BSIZE) else a'.byte ip k := by
  have hne := hb.got.trans_ne hr
  have := hb.edits.editing.byte_setData (d := d) (Dinode.lt_of_block hne) hne hk
  rwa [hb.got] at this

end got

section loop
variable {src : Src} {n off tot : Nat}
  (hfirst : off % BSIZE ≠ 0 → (a.d ip).block a.disk (off / BSIZE) ≠ 0)
include hfirst

lemma Wrote.stop (htot : tot ≤ n) (hedits : Edits ip a a')
    (hcost : a'.logged.card + a'.pay ip ≤ a.logged.card + a.pay ip + charge off (n - tot))
    (hs : ∀ l, src.Holds l → l.length = n → (tot < n → Full a'.disk) ∧
      ∀ k, (a.d ip).block a.disk (k / BSIZE) ≠ 0 → a'.byte ip k = a.byte ip k) :
    Wrote ip src n off tot a (off, tot) a' where
  edits := hedits
  tot_le := le_rfl
  le_n := htot
  off_eq := rfl
  grown bm h1 h2 := by
    -- only the block in the middle of which `off` lies begins below it
    have hbm : bm = off / BSIZE := le_antisymm ((Nat.le_div_iff_mul_le (by decide)).2 h2.le) h1
    subst hbm
    have hb := hfirst fun h0 => h2.ne (Nat.div_mul_cancel (Nat.dvd_of_mod_eq_zero h0))
    rw [hedits.block_eq hb]
    exact hb
  bytes l hl hn k _ := ⟨fun h1 h2 => absurd h1 (not_le.2 h2), fun _ => (hs l hl hn).2 k⟩
  short l hl hn := (hs l hl hn).1
  cost := hcost

section step
variable (hb : Bmap ip (off / BSIZE) a r a') (htot : tot < n)
include hb htot

lemma Bmap.charged : a'.logged.card + a'.pay ip ≤ a.logged.card + a.pay ip + charge off (n - tot) := by
  have hcost := hb.cost
  have hstep := charge_step off (Nat.sub_pos_of_lt htot)
  split at hcost
  · rename_i h0
    rw [if_pos (not_not.1 fun h => hfirst h h0)] at hstep
    omega
  · omega

lemma Bmap.put_charged (hr : r ≠ 0) {left : Nat} (hleft : left = min (n - tot) (BSIZE - off % BSIZE)) :
    (a'.put r d).logged.card + ((a'.put r d).pay ip + charge (off + left) (n - (tot + left))) ≤
      a.logged.card + (a.pay ip + charge off (n - tot)) := by
  have hcost := hb.cost
  have hstep := charge_step off (Nat.sub_pos_of_lt htot)
  have hpay : (a'.put r d).pay ip ≤ a'.pay ip := Solo.pay_log (a := a'.setDisk r d)
  have hcard : (a'.put r d).logged.card ≤ a'.logged.card + 1 := Finset.card_insert_le ..
  rw [← hleft, Nat.sub_sub] at hstep
  by_cases h0 : (a.d ip).block a.disk (off / BSIZE) = 0
  · have hsame : (a'.put r d).logged.card = a'.logged.card :=
      congrArg Finset.card (Finset.insert_eq_of_mem (hb.logged h0 hr))
    rw [if_pos h0] at hcost
    rw [if_pos (not_not.1 fun h => hfirst h h0)] at hstep
    omega
  · rw [if_neg h0] at hcost
    have : 1 ≤ if off % BSIZE = 0 then 2 else 1 := by split <;> decide
    omega

lemma Wrote.step {m : Nat} {q : Nat × Nat} (hr : r ≠ 0) (hm : m = min (n - tot) (BSIZE - off % BSIZE))
    (hlen : (src.copyin tot m).length = m)
    (hw : Wrote ip src n (off + m) (tot + m)
      (a'.put r (paste (a'.disk r) (off % BSIZE) (src.copyin tot m))) q a'') :
    Wrote ip src n off tot a q a'' := by
  have hput := hb.put hr (d := paste (a'.disk r) (off % BSIZE) (src.copyin tot m))
  have hblock := hb.block_put hr (d := paste (a'.disk r) (off % BSIZE) (src.copyin tot m))
  have hmod : off % BSIZE < BSIZE := Nat.mod_lt _ (by decide)
  have hpos : 0 < m := by omega
  have hend : off % BSIZE + m ≤ BSIZE := by omega
  have hdiv := Nat.div_add_mod off BSIZE
  -- a byte at or above `off` and below the end of the copy is in the block of `off`
  have hin : ∀ k, off ≤ k → k < off + m → k / BSIZE = off / BSIZE ∧ k % BSIZE = off % BSIZE + (k - off) := by
    intro k h1 h2
    simp only [BSIZE] at *
    omega
  refine ⟨(hb.edits.trans hput).trans hw.edits, by have := hw.tot_le; omega, hw.le_n, by have := hw.off_eq; omega,
    fun bm h1 h2 => ?_, fun l hl hn k hk => ⟨fun h1 h2 => ?_, fun h1 h2 => ?_⟩, hw.short, ?_⟩
  · by_cases h3 : (off + m) / BSIZE ≤ bm
    · exact hw.grown bm h3 h2
    · have hbm : bm = off / BSIZE := by
        simp only [BSIZE] at *
        omega
      rw [hbm, hw.edits.block_eq hblock]
      exact hblock
  · by_cases h3 : k < off + m
    · obtain ⟨h4, h5⟩ := hin k h1 h3
      rw [(hw.bytes l hl hn k hk).2 (by omega) (h4.symm ▸ hblock), hb.byte_put hr hk, if_pos h4,
        get_paste (by omega), h5, if_pos (by omega), hl _ _ (by have := hw.tot_le; have := hw.le_n; omega),
        Nat.add_sub_cancel_left, List.getD_eq_getElem?_getD, List.getElem?_take_of_lt (by omega), List.getElem?_drop,
        ← List.getD_eq_getElem?_getD]
    · rw [(hw.bytes l hl hn k hk).1 (by omega) h2]
      congr 1
      omega
  · have hsame := (hb.edits.trans hput).block_eq h2
    rw [(hw.bytes l hl hn k hk).2 (by omega) (hsame.trans_ne h2), hb.byte_put hr hk]
    split
    · rename_i h4
      rw [get_paste (Nat.mod_lt _ (by decide)), if_neg, ← hb.byte_eq h2, Solo.byte, h4, hb.got]
      have := Nat.div_add_mod k BSIZE
      rw [h4] at this
      rw [hlen]
      have := hw.off_eq
      have := hw.tot_le
      omega
    · exact hb.byte_eq h2
  · have h1 := hw.cost
    have h2 := hb.put_charged hfirst htot (d := paste (a'.disk r) (off % BSIZE) (src.copyin tot m)) hr hm
    omega

end step

end loop

lemma ran_writeiLoop {inum : Nat} {src : Src} {n fuel off tot : Nat} (h : Editing ip a) (htot : tot ≤ n)
    (hfuel : n - tot ≤ fuel) (hmax : off + (n - tot) ≤ MAXFILE * BSIZE)
    (hfirst : off % BSIZE ≠ 0 → (a.d ip).block a.disk (off / BSIZE) ≠ 0)
    (hroom : a.Spare F (a.pay ip + charge off (n - tot))) :
    Ran i F (writeiLoop ip inum src n fuel off tot) a (Wrote ip src n off tot a) := by
  induction fuel generalizing off tot a with
  | zero =>
    refine .ret (.stop hfirst htot (.refl h) (Nat.le_add_right ..) fun _ _ _ => ⟨fun _ => ?_, fun _ _ => rfl⟩)
    omega
  | succ fuel ih =>
    refine .ite (fun hlt => ?_) fun hlt =>
      .ret (.stop hfirst htot (.refl h) (Nat.le_add_right ..) fun _ _ _ => ⟨fun h1 => absurd h1 hlt, fun _ _ => rfl⟩)
    have hbn : off / BSIZE < MAXFILE := div_lt_maxfile (by omega)
    have hstep := charge_step off (Nat.sub_pos_of_lt hlt)
    have hnew : (a.d ip).block a.disk (off / BSIZE) = 0 → a.Spare F (a.pay ip + 2) := by
      intro h0
      rw [if_pos (not_not.1 fun h => hfirst h h0)] at hstep
      exact hroom.mono (by omega)
    refine .bind (ran_bmap hbn h hnew) fun r a' hb => ?_
    refine .ite (fun h0 => ?_) fun h0 => ?_
    · refine .ret (.stop hfirst htot hb.edits (hb.charged hfirst hlt) fun _ _ _ => ⟨fun _ => hb.full h0, fun _ => hb.byte_eq⟩)
    refine .next (ran_bread hb.edits.editing.notMem) (.next ran_copyin ?_)
    have hcharged := hb.charged hfirst hlt
    refine .ite (fun hok => ?_) fun hok => ?_
    · have hlen := of_decide_eq_true hok
      have hroom' : a'.Spare F 0 := hroom.of_le hb.edits.old_eq (by omega)
      refine .next (ran_logWrite hb.edits.editing.op hroom') (.next (ran_note nofun) ?_)
      refine .next (ran_brelse (a := a'.put r _) hb.edits.editing.notMem) ?_
      have hput := hb.put_charged hfirst hlt (d := paste (a'.disk r) (off % BSIZE)
        (src.copyin tot (min (n - tot) (BSIZE - off % BSIZE)))) h0 rfl
      have hblock := hb.block_put h0 (d := paste (a'.disk r) (off % BSIZE)
        (src.copyin tot (min (n - tot) (BSIZE - off % BSIZE))))
      have hmod : off % BSIZE < BSIZE := Nat.mod_lt _ (by decide)
      refine (ih (hb.put h0).editing (by omega) (by omega) (by omega) (fun h1 => ?_)
        (hroom.of_le hb.edits.old_eq hput)).mono fun _ _ => .step hfirst hb hlt h0 rfl hlen
      have hsame : (off + min (n - tot) (BSIZE - off % BSIZE)) / BSIZE = off / BSIZE := by
        simp only [BSIZE] at *
        omega
      rw [hsame]
      exact hblock
    · refine .next (ran_brelse (a := a'.setDisk r _) hb.edits.editing.notMem) (.ret ?_)
      refine .stop hfirst htot (hb.edits.trans (hb.setData h0)) hcharged fun l hl hn => ?_
      -- a source that can be read does not fault
      refine absurd (decide_eq_true ?_) hok
      rw [hl _ _ (by omega), List.length_take, List.length_drop]
      omega

def Solo.flush (a : Solo) (ip : Slot) : Solo :=
  a.put (iblock (a.inum ip)) (Dinode.store (a.disk (iblock (a.inum ip))) (ioff (a.inum ip)) (a.d ip))

lemma ran_iupdate (hb : iblock (a.inum ip) ∉ a.bufs) (hop : 1 ≤ a.ops) (hroom : a.Spare F 0) :
    Does i F (iupdate ip) a () (a.flush ip) :=
  .next ran_getInode (.next (ran_bread hb) (ran_put_last hb hop hroom))

/-- The size of a file that has been written up to `off`. -/
def Dinode.grow (x : Dinode) (off : Nat) : Dinode := if off > x.size.toNat then { x with size := .ofNat off } else x

/-- What `writei` does. -/
inductive Writei (ip : Slot) (src : Src) (off n : UInt32) (a : Solo) : Int → Solo → Prop where
  | refused (h : off > (a.d ip).size ∨ off + n < off ∨ (off + n).toNat > MAXFILE * BSIZE) :
    Writei ip src off n a (-1) a
  | wrote {r : Nat × Nat} {a' : Solo} (hoff : off ≤ (a.d ip).size) (hn : off.toNat + n.toNat ≤ MAXFILE * BSIZE)
    (h : Wrote ip src n.toNat off.toNat 0 a r a') :
    Writei ip src off n a (toInt r.2) ((a'.setD ip ((a'.d ip).grow r.1)).flush ip)

omit [Superblock] in
lemma toNat_add_of_not_lt {x y : UInt32} (h : ¬ x + y < x) : (x + y).toNat = x.toNat + y.toNat := by
  have hx := x.toNat_lt
  have hy := y.toNat_lt
  rw [UInt32.lt_iff_toNat_lt, UInt32.toNat_add] at h
  rw [UInt32.toNat_add]
  omega

lemma Editing.first (h : Editing ip a) {off : Nat} (hoff : off ≤ (a.d ip).size.toNat) (hmod : off % BSIZE ≠ 0) :
    (a.d ip).block a.disk (off / BSIZE) ≠ 0 := by
  have hw := h.sound.whole _ h.live
  rw [Solo.files_self] at hw
  have := Nat.div_add_mod off BSIZE
  refine hw _ ?_
  rw [Nat.mul_comm]
  omega

lemma ran_writei {src : Src} {off n : UInt32} (h : Editing ip a)
    (hroom : a.Spare F (a.pay ip + charge off.toNat n.toNat)) :
    Ran i F (writei ip src off n) a (Writei ip src off n a) := by
  refine .next ran_getInode (.ite (fun hc => .ret (.refused hc)) fun hc => ?_)
  obtain ⟨h1, hc⟩ := not_or.1 hc
  obtain ⟨h2, h3⟩ := not_or.1 hc
  have hoff : off ≤ (a.d ip).size := UInt32.not_lt.1 h1
  have hmax : off.toNat + n.toNat ≤ MAXFILE * BSIZE := by
    rw [← toNat_add_of_not_lt h2]
    exact not_lt.1 h3
  refine .bind (ran_writeiLoop h (Nat.zero_le _) le_rfl hmax (h.first hoff) hroom) ?_
  rintro ⟨off', tot⟩ a' hw
  refine .next ran_getInode ?_
  have hgrow : Does i F (when (off' > (a'.d ip).size.toNat) (setInode ip { a'.d ip with size := .ofNat off' })) a' ()
      (a'.setD ip ((a'.d ip).grow off')) := by
    refine Tracks.ite (fun hlt => ?_) fun hlt => .ret ⟨rfl, ?_⟩
    · rw [Dinode.grow, if_pos hlt]
      exact ran_setInode
    · rw [Dinode.grow, if_neg hlt]
      simp [Solo.setD]
  have hcost := hw.cost
  rw [Nat.sub_zero] at hcost
  have hroom' : a'.Spare F 0 := hroom.of_le hw.edits.old_eq (by omega)
  have hupdate : Does i F (iupdate ip) (a'.setD ip ((a'.d ip).grow off')) ()
      ((a'.setD ip ((a'.d ip).grow off')).flush ip) :=
    ran_iupdate hw.edits.editing.notMem hw.edits.editing.op hroom'
  exact .next hgrow (.next hupdate (.ret (.wrote (r := (off', tot)) hoff hmax hw)))

end Xv6n.Fs
