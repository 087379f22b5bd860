import Xv6n.Fs.Bitmap

/-!
# Inodes on disk and the blocks they own

What the bytes of an inode block hold after an inode has been stored in it, the places of an inode that can
hold a block address, and `Sound`: each data block belongs to at most one place, and the blocks below the
size of a file are there.
-/

namespace Xv6n.Fs
open Lib Function

namespace Dinode
variable {x y : Dinode} {d : Block} {o c k w : Nat}

lemma get_store (ho : o + 64 ≤ BSIZE) {j : Nat} (hj : j < 64) : (store d o x).get (o + j) = x.byte j := by
  rw [store, Block.get_ofFn (by omega), if_pos (by omega), Nat.add_sub_cancel_left]

lemma le_store (ho : o + 64 ≤ BSIZE) (hc : c + k ≤ 64) (hw : w < 256 ^ k)
    (hb : ∀ i < k, x.byte (c + i) = .ofNat (w / 256 ^ i)) : (store d o x).le (o + c) k = w := by
  rw [Block.le, Lib.le_digits (v := w), Nat.mod_eq_of_lt hw]
  intro i hi
  rw [Nat.add_assoc, get_store ho (by omega), hb i hi]

lemma short_store (ho : o + 64 ≤ BSIZE) (hc : c + 2 ≤ 64) {t : Int16}
    (hb : ∀ i < 2, x.byte (c + i) = .ofNat (t.toUInt16.toNat / 256 ^ i)) :
    (⟨.ofNat ((store d o x).le (o + c) 2)⟩ : Int16) = t := by
  rw [le_store ho hc t.toUInt16.toNat_lt hb, UInt16.ofNat_toNat]

lemma word_store (ho : o + 64 ≤ BSIZE) (hc : c + 4 ≤ 64) {t : UInt32}
    (hb : ∀ i < 4, x.byte (c + i) = .ofNat (t.toNat / 256 ^ i)) :
    UInt32.ofNat ((store d o x).le (o + c) 4) = t := by
  rw [le_store ho hc t.toNat_lt hb, UInt32.ofNat_toNat]

lemma addr_eq {j : Fin (NDIRECT + 1)} : x.addr j = (x.addrs j).toNat := dif_pos j.isLt

lemma load_store (ho : o + 64 ≤ BSIZE) : load (store d o x) o = x := by
  have h1 := short_store (d := d) (c := 0) (t := x.type) ho (by decide) fun i hi => by
    rw [Nat.zero_add, byte, if_pos hi]
  have h2 := short_store (d := d) (c := 2) (t := x.major) ho (by decide) fun i hi => by
    rw [byte, if_neg (by omega), if_pos (by omega), Nat.add_sub_cancel_left]
  have h3 := short_store (d := d) (c := 4) (t := x.minor) ho (by decide) fun i hi => by
    rw [byte, if_neg (by omega), if_neg (by omega), if_pos (by omega), Nat.add_sub_cancel_left]
  have h4 := short_store (d := d) (c := 6) (t := x.nlink) ho (by decide) fun i hi => by
    rw [byte, if_neg (by omega), if_neg (by omega), if_neg (by omega), if_pos (by omega), Nat.add_sub_cancel_left]
  have h5 := word_store (d := d) (c := 8) (t := x.size) ho (by decide) fun i hi => by
    rw [byte, if_neg (by omega), if_neg (by omega), if_neg (by omega), if_neg (by omega), if_pos (by omega),
      Nat.add_sub_cancel_left]
  have h6 : ∀ j : Fin (NDIRECT + 1), UInt32.ofNat ((store d o x).le (o + (12 + 4 * j)) 4) = x.addrs j := by
    intro j
    have hj : (j : Nat) < 13 := j.isLt
    refine word_store ho (by omega) fun i hi => ?_
    rw [byte, if_neg (by omega), if_neg (by omega), if_neg (by omega), if_neg (by omega), if_neg (by omega),
      ← addr_eq, show (12 + 4 * (j : Nat) + i - 12) / 4 = j by omega, show (12 + 4 * (j : Nat) + i - 12) % 4 = i by omega]
  unfold load
  rw [Nat.add_zero] at h1
  simp only [h1, h2, h3, h4, h5, Nat.add_assoc, h6]

lemma load_store_of_disjoint {o' : Nat} (ho : o' + 64 ≤ BSIZE) (hd : o' + 64 ≤ o ∨ o + 64 ≤ o') :
    load (store d o x) o' = load d o' := by
  have h : ∀ c k, c + k ≤ 64 → (store d o x).le (o' + c) k = d.le (o' + c) k := by
    intro c k hc
    refine Lib.le_congr fun j h1 h2 => ?_
    rw [store, Block.get_ofFn (by omega), if_neg (by omega)]
  have h0 := h 0 2 (by decide)
  rw [Nat.add_zero] at h0
  have ha : ∀ j : Fin (NDIRECT + 1), (store d o x).le (o' + (12 + 4 * j)) 4 = d.le (o' + (12 + 4 * j)) 4 :=
    fun j => h _ _ (by have : (j : Nat) < 13 := j.isLt; omega)
  unfold load
  simp only [h0, h 2 2 (by decide), h 4 2 (by decide), h 6 2 (by decide), h 8 4 (by decide), Nat.add_assoc, ha]

end Dinode

section
variable [Superblock] {v : Nat → Block} {n m b r : Nat} {x : Dinode} {d : Block}

/-- Inode `n` on disk. -/
def dinodeAt (v : Nat → Block) (n : Nat) : Dinode := Dinode.load (v (iblock n)) (ioff n)

omit [Superblock] in
lemma ioff_le : ioff n + 64 ≤ BSIZE := by
  have : n % IPB < IPB := Nat.mod_lt _ (by decide)
  simp only [ioff, IPB, BSIZE] at *
  omega

lemma iblock_lt (hn : n < ninodes) : iblock n < bmapstart := by
  have h := Superblock.bmap_le
  have : n / IPB ≤ (ninodes - 1) / IPB := Nat.div_le_div_right (by omega)
  rw [iblock]
  omega

lemma bmapstart_le : bmapstart ≤ datastart := (Nat.le_add_right ..).trans Superblock.data_le.le

lemma datastart_pos : 0 < datastart := by
  have h1 : inodestart < bmapstart := (Nat.le_add_right ..).trans_lt Superblock.bmap_le
  have h2 := bmapstart_le
  omega

lemma dinodeAt_store :
    dinodeAt (update v (iblock n) (Dinode.store (v (iblock n)) (ioff n) x)) =
      update (dinodeAt v) n x := by
  funext m
  by_cases hm : m = n
  · subst hm
    rw [update_self, dinodeAt, update_self, Dinode.load_store ioff_le]
  · rw [update_of_ne hm, dinodeAt, dinodeAt]
    by_cases hb : iblock m = iblock n
    · rw [hb, update_self, Dinode.load_store_of_disjoint ioff_le]
      have hdiv : m / IPB = n / IPB := Nat.add_right_cancel hb
      have hmod : m % IPB ≠ n % IPB := fun h => hm (by rw [← Nat.div_add_mod m IPB, ← Nat.div_add_mod n IPB, hdiv, h])
      simp only [ioff]
      omega
    · rw [update_of_ne hb]

lemma dinodeAt_congr {v' : Nat → Block} (h : ∀ b < bmapstart, v' b = v b) (hn : n < ninodes) :
    dinodeAt v' n = dinodeAt v n := by
  rw [dinodeAt, h _ (iblock_lt hn), dinodeAt]

end

/-- The places of an inode that can hold a block address. -/
inductive Place where
  | addr (k : Fin (NDIRECT + 1))
  | entry (j : Fin NINDIRECT)
deriving DecidableEq

namespace Place

/-- The place of block `bn` of a file. -/
def data (bn : Fin MAXFILE) : Place :=
  if h : bn.val < NDIRECT then .addr ⟨bn, Nat.lt_succ_of_lt h⟩
  else .entry ⟨bn - NDIRECT, by have := bn.isLt; simp only [MAXFILE] at this; omega⟩

lemma data_inj {bn bm : Fin MAXFILE} (h : data bn = data bm) : bn = bm := by
  unfold data at h
  split at h <;> split at h <;> simp only [addr.injEq, entry.injEq, Fin.mk.injEq, reduceCtorEq] at h <;> omega

lemma data_ne {bn : Fin MAXFILE} : data bn ≠ .addr (Fin.last NDIRECT) := by
  unfold data
  split
  · rename_i h
    intro e
    have := congrArg Fin.val (addr.inj e)
    simp only [Fin.val_last] at this
    omega
  · nofun

end Place

def Dinode.slot (x : Dinode) (v : Nat → Block) : Place → Nat
  | .addr k => x.addr k
  | .entry j => if x.addr NDIRECT = 0 then 0 else (v (x.addr NDIRECT)).le (4 * j) 4

lemma Dinode.block_eq {x : Dinode} {v : Nat → Block} {bn : Nat} (h : bn < MAXFILE) :
    x.block v bn = x.slot v (.data ⟨bn, h⟩) := by
  unfold block Place.data
  by_cases hd : bn < NDIRECT
  · rw [if_pos hd, dif_pos hd]
    rfl
  · rw [if_neg hd, dif_neg hd, if_pos (by simp only [MAXFILE] at h; omega)]
    rfl

/-- Inode `n` is in use. -/
def Live [Superblock] (I : Nat → Dinode) (n : Nat) : Prop := n < ninodes ∧ (I n).type ≠ 0

/-- The blocks of the inodes `I`: those before the data are never handed out, and each data block that an
    inode refers to is marked in use and is referred to from one place only. No file has a hole. -/
structure Sound [Superblock] (I : Nat → Dinode) (v : Nat → Block) : Prop where
  reserved : Reserved v
  range : ∀ n p, Live I n → (I n).slot v p ≠ 0 → datastart ≤ (I n).slot v p ∧ (I n).slot v p < size
  used : ∀ n p, Live I n → (I n).slot v p ≠ 0 → Used v ((I n).slot v p)
  inj : ∀ n p m q, Live I n → Live I m → (I n).slot v p ≠ 0 → (I n).slot v p = (I m).slot v q → n = m ∧ p = q
  whole : ∀ n, Live I n → (I n).Whole v
  size_le : ∀ n, Live I n → (I n).size.toNat ≤ MAXFILE * BSIZE

def Exact [Superblock] (I : Nat → Dinode) (v : Nat → Block) : Prop :=
  ∀ b, datastart ≤ b → b < size → Used v b → ∃ n p, Live I n ∧ (I n).slot v p = b

namespace Sound
variable [Superblock] {I I' : Nat → Dinode} {v v' : Nat → Block} {n m r b : Nat} {p q : Place} {x : Dinode} {d : Block}

lemma transfer (h : Sound I v) (hlive : ∀ n, Live I' n → Live I n)
    (hslot : ∀ n p, Live I' n → (I' n).slot v' p = (I n).slot v p) (hused : ∀ b < size, Used v b → Used v' b)
    (hsize : ∀ n, Live I' n → (I' n).size.toNat ≤ MAXFILE * BSIZE ∧
      ∀ bn, bn * BSIZE < (I' n).size.toNat → (I n).block v bn ≠ 0) : Sound I' v' where
  reserved b hb := hused b (hb.trans_le Superblock.size_le) (h.reserved b hb)
  range n p hn := by
    rw [hslot n p hn]
    exact h.range n p (hlive n hn)
  used n p hn hp := by
    rw [hslot n p hn] at hp ⊢
    exact hused _ (h.range n p (hlive n hn) hp).2 (h.used n p (hlive n hn) hp)
  inj n p m q hn hm := by
    rw [hslot n p hn, hslot m q hm]
    exact h.inj n p m q (hlive n hn) (hlive m hm)
  whole n hn bn hbn := by
    have hlt : bn < MAXFILE := Nat.lt_of_mul_lt_mul_right (hbn.trans_le (hsize n hn).1)
    rw [Dinode.block_eq hlt, hslot n _ hn, ← Dinode.block_eq hlt]
    exact (hsize n hn).2 bn hbn
  size_le n hn := (hsize n hn).1

lemma extend (h : Sound I v) (hI : ∀ m, (I' m).type = (I m).type ∧ (I' m).size = (I m).size)
    (hr : r < size) (hfree : ¬ Used v r) (hused : ∀ b < size, Used v' b ↔ b = r ∨ Used v b) (h0 : (I n).slot v p = 0)
    (hslot : ∀ m q, Live I m → (I' m).slot v' q = if m = n ∧ q = p then r else (I m).slot v q) : Sound I' v' := by
  have hlive : ∀ m, Live I' m ↔ Live I m := fun m => by rw [Live, Live, (hI m).1]
  have hstart := h.reserved.le hfree
  -- no place holds the new block yet
  have hnew : ∀ m q, Live I m → (I m).slot v q ≠ r := by
    rintro m q hm rfl
    exact hfree (h.used m q hm (datastart_pos.trans_le hstart).ne')
  refine ⟨fun b hb => ?_, fun m q hm hq => ?_, fun m q hm hq => ?_, fun m q m' q' hm hm' hq he => ?_, fun m hm bn hbn => ?_,
    fun m hm => ?_⟩
  · exact (hused b (hb.trans_le Superblock.size_le)).2 (.inr (h.reserved b hb))
  · rw [hslot m q ((hlive m).1 hm)] at hq ⊢
    split at hq
    · rw [if_pos ‹_›]
      exact ⟨hstart, hr⟩
    · rw [if_neg ‹_›]
      exact h.range m q ((hlive m).1 hm) hq
  · rw [hslot m q ((hlive m).1 hm)] at hq ⊢
    split at hq
    · rw [if_pos ‹_›]
      exact (hused r hr).2 (.inl rfl)
    · rw [if_neg ‹_›]
      exact (hused _ (h.range m q ((hlive m).1 hm) hq).2).2 (.inr (h.used m q ((hlive m).1 hm) hq))
  · rw [hlive] at hm hm'
    rw [hslot m q hm, hslot m' q' hm'] at he
    rw [hslot m q hm] at hq
    split at he
    · rename_i h1
      split at he
      · rename_i h2
        exact ⟨h1.1.trans h2.1.symm, h1.2.trans h2.2.symm⟩
      · exact absurd he.symm (hnew m' q' hm')
    · rename_i h1
      split at he
      · exact absurd he (hnew m q hm)
      · rw [if_neg h1] at hq
        exact h.inj m q m' q' hm hm' hq he
  · rw [hlive] at hm
    rw [(hI m).2] at hbn
    have hlt : bn < MAXFILE := Nat.lt_of_mul_lt_mul_right (hbn.trans_le (h.size_le m hm))
    have hw := h.whole m hm bn hbn
    rw [Dinode.block_eq hlt] at hw ⊢
    rw [hslot m _ hm]
    split
    · rename_i h1
      rw [h1.1, h1.2] at hw
      exact absurd h0 hw
    · exact hw
  · rw [(hI m).2]
    exact h.size_le m ((hlive m).1 hm)

lemma slot_ne_bblock (h : Sound I v) (hn : Live I n) (hp : (I n).slot v p ≠ 0) (hb : b < size) :
    (I n).slot v p ≠ bblock b := by
  have h1 := (h.range n p hn hp).1
  have h2 := bblock_lt hb
  omega

omit [Superblock] in
lemma slot_congr (hv : x.addr NDIRECT ≠ 0 → v' (x.addr NDIRECT) = v (x.addr NDIRECT)) : x.slot v' p = x.slot v p := by
  cases p with
  | addr k => rfl
  | entry j =>
    unfold Dinode.slot
    dsimp only
    split
    · rfl
    · rw [hv ‹_›]

lemma slot_allocated (h : Sound I v) (hr : r < size) (hfree : ¬ Used v r) (hm : Live I m) :
    (I m).slot (allocated v r) q = (I m).slot v q := by
  refine slot_congr fun h0 => allocated_of_ne ?_ ?_
  · rintro e
    exact hfree (e ▸ h.used m (.addr (Fin.last NDIRECT)) hm h0)
  · exact h.slot_ne_bblock (p := .addr (Fin.last NDIRECT)) hm h0 hr

lemma slot_setAddr {k : Fin (NDIRECT + 1)} (hr : r < size) (h0 : x.addr k = 0) (hv : v r = .zero) :
    (x.setAddr k r).slot v p = if p = .addr k then r else x.slot v p := by
  have hto : (UInt32.ofNat r).toNat = r := by
    have := Superblock.size_lt
    exact UInt32.toNat_ofNat_of_lt' (by simp only [UInt32.size]; omega)
  have haddr : ∀ j : Fin (NDIRECT + 1), (x.setAddr k r).addr j = if j = k then r else x.addr j := by
    intro j
    rw [Dinode.addr_eq, Dinode.addr_eq]
    show (update x.addrs k (UInt32.ofNat r) j).toNat = _
    by_cases hj : j = k
    · rw [if_pos hj, hj, update_self, hto]
    · rw [if_neg hj, update_of_ne hj]
  cases p with
  | addr j =>
    simp only [Dinode.slot, haddr, Place.addr.injEq]
  | entry j =>
    have hl := haddr (Fin.last NDIRECT)
    rw [Fin.val_last] at hl
    rw [if_neg nofun]
    unfold Dinode.slot
    dsimp only
    rw [hl]
    by_cases hk : Fin.last NDIRECT = k
    · have : x.addr NDIRECT = 0 := by rw [← h0, ← hk, Fin.val_last]
      rw [if_pos hk, this, hv, Block.le_zero]
      simp
    · rw [if_neg hk]

lemma addAddr {k : Fin (NDIRECT + 1)} (h : Sound I v) (hn : Live I n) (h0 : (I n).addr k = 0) (hr : r < size)
    (hfree : ¬ Used v r) : Sound (update I n ((I n).setAddr k r)) (allocated v r) := by
  refine h.extend (n := n) (p := .addr k) (fun m => ?_) hr hfree
    (fun b hb => used_allocated (h.reserved.le hfree) hb) h0 fun m q hm => ?_
  · by_cases hm : m = n
    · subst hm
      rw [update_self]
      exact ⟨rfl, rfl⟩
    · rw [update_of_ne hm]
      exact ⟨rfl, rfl⟩
  · by_cases hmn : m = n
    · subst hmn
      rw [update_self, slot_setAddr hr h0 allocated_self, h.slot_allocated hr hfree hm]
      simp
    · rw [update_of_ne hmn, h.slot_allocated hr hfree hm, if_neg fun e => hmn e.1]

lemma slot_putEntry {j : Fin NINDIRECT} (hr : r < size) (hi : x.addr NDIRECT ≠ 0) :
    x.slot (update v (x.addr NDIRECT) ((v (x.addr NDIRECT)).putLe (4 * j) 4 r)) p =
      if p = .entry j then r else x.slot v p := by
  cases p with
  | addr k =>
    rw [if_neg nofun]
    rfl
  | entry l =>
    have hl := l.isLt
    have hj := j.isLt
    simp only [NINDIRECT, BSIZE] at hl hj
    unfold Dinode.slot
    dsimp only
    rw [if_neg hi, if_neg hi, update_self]
    by_cases hlj : l = j
    · subst hlj
      rw [if_pos rfl, Block.le_putLe (by simp only [BSIZE]; omega)]
      have := Superblock.size_lt
      exact Nat.mod_eq_of_lt (by omega)
    · have hne : (l : Nat) ≠ j := fun e => hlj (Fin.ext e)
      rw [if_neg fun e => hlj (Place.entry.inj e), Block.le_putLe_of_disjoint (by simp only [BSIZE]; omega) (by omega)]

lemma addEntry {j : Fin NINDIRECT} (h : Sound I v) (hn : Live I n) (hi : (I n).addr NDIRECT ≠ 0)
    (h0 : (I n).slot v (.entry j) = 0) (hr : r < size) (hfree : ¬ Used v r) :
    Sound I (update (allocated v r) ((I n).addr NDIRECT) ((v ((I n).addr NDIRECT)).putLe (4 * j) 4 r)) := by
  have hind : datastart ≤ (I n).addr NDIRECT := (h.range n (.addr (Fin.last NDIRECT)) hn hi).1
  have hsame : allocated v r ((I n).addr NDIRECT) = v ((I n).addr NDIRECT) := by
    refine allocated_of_ne ?_ (h.slot_ne_bblock (p := .addr (Fin.last NDIRECT)) hn hi hr)
    rintro e
    exact hfree (e ▸ h.used n (.addr (Fin.last NDIRECT)) hn hi)
  refine h.extend (n := n) (p := .entry j) (fun m => ⟨rfl, rfl⟩) hr hfree (fun b hb => ?_) h0 fun m q hm => ?_
  · rw [used_update hind hb, used_allocated (h.reserved.le hfree) hb]
  · by_cases hmn : m = n
    · subst hmn
      rw [← hsame, slot_putEntry hr hi, h.slot_allocated hr hfree hm]
      simp
    · rw [slot_congr (v := allocated v r), h.slot_allocated hr hfree hm, if_neg fun e => hmn e.1]
      intro h0'
      refine update_of_ne (fun e => hmn ?_) ..
      exact (h.inj m (.addr (Fin.last NDIRECT)) n (.addr (Fin.last NDIRECT)) hm hn h0' e).1

end Sound

end Xv6n.Fs
