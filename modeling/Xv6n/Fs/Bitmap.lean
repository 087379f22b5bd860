import Xv6n.Fs.Solo

/-!
# The free map

Bits of the free map as a predicate on block numbers, and what `balloc` and `bfree` do to it.
-/

namespace Xv6n.Fs
open Lib Function

section bits
variable {d : Block} {bi bj : Nat}

lemma toNat_mask : (mask bi).toNat = 2 ^ (bi % 8) := by
  have h : ∀ k : Fin 8, (1 <<< UInt8.ofNat k : UInt8).toNat = 2 ^ k.val := by decide
  exact h ⟨bi % 8, Nat.mod_lt _ (by decide)⟩

lemma bit_eq : bit d bi = (d.get (bi / 8)).toNat.testBit (bi % 8) := by
  have h : d.get (bi / 8) &&& mask bi = 0 ↔ (d.get (bi / 8)).toNat &&& 2 ^ (bi % 8) = 0 := by
    rw [← UInt8.toNat_inj, UInt8.toNat_and, toNat_mask]
    rfl
  rw [bit, Bool.eq_iff_iff, decide_eq_true_iff, ne_eq, h, Nat.and_two_pow]
  cases Nat.testBit _ _ <;> simp

lemma bit_byte_lt (h : bi < BPB) : bi / 8 < BSIZE := by
  simp only [BPB] at h
  omega

lemma bit_setBit (hj : bj < BPB) : bit (setBit d bi) bj = (decide (bj = bi) || bit d bj) := by
  rw [bit_eq, bit_eq, setBit, Block.get_ofFn (bit_byte_lt hj)]
  by_cases hb : bj / 8 = bi / 8
  · have hk : bi % 8 = bj % 8 ↔ bj = bi := by omega
    rw [if_pos hb, UInt8.toNat_or, toNat_mask, Nat.testBit_or, Nat.testBit_two_pow, hb, Bool.or_comm,
      decide_eq_decide.2 hk]
  · rw [if_neg hb, decide_eq_false (by rintro rfl; exact hb rfl), Bool.false_or]

lemma bit_clearBit (hj : bj < BPB) : bit (clearBit d bi) bj = (decide (bj ≠ bi) && bit d bj) := by
  rw [bit_eq, bit_eq, clearBit, Block.get_ofFn (bit_byte_lt hj)]
  by_cases hb : bj / 8 = bi / 8
  · have hk : bi % 8 = bj % 8 ↔ bj = bi := by omega
    have hlt : bj % 8 < 8 := Nat.mod_lt _ (by decide)
    have hnot : (~~~ mask bi).toNat = 2 ^ 8 - (2 ^ (bi % 8) + 1) := by
      have h : ∀ k : Fin 8, (~~~ (1 <<< UInt8.ofNat k : UInt8)).toNat = 2 ^ 8 - (2 ^ k.val + 1) := by decide
      exact h ⟨bi % 8, Nat.mod_lt _ (by decide)⟩
    have hpow : 2 ^ (bi % 8) < 2 ^ 8 := Nat.pow_lt_pow_right (by decide) (Nat.mod_lt _ (by decide))
    rw [if_pos hb, UInt8.toNat_and, hnot, Nat.testBit_and, Nat.testBit_two_pow_sub_succ hpow,
      Nat.testBit_two_pow, hb, decide_eq_true hlt, Bool.true_and, Bool.and_comm]
    simp [hk]
  · rw [if_neg hb, decide_eq_true (by rintro rfl; exact hb rfl), Bool.true_and]

end bits

variable [Superblock] {i : Pid} {F : Stop → Prop} {a a' : Solo} {b c r : Nat} {d : Block} {v : Nat → Block}
  {k l : Nat}

/-- The bit of block `b` is set. -/
def Used (v : Nat → Block) (b : Nat) : Prop := bit (v (bblock b)) (b % BPB) = true

instance : Decidable (Used v b) := inferInstanceAs (Decidable (_ = true))

def Full (v : Nat → Block) : Prop := ∀ b < size, Used v b

def Reserved (v : Nat → Block) : Prop := ∀ b < datastart, Used v b

/-- The disk after block `r` is allocated. -/
def allocated (v : Nat → Block) (r : Nat) : Nat → Block :=
  update (update v (bblock r) (setBit (v (bblock r)) (r % BPB))) r .zero

lemma bblock_lt (hb : b < size) : bblock b < datastart := by
  have h := Superblock.data_le
  have : b / BPB ≤ (size - 1) / BPB := Nat.div_le_div_right (by omega)
  rw [bblock]
  omega

lemma bmapstart_le_bblock : bmapstart ≤ bblock b := Nat.le_add_left ..

lemma Reserved.le (h : Reserved v) (hr : ¬ Used v r) : datastart ≤ r := not_lt.1 fun hlt => hr (h r hlt)

lemma eq_of_bit (hq : bblock b = bblock c) (hr : b % BPB = c % BPB) : b = c := by
  have hdiv : b / BPB = c / BPB := Nat.add_right_cancel hq
  rw [← Nat.div_add_mod b BPB, ← Nat.div_add_mod c BPB, hdiv, hr]

lemma used_setBit : Used (update v (bblock r) (setBit (v (bblock r)) (r % BPB))) b ↔ b = r ∨ Used v b := by
  unfold Used
  by_cases hb : bblock b = bblock r
  · rw [hb, update_self, bit_setBit (Nat.mod_lt _ (by decide)), Bool.or_eq_true, decide_eq_true_iff]
    exact or_congr_left ⟨fun h => eq_of_bit hb h, fun h => h ▸ rfl⟩
  · rw [update_of_ne hb, or_iff_right]
    rintro rfl
    exact hb rfl

lemma used_clearBit : Used (update v (bblock r) (clearBit (v (bblock r)) (r % BPB))) b ↔ b ≠ r ∧ Used v b := by
  unfold Used
  by_cases hb : bblock b = bblock r
  · rw [hb, update_self, bit_clearBit (Nat.mod_lt _ (by decide)), Bool.and_eq_true, decide_eq_true_iff]
    exact and_congr_left fun _ => not_congr ⟨fun h => eq_of_bit hb h, fun h => h ▸ rfl⟩
  · rw [update_of_ne hb, iff_and_self]
    rintro - rfl
    exact hb rfl

lemma used_update (hc : datastart ≤ c) (hb : b < size) : Used (update v c d) b ↔ Used v b := by
  unfold Used
  rw [update_of_ne (by have := bblock_lt hb; omega)]

lemma used_allocated (hr : datastart ≤ r) (hb : b < size) : Used (allocated v r) b ↔ b = r ∨ Used v b := by
  rw [allocated, used_update hr hb, used_setBit]

lemma allocated_self : allocated v r r = .zero := update_self ..

lemma allocated_of_ne (hr : b ≠ r) (hb : b ≠ bblock r) : allocated v r b = v b := by
  rw [allocated, update_of_ne hr, update_of_ne hb]

omit [Superblock] in
lemma scanBits_some [Superblock] {n bi k : Nat} (h : scanBits d b n bi = some k) :
    bi ≤ k ∧ k < bi + n ∧ b + k < size ∧ bit d k = false ∧ ∀ j, bi ≤ j → j < k → bit d j = true := by
  induction n generalizing bi with
  | zero => cases h
  | succ n ih =>
    unfold scanBits at h
    split at h
    · split at h
      · rename_i hbit
        obtain ⟨h1, h2, h3, h4, h5⟩ := ih h
        refine ⟨by omega, by omega, h3, h4, fun j h6 h7 => ?_⟩
        by_cases hj : j = bi
        · exact hj ▸ hbit
        · exact h5 j (by omega) h7
      · rename_i hlt hbit
        cases h
        exact ⟨Nat.le_refl _, by omega, hlt, by simpa using hbit, fun j h6 h7 => absurd h7 (by omega)⟩
    · cases h

lemma scanBits_none {n bi j : Nat} (h : scanBits d b n bi = none) (hj : bi ≤ j) (hlt : j < bi + n)
    (hs : b + j < size) : bit d j = true := by
  induction n generalizing bi with
  | zero => omega
  | succ n ih =>
    unfold scanBits at h
    rw [if_pos (by omega)] at h
    split at h
    · rename_i hbit
      by_cases he : j = bi
      · exact he ▸ hbit
      · exact ih h (by omega) (by omega)
    · cases h

namespace Solo

def put (a : Solo) (b : Nat) (d : Block) : Solo := (a.setDisk b d).log b

/-- Free block `b`. -/
def free (a : Solo) (b : Nat) : Solo := a.put (bblock b) (clearBit (a.disk (bblock b)) (b % BPB))

/-- Allocate block `r`. -/
def alloc (a : Solo) (r : Nat) : Solo := (a.put (bblock r) (setBit (a.disk (bblock r)) (r % BPB))).put r .zero

lemma Room.log {k : Nat} (h : a.Room (k + 1)) : (a.log b).Room k := by
  have := Finset.card_insert_le b a.logged
  unfold Room at h ⊢
  simp only [Solo.log]
  omega

lemma Room.mono (h : a.Room k) (hl : l ≤ k) : a.Room l := by
  unfold Room at h ⊢
  omega

lemma Room.of_le (h : a.Room k) (ho : a'.old = a.old) (hl : a'.logged.card + l ≤ a.logged.card + k) :
    a'.Room l := by
  unfold Room at h ⊢
  rw [ho]
  omega

lemma Spare.log {k : Nat} (h : a.Spare F (k + 1)) : (a.log b).Spare F k := h.imp_right .log

lemma Spare.mono (h : a.Spare F k) (hl : l ≤ k) : a.Spare F l := h.imp_right fun h => h.mono hl

lemma Spare.of_le (h : a.Spare F k) (ho : a'.old = a.old)
    (hl : a'.logged.card + l ≤ a.logged.card + k) : a'.Spare F l := h.imp_right fun h => h.of_le ho hl

end Solo

section
variable (hb : b ∉ a.bufs) (hop : 1 ≤ a.ops) (hroom : a.Spare F 0)
include hb hop hroom

lemma ran_put {α : Type} {k : FsM α} {Q : α → Solo → Prop} (hk : Ran i F k (a.put b d) Q) :
    Ran i F (do bset b d; logWrite b; brelse b; k) (a.hold b) Q :=
  .next ran_bset (.next (ran_logWrite hop hroom) (.next (ran_brelse (a := a.put b d) hb) hk))

lemma ran_put_last :
    Does i F (do bset b d; logWrite b; brelse b) (a.hold b) () (a.put b d) :=
  .next ran_bset (.next (ran_logWrite hop hroom) (ran_brelse (a := a.put b d) hb))

lemma ran_bzero :
    Does i F (bzero b) a () (a.put b .zero) :=
  .next (ran_bread hb) (ran_put_last hb hop hroom)

end

/-- The buffers that a process holds when it allocates are of blocks in use. -/
def Solo.Busy (a : Solo) : Prop := ∀ b ∈ a.bufs, datastart ≤ b ∧ Used a.disk b

lemma Solo.Busy.bblock_notMem (h : a.Busy) (hb : b < size) : bblock b ∉ a.bufs := fun hm =>
  absurd (bblock_lt hb) (not_lt.2 (h _ hm).1)

/-- The blocks `b`, ..., `c - 1` that the disk has are in use. -/
def UsedFrom (v : Nat → Block) (b c : Nat) : Prop := ∀ j, b ≤ j → j < c → j < size → Used v j

/-- What `balloc` returns. -/
inductive Balloc (a : Solo) : Nat → Solo → Prop where
  | full (h : Full a.disk) : Balloc a 0 a
  | found {r : Nat} (hlt : r < size) (hfree : ¬ Used a.disk r) (hleast : ∀ c < r, Used a.disk c) :
    Balloc a r (a.alloc r)

lemma bblock_mul {q k : Nat} (hk : k < BPB) : bblock (q * BPB + k) = bblock (q * BPB) := by
  have hpos : 0 < BPB := by decide
  rw [bblock, bblock, Nat.mul_comm, Nat.mul_add_div hpos, Nat.div_eq_of_lt hk, Nat.mul_div_cancel_left _ hpos,
    Nat.add_zero]

omit [Superblock] in
lemma mod_mul {q k : Nat} (hk : k < BPB) : (q * BPB + k) % BPB = k := by
  rw [Nat.mul_comm, Nat.mul_add_mod, Nat.mod_eq_of_lt hk]

lemma used_of_bit {q k : Nat} (hk : k < BPB) : Used v (q * BPB + k) ↔ bit (v (bblock (q * BPB))) k = true := by
  rw [Used, bblock_mul hk, mod_mul hk]

lemma ran_ballocLoop {n q : Nat} (hh : a.Busy) (hop : 1 ≤ a.ops) (hroom : a.Spare F 1)
    (hq : q * BPB + n * BPB < size + BPB) (hbelow : UsedFrom a.disk 0 (q * BPB)) (hall : size ≤ q * BPB + n * BPB) :
    Ran i F (ballocLoop n (q * BPB)) a (Balloc a) := by
  induction n generalizing q with
  | zero => exact .ret (.full fun b hb => hbelow b (Nat.zero_le _) (by omega) hb)
  | succ n ih =>
    have he : (q + 1) * BPB + n * BPB = q * BPB + (n + 1) * BPB := by ring
    have hlt : q * BPB < size := by
      rw [Nat.succ_mul, ← Nat.add_assoc] at hq
      exact (Nat.le_add_right ..).trans_lt (Nat.lt_of_add_lt_add_right hq)
    have hbb := hh.bblock_notMem hlt
    refine .next (ran_bread hbb) ?_
    split
    · rename_i bi e
      obtain ⟨-, h2, h3, h4, h5⟩ := scanBits_some e
      rw [Nat.zero_add] at h2
      have hbelow' : ∀ c < q * BPB + bi, Used a.disk c := by
        intro c hc
        by_cases hcq : c < q * BPB
        · exact hbelow c (Nat.zero_le _) hcq (by omega)
        · obtain ⟨k, rfl⟩ := Nat.exists_eq_add_of_le (not_lt.1 hcq)
          exact (used_of_bit (by omega)).2 (h5 k (Nat.zero_le _) (by omega))
      have hfree : ¬ Used a.disk (q * BPB + bi) := by
        rw [used_of_bit h2, h4]
        simp
      refine ran_put hbb hop (hroom.mono (Nat.zero_le _)) ?_
      refine .next (ran_bzero (fun hm' => hfree (hh _ hm').2) hop hroom.log) (.ret ?_)
      have := Balloc.found h3 hfree hbelow'
      rwa [Solo.alloc, mod_mul h2, bblock_mul h2] at this
    · rename_i e
      refine .next (ran_brelse hbb) ?_
      rw [← Nat.succ_mul]
      refine ih (he.trans_lt hq) (fun j _ hj hjs => ?_) (hall.trans_eq he.symm)
      by_cases hjq : j < q * BPB
      · exact hbelow j (Nat.zero_le _) hjq hjs
      · obtain ⟨k, rfl⟩ := Nat.exists_eq_add_of_le (not_lt.1 hjq)
        have hk : k < BPB := Nat.lt_of_add_lt_add_left (hj.trans_eq (Nat.succ_mul ..))
        exact (used_of_bit hk).2 (scanBits_none e (Nat.zero_le _) (hk.trans_eq (Nat.zero_add _).symm) hjs)

lemma ran_balloc (hh : a.Busy) (hop : 1 ≤ a.ops) (hroom : a.Spare F 1) :
    Ran i F balloc a (Balloc a) := by
  have h1 := Nat.div_add_mod (size + BPB - 1) BPB
  have h2 : (size + BPB - 1) % BPB < BPB := Nat.mod_lt _ (by decide)
  have h := ran_ballocLoop (i := i) (F := F) (n := (size + BPB - 1) / BPB) (q := 0) hh hop hroom
  rw [Nat.zero_mul, Nat.zero_add, Nat.mul_comm] at h
  exact h (by omega) (fun j _ hj _ => absurd hj (Nat.not_lt_zero j)) (by omega)

lemma ran_bfree (hu : Used a.disk b) (hb : bblock b ∉ a.bufs) (hop : 1 ≤ a.ops) (hroom : a.Spare F 0) :
    Does i F (bfree b) a () (a.free b) :=
  .next (ran_bread hb) (.ite (fun _ => ran_put_last hb hop hroom) fun h => absurd hu h)

end Xv6n.Fs
