import Mathlib.Data.Nat.Bitwise
import Xv6n.Param

/-!
# Sv39 page tables

The macros of `kernel/riscv.h` and `kernel/memlayout.h`: page rounding, page-table entries and the
indices of a virtual address. Addresses and entries are 64-bit numbers, so the two roundings are
computed modulo `2 ^ 64`.
-/

namespace Xv6n
variable {a : Nat}

abbrev PGSIZE : Nat := 4096
abbrev KERNBASE : Nat := 0x80000000
abbrev PHYSTOP : Nat := KERNBASE + 128 * 1024 * 1024
abbrev MAXVA : Nat := 2 ^ 38
abbrev TRAMPOLINE : Nat := MAXVA - PGSIZE
abbrev TRAPFRAME : Nat := TRAMPOLINE - PGSIZE

abbrev PTE_V : Nat := 1
abbrev PTE_R : Nat := 2
abbrev PTE_W : Nat := 4
abbrev PTE_X : Nat := 8
abbrev PTE_U : Nat := 16

/-- Round up to a page boundary (C `PGROUNDUP`). -/
def pgRoundUp (a : Nat) : Nat := (a + PGSIZE - 1) % 2 ^ 64 / PGSIZE * PGSIZE

/-- Round down to a page boundary (C `PGROUNDDOWN`). -/
def pgRoundDown (a : Nat) : Nat := a % 2 ^ 64 / PGSIZE * PGSIZE

/-- The entry bits of a physical address (C `PA2PTE`). -/
def pa2pte (pa : Nat) : Nat := (pa >>> 12) <<< 10

/-- The physical address of an entry (C `PTE2PA`). -/
def pte2pa (pte : Nat) : Nat := (pte >>> 10) <<< 12

/-- The flag bits of an entry (C `PTE_FLAGS`). -/
def pteFlags (pte : Nat) : Nat := pte &&& 0x3FF

/-- The index of a virtual address at a level of the tree (C `PX`). -/
def px (level va : Nat) : Nat := (va >>> (12 + 9 * level)) &&& 0x1FF

lemma pgRoundDown_of_lt (hlt : a < 2 ^ 64) : pgRoundDown a = a / PGSIZE * PGSIZE := by
  rw [pgRoundDown, Nat.mod_eq_of_lt hlt]

lemma pgRoundDown_div (hlt : a < 2 ^ 64) : pgRoundDown a / PGSIZE = a / PGSIZE := by
  rw [pgRoundDown_of_lt hlt]
  exact Nat.mul_div_cancel _ (by decide)

lemma pgRoundDown_lt_iff (hlt : a < 2 ^ 64) : pgRoundDown a < MAXVA ↔ a < MAXVA := by
  rw [pgRoundDown_of_lt hlt]
  simp only [PGSIZE, MAXVA]
  omega

lemma sub_pgRoundDown (hlt : a < 2 ^ 64) : a - pgRoundDown a = a % PGSIZE := by
  rw [pgRoundDown_of_lt hlt]
  simp only [PGSIZE]
  omega

lemma sub_pgRoundDown_lt (hlt : a < 2 ^ 64) : a - pgRoundDown a < PGSIZE :=
  (sub_pgRoundDown hlt).trans_lt (Nat.mod_lt _ (by decide))

lemma pgRoundDown_of_dvd (h : a % PGSIZE = 0) (hlt : a < 2 ^ 64) : pgRoundDown a = a := by
  rw [pgRoundDown_of_lt hlt]
  exact Nat.div_mul_cancel (Nat.dvd_of_mod_eq_zero h)

lemma pgRoundDown_last (h : a % PGSIZE = 0) (hlt : a + PGSIZE ≤ 2 ^ 64) :
    pgRoundDown (a + PGSIZE - 1) = a := by
  unfold pgRoundDown
  simp only [PGSIZE] at *
  rw [Nat.mod_eq_of_lt (by omega)]
  omega

lemma pgRoundUp_of_lt (hlt : a < 2 ^ 63) :
    pgRoundUp a = (a + PGSIZE - 1) / PGSIZE * PGSIZE := by
  unfold pgRoundUp
  rw [Nat.mod_eq_of_lt (by simp only [PGSIZE]; omega)]

lemma pgRoundUp_mod : pgRoundUp a % PGSIZE = 0 := Nat.mul_mod_left ..

lemma le_pgRoundUp (hlt : a < 2 ^ 63) : a ≤ pgRoundUp a := by
  rw [pgRoundUp_of_lt hlt]
  simp only [PGSIZE]
  omega

lemma px_zero {va : Nat} : px 0 va = va / PGSIZE % 512 := by
  unfold px
  rw [Nat.shiftRight_eq_div_pow, show (0x1FF : Nat) = 2 ^ 9 - 1 from rfl,
    Nat.and_two_pow_sub_one_eq_mod]

lemma px_one {va : Nat} : px 1 va = va / PGSIZE / 512 % 512 := by
  unfold px
  rw [Nat.shiftRight_eq_div_pow, show (0x1FF : Nat) = 2 ^ 9 - 1 from rfl,
    Nat.and_two_pow_sub_one_eq_mod, show 2 ^ (12 + 9 * 1) = PGSIZE * 512 from rfl,
    ← Nat.div_div_eq_div_mul]

lemma px_two {va : Nat} : px 2 va = va / PGSIZE / 512 / 512 % 512 := by
  unfold px
  rw [Nat.shiftRight_eq_div_pow, show (0x1FF : Nat) = 2 ^ 9 - 1 from rfl,
    Nat.and_two_pow_sub_one_eq_mod, show 2 ^ (12 + 9 * 2) = PGSIZE * (512 * 512) from rfl,
    ← Nat.div_div_eq_div_mul, ← Nat.div_div_eq_div_mul]

section entry
variable {pa f pte : Nat}

lemma pa2pte_or (h : f < 1024) : pa2pte pa ||| f = pa / PGSIZE * 1024 + f := by
  unfold pa2pte
  rw [Nat.shiftRight_eq_div_pow, ← Nat.shiftLeft_add_eq_or_of_lt (by simpa using h),
    Nat.shiftLeft_eq]

lemma pte2pa_eq : pte2pa pte = pte / 1024 * PGSIZE := by
  unfold pte2pa
  rw [Nat.shiftRight_eq_div_pow, Nat.shiftLeft_eq]

lemma pteFlags_eq : pteFlags pte = pte % 1024 := by
  unfold pteFlags
  rw [show (0x3FF : Nat) = 2 ^ 10 - 1 from rfl, Nat.and_two_pow_sub_one_eq_mod]

lemma and_V : pte &&& PTE_V = pte % 2 := Nat.and_one_is_mod pte

lemma pte2pa_mk (hpa : pa % PGSIZE = 0) (h : f < 1024) : pte2pa (pa2pte pa ||| f) = pa := by
  rw [pa2pte_or h, pte2pa_eq]
  simp only [PGSIZE] at *
  omega

lemma pteFlags_mk (h : f < 1024) : pteFlags (pa2pte pa ||| f) = f := by
  rw [pa2pte_or h, pteFlags_eq]
  omega

lemma mk_lt (hpa : pa < 2 ^ 56) (h : f < 1024) : pa2pte pa ||| f < 2 ^ 64 := by
  rw [pa2pte_or h]
  simp only [PGSIZE]
  omega

lemma mk_valid (h : f < 1024) (hf : f % 2 = 1) : (pa2pte pa ||| f) &&& PTE_V ≠ 0 := by
  rw [pa2pte_or h, and_V]
  omega

lemma and_of_flags {m : Nat} (hm : m < 1024) : pte &&& m = pteFlags pte &&& m := by
  unfold pteFlags
  rw [Nat.and_assoc]
  congr 1
  rw [Nat.and_comm, show (0x3FF : Nat) = 2 ^ 10 - 1 from rfl, Nat.and_two_pow_sub_one_eq_mod,
    Nat.mod_eq_of_lt (by simpa using hm)]

lemma or_and_ne_zero {a b m : Nat} (h : a &&& m ≠ 0 ∨ b &&& m ≠ 0) : (a ||| b) &&& m ≠ 0 := by
  rw [Nat.and_or_distrib_right, Ne, Nat.or_eq_zero_iff]
  omega

lemma mk_flag {m : Nat} (h : f < 1024) (hm : m < 1024) (hf : f &&& m ≠ 0) :
    (pa2pte pa ||| f) &&& m ≠ 0 := by
  rwa [and_of_flags hm, pteFlags_mk h]

lemma pte2pa_clear (h : pte < 2 ^ 64) : pte2pa (pte &&& (2 ^ 64 - 1 - PTE_U)) = pte2pa pte := by
  have hdiv : (pte &&& (2 ^ 64 - 1 - PTE_U)) / 2 ^ 10 = pte / 2 ^ 10 := by
    rw [Nat.and_div_two_pow, show (2 ^ 64 - 1 - PTE_U) / 2 ^ 10 = 2 ^ 54 - 1 from rfl,
      Nat.and_two_pow_sub_one_eq_mod, Nat.mod_eq_of_lt (by omega)]
  rw [pte2pa_eq, pte2pa_eq]
  exact congrArg (· * PGSIZE) hdiv

lemma clear_and {m : Nat} (hm : (2 ^ 64 - 1 - PTE_U) &&& m = m) :
    (pte &&& (2 ^ 64 - 1 - PTE_U)) &&& m = pte &&& m := by
  rw [Nat.and_assoc, hm]

end entry

end Xv6n
