import Xv6n.Umalloc.Basic
import Xv6n.Vm.Sbrk

/-!
# What `malloc` asks the kernel for

The arithmetic of `malloc` and `morecore` in the types of C: the units are counted in a `uint`, the bytes are a
`size_t`, and `sbrk` takes an `int`. A request of 2 GiB or more, with its header, does not fit the `int`: `sbrk`
gets a negative or a small number, and the block is recorded with the size that was meant.
-/

namespace Xv6n.Umalloc
open Lib KernM

/-- The units that `malloc` computes (C `nunits`); `sizeof` makes the sum a 64-bit number. -/
def unitsFor (nbytes : UInt32) : UInt32 := ((nbytes.toUInt64 + 16 - 1) / 16 + 1).toUInt32

/-- The units that `morecore` asks for and records in the new block. -/
def atLeast4096 (nu : UInt32) : UInt32 := if nu < 4096 then 4096 else nu

/-- The units of the block that a request for `nbytes` brings. -/
def recorded (nbytes : UInt32) : UInt32 := atLeast4096 (unitsFor nbytes)

/-- The argument of `sbrk` (C `sbrk(nu * sizeof(Header))`). -/
def sbrkArg (nbytes : UInt32) : Int32 := ((recorded nbytes).toUInt64 * 16).toUInt32.toInt32

section arith
variable {nbytes nu : UInt32}

lemma toNat_unitsFor : (unitsFor nbytes).toNat = nunits nbytes.toNat := by
  have hlt := nbytes.toNat_lt
  have hsum : (nbytes.toUInt64 + 16 - 1).toNat = nbytes.toNat + 15 := by
    rw [UInt64.toNat_sub, UInt64.toNat_add, UInt32.toNat_toUInt64]
    simp only [UInt64.reduceToNat]
    omega
  rw [unitsFor, nunits, UInt64.toNat_toUInt32, UInt64.toNat_add, UInt64.toNat_div, hsum]
  simp only [UInt64.reduceToNat, HEADER]
  omega

lemma toNat_atLeast4096 : (atLeast4096 nu).toNat = coreUnits nu.toNat := by
  have hlt : nu < 4096 ↔ nu.toNat < 4096 := UInt32.lt_iff_toNat_lt
  unfold atLeast4096 coreUnits
  simp only [hlt]
  split <;> rfl

lemma toNat_recorded : (recorded nbytes).toNat = coreUnits (nunits nbytes.toNat) := by
  rw [recorded, toNat_atLeast4096, toNat_unitsFor]

lemma toInt_sbrkArg : (sbrkArg nbytes).toInt = Int.bmod ((recorded nbytes).toNat * HEADER) (2 ^ 32) := by
  have hint : (sbrkArg nbytes).toInt = ((recorded nbytes).toUInt64 * 16).toUInt32.toBitVec.toInt := rfl
  have hlt := (recorded nbytes).toNat_lt
  have hnat : ((recorded nbytes).toUInt64 * 16).toUInt32.toBitVec.toNat =
      (recorded nbytes).toNat * HEADER % 2 ^ 32 := by
    rw [UInt32.toNat_toBitVec, UInt64.toNat_toUInt32, UInt64.toNat_mul, UInt32.toNat_toUInt64]
    simp only [UInt64.reduceToNat, HEADER]
    omega
  rw [hint, BitVec.toInt_eq_toNat_bmod, hnat, Int.natCast_emod, Int.emod_bmod]
  rfl

lemma recorded_le : (recorded nbytes).toNat ≤ 2 ^ 28 + 1 := by
  have := nbytes.toNat_lt
  rw [toNat_recorded]
  unfold coreUnits nunits
  simp only [HEADER]
  split <;> omega

lemma recorded_lt_iff : (recorded nbytes).toNat * HEADER < 2 ^ 31 ↔ nbytes.toNat ≤ 2 ^ 31 - 32 := by
  rw [toNat_recorded]
  unfold coreUnits nunits
  simp only [HEADER]
  split <;> omega

lemma toInt_sbrkArg_of_le (h : nbytes.toNat ≤ 2 ^ 31 - 32) :
    (sbrkArg nbytes).toInt = (recorded nbytes).toNat * HEADER := by
  have := recorded_lt_iff.2 h
  rw [toInt_sbrkArg]
  refine Int.bmod_eq_of_le ?_ ?_ <;> simp only [HEADER] at * <;> omega

lemma toInt_sbrkArg_of_lt (h : ¬ nbytes.toNat ≤ 2 ^ 31 - 32) :
    (sbrkArg nbytes).toInt = (recorded nbytes).toNat * HEADER - 2 ^ 32 := by
  have h1 := mt recorded_lt_iff.1 h
  have h2 : (recorded nbytes).toNat ≤ 2 ^ 28 + 1 := recorded_le
  rw [toInt_sbrkArg]
  simp only [HEADER] at *
  rw [Int.bmod_def]
  omega

lemma recorded_eq_max : (recorded nbytes).toNat = max (unitsFor nbytes).toNat 4096 := by
  rw [recorded, toNat_atLeast4096, coreUnits]
  split <;> omega

lemma le_unitsFor : nbytes.toNat ≤ ((unitsFor nbytes).toNat - 1) * HEADER := by
  rw [toNat_unitsFor, nunits, Nat.add_sub_cancel]
  simp only [HEADER]
  omega

lemma sbrkArg_eq_iff : (sbrkArg nbytes).toInt = (recorded nbytes).toNat * HEADER ↔ nbytes.toNat ≤ 2 ^ 31 - 32 := by
  refine ⟨fun h => ?_, toInt_sbrkArg_of_le⟩
  by_contra hlt
  rw [toInt_sbrkArg_of_lt hlt] at h
  omega

end arith

section kernel
variable [Layout] {s s' : Kernel} {i : Fin NPROC} {n : Int} {ok : Bool} {nbytes : UInt32}

omit [Layout] in
lemma sz_le_of_grew (h : Grew s i n ok s') (hsz : (s.proc i).sz ≤ 2 ^ 27) (hn : n < 2 ^ 31) :
    ((s'.proc i).sz : Int) ≤ max ((s.proc i).sz + n) (s.proc i).sz := by
  cases h with
  | fail hpos h | cut hneg h =>
    rw [h.sz]
    omega
  | grow hpos h =>
    have hto := toU64_of_nonneg (m := (s.proc i).sz + n) (by omega) (by omega)
    rw [h.sz]
    omega
  | none h0 => omega

/-- `malloc` computes enough units for every request. What `sbrk` gets is the size of the block that `morecore`
records, and the memory that a successful `sbrk` brings holds that block, if and only if the request is for at
most 2^31 - 32 bytes. -/
theorem morecore_request (nbytes : UInt32) (hs : s.Reachable) (ha : Active s i) :
    nbytes.toNat ≤ ((unitsFor nbytes).toNat - 1) * HEADER ∧
      (recorded nbytes).toNat = max (unitsFor nbytes).toNat 4096 ∧
      (0 ≤ (sbrkArg nbytes).toInt ∧ (sbrkArg nbytes).toInt = max (unitsFor nbytes).toNat 4096 * HEADER ↔
        nbytes.toNat ≤ 2 ^ 31 - 32) ∧
      ∃ r s', sysSbrk i (sbrkArg nbytes).toInt s = .ok r s' ∧
        (r ≠ -1 → ((s.proc i).sz + (recorded nbytes).toNat * HEADER ≤ (s'.proc i).sz ↔
          nbytes.toNat ≤ 2 ^ 31 - 32)) := by
  refine ⟨le_unitsFor, recorded_eq_max, ?_, ?_⟩
  · rw [← recorded_eq_max, ← sbrkArg_eq_iff]
    exact ⟨And.right, fun h => ⟨h ▸ Int.natCast_nonneg _, h⟩⟩
  · obtain ⟨own, hi⟩ := hs.inv
    have hsz := hi.sz_le ha
    have h1 := (sbrkArg nbytes).le_toInt
    have h2 := (sbrkArg nbytes).toInt_lt
    obtain ⟨ok, s', -, hsys, hg⟩ := growproc_grew (n := (sbrkArg nbytes).toInt) hi ha
    refine ⟨_, s', hsys, fun hr => ?_⟩
    have hok : ok = true := by
      by_contra hf
      exact hr (if_neg hf)
    subst hok
    simp only [HEADER]
    by_cases hle : nbytes.toNat ≤ 2 ^ 31 - 32
    · have harg := toInt_sbrkArg_of_le hle
      simp only [HEADER] at harg
      have hgot := (hg.honest hsz h1 h2 (by omega)).size rfl
      refine iff_of_true ?_ hle
      omega
    · have harg := toInt_sbrkArg_of_lt hle
      have hrec := mt recorded_lt_iff.1 hle
      have hgot := sz_le_of_grew hg hsz h2
      simp only [HEADER] at harg hrec
      refine iff_of_false ?_ hle
      omega

omit [Layout] in
/-- The first process asks for one byte. -/
theorem morecore_request_one : ∃ s : Kernel, @Kernel.Reachable sampleLayout s ∧ ∃ i, Active s i ∧
    ∃ r s', @sysSbrk sampleLayout i (sbrkArg 1).toInt s = .ok r s' ∧
      (r ≠ -1 → ((s.proc i).sz + (recorded 1).toNat * HEADER ≤ (s'.proc i).sz ↔ (1 : UInt32).toNat ≤ 2 ^ 31 - 32)) := by
  let _layout := sampleLayout
  obtain ⟨s, hs, j, hj⟩ := exists_started
  have ha : Active s j := .inr (.inl hj.runnable)
  exact ⟨s, hs, j, ha, (morecore_request 1 hs ha).2.2.2⟩

omit [Layout] in
/-- A request for 2 GiB makes `sbrk` give memory back, and one for `2 ^ 32 - 1` bytes makes it bring 16 bytes for a
block that is recorded with more than 4 GiB. -/
theorem morecore_request_large :
    (sbrkArg 0x80000000).toInt = -2 ^ 31 + 16 ∧ (recorded 0x80000000).toNat = 2 ^ 27 + 1 ∧
      (sbrkArg 0xffffffff).toInt = 16 ∧ (recorded 0xffffffff).toNat = 2 ^ 28 + 1 := by
  decide +kernel

end kernel

end Xv6n.Umalloc
