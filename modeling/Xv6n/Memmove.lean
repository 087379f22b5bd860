import Xv6n.Lib.Move

/-!
# `memmove`

The kernel (`kernel/string.c`) and the user library (`user/ulib.c`) each have a `memmove`. Both copy
downwards if the destination may overlap the end of the source and upwards otherwise, but they do not test
for it in the same way.
-/

namespace Xv6n
open Lib
variable {m : UInt64 → UInt8} {dst src : UInt64}

/-- Copy `n` bytes; returns `dst` (C `memmove` of the kernel). -/
def memmove (dst src : UInt64) (n : UInt32) (m : UInt64 → UInt8) : UInt64 × (UInt64 → UInt8) :=
  if n = 0 then
    (dst, m)
  else if src < dst ∧ src + n.toUInt64 > dst then
    (dst, copyDown n.toNat (dst + n.toUInt64) (src + n.toUInt64) m)
  else
    (dst, copyUp n.toNat dst src m)

/-- Copy `n` bytes; returns `vdst`. The loops do nothing if `n` is negative (C `memmove` of the user
    library). -/
def Ulib.memmove (vdst vsrc : UInt64) (n : Int32) (m : UInt64 → UInt8) : UInt64 × (UInt64 → UInt8) :=
  if vsrc > vdst then
    (vdst, copyUp n.toInt.toNat vdst vsrc m)
  else
    (vdst, copyDown n.toInt.toNat (vdst + n.toInt64.toUInt64) (vsrc + n.toInt64.toUInt64) m)

section moved
variable {k : Nat} (hs : src.toNat + k ≤ 2 ^ 64) (hd : dst.toNat + k ≤ 2 ^ 64)
include hs hd

lemma copyUp_right (h : src.toNat < dst.toNat → src.toNat + k ≤ dst.toNat) :
    Moved dst src k m (copyUp k dst src m) := by
  refine copyUp_moved (fun i j hij hj => add_ofNat_ne hd hij hj) fun i j hij hj e => ?_
  have := congrArg UInt64.toNat e
  rw [toNat_add_ofNat (by omega), toNat_add_ofNat (by omega)] at this
  omega

lemma copyDown_right (h : dst.toNat < src.toNat → dst.toNat + k ≤ src.toNat) :
    Moved dst src k m (copyDown k (dst + .ofNat k) (src + .ofNat k) m) := by
  refine copyDown_moved (fun i j hij hj => add_ofNat_ne hd hij hj) fun i j hij hj e => ?_
  have := congrArg UInt64.toNat e
  rw [toNat_add_ofNat (by omega), toNat_add_ofNat (by omega)] at this
  omega

end moved

lemma memmove_moved {n : UInt32} (hs : src.toNat + n.toNat ≤ 2 ^ 64) (hd : dst.toNat + n.toNat ≤ 2 ^ 64) :
    Moved dst src n.toNat m (memmove dst src n m).2 := by
  have hn : n.toUInt64 = .ofNat n.toNat := (UInt64.ofNat_uInt32ToNat n).symm
  unfold memmove
  split
  · rename_i h0
    subst h0
    exact ⟨nofun, fun _ _ => rfl⟩
  · split
    · rename_i h
      have hlt := UInt64.lt_iff_toNat_lt.1 h.1
      rw [hn]
      exact copyDown_right hs hd fun h' => absurd h' (by omega)
    · rename_i h
      refine copyUp_right hs hd fun hlt => ?_
      -- the end of the source does not wrap around, since that of the destination does not
      have hend : (src + n.toUInt64).toNat = src.toNat + n.toNat := by
        rw [hn, toNat_add_ofNat (by omega)]
      rw [gt_iff_lt, UInt64.lt_iff_toNat_lt, UInt64.lt_iff_toNat_lt, hend] at h
      omega

lemma toUInt64_of_nonneg {n : Int32} (h : 0 ≤ n.toInt) : n.toInt64.toUInt64 = .ofNat n.toInt.toNat := by
  obtain ⟨k, hk⟩ := Int.eq_ofNat_of_zero_le h
  rw [← Int64.ofInt_int32ToInt, hk, Int.toNat_natCast]
  exact Int64.toUInt64_ofNat'

lemma Ulib.memmove_moved {n : Int32} (hs : src.toNat + n.toInt.toNat ≤ 2 ^ 64)
    (hd : dst.toNat + n.toInt.toNat ≤ 2 ^ 64) : Moved dst src n.toInt.toNat m (Ulib.memmove dst src n m).2 := by
  unfold Ulib.memmove
  split
  · rename_i h
    have hlt := UInt64.lt_iff_toNat_lt.1 h
    exact copyUp_right hs hd fun h' => absurd h' (by omega)
  · rename_i h
    rw [gt_iff_lt, UInt64.lt_iff_toNat_lt] at h
    rcases Int.le_total 0 n.toInt with h0 | h0
    · rw [toUInt64_of_nonneg h0]
      exact copyDown_right hs hd fun h' => absurd h' h
    · rw [Int.toNat_of_nonpos h0]
      exact ⟨nofun, fun _ _ => rfl⟩

/-- Both functions move the bytes, whatever the overlap, and so they agree where both can be called. -/
theorem memmove_moves (dst src : UInt64) (m : UInt64 → UInt8) :
    (∀ n : UInt32, src.toNat + n.toNat ≤ 2 ^ 64 → dst.toNat + n.toNat ≤ 2 ^ 64 →
      Moved dst src n.toNat m (memmove dst src n m).2) ∧
    (∀ n : Int32, src.toNat + n.toInt.toNat ≤ 2 ^ 64 → dst.toNat + n.toInt.toNat ≤ 2 ^ 64 →
      Moved dst src n.toInt.toNat m (Ulib.memmove dst src n m).2) ∧
    ∀ n : Nat, n < 2 ^ 31 → src.toNat + n ≤ 2 ^ 64 → dst.toNat + n ≤ 2 ^ 64 →
      memmove dst src (.ofNat n) m = Ulib.memmove dst src (.ofNat n) m := by
  refine ⟨fun n => memmove_moved, fun n => Ulib.memmove_moved, fun n hn hs hd => ?_⟩
  have hk : (UInt32.ofNat n).toNat = n := UInt32.toNat_ofNat_of_lt' (by simp only [UInt32.size]; omega)
  have hu : (Int32.ofNat n).toInt.toNat = n := by
    rw [Int32.toInt_ofNat_of_lt hn, Int.toNat_natCast]
  have h1 : Moved dst src (UInt32.ofNat n).toNat m (memmove dst src (.ofNat n) m).2 :=
    memmove_moved (by rwa [hk]) (by rwa [hk])
  have h2 : Moved dst src (Int32.ofNat n).toInt.toNat m (Ulib.memmove dst src (.ofNat n) m).2 :=
    Ulib.memmove_moved (by rwa [hu]) (by rwa [hu])
  rw [hk] at h1
  rw [hu] at h2
  have hfst : (memmove dst src (.ofNat n) m).1 = (Ulib.memmove dst src (.ofNat n) m).1 := by
    unfold memmove Ulib.memmove
    split <;> split <;> try split
    all_goals rfl
  exact Prod.ext hfst (h1.unique h2)

/-- Four bytes move up by one. -/
theorem memmove_moves_up : Moved 1 0 4 UInt64.toUInt8 (memmove 1 0 4 UInt64.toUInt8).2 ∧
    Moved 1 0 4 UInt64.toUInt8 (Ulib.memmove 1 0 4 UInt64.toUInt8).2 ∧
    memmove 1 0 4 UInt64.toUInt8 = Ulib.memmove 1 0 4 UInt64.toUInt8 :=
  ⟨(memmove_moves 1 0 _).1 4 (by decide) (by decide), (memmove_moves 1 0 _).2.1 4 (by decide) (by decide),
    (memmove_moves 1 0 _).2.2 4 (by decide) (by decide) (by decide)⟩

end Xv6n
