import Mathlib.Tactic.Ring

/-!
# Little-endian numbers in byte arrays

A byte array is a function `Nat → UInt8`. `le f o k` is the number that the `k` bytes from offset `o`
on hold in little-endian order, and `putLe f o k v` stores the low `8 * k` bits of `v` there. Storing
and loading agree, and a store leaves every range it does not overlap alone.
-/

namespace Xv6n.Lib
variable {f : Nat → UInt8}

/-- The `k`-byte little-endian number at offset `o`. -/
def le (f : Nat → UInt8) (o : Nat) : Nat → Nat
  | 0 => 0
  | k + 1 => (f o).toNat + 256 * le f (o + 1) k

/-- Store the `k`-byte little-endian form of `v` at offset `o`. -/
def putLe (f : Nat → UInt8) (o k v : Nat) : Nat → UInt8 :=
  fun i => if o ≤ i ∧ i < o + k then UInt8.ofNat (v / 256 ^ (i - o)) else f i

/-- Fill `n` bytes from offset `o` on. -/
def fill (f : Nat → UInt8) (o n : Nat) (c : UInt8) : Nat → UInt8 :=
  fun i => if o ≤ i ∧ i < o + n then c else f i

/-- Copy `n` bytes from offset `src` to offset `dst`. -/
def copy (f : Nat → UInt8) (dst src n : Nat) : Nat → UInt8 :=
  fun i => if dst ≤ i ∧ i < dst + n then f (src + (i - dst)) else f i

/-- Store a list of bytes at offset `o`. -/
def putBytes (f : Nat → UInt8) (o : Nat) (l : List UInt8) : Nat → UInt8 :=
  fun i => if o ≤ i ∧ i < o + l.length then l.getD (i - o) 0 else f i

lemma putLe_of_out {o k v i : Nat} (h : i < o ∨ o + k ≤ i) :
    putLe f o k v i = f i := by
  unfold putLe
  rw [if_neg (by omega)]

lemma fill_of_in {o n i : Nat} {c : UInt8} (h : o ≤ i ∧ i < o + n) :
    fill f o n c i = c := if_pos h

lemma fill_of_out {o n i : Nat} {c : UInt8} (h : i < o ∨ o + n ≤ i) :
    fill f o n c i = f i := by
  unfold fill
  rw [if_neg (by omega)]

lemma copy_of_out {dst src n i : Nat} (h : i < dst ∨ dst + n ≤ i) :
    copy f dst src n i = f i := by
  unfold copy
  rw [if_neg (by omega)]

lemma putBytes_of_out {o i : Nat} {l : List UInt8} (h : i < o ∨ o + l.length ≤ i) :
    putBytes f o l i = f i := by
  unfold putBytes
  rw [if_neg (by omega)]

lemma le_lt {o k : Nat} : le f o k < 256 ^ k := by
  induction k generalizing o with
  | zero => simp [le]
  | succ k ih =>
    have h1 := (f o).toNat_lt
    have h2 := ih (o := o + 1)
    rw [le, Nat.pow_succ]
    omega

lemma le_congr {f g : Nat → UInt8} {o k : Nat} (h : ∀ i, o ≤ i → i < o + k → f i = g i) :
    le f o k = le g o k := by
  induction k generalizing o with
  | zero => rfl
  | succ k ih =>
    rw [le, le, h o (Nat.le_refl _) (by omega), ih fun i h1 h2 => h i (by omega) (by omega)]

lemma le_zero {o k : Nat} (h : ∀ i, o ≤ i → i < o + k → f i = 0) :
    le f o k = 0 := by
  induction k generalizing o with
  | zero => rfl
  | succ k ih =>
    rw [le, h o (Nat.le_refl _) (by omega), ih fun i h1 h2 => h i (by omega) (by omega)]
    rfl

lemma le_digits {o k v : Nat}
    (h : ∀ i, i < k → f (o + i) = UInt8.ofNat (v / 256 ^ i)) : le f o k = v % 256 ^ k := by
  induction k generalizing o v with
  | zero =>
    rw [le, Nat.pow_zero, Nat.mod_one]
  | succ k ih =>
    have h0 := h 0 (by omega)
    rw [Nat.add_zero, Nat.pow_zero, Nat.div_one] at h0
    have ht : le f (o + 1) k = v / 256 % 256 ^ k := by
      apply ih
      intro i hi
      rw [show o + 1 + i = o + (i + 1) from by omega, h (i + 1) (by omega), Nat.pow_succ',
        ← Nat.div_div_eq_div_mul]
    have hb : (UInt8.ofNat v).toNat = v % 256 := by simp
    rw [le, h0, hb, ht, Nat.pow_succ', Nat.mod_mul]

@[simp] lemma le_putLe {o k v : Nat} : le (putLe f o k v) o k = v % 256 ^ k := by
  apply le_digits
  intro i hi
  unfold putLe
  rw [if_pos (by omega), Nat.add_sub_cancel_left]

lemma le_putLe_of_disjoint {o k v o' k' : Nat} (h : o' + k' ≤ o ∨ o + k ≤ o') :
    le (putLe f o k v) o' k' = le f o' k' := by
  apply le_congr
  intro i h1 h2
  exact putLe_of_out (by omega)

end Xv6n.Lib
