import Mathlib.Tactic.Ring

/-!
# Copying between ranges that may overlap

A memory is a function of 64-bit addresses. `copyUp` and `copyDown` copy one cell after the other, from the
first one on or from the last one back. Each is right if it reads no cell that it has already written.
-/

namespace Xv6n.Lib
open Function

variable {α : Type} {m : UInt64 → α} {d s : UInt64} {n : Nat}

/-- Copy `n` cells upwards (C `while (n-- > 0) *d++ = *s++`). -/
def copyUp : Nat → UInt64 → UInt64 → (UInt64 → α) → UInt64 → α
  | 0, _, _, m => m
  | n + 1, d, s, m => copyUp n (d + 1) (s + 1) (update m d (m s))

/-- Copy `n` cells downwards, from where the ranges end (C `while (n-- > 0) *--d = *--s`). -/
def copyDown : Nat → UInt64 → UInt64 → (UInt64 → α) → UInt64 → α
  | 0, _, _, m => m
  | n + 1, d, s, m => copyDown n (d - 1) (s - 1) (update m (d - 1) (m (s - 1)))

/-- The `n` cells at `d` are those that were at `s`, and no other cell has changed. -/
structure Moved (d s : UInt64) (n : Nat) (m m' : UInt64 → α) : Prop where
  copied : ∀ k < n, m' (d + .ofNat k) = m (s + .ofNat k)
  frame : ∀ a, (∀ k < n, a ≠ d + .ofNat k) → m' a = m a

lemma Moved.unique {m₁ m₂ : UInt64 → α} (h₁ : Moved d s n m m₁) (h₂ : Moved d s n m m₂) : m₁ = m₂ := by
  funext a
  by_cases ha : ∃ k < n, a = d + .ofNat k
  · obtain ⟨k, hk, rfl⟩ := ha
    rw [h₁.copied k hk, h₂.copied k hk]
  · have hout : ∀ k < n, a ≠ d + .ofNat k := fun k hk e => ha ⟨k, hk, e⟩
    rw [h₁.frame a hout, h₂.frame a hout]

lemma add_ofNat_succ {p : UInt64} {k : Nat} : p + 1 + .ofNat k = p + .ofNat (k + 1) := by
  rw [UInt64.ofNat_add, UInt64.add_assoc, UInt64.add_comm 1]
  rfl

lemma add_ofNat_succ_sub {p : UInt64} {k : Nat} : p + .ofNat (k + 1) - 1 = p + .ofNat k := by
  rw [UInt64.ofNat_add, ← UInt64.add_assoc]
  exact UInt64.add_sub_cancel _ _

lemma toNat_add_ofNat {p : UInt64} {k : Nat} (h : p.toNat + k < 2 ^ 64) : (p + .ofNat k).toNat = p.toNat + k := by
  rw [UInt64.toNat_add, UInt64.toNat_ofNat', Nat.mod_eq_of_lt (by omega : k < 2 ^ 64), Nat.mod_eq_of_lt h]

lemma add_ofNat_ne {i j : Nat} (hd : d.toNat + n ≤ 2 ^ 64) (hij : i < j) (hj : j < n) :
    d + .ofNat i ≠ d + .ofNat j := by
  intro e
  have := congrArg UInt64.toNat e
  rw [toNat_add_ofNat (by omega), toNat_add_ofNat (by omega)] at this
  omega

lemma copyUp_moved (hd : ∀ i j, i < j → j < n → d + .ofNat i ≠ d + .ofNat j)
    (hsafe : ∀ i j, i < j → j < n → d + .ofNat i ≠ s + .ofNat j) : Moved d s n m (copyUp n d s m) := by
  induction n generalizing d s m with
  | zero => exact ⟨nofun, fun _ _ => rfl⟩
  | succ n ih =>
    have hzero : ∀ p : UInt64, p + .ofNat 0 = p := UInt64.add_zero
    have hrest := ih (d := d + 1) (s := s + 1) (m := update m d (m s)) (fun i j hij hj => ?_) fun i j hij hj => ?_
    · refine ⟨fun k hk => ?_, fun a ha => ?_⟩
      · cases k with
        | zero =>
          -- the first cell is not written again
          have hne : ∀ k < n, d ≠ d + 1 + .ofNat k := by
            intro k hk e
            rw [add_ofNat_succ] at e
            exact hd 0 (k + 1) (Nat.succ_pos k) (by omega) ((hzero d).trans e)
          rw [hzero, hzero, copyUp, hrest.frame d hne, update_self]
        | succ k =>
          rw [← add_ofNat_succ, ← add_ofNat_succ, copyUp, hrest.copied k (by omega), update_of_ne]
          rw [add_ofNat_succ]
          exact fun e => hsafe 0 (k + 1) (Nat.succ_pos k) hk ((hzero d).trans e.symm)
      · rw [copyUp, hrest.frame a fun k hk => ?_, update_of_ne]
        · exact hzero d ▸ ha 0 (Nat.succ_pos n)
        · rw [add_ofNat_succ]
          exact ha (k + 1) (by omega)
    · rw [add_ofNat_succ, add_ofNat_succ]
      exact hd _ _ (by omega) (by omega)
    · rw [add_ofNat_succ, add_ofNat_succ]
      exact hsafe _ _ (by omega) (by omega)

lemma copyDown_moved (hd : ∀ i j, i < j → j < n → d + .ofNat i ≠ d + .ofNat j)
    (hsafe : ∀ i j, i < j → j < n → s + .ofNat i ≠ d + .ofNat j) :
    Moved d s n m (copyDown n (d + .ofNat n) (s + .ofNat n) m) := by
  induction n generalizing m with
  | zero => exact ⟨nofun, fun _ _ => rfl⟩
  | succ n ih =>
    have hrest := ih (m := update m (d + .ofNat n) (m (s + .ofNat n)))
      (fun i j hij hj => hd i j hij (by omega)) fun i j hij hj => hsafe i j hij (by omega)
    rw [copyDown, add_ofNat_succ_sub, add_ofNat_succ_sub]
    refine ⟨fun k hk => ?_, fun a ha => ?_⟩
    · rcases Nat.lt_succ_iff_lt_or_eq.1 hk with hk | rfl
      · rw [hrest.copied k hk, update_of_ne (hsafe k n hk (Nat.lt_succ_self n))]
      · -- the last cell is not written again
        rw [hrest.frame _ fun j hj => (hd j k hj (Nat.lt_succ_self k)).symm, update_self]
    · rw [hrest.frame a fun k hk => ha k (by omega), update_of_ne (ha n (Nat.lt_succ_self n))]

end Xv6n.Lib
