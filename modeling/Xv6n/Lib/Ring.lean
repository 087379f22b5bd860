import Mathlib.Data.Nat.ModEq
import Mathlib.Data.List.Basic

/-!
# Ring buffers

A ring of `m` cells with a read and a write counter that run freely and wrap at `M`, a multiple of `m`.
`Ring` relates it to the queue of the values that have been put in and not been taken out.
-/

namespace Xv6n.Lib
open Function

universe u
variable {α : Type u} {m M : Nat} [NeZero m]

/-- The cells from `r` up to `w` hold the queue `q`. -/
structure Ring (M : Nat) (data : Fin m → α) (r w : Nat) (q : List α) : Prop where
  lt : r < M
  eq : w = (r + q.length) % M
  le : q.length ≤ m
  cell : ∀ k (h : k < q.length), data (Fin.ofNat m (r + k)) = q[k]

variable {data : Fin m → α} {r w : Nat} {q : List α}

lemma Ring.nil (h : r < M) : Ring M data r r [] :=
  ⟨h, (Nat.mod_eq_of_lt h).symm, Nat.zero_le _, nofun⟩

lemma add_mod_inj {a b : Nat} (ha : a < M) (hb : b < M)
    (h : (r + a) % M = (r + b) % M) : a = b := by
  have h1 : a ≡ b [MOD M] := Nat.ModEq.add_left_cancel' r h
  exact h1.eq_of_lt_of_lt ha hb

lemma Ring.empty_iff (h : Ring M data r w q) (hM : m < M) : r = w ↔ q = [] := by
  rw [h.eq, ← List.length_eq_zero_iff]
  constructor
  · intro e
    have e' : (r + q.length) % M = (r + 0) % M := by
      rw [← e, Nat.add_zero, Nat.mod_eq_of_lt h.lt]
    exact add_mod_inj (lt_of_le_of_lt h.le hM) (Nat.zero_lt_of_lt hM) e'
  · intro e
    rw [e, Nat.add_zero, Nat.mod_eq_of_lt h.lt]

lemma Ring.full_iff (h : Ring M data r w q) (hM : m < M) : w = (r + m) % M ↔ q.length = m := by
  rw [h.eq]
  constructor
  · exact add_mod_inj (lt_of_le_of_lt h.le hM) hM
  · intro e
    rw [e]

lemma Ring.sub (h : Ring M data r w q) (hM : m < M) : (w + M - r) % M = q.length := by
  have hlt := h.lt
  have hq := lt_of_le_of_lt h.le hM
  rw [h.eq]
  by_cases hc : r + q.length < M
  · rw [Nat.mod_eq_of_lt hc, show r + q.length + M - r = q.length + M by omega, Nat.add_mod_right,
      Nat.mod_eq_of_lt hq]
  · have hw : (r + q.length) % M = r + q.length - M := by
      rw [Nat.mod_eq_sub_mod (by omega), Nat.mod_eq_of_lt (by omega)]
    rw [hw, show r + q.length - M + M - r = q.length by omega, Nat.mod_eq_of_lt hq]

lemma ofNat_mod (hd : m ∣ M) (n : Nat) : Fin.ofNat m (n % M) = Fin.ofNat m n :=
  Fin.ext (Nat.mod_mod_of_dvd n hd)

lemma ofNat_ne {a b : Nat} (h1 : a < b) (h2 : b < a + m) : Fin.ofNat m a ≠ Fin.ofNat m b := by
  intro e
  have e' : a % m = b % m := congrArg Fin.val e
  have h3 : m ∣ b - a := (Nat.modEq_iff_dvd' h1.le).1 e'
  exact absurd (Nat.le_of_dvd (by omega) h3) (by omega)

section
variable (h : Ring M data r w q) (hd : m ∣ M) (hq : q.length < m)
include h hd hq

lemma Ring.write (b : α) :
    Ring M (update data (Fin.ofNat m w) b) r w q := by
  have hw : Fin.ofNat m w = Fin.ofNat m (r + q.length) := by rw [h.eq, ofNat_mod hd]
  refine ⟨h.lt, h.eq, h.le, fun k hk => ?_⟩
  rw [hw, update_of_ne (ofNat_ne (by omega) (by omega))]
  exact h.cell k hk

lemma Ring.push :
    Ring M data r ((w + 1) % M) (q ++ [data (Fin.ofNat m w)]) := by
  have hw : Fin.ofNat m w = Fin.ofNat m (r + q.length) := by rw [h.eq, ofNat_mod hd]
  refine ⟨h.lt, ?_, ?_, fun k hk => ?_⟩
  · rw [h.eq, Nat.mod_add_mod, List.length_append, List.length_singleton, Nat.add_assoc]
  · rw [List.length_append, List.length_singleton]
    exact hq
  · rw [List.length_append, List.length_singleton] at hk
    by_cases e : k < q.length
    · rw [List.getElem_append_left e]
      exact h.cell k e
    · obtain rfl : k = q.length := by omega
      rw [List.getElem_append_right (le_refl _), ← hw]
      simp

lemma Ring.put (b : α) :
    Ring M (update data (Fin.ofNat m w) b) r ((w + 1) % M) (q ++ [b]) := by
  have h1 := (h.write hd hq b).push hd hq
  rwa [update_self] at h1

end

lemma Ring.unput {b} (h : Ring M data r w (q ++ [b])) (hd : m ∣ M) :
    data (Fin.ofNat m (w + M - 1)) = b ∧ Ring M data r ((w + M - 1) % M) q := by
  have hlt := h.lt
  have hle := h.le
  have hw := h.eq
  rw [List.length_append, List.length_singleton] at hle hw
  have hback : (w + M - 1) % M = (r + q.length) % M := by
    have h1 : w + M - 1 = (r + q.length + 1) % M + (M - 1) := by rw [hw, Nat.add_assoc r]; omega
    rw [h1, Nat.mod_add_mod, show r + q.length + 1 + (M - 1) = r + q.length + M by omega, Nat.add_mod_right]
  refine ⟨?_, h.lt, hback, by omega, fun k hk => ?_⟩
  · have hc := h.cell q.length (by simp)
    rw [List.getElem_concat_length rfl] at hc
    rw [← hc, ← ofNat_mod hd, hback, ofNat_mod hd]
  · have hc := h.cell k (by rw [List.length_append]; omega)
    rwa [List.getElem_append_left hk] at hc

lemma Ring.pop {b} (h : Ring M data r w (b :: q)) (hd : m ∣ M) :
    data (Fin.ofNat m r) = b ∧ Ring M data ((r + 1) % M) w q := by
  have hle := h.le
  rw [List.length_cons] at hle
  refine ⟨h.cell 0 (Nat.succ_pos _), Nat.mod_lt _ (Nat.zero_lt_of_lt h.lt), ?_, by omega, fun k hk => ?_⟩
  · rw [h.eq, List.length_cons, Nat.mod_add_mod]
    congr 1
    omega
  · have hc := h.cell (k + 1) (Nat.succ_lt_succ hk)
    rw [List.getElem_cons_succ] at hc
    have hk' : Fin.ofNat m ((r + 1) % M + k) = Fin.ofNat m (r + (k + 1)) := by
      rw [← ofNat_mod hd, Nat.mod_add_mod, ofNat_mod hd]
      congr 1
      omega
    rw [hk', hc]

end Xv6n.Lib
