import Mathlib.Data.Nat.Digits.Lemmas

/-!
# Numerals

The numeral of a number in a base: its digits, the most significant one first, and one digit for zero. `dig`
says how a digit is written.
-/

namespace Xv6n.Lib

variable {α : Type} {b n m k : Nat} {dig : Nat → α}

/-- The digits of a number, the least significant one first; zero has one. -/
def digs (b n : Nat) : List Nat := if n = 0 then [0] else Nat.digits b n

def numeral (dig : Nat → α) (b n : Nat) : List α := ((digs b n).map dig).reverse

lemma digs_eq (hb : 1 < b) : digs b n = n % b :: if n / b = 0 then [] else digs b (n / b) := by
  by_cases hn : n = 0
  · subst hn
    simp [digs]
  · rw [digs, if_neg hn, Nat.digits_def' hb (Nat.pos_of_ne_zero hn)]
    by_cases hq : n / b = 0
    · rw [hq, if_pos rfl, Nat.digits_zero]
    · rw [if_neg hq, digs, if_neg hq]

lemma digs_ne_nil : digs b n ≠ [] := by
  unfold digs
  split
  · exact List.cons_ne_nil _ _
  · exact Nat.digits_ne_nil_iff_ne_zero.2 ‹_›

lemma lt_of_mem_digs (hb : 1 < b) {d : Nat} (hd : d ∈ digs b n) : d < b := by
  unfold digs at hd
  split at hd
  · rw [List.mem_singleton] at hd
    omega
  · exact Nat.digits_lt_base hb hd

lemma ofDigits_digs : Nat.ofDigits b (digs b n) = n := by
  unfold digs
  split
  · subst n
    simp
  · exact Nat.ofDigits_digits b n

lemma length_digs_le (hb : 1 < b) (hk : 0 < k) (hn : n < b ^ k) : (digs b n).length ≤ k := by
  unfold digs
  split
  · exact hk
  · exact (Nat.digits_length_le_iff hb n).2 hn

lemma numeral_inj {undig : α → Nat} (hb : 1 < b) (hdig : ∀ i < b, undig (dig i) = i)
    (h : numeral dig b n = numeral dig b m) : n = m := by
  have hread : ∀ n, ((numeral dig b n).reverse.map undig) = digs b n := by
    intro n
    rw [numeral, List.reverse_reverse, List.map_map]
    refine (List.map_congr_left fun d hd => ?_).trans (List.map_id _)
    exact hdig d (lt_of_mem_digs hb hd)
  rw [← ofDigits_digs (b := b) (n := n), ← hread, h, hread, ofDigits_digs]

lemma mem_numeral (hb : 1 < b) {c : α} (hc : c ∈ numeral dig b n) : ∃ d < b, c = dig d := by
  rw [numeral, List.mem_reverse, List.mem_map] at hc
  obtain ⟨d, hd, rfl⟩ := hc
  exact ⟨d, lt_of_mem_digs hb hd, rfl⟩

lemma map_numeral_congr {β : Type} {f : α → β} {dig' : Nat → α} (hb : 1 < b)
    (h : ∀ d < b, f (dig d) = f (dig' d)) : (numeral dig b n).map f = (numeral dig' b n).map f := by
  rw [numeral, numeral, List.map_reverse, List.map_reverse, List.map_map, List.map_map]
  exact congrArg List.reverse (List.map_congr_left fun d hd => h d (lt_of_mem_digs hb hd))

end Xv6n.Lib
