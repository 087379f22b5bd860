import Mathlib.Algebra.BigOperators.Group.Finset.Basic
import Mathlib.Data.Fintype.Card
import Mathlib.Tactic.Ring

/-!
# Counting references

A table of optional references, and how often each thing is referred to.
-/

namespace Xv6n.Lib
open Function

variable {ι α : Type*} [Fintype ι] [DecidableEq ι] [DecidableEq α] {o : ι → Option α} {i : ι} {a : α}

/-- The number of entries of a table that refer to `a`. -/
def refs (o : ι → Option α) (a : α) : Nat := (Finset.univ.filter fun i => o i = some a).card

omit [DecidableEq ι] in
lemma refs_pos (h : o i = some a) : 0 < refs o a :=
  Finset.card_pos.2 ⟨i, Finset.mem_filter.2 ⟨Finset.mem_univ i, h⟩⟩

omit [DecidableEq ι] in
lemma exists_of_refs (h : refs o a ≠ 0) : ∃ i, o i = some a := by
  obtain ⟨i, hi⟩ := Finset.card_pos.1 (Nat.pos_of_ne_zero h)
  exact ⟨i, (Finset.mem_filter.1 hi).2⟩

omit [DecidableEq ι] in
lemma refs_zero (h : ∀ i, o i ≠ some a) : refs o a = 0 := by
  by_contra hne
  obtain ⟨i, hi⟩ := exists_of_refs hne
  exact h i hi

lemma refs_set (h : o i = none) :
    refs (update o i (some a)) = update (refs o) a (refs o a + 1) := by
  have hmem : ∀ b, i ∉ Finset.univ.filter fun j => o j = some b := by
    intro b hb
    have := (Finset.mem_filter.1 hb).2
    rw [h] at this
    cases this
  funext b
  unfold refs
  by_cases hb : b = a
  · subst hb
    rw [update_self, ← Finset.card_insert_of_notMem (hmem b)]
    congr 1
    ext j
    by_cases hj : j = i
    · subst hj
      simp
    · simp [hj]
  · rw [update_of_ne hb]
    congr 1
    ext j
    by_cases hj : j = i
    · subst hj
      simp [h, Ne.symm hb]
    · simp [hj]

lemma refs_clear (h : o i = some a) :
    refs (update o i none) = update (refs o) a (refs o a - 1) := by
  have hset : refs o = update (refs (update o i none)) a
      (refs (update o i none) a + 1) := by
    rw [← refs_set (update_self ..), update_idem, ← h, update_eq_self]
  funext b
  rw [hset]
  by_cases hb : b = a
  · subst hb
    simp
  · simp [hb]

/-- 1 if a pointer points to `a`, and 0 otherwise. -/
def ptr (o : Option α) (a : α) : Int := if o = some a then 1 else 0

@[simp] lemma ptr_none : ptr (none : Option α) = 0 := rfl

lemma refs_update (v : Option α) :
    (refs (update o i v) a : Int) = refs o a + ptr v a - ptr (o i) a := by
  have hset : ∀ (o : ι → Option α) (b : α), o i = none →
      (refs (update o i (some b)) a : Int) = refs o a + ptr (some b) a := by
    intro o b h
    rw [refs_set h]
    by_cases hb : a = b
    · subst hb
      simp [ptr]
    · simp [ptr, hb, Ne.symm hb]
  -- both the old and the new table come from the one in which the entry is empty
  have hclear : ∀ v, (refs (update o i v) a : Int) =
      refs (update o i none) a + ptr v a := by
    intro v
    cases v with
    | none => simp
    | some b =>
      have h := hset (update o i none) b (update_self ..)
      rwa [update_idem] at h
  have hold := hclear (o i)
  rw [update_eq_self] at hold
  rw [hclear v, hold]
  ring

lemma le_sum {f : ι → Nat} : f i ≤ ∑ j, f j := by
  rw [← Finset.add_sum_erase _ f (Finset.mem_univ i)]
  exact Nat.le_add_right ..

lemma sum_change {f g : ι → Nat} (h : ∀ j, j ≠ i → g j = f j) :
    ∑ j, g j + f i = ∑ j, f j + g i := by
  have es : ∑ j ∈ Finset.univ.erase i, g j = ∑ j ∈ Finset.univ.erase i, f j :=
    Finset.sum_congr rfl fun j hj => h j (Finset.ne_of_mem_erase hj)
  rw [← Finset.add_sum_erase _ g (Finset.mem_univ i), ← Finset.add_sum_erase _ f (Finset.mem_univ i), es]
  omega

lemma sum_update {L : Type*} {x : ι → L} {l : L} (h : L → Nat) :
    ∑ j, h (update x i l j) + h (x i) = ∑ j, h (x j) + h l := by
  have e := sum_change (i := i) (f := fun j => h (x j)) (g := fun j => h (update x i l j))
    fun j hj => by rw [update_of_ne hj]
  rwa [update_self] at e

end Xv6n.Lib
