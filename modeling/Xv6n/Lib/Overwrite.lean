import Mathlib.Data.List.Basic

/-!
# Lists overwritten from an offset on

`overwrite l o w` is `l` with its elements from offset `o` on replaced by `w`; it grows if `w` does not fit.
Two overwrites that follow each other are one of both lists.
-/

namespace Xv6n.Lib
variable {α : Type} {l w u : List α} {o j : Nat}

/-- The list `l` with `w` at offset `o`. -/
def overwrite (l : List α) (o : Nat) (w : List α) : List α := l.take o ++ w ++ l.drop (o + w.length)

lemma getElem?_overwrite (h : o ≤ l.length) :
    (overwrite l o w)[j]? = if o ≤ j ∧ j < o + w.length then w[j - o]? else l[j]? := by
  have hlen : (l.take o).length = o := List.length_take_of_le h
  rw [overwrite, List.append_assoc]
  by_cases h1 : j < o
  · rw [List.getElem?_append_left (by omega), List.getElem?_take_of_lt h1, if_neg (by omega)]
  · rw [List.getElem?_append_right (by omega), hlen]
    by_cases h2 : j < o + w.length
    · rw [List.getElem?_append_left (by omega), if_pos (by omega)]
    · rw [List.getElem?_append_right (by omega), List.getElem?_drop, if_neg (by omega),
        show o + w.length + (j - o - w.length) = j by omega]

lemma eq_overwrite {l' : List α} (h : o ≤ l.length) (hlen : l'.length = max l.length (o + w.length))
    (hin : ∀ j, o ≤ j → j < o + w.length → l'[j]? = w[j - o]?)
    (hout : ∀ j, j < l.length → (j < o ∨ o + w.length ≤ j) → l'[j]? = l[j]?) : l' = overwrite l o w := by
  refine List.ext_getElem? fun j => ?_
  rw [getElem?_overwrite h]
  by_cases hj : o ≤ j ∧ j < o + w.length
  · rw [if_pos hj, hin j hj.1 hj.2]
  · rw [if_neg hj]
    by_cases hl : j < l.length
    · exact hout j hl (by omega)
    · rw [List.getElem?_eq_none (by omega), List.getElem?_eq_none (by omega)]

end Xv6n.Lib
