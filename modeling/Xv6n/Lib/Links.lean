import Mathlib.Data.List.Infix

/-!
# Linked structures

Two structures that programs keep in memory by links: a null-terminated chain, given by the successor
of each address, and a tree, given by the children of each node. Both are determined by the links
they follow, so a change of memory that keeps these links keeps the structure.
-/

namespace Xv6n.Lib

section chain
variable {next next' : Nat → Nat} {head p : Nat} {l : List Nat}

/-- The addresses of the chain from `head` on are `l`. -/
def Chain (next : Nat → Nat) : Nat → List Nat → Prop
  | head, [] => head = 0
  | head, p :: l => head = p ∧ p ≠ 0 ∧ Chain next (next p) l

lemma Chain.congr (h : Chain next head l) (hn : ∀ p ∈ l, next' p = next p) : Chain next' head l := by
  induction l generalizing head with
  | nil => exact h
  | cons p l ih =>
    obtain ⟨h1, h2, h3⟩ := h
    refine ⟨h1, h2, ?_⟩
    rw [hn p (List.mem_cons_self ..)]
    exact ih h3 fun q hq => hn q (List.mem_cons_of_mem _ hq)

lemma Chain.uncons (h : Chain next head l) (hh : head ≠ 0) :
    ∃ l', l = head :: l' ∧ Chain next (next head) l' := by
  cases l with
  | nil => exact absurd h hh
  | cons p l =>
    obtain ⟨rfl, _, h3⟩ := h
    exact ⟨l, rfl, h3⟩

lemma Chain.unique {l' : List Nat} (h : Chain next head l) (h' : Chain next head l') : l = l' := by
  induction l generalizing head l' with
  | nil =>
    cases l' with
    | nil => rfl
    | cons p l' => exact absurd (h'.1.symm.trans h) h'.2.1
  | cons p l ih =>
    cases l' with
    | nil => exact absurd (h.1.symm.trans h') h.2.1
    | cons p' l' =>
      obtain ⟨rfl, _, h2⟩ := h
      obtain ⟨rfl, _, h2'⟩ := h'
      rw [ih h2 h2']

end chain

section tree
variable {N : Type} {child child' : N → Nat → Option N} {r : N} {i : Nat} {path : List Nat}

/-- The node that a path leads to from `r`, the last step first. -/
def descend (child : N → Nat → Option N) (r : N) : List Nat → Option N
  | [] => some r
  | i :: path => (descend child r path).bind fun t => child t i

lemma descend_cons : descend child r (i :: path) = (descend child r path).bind fun t => child t i := rfl

lemma descend_congr (h : ∀ i path', i :: path' <:+ path → ∀ t, descend child r path' = some t →
    child' t i = child t i) : descend child' r path = descend child r path := by
  induction path with
  | nil => rfl
  | cons i path ih =>
    have e := ih fun j path' hs => h j path' (hs.trans (List.suffix_cons ..))
    rw [descend_cons, descend_cons, e]
    cases ht : descend child r path with
    | none => rfl
    | some t => exact h i path (List.suffix_refl _) t ht

end tree

end Xv6n.Lib
