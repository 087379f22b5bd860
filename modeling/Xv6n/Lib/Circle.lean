import Mathlib.Data.List.Chain
import Mathlib.Data.List.Nodup

/-!
# Circular lists

A circular list is given by the successor of each node: each node of the list has the one behind it as successor, and
the last one has the first one. A circular list can be entered at any of its nodes.
-/

namespace Xv6n.Lib

variable {α : Type} {next next' : α → α} {x y : α} {l l₁ l₂ : List α}

def Leads (next : α → α) (l : List α) : Prop := l.IsChain fun x y => next x = y

lemma Leads.congr (h : Leads next (l ++ [x])) (hn : ∀ y ∈ l, next' y = next y) : Leads next' (l ++ [x]) := by
  induction l with
  | nil => exact List.IsChain.singleton x
  | cons y l ih =>
    obtain ⟨h1, h2⟩ := List.isChain_cons.1 h
    refine List.isChain_cons.2 ⟨fun z hz => ?_, ih h2 fun z hz => hn z (List.mem_cons_of_mem _ hz)⟩
    exact (hn y List.mem_cons_self).trans (h1 z hz)

lemma leads_split : Leads next (l₁ ++ x :: l₂) ↔ Leads next (l₁ ++ [x]) ∧ Leads next (x :: l₂) :=
  List.isChain_split

lemma leads_rotate (h : Leads next (x :: l₁ ++ y :: (l₂ ++ [x]))) : Leads next (y :: l₂ ++ x :: (l₁ ++ [y])) := by
  rw [leads_split] at h
  rw [leads_split]
  exact ⟨h.2, h.1⟩

lemma Leads.reaches (h : Leads next (x :: l)) (hy : y ∈ x :: l) : ∃ k, next^[k] x = y := by
  induction l generalizing x with
  | nil => exact ⟨0, (List.mem_singleton.1 hy).symm⟩
  | cons z l ih =>
    obtain ⟨hz, hl⟩ := List.isChain_cons_cons.1 h
    rcases List.mem_cons.1 hy with rfl | hy
    · exact ⟨0, rfl⟩
    · obtain ⟨k, hk⟩ := ih hl hy
      exact ⟨k + 1, by rw [Function.iterate_succ_apply, hz, hk]⟩

lemma Leads.next_mem (h : Leads next (l ++ [x])) (hy : y ∈ l) : next y ∈ l ++ [x] := by
  induction l with
  | nil => cases hy
  | cons z l ih =>
    obtain ⟨hz, hl⟩ := List.isChain_cons.1 h
    rcases List.mem_cons.1 hy with rfl | hy
    · cases l with
      | nil => exact hz x rfl ▸ by simp
      | cons w l => exact hz w rfl ▸ by simp
    · exact List.mem_cons_of_mem _ (ih hl hy)

lemma Leads.iterate_mem (h : Leads next (x :: l ++ [x])) (k : Nat) : next^[k] x ∈ x :: l := by
  induction k with
  | zero => exact List.mem_cons_self
  | succ k ih =>
    rw [Function.iterate_succ_apply']
    rcases List.mem_append.1 (h.next_mem ih) with hm | hm
    · exact hm
    · rw [List.mem_singleton.1 hm]
      exact List.mem_cons_self

lemma neighbours_append {u v : List α} (h : l₁ ++ l₂ = u ++ x :: y :: v) :
    (∃ v', l₁ = u ++ x :: y :: v') ∨ (∃ u', l₂ = u' ++ x :: y :: v) ∨ (l₁ = u ++ [x] ∧ l₂ = y :: v) := by
  rcases List.append_eq_append_iff.1 h with ⟨a, rfl, h2⟩ | ⟨a, rfl, h2⟩
  · exact .inr (.inl ⟨a, h2⟩)
  · cases a with
    | nil => exact .inr (.inl ⟨[], h2.symm⟩)
    | cons z a =>
      simp only [List.cons_append, List.cons.injEq] at h2
      obtain ⟨rfl, h2⟩ := h2
      cases a with
      | nil => exact .inr (.inr ⟨rfl, h2.symm⟩)
      | cons w a =>
        simp only [List.cons_append, List.cons.injEq] at h2
        obtain ⟨rfl, -⟩ := h2
        exact .inl ⟨a, rfl⟩

end Xv6n.Lib
