import Mathlib.Data.List.Nodup

/-!
# Doubly linked rings

A ring through a header `h` is given by the successor and the predecessor of each node. `Linked` says that
consecutive nodes of a list are linked both ways, and `DRing next prev h l` that the nodes behind `h` are `l`,
in this order, before the ring closes. A node can be taken out of a ring and put in behind its header by
changing four links, and a search that follows the links finds what a search of the list finds.
-/

namespace Xv6n.Lib
open Function

variable {α : Type} {next prev next' prev' : α → α} {h x y : α} {l l₁ l₂ : List α}

def Linked (next prev : α → α) : List α → Prop
  | x :: y :: l => next x = y ∧ prev y = x ∧ Linked next prev (y :: l)
  | _ => True

lemma linked_append : Linked next prev (l₁ ++ x :: l₂) ↔
    Linked next prev (l₁ ++ [x]) ∧ Linked next prev (x :: l₂) := by
  induction l₁ with
  | nil => simp [Linked]
  | cons y l₁ ih =>
    cases l₁ with
    | nil => simp [Linked, and_assoc]
    | cons z l₁ =>
      simp only [List.cons_append, Linked] at ih ⊢
      rw [ih]
      simp only [and_assoc]

lemma Linked.congr (hl : Linked next prev l) (hn : ∀ x ∈ l.dropLast, next' x = next x)
    (hp : ∀ x ∈ l.tail, prev' x = prev x) : Linked next' prev' l := by
  induction l with
  | nil => trivial
  | cons x l ih =>
    cases l with
    | nil => trivial
    | cons y l =>
      obtain ⟨h1, h2, h3⟩ := hl
      refine ⟨(hn x (by simp)).trans h1, (hp y (by simp)).trans h2, ih h3 ?_ ?_⟩
      · intro z hz
        exact hn z (List.mem_cons_of_mem _ hz)
      · intro z hz
        exact hp z (List.mem_cons_of_mem _ hz)

/-- The nodes behind `h` are `l`, each of them once. -/
structure DRing (next prev : α → α) (h : α) (l : List α) : Prop where
  linked : Linked next prev (h :: l ++ [h])
  nodup : (h :: l).Nodup

lemma DRing.nil (hn : next h = h) (hp : prev h = h) : DRing next prev h [] :=
  ⟨⟨hn, hp, trivial⟩, List.nodup_singleton h⟩

lemma DRing.next_ne (hr : DRing next prev h (l₁ ++ x :: l₂)) : next x ≠ x := by
  obtain ⟨hl, hn⟩ := hr
  have hsplit : h :: (l₁ ++ x :: l₂) ++ [h] = (h :: l₁) ++ x :: (l₂ ++ [h]) := by simp
  rw [hsplit, linked_append] at hl
  rw [← List.cons_append, List.nodup_append] at hn
  obtain ⟨_, hn2, hn3⟩ := hn
  cases l₂ with
  | nil => exact hl.2.1 ▸ hn3 h (List.mem_cons_self ..) x (List.mem_cons_self ..)
  | cons y l₂ =>
    intro e
    have hy : y = x := hl.2.1.symm.trans e
    exact (List.nodup_cons.1 hn2).1 (hy ▸ List.mem_cons_self ..)

lemma exists_concat_cons (h : α) (l : List α) : ∃ l' y, h :: l = l' ++ [y] :=
  ⟨(h :: l).dropLast, (h :: l).getLast (by simp), (List.dropLast_append_getLast (by simp)).symm⟩

lemma exists_cons_concat (l : List α) (h : α) : ∃ y l', l ++ [h] = y :: l' := by
  cases l with
  | nil => exact ⟨h, [], rfl⟩
  | cons y l => exact ⟨y, l ++ [h], rfl⟩

lemma Linked.reverse (hl : Linked next prev l) : Linked prev next l.reverse := by
  induction l with
  | nil => trivial
  | cons x l ih =>
    cases l with
    | nil => trivial
    | cons y l =>
      obtain ⟨h1, h2, h3⟩ := hl
      have hr := ih h3
      rw [List.reverse_cons] at hr
      rw [List.reverse_cons, List.reverse_cons, List.append_assoc]
      exact linked_append.2 ⟨hr, h2, h1, trivial⟩

lemma DRing.reverse (hr : DRing next prev h l) : DRing prev next h l.reverse := by
  refine ⟨?_, ?_⟩
  · have := hr.linked.reverse
    simpa using this
  · have hn := List.nodup_cons.1 hr.nodup
    exact List.nodup_cons.2 ⟨fun hm => hn.1 (List.mem_reverse.1 hm), List.nodup_reverse.2 hn.2⟩

lemma nodup_concat (hn : (h :: l).Nodup) : (l ++ [h]).Nodup := by
  rw [List.nodup_cons] at hn
  rw [List.nodup_append]
  refine ⟨hn.2, List.nodup_singleton h, fun v hv w hw e => ?_⟩
  rw [List.mem_singleton] at hw
  exact hn.1 (hw ▸ e ▸ hv)

variable [DecidableEq α]

lemma DRing.unlink (hr : DRing next prev h (l₁ ++ x :: l₂)) :
    DRing (update next (prev x) (next x)) (update prev (next x) (prev x)) h (l₁ ++ l₂) := by
  obtain ⟨hl, hn⟩ := hr
  -- `y` is the node before `x` and `z` the one behind it; either may be the header
  obtain ⟨a, y, ha⟩ := exists_concat_cons h l₁
  obtain ⟨z, c, hc⟩ := exists_cons_concat l₂ h
  have hsplit : h :: (l₁ ++ x :: l₂) ++ [h] = a ++ y :: x :: z :: c := by
    calc h :: (l₁ ++ x :: l₂) ++ [h] = (h :: l₁) ++ x :: (l₂ ++ [h]) := by simp
      _ = a ++ y :: x :: z :: c := by rw [ha, hc]; simp
  rw [hsplit, linked_append] at hl
  obtain ⟨hl1, hy, hx, hz, hzx, hl2⟩ := hl
  rw [hx, hz]
  have hnd : (h :: l₁).Nodup ∧ l₂.Nodup ∧ (∀ u ∈ h :: l₁, u ∉ l₂) ∧ x ∉ h :: l₁ := by
    have : (h :: l₁ ++ x :: l₂).Nodup := hn
    rw [List.nodup_append] at this
    obtain ⟨h1, h2, h3⟩ := this
    rw [List.nodup_cons] at h2
    exact ⟨h1, h2.2, fun u hu hu2 => h3 u hu u (List.mem_cons_of_mem _ hu2) rfl,
      fun hxm => h3 x hxm x (List.mem_cons_self ..) rfl⟩
  refine ⟨?_, ?_⟩
  · have hgoal : h :: (l₁ ++ l₂) ++ [h] = a ++ y :: z :: c := by
      calc h :: (l₁ ++ l₂) ++ [h] = (h :: l₁) ++ (l₂ ++ [h]) := by simp
        _ = a ++ y :: z :: c := by rw [ha, hc]; simp
    have hya : y ∉ a := by
      have := hnd.1
      rw [ha, List.nodup_append] at this
      exact fun hm => this.2.2 y hm y (List.mem_singleton_self y) rfl
    rw [hgoal, linked_append]
    refine ⟨hl1.congr ?_ ?_, update_self .., update_self .., hl2.congr ?_ ?_⟩
    · intro u hu
      rw [List.dropLast_concat] at hu
      refine update_of_ne (fun e => ?_) ..
      exact hya (e ▸ hu)
    · -- the nodes behind the first one are those of `l₁`, and `z` is not among them
      intro u hu
      rw [← ha, List.tail_cons] at hu
      refine update_of_ne (fun e => ?_) ..
      subst e
      have hzm : u ∈ l₂ ++ [h] := hc ▸ List.mem_cons_self ..
      rcases List.mem_append.1 hzm with hm | hm
      · exact hnd.2.2.1 u (List.mem_cons_of_mem _ hu) hm
      · rw [List.mem_singleton] at hm
        exact (List.nodup_cons.1 hnd.1).1 (hm ▸ hu)
    · intro u hu
      rw [← hc, List.dropLast_concat] at hu
      refine update_of_ne (fun e => ?_) ..
      subst e
      have hym : u ∈ h :: l₁ := ha ▸ List.mem_append_right _ (List.mem_singleton_self u)
      exact hnd.2.2.1 u hym hu
    · intro u hu
      rw [List.tail_cons] at hu
      refine update_of_ne (fun e => ?_) ..
      subst e
      have hnc := nodup_concat (List.nodup_cons.2 ⟨hnd.2.2.1 h (List.mem_cons_self ..), hnd.2.1⟩)
      rw [hc, List.nodup_cons] at hnc
      exact hnc.1 hu
  · show ((h :: l₁) ++ l₂).Nodup
    rw [List.nodup_append]
    exact ⟨hnd.1, hnd.2.1, fun u hu v hv e => hnd.2.2.1 u hu (e ▸ hv)⟩

lemma DRing.link (hr : DRing next prev h l) (hx : x ∉ h :: l) :
    DRing (update (update next x (next h)) h x)
      (update (update prev x h) (next h) x) h (x :: l) := by
  obtain ⟨hl, hn⟩ := hr
  obtain ⟨z, c, hc⟩ := exists_cons_concat l h
  have hzm : z ∈ h :: l := by
    have : z ∈ l ++ [h] := hc ▸ List.mem_cons_self ..
    rcases List.mem_append.1 this with hm | hm
    · exact List.mem_cons_of_mem _ hm
    · rw [List.mem_singleton] at hm
      exact hm ▸ List.mem_cons_self ..
  rw [List.cons_append, hc] at hl
  obtain ⟨h1, h2, h3⟩ := hl
  rw [h1]
  have hxh : x ≠ h := fun e => hx (e ▸ List.mem_cons_self ..)
  have hxz : x ≠ z := fun e => hx (e ▸ hzm)
  refine ⟨?_, List.nodup_cons.2 ⟨?_, List.nodup_cons.2 ⟨?_, (List.nodup_cons.1 hn).2⟩⟩⟩
  · show Linked _ _ (h :: x :: (l ++ [h]))
    rw [hc]
    refine ⟨update_self .., ?_, ?_, update_self .., h3.congr ?_ ?_⟩
    · rw [update_of_ne hxz, update_self]
    · rw [update_of_ne hxh, update_self]
    · intro u hu
      rw [← hc, List.dropLast_concat] at hu
      have huh : u ≠ h := fun e => (List.nodup_cons.1 hn).1 (e ▸ hu)
      have hux : u ≠ x := fun e => hx (List.mem_cons_of_mem _ (e ▸ hu))
      rw [update_of_ne huh, update_of_ne hux]
    · intro u hu
      rw [List.tail_cons] at hu
      have hnc := nodup_concat hn
      rw [hc, List.nodup_cons] at hnc
      have huz : u ≠ z := fun e => hnc.1 (e ▸ hu)
      have hum : u ∈ l ++ [h] := hc ▸ List.mem_cons_of_mem _ hu
      have hux : u ≠ x := by
        rintro rfl
        rcases List.mem_append.1 hum with hm | hm
        · exact hx (List.mem_cons_of_mem _ hm)
        · rw [List.mem_singleton] at hm
          exact hxh hm
      rw [update_of_ne huz, update_of_ne hux]
  · intro hm
    rcases List.mem_cons.1 hm with e | hm
    · exact hxh e.symm
    · exact (List.nodup_cons.1 hn).1 hm
  · exact fun hm => hx (List.mem_cons_of_mem _ hm)

/-- Follow links from `x` to the first node with `p`, up to the header. -/
def follow (next : α → α) (h : α) (p : α → Bool) : Nat → α → Option α
  | 0, _ => none
  | n + 1, x => if x = h then none else if p x then some x else follow next h p n (next x)

lemma follow_linked {p : α → Bool} {n : Nat} (hl : Linked next prev (l ++ [h])) (hh : h ∉ l)
    (hn : l.length < n) (hx : (l ++ [h]).head? = some x) : follow next h p n x = l.find? p := by
  induction l generalizing n x with
  | nil =>
    obtain ⟨n, rfl⟩ : ∃ k, n = k + 1 := ⟨n - 1, by simp at hn; omega⟩
    cases hx
    exact if_pos rfl
  | cons y l ih =>
    obtain ⟨n, rfl⟩ : ∃ k, n = k + 1 := ⟨n - 1, by omega⟩
    cases hx
    have hne : y ≠ h := fun e => hh (e ▸ List.mem_cons_self ..)
    rw [follow, if_neg hne, List.find?_cons]
    cases hp : p y with
    | true => rfl
    | false =>
      obtain ⟨z, c, hc⟩ := exists_cons_concat l h
      rw [List.cons_append, hc] at hl
      obtain ⟨h1, h2, h3⟩ := hl
      rw [if_neg Bool.false_ne_true]
      refine ih (hc ▸ h3) (fun hm => hh (List.mem_cons_of_mem _ hm)) ?_ ?_
      · rw [List.length_cons] at hn
        omega
      · rw [hc, List.head?_cons, h1]

lemma DRing.follow {p : α → Bool} {n : Nat} (hr : DRing next prev h l) (hn : l.length < n) :
    follow next h p n (next h) = l.find? p := by
  obtain ⟨z, c, hc⟩ := exists_cons_concat l h
  have hl := hr.linked
  rw [List.cons_append, hc] at hl
  refine follow_linked (hc ▸ hl.2.2) (List.nodup_cons.1 hr.nodup).1 hn ?_
  rw [hc, List.head?_cons, hl.1]

end Xv6n.Lib
