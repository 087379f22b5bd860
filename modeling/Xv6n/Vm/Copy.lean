import Mathlib.Data.List.TakeWhile
import Xv6n.Vm.Table
import Xv6n.Vm.Exec

/-!
# Copying to and from user memory

`copyout` writes to pages that the user can reach and to no others, and `copyin` and `copyinstr` only
read.
-/

namespace Xv6n
open Lib KernM

/-- Only memory has changed, and there only the pages with `A`. -/
structure Wrote (A : Nat → Prop) (s s' : Kernel) : Prop where
  eq : s' = { s with mem := s'.mem }
  same : ∀ p, p % PGSIZE = 0 → ¬ A p → Same s.mem s'.mem p

/-- The user page at `va` (what C `walkaddr` looks up). -/
def userPage (mem : Nat → UInt8) (r va : Nat) : Option Nat :=
  if va < MAXVA ∧ pteAt mem r (va / PGSIZE) &&& PTE_V ≠ 0 ∧ pteAt mem r (va / PGSIZE) &&& PTE_U ≠ 0 ∧
      pte2pa (pteAt mem r (va / PGSIZE)) ≠ 0 then
    some (pte2pa (pteAt mem r (va / PGSIZE)))
  else
    none

/-- The page at `p` is a user page of the table with root `r`. -/
def UserOf (own : Nat → Owner) (r p : Nat) : Prop := ∃ v, own p = .slot r (leafPath v)

section
variable {A B : Nat → Prop} {s s' s1 s2 : Kernel} {mem' : Nat → UInt8} {r va n : Nat}

lemma Wrote.refl : Wrote A s s := ⟨rfl, fun _ _ _ => .refl⟩

lemma Wrote.trans (h1 : Wrote A s s1) (h2 : Wrote A s1 s2) : Wrote A s s2 := by
  refine ⟨?_, fun p hp ha => (h1.same p hp ha).trans (h2.same p hp ha)⟩
  rw [h2.eq, h1.eq]

lemma Wrote.tables (h : Wrote A s s') : Tables s s' := by
  rw [h.eq]
  exact Tables.refl.mem

lemma wrote_putLe {q o k w : Nat} (hq : q % PGSIZE = 0) (hk : o + k ≤ PGSIZE) (ha : A q) :
    Wrote A s { s with mem := putLe s.mem (q + o) k w } := by
  refine ⟨rfl, fun p hp hna a h1 h2 => ?_⟩
  have hne : p ≠ q := by
    rintro rfl
    exact hna ha
  have := page_disjoint hp hq hne
  exact putLe_of_out (by omega)

lemma wrote_putBytes {q o : Nat} {l : List UInt8} (hq : q % PGSIZE = 0)
    (hl : o + l.length ≤ PGSIZE) (ha : A q) :
    Wrote A s { s with mem := Lib.putBytes s.mem (q + o) l } := by
  refine ⟨rfl, fun p hp hna => same_putBytes hq hp ?_ hl⟩
  rintro rfl
  exact hna ha

lemma wrote_copy {q b : Nat} (hq : q % PGSIZE = 0) (hn : n ≤ PGSIZE) (ha : A q) :
    Wrote A s { s with mem := copy s.mem q b n } := by
  refine ⟨rfl, fun p hp hna a h1 h2 => ?_⟩
  have hne : p ≠ q := by
    rintro rfl
    exact hna ha
  have := page_disjoint hp hq hne
  exact copy_of_out (by omega)

@[simp] lemma wp_getBytes {E} {Q : List UInt8 → Kernel → Prop} :
    wp (getBytes va n) Q E s ↔ Q ((List.range n).map fun i => s.mem (va + i)) s := by
  unfold getBytes
  rw [wp_bind, wp_get, wp_pure]

@[simp] lemma wp_walkaddr {E} {Q : Option Nat → Kernel → Prop} :
    wp (walkaddr r va) Q E s ↔ Q (userPage s.mem r va) s := by
  unfold walkaddr userPage
  by_cases hva : MAXVA ≤ va
  · rw [if_pos hva, wp_pure, if_neg (by omega)]
  · have hlt : va < MAXVA := by omega
    rw [if_neg hva, wp_bind, wp_walk_false hlt]
    unfold pteAt
    cases pageAt s.mem r (lowPath (va / PGSIZE)) with
    | none =>
      dsimp only
      rw [Option.map_none, wp_pure, Nat.zero_and, if_neg]
      exact fun e => e.2.1 rfl
    | some t =>
      have hle : le s.mem (t + 8 * (va / PGSIZE % 512)) 8 = ent s.mem t (va / PGSIZE % 512) := rfl
      rw [Option.map_some]
      dsimp only
      rw [wp_bind, wp_load64, hle]
      by_cases hv : ent s.mem t (va / PGSIZE % 512) &&& PTE_V = 0
      · rw [if_pos hv, wp_pure, if_neg]
        exact fun e => e.2.1 hv
      · rw [if_neg hv]
        by_cases hu : ent s.mem t (va / PGSIZE % 512) &&& PTE_U = 0
        · rw [if_pos hu, wp_pure, if_neg]
          exact fun e => e.2.2.1 hu
        · rw [if_neg hu, wp_pure]
          by_cases h0 : pte2pa (ent s.mem t (va / PGSIZE % 512)) = 0
          · rw [if_pos h0, if_neg fun e => e.2.2.2 h0]
          · rw [if_neg h0, if_pos ⟨hlt, hv, hu, h0⟩]

lemma copyin_spec {len : Nat} : wp (copyin r va len) (fun _ s' => s' = s) Never s := by
  have loop : ∀ fuel va len, wp (copyinLoop r fuel va len) (fun _ s' => s' = s) Never s := by
    intro fuel
    induction fuel with
    | zero =>
      intro va len
      rw [copyinLoop, wp_pure]
    | succ fuel ih =>
      intro va len
      rw [copyinLoop, wp_ite]
      refine ⟨fun _ => by rw [wp_pure], fun _ => ?_⟩
      rw [wp_bind, wp_walkaddr]
      cases userPage s.mem r (pgRoundDown va) with
      | none =>
        dsimp only
        rw [wp_pure]
      | some pa0 =>
        dsimp only
        rw [wp_bind, wp_getBytes, wp_bind]
        apply wp_mono (ih _ _)
        rintro ⟨rest, ok⟩ _ rfl
        rw [wp_pure]
  exact loop len va len

lemma copyinstr_spec {max : Nat} :
    wp (copyinstr r va max) (fun a s' => s' = s ∧ a.1.length ≤ max) Never s := by
  have loop : ∀ fuel va max, wp (copyinstrLoop r fuel va max)
      (fun a s' => s' = s ∧ a.1.length ≤ max) Never s := by
    intro fuel
    induction fuel with
    | zero =>
      intro va max
      rw [copyinstrLoop, wp_pure]
      exact ⟨rfl, Nat.zero_le _⟩
    | succ fuel ih =>
      intro va max
      rw [copyinstrLoop, wp_ite]
      refine ⟨fun _ => by rw [wp_pure]; exact ⟨rfl, Nat.zero_le _⟩, fun _ => ?_⟩
      rw [wp_bind, wp_walkaddr]
      cases userPage s.mem r (pgRoundDown va) with
      | none =>
        dsimp only
        rw [wp_pure]
        exact ⟨rfl, Nat.zero_le _⟩
      | some pa0 =>
        dsimp only
        rw [wp_bind, wp_getBytes]
        generalize hl : (List.range (min (PGSIZE - (va - pgRoundDown va)) max)).map
          (fun i => s.mem (pa0 + (va - pgRoundDown va) + i)) = l
        have hlen : l.length = min (PGSIZE - (va - pgRoundDown va)) max := by
          rw [← hl, List.length_map, List.length_range]
        rw [wp_ite]
        refine ⟨fun h0 => ?_, fun _ => ?_⟩
        · rw [wp_pure]
          refine ⟨rfl, ?_⟩
          -- the null is one of the bytes read
          have hlt : (l.takeWhile (· ≠ 0)).length < l.length := by
            refine Nat.lt_of_le_of_ne (List.takeWhile_prefix _).length_le fun e => ?_
            have e' := (List.takeWhile_prefix (p := fun b : UInt8 => decide (b ≠ 0)) (l := l)).eq_of_length e
            rw [List.takeWhile_eq_self_iff] at e'
            simpa using e' 0 h0
          rw [List.length_append, List.length_singleton]
          omega
        · rw [wp_bind]
          apply wp_mono (ih _ _)
          rintro ⟨rest, ok⟩ _ ⟨rfl, hrest⟩
          rw [wp_pure]
          refine ⟨rfl, ?_⟩
          dsimp only at hrest ⊢
          rw [List.length_append]
          omega
  exact loop max va max

end

variable [Layout] {s s' : Kernel} {own : Nat → Owner} {live : Nat → List Nat → Prop} {A : Nat → Prop}
  {r va : Nat} {src : List UInt8}

lemma Wrote.heap (w : Wrote A s s') (h : Heap s own live) (hA : ∀ p, A p → ¬ (own p).Links) :
    Heap s' own live := by
  rw [w.eq]
  exact h.write fun p hp hl => w.same p hp fun ha => hA p ha hl

lemma Wrote.pteAt (w : Wrote A s s') (h : Heap s own live) (hA : ∀ p, A p → ¬ (own p).Links)
    (hr : ∀ path, live r path) {v : Nat} : pteAt s'.mem r v = pteAt s.mem r v := by
  refine h.pteAt_same (w.heap h hA) hr hr (fun _ _ => Iff.rfl) fun p path hp hlen => ?_
  refine w.same p (h.slot_mod hp) fun ha => hA p ha ?_
  rw [hp]
  exact Nat.le_of_eq hlen

lemma Wrote.image (w : Wrote A s s') (h : Heap s own live) (hr : ∀ path, live r path)
    (hA : ∀ p, A p → ¬ (own p).Links ∧ ∀ path, own p ≠ .slot r path) : image s'.mem r = image s.mem r := by
  funext v
  refine h.image_congr hr (fun _ => w.pteAt h (fun p hp => (hA p hp).1) hr) fun p hp => ?_
  exact w.same p (h.slot_mod hp) fun ha => (hA p ha).2 _ hp

omit [Layout] in
lemma UserOf.not_links {p} (h : UserOf own r p) : ¬ (own p).Links := by
  obtain ⟨v, hv⟩ := h
  rw [hv]
  intro hl
  have hl : (leafPath v).length ≤ 2 := hl
  rw [leafPath_length] at hl
  omega

section
variable (h : Heap s own live) (hr : ∀ path, live r path)
include h hr

lemma Heap.pte2pa_ne_zero {v : Nat} (hv : v < NLEAF)
    (htop : ¬ Top v) (hw : Xv6n.pteAt s.mem r v &&& PTE_V ≠ 0) : pte2pa (Xv6n.pteAt s.mem r v) ≠ 0 := by
  have ho := (h.leaf_iff (hr _) hv htop).2 ⟨hw, rfl⟩
  exact ((h.managed _).1 (by rw [ho]; nofun)).ne_zero

lemma Heap.userPage_own (htop : ∀ v, Top v → pteAt s.mem r v &&& PTE_U = 0) {pa} (hpa : userPage s.mem r va = some pa) :
    UserOf own r pa ∧ pa % PGSIZE = 0 := by
  unfold userPage at hpa
  split at hpa
  · rename_i hc
    cases hpa
    have hlt : va / PGSIZE < NLEAF := by
      have := hc.1
      simp only [MAXVA, PGSIZE, NLEAF] at *
      omega
    refine ⟨⟨va / PGSIZE, (h.leaf_iff (hr _) hlt fun ht => hc.2.2.1 (htop _ ht)).2 ⟨hc.2.1, rfl⟩⟩, ?_⟩
    rw [pte2pa_eq]
    exact Nat.mul_mod_left ..
  · cases hpa

lemma copyout_spec (htop : ∀ v, Top v → Xv6n.pteAt s.mem r v &&& PTE_U = 0) (hva : va < 2 ^ 64) :
    wp (copyout r va src) (fun _ s' => Wrote (UserOf own r) s s') Never s := by
  have loop : ∀ fuel va src s, Heap s own live → (∀ v, Top v → Xv6n.pteAt s.mem r v &&& PTE_U = 0) →
      va < 2 ^ 64 → wp (copyoutLoop r fuel va src) (fun _ s' => Wrote (UserOf own r) s s') Never s := by
    intro fuel
    induction fuel with
    | zero =>
      intro va src s _ _ _
      rw [copyoutLoop, wp_pure]
      exact .refl
    | succ fuel ih =>
      intro va src s h htop hva
      rw [copyoutLoop, wp_ite]
      refine ⟨fun _ => by rw [wp_pure]; exact .refl, fun _ => ?_⟩
      rw [wp_bind, wp_walkaddr]
      cases hpa : userPage s.mem r (pgRoundDown va) with
      | none =>
        dsimp only
        rw [wp_pure]
        exact .refl
      | some pa0 =>
        obtain ⟨hu, hmod⟩ := h.userPage_own hr htop hpa
        dsimp only
        rw [wp_bind, wp_putBytes]
        have hoff := sub_pgRoundDown_lt hva
        have w1 := wrote_putBytes (s := s) (o := va - pgRoundDown va)
          (l := src.take (min (PGSIZE - (va - pgRoundDown va)) src.length)) hmod
          (by rw [List.length_take]; omega) hu
        have hA : ∀ p, UserOf own r p → ¬ (own p).Links := fun p => UserOf.not_links
        apply wp_mono (ih _ _ _ (w1.heap h hA) ?_ (Nat.mod_lt _ (by decide)))
        · rintro _ s2 w2
          exact w1.trans w2
        · intro v hv
          rw [w1.pteAt h hA hr]
          exact htop v hv
  exact loop _ _ _ s h htop hva

end

end Xv6n
