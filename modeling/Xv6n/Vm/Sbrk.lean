import Xv6n.Vm.Transfer

/-!
# What `sbrk` reports

`growproc` either changes the size of a process by exactly the number it was given, or fails and changes
nothing, with one exception: for a process that is asked to shrink below nothing, the new size wraps around,
`uvmdealloc` takes it for a larger one and does nothing, and `growproc` returns 0.
-/

namespace Xv6n
open Lib KernM Function

variable [Layout] {s s' : Kernel} {own : Nat → Owner} {extra : Fin NFILE → Nat} {i : Fin NPROC} {n : Int} {ok : Bool}

/-- `growproc` has done what it returns. -/
structure Honest (s : Kernel) (i : Fin NPROC) (n : Int) (ok : Bool) (s' : Kernel) : Prop where
  size : ok = true → ((s'.proc i).sz : Int) = (s.proc i).sz + n
  kept : ok = true → ∀ v < npages (min (s.proc i).sz (s'.proc i).sz),
    image s'.mem (s.proc i).pagetable v = image s.mem (s.proc i).pagetable v
  zero : ok = true → ∀ v, npages (s.proc i).sz ≤ v → v < npages (s'.proc i).sz →
    image s'.mem (s.proc i).pagetable v = some (.zero (PTE_R ||| PTE_U ||| PTE_W ||| PTE_V))
  undone : ok = false → s'.proc = s.proc ∧ image s'.mem (s.proc i).pagetable = image s.mem (s.proc i).pagetable

lemma Inv.sz_le {held : List Nat} (hi : Inv s own held extra) (ha : Active s i) : (s.proc i).sz ≤ 2 ^ 27 := by
  have h0 := hi.pagetable_ne ha
  obtain ⟨-, sh⟩ := (hi.proc i).shape h0
  obtain ⟨hle, -⟩ := sh.lt hi.heap (fun _ => ⟨h0, i, rfl⟩) fun _ => UserPte.leaf
  have := le_npages (s.proc i).sz
  simp only [PHYSTOP, KERNBASE, PGSIZE] at *
  omega

section
omit [Layout]

lemma toU64_of_neg {m : Int} (h0 : m < 0) (h1 : -2 ^ 64 ≤ m) : (toU64 m : Int) = m + 2 ^ 64 := by
  unfold toU64
  rw [← Int.add_emod_right, Int.emod_eq_of_lt (by omega) (by omega)]
  omega

lemma Resized.sz {sz : Nat} {I : Image} (h : Resized s i sz I s') : (s'.proc i).sz = sz := by
  rw [h.proc, update_self]

lemma Grew.honest (h : Grew s i n ok s') (hsz : (s.proc i).sz ≤ 2 ^ 27) (h1 : -2 ^ 31 ≤ n) (h2 : n < 2 ^ 31)
    (h0 : 0 ≤ (s.proc i).sz + n) : Honest s i n ok s' := by
  have hto := toU64_of_nonneg h0 (by omega)
  cases h with
  | fail hn h =>
    have hp : s'.proc = s.proc := h.proc.trans (update_eq_self i s.proc)
    exact ⟨nofun, nofun, nofun, fun _ => ⟨hp, h.space⟩⟩
  | grow hn h =>
    have hmax : max (s.proc i).sz (toU64 ((s.proc i).sz + n)) = toU64 ((s.proc i).sz + n) := by omega
    rw [hmax] at h
    have hle : (s.proc i).sz ≤ (s'.proc i).sz := by
      rw [h.sz]
      omega
    refine ⟨fun _ => by rw [h.sz]; omega, fun _ v hv => ?_, fun _ v hv1 hv2 => ?_, nofun⟩
    · rw [Nat.min_eq_left hle] at hv
      rw [h.space]
      exact if_neg (by omega)
    · rw [h.sz] at hv2
      rw [h.space]
      exact if_pos ⟨hv1, hv2⟩
  | cut hn h =>
    have hmin : min (s.proc i).sz (toU64 ((s.proc i).sz + n)) = toU64 ((s.proc i).sz + n) := by omega
    rw [hmin] at h
    have hle : (s'.proc i).sz ≤ (s.proc i).sz := by
      rw [h.sz]
      omega
    refine ⟨fun _ => by rw [h.sz]; omega, fun _ v hv => ?_, fun _ v hv1 hv2 => ?_, nofun⟩
    · rw [Nat.min_eq_right hle, h.sz] at hv
      rw [h.space]
      exact if_pos hv
    · have := npages_mono hle
      omega
  | none hn => exact ⟨fun _ => by omega, fun _ _ _ => rfl, fun _ v hv1 hv2 => by omega, nofun⟩

lemma Grew.kept (h : Grew s i n ok s') (hsz : (s.proc i).sz ≤ 2 ^ 27) (h1 : -2 ^ 31 ≤ n)
    (h0 : (s.proc i).sz + n < 0) : ok = true ∧ (s'.proc i).sz = (s.proc i).sz := by
  have hto := toU64_of_neg h0 (by omega)
  cases h with
  | fail hn h => omega
  | grow hn h => omega
  | cut hn h =>
    refine ⟨rfl, ?_⟩
    rw [h.sz]
    omega
  | none hn => omega

end

lemma growproc_grew (hi : Inv s own [] extra) (ha : Active s i) : ∃ ok s', growproc i n s = .ok ok s' ∧
    sysSbrk i n s = .ok (if ok then ((s.proc i).sz : Int) else -1) s' ∧ Grew s i n ok s' := by
  obtain ⟨ok, s', hrun, -, hg⟩ := (growproc_spec (n := n) hi ha).returns
  refine ⟨ok, s', hrun, ?_, hg⟩
  show EStateM.bind (growproc i n) _ s = _
  rw [EStateM.bind, hrun]
  rfl

/-- In every reachable state and for every argument, `growproc` has done what it returns exactly if the process
    is not asked to give back more than it has. -/
theorem growproc_honest_iff (hs : s.Reachable) (ha : Active s i) (h1 : -2 ^ 31 ≤ n) (h2 : n < 2 ^ 31) :
    ∃ ok s', growproc i n s = .ok ok s' ∧
      sysSbrk i n s = .ok (if ok then ((s.proc i).sz : Int) else -1) s' ∧
      (Honest s i n ok s' ↔ 0 ≤ (s.proc i).sz + n) := by
  obtain ⟨own, hi⟩ := hs.inv
  have hsz := hi.sz_le ha
  obtain ⟨ok, s', hrun, hsys, hg⟩ := growproc_grew hi ha
  refine ⟨ok, s', hrun, hsys, fun h => ?_, hg.honest hsz h1 h2⟩
  by_contra hneg
  obtain ⟨rfl, hkept⟩ := hg.kept hsz h1 (by omega)
  have := h.size rfl
  omega

omit [Layout] in
/-- The first process asks for one byte. -/
theorem growproc_honest_first : ∃ s : Kernel, @Kernel.Reachable sampleLayout s ∧ ∃ i, Active s i ∧
    ∃ ok s', @growproc sampleLayout i 1 s = .ok ok s' ∧ (Honest s i 1 ok s' ↔ 0 ≤ ((s.proc i).sz : Int) + 1) := by
  let _layout := sampleLayout
  obtain ⟨s, hs, j, hj⟩ := exists_started
  have ha : Active s j := .inr (.inl hj.runnable)
  obtain ⟨ok, s', hrun, -, h⟩ := growproc_honest_iff (n := 1) hs ha (by decide) (by decide)
  exact ⟨s, hs, j, ha, ok, s', hrun, h⟩

omit [Layout] in
/-- The first process gives back more than it has: `sbrk` returns its size, and it keeps all of its memory. -/
theorem growproc_not_honest : ∃ s : Kernel, @Kernel.Reachable sampleLayout s ∧ ∃ i, Active s i ∧
    ∃ s', @growproc sampleLayout i (-2 ^ 31) s = .ok true s' ∧
      @sysSbrk sampleLayout i (-2 ^ 31) s = .ok ((s.proc i).sz : Int) s' ∧
      ¬ ((s'.proc i).sz : Int) = (s.proc i).sz + (-2 ^ 31) := by
  let _layout := sampleLayout
  obtain ⟨s, hs, j, hj⟩ := exists_started
  have ha : Active s j := .inr (.inl hj.runnable)
  obtain ⟨own, hi⟩ := hs.inv
  have hsz := hi.sz_le ha
  obtain ⟨ok, s', hrun, hsys, hg⟩ := growproc_grew (n := -2 ^ 31) hi ha
  obtain ⟨rfl, hkept⟩ := hg.kept hsz (by decide) (by omega)
  refine ⟨s, hs, j, ha, s', hrun, hsys, ?_⟩
  rw [hkept]
  omega

end Xv6n
