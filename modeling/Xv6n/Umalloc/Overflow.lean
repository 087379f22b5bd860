import Xv6n.Umalloc.Run
import Mathlib.Algebra.BigOperators.Ring.Finset
import Mathlib.Order.Interval.Finset.Nat

/-!
# A heap of 64 GiB

The size of a block is a 32-bit number of units of 16 bytes. When the program allocates 33 blocks of almost 2 GiB and
frees all of them, their memory is one block of more than 2 ^ 32 units, and its size is recorded wrong: the free list
has lost most of the memory.
-/

namespace Xv6n.Umalloc

open Lib

variable {im : Image} {N L R : List Block} {b c p : Block} {brk k : Nat} {s : State}

section Units

def units (G : List Block) : Nat := (G.map Block.units).sum

lemma units_cons (b : Block) (G : List Block) : units (b :: G) = b.units + units G := rfl

lemma units_append (G H : List Block) : units (G ++ H) = units G + units H := by
  rw [units, List.map_append, List.sum_append]
  rfl

lemma sum_countP (G : List Block) {M : Nat} (hM : ∀ b ∈ G, b.stop ≤ M) :
    ∑ x ∈ Finset.range M, G.countP (covers x) = HEADER * units G := by
  induction G with
  | nil => simp [units]
  | cons b G ih =>
    have hb : (Finset.range M).filter (fun x => covers x b = true) = Finset.Ico b.addr b.stop := by
      have := hM b List.mem_cons_self
      ext x
      simp only [Finset.mem_filter, Finset.mem_range, Finset.mem_Ico, covers_iff]
      omega
    simp only [List.countP_cons, Finset.sum_add_distrib]
    rw [ih fun c hc => hM c (List.mem_cons_of_mem _ hc), ← Finset.card_filter, hb, Nat.card_Ico, units_cons,
      Block.stop, Nat.add_sub_cancel_left, Nat.mul_add, Nat.add_comm]

lemma Tiles.units_eq (h : Tiles im N L R brk) : units N + units L = units R := by
  have hstop : ∀ b ∈ N ++ L, b.stop ≤ brk := by
    intro b hb
    rcases List.mem_append.1 hb with hb' | hb'
    · rcases h.free b hb' with rfl | hpos
      · exact Nat.le_of_add_right_le h.base_le
      · exact h.stop_le hb hpos
    · exact h.stop_le hb (h.used b hb')
  have h1 := sum_countP (N ++ L) hstop
  have h2 := sum_countP R h.below
  simp only [h.tile] at h1
  have : HEADER * units (N ++ L) = HEADER * units R := h1.symm.trans h2
  rw [← units_append]
  exact Nat.eq_of_mul_eq_mul_left (by decide) this

lemma le_units {G : List Block} (hb : b ∈ G) (hc : c ∈ G) (hne : c ≠ b) : b.units + c.units ≤ units G := by
  have h1 := ((List.perm_cons_erase hb).map Block.units).sum_eq
  have h2 := ((List.perm_cons_erase ((List.mem_erase_of_ne hne).2 hc)).map Block.units).sum_eq
  rw [List.map_cons, List.sum_cons] at h1 h2
  rw [units, h1, h2]
  omega

lemma le_units_one {G : List Block} (hb : b ∈ G) : b.units ≤ units G := by
  have h1 := ((List.perm_cons_erase hb).map Block.units).sum_eq
  rw [List.map_cons, List.sum_cons] at h1
  rw [units, h1]
  omega

lemma Tiles.eq_base (h : Tiles im N L R brk) (h0 : units N = 0) : N = [⟨im.base, 0⟩] := by
  have hhead := h.head
  have hsorted := h.sorted_pairwise
  have hfree := h.free
  cases N with
  | nil => cases hhead
  | cons b N =>
    obtain rfl := Option.some.inj hhead
    cases N with
    | nil => rfl
    | cons c N =>
      exfalso
      have hlt := (List.pairwise_cons.1 hsorted).1 c List.mem_cons_self
      have hle := le_units_one (b := c) (G := ⟨im.base, 0⟩ :: c :: N) (by simp)
      rcases hfree c (by simp) with rfl | hc
      · exact absurd hlt (Nat.lt_irrefl _)
      · have := hc.units_pos
        omega

end Units

section Run

def sampleImage : Image := ⟨16, 4096, by decide, by decide, by decide⟩

def plenty : Env := fun _ => some 0

/-- Bytes of one block; `sbrk` can still be asked for them with a positive `int`. -/
def large : Nat := 2 ^ 31 - 32

def largeUnits : Nat := 2 ^ 27 - 1

lemma nunits_large : nunits large = largeUnits := by decide

lemma coreUnits_large : coreUnits largeUnits = largeUnits := by decide

lemma sbrk_plenty (hlt : s.brk + k < 2 ^ 64) : (sbrk plenty k s).1 = some s.brk := by
  simp only [sbrk, plenty, Nat.add_zero, if_pos hlt]

lemma small_first : Small plenty (init sampleImage fun _ => 0) (.malloc 1) := by
  intro _ hp hs
  obtain rfl : 4096 = hp := Option.some.inj ((sbrk_plenty (by decide)).symm.trans hs)
  have hzero : ∀ b, OnList (init sampleImage fun _ => 0) b → b.addr = 0 ∧ b.units = 0 := by
    rintro b ⟨⟨k, hk⟩, hz⟩
    have h0 : ptr (fun _ => 0) 0 = 0 := le_zero fun _ _ _ => rfl
    have hb : 0 = b.addr := (Function.iterate_fixed h0 k).symm.trans hk
    exact ⟨hb.symm, hz.symm.trans (le_zero fun _ _ _ => rfl)⟩
  rintro u v (rfl | ⟨p, hp, e, -⟩) (rfl | ⟨c, hc, e', -⟩)
  · decide
  · rw [(hzero c hc).1] at e'
    exact absurd e' (by decide)
  all_goals
    rw [Block.stop, (hzero p hp).1, (hzero p hp).2] at e
    exact absurd e (by decide)

/-- The first call. -/
theorem umalloc_safe_first : ∃ r s', Step sampleImage plenty (init sampleImage fun _ => 0) (.malloc 1) r s' ∧
    Mallocs sampleImage plenty (init sampleImage fun _ => 0) 1 r s' := by
  obtain ⟨-, -, h⟩ := umalloc_safe sampleImage plenty (fun _ => 0) .refl
  obtain ⟨⟨r, s', hs⟩, hall⟩ := h (.malloc 1) (by decide : 1 < 2 ^ 32) small_first
  exact ⟨r, s', hs, (hall r s' hs).1⟩

abbrev Any (s : State) : Prop := Run sampleImage plenty (fun _ _ => True) (init sampleImage fun _ => 0) s

/-- `k` pieces of memory came from `sbrk`, and they are contiguous. -/
structure Grown (k : Nat) (s : State) : Prop where
  run : Any s
  units : units s.regions = k * largeUnits
  brk : s.brk = 4096 + HEADER * (k * largeUnits)
  whole : ∀ x, 4096 ≤ x → x < s.brk → ∃ r ∈ s.regions, covers x r = true
  above : ∀ r ∈ s.regions, 4096 ≤ r.addr
  bytes : ∀ u ∈ s.live, u.2 = large

structure Filled (k : Nat) (s : State) : Prop extends Grown k s where
  heap : Heap sampleImage (prepare sampleImage s).mem (prepare sampleImage s).freep [⟨16, 0⟩]
    (prepare sampleImage s).used (prepare sampleImage s).regions (prepare sampleImage s).brk
  freep : k ≠ 0 → s.freep ≠ 0
  length : s.live.length = k

lemma Filled.malloc (h : Filled k s) (hk : k ≤ 32) : ∃ s', Filled (k + 1) s' := by
  obtain ⟨hlive, hreg, hbrk, -⟩ := prepare_fields sampleImage s
  have hheap := h.heap
  have hs : (sbrk plenty (coreUnits largeUnits * HEADER) (prepare sampleImage s)).1 = some s.brk := by
    rw [← hbrk, coreUnits_large]
    refine sbrk_plenty ?_
    rw [hbrk, h.brk]
    simp only [largeUnits, HEADER]
    omega
  obtain ⟨r, s', F, hloop, hlive', hcases⟩ := hheap.mallocLoop (n := largeUnits) plenty (by decide) (by decide)
    fun _ hp hs => fits_first hheap.base_le (sbrk_some hs).2.1 (by decide)
  rcases hcases with ⟨-, -, hno, -⟩ | ⟨hcases, a, N', rfl, hheap'⟩
  · rw [hs] at hno
    cases hno
  rcases hcases with ⟨-, -, c, hc, hle⟩ | ⟨hp, hs', hreg', hbrk'⟩
  · rw [List.mem_singleton.1 hc] at hle
    exact absurd hle (by decide)
  obtain rfl : s.brk = hp := Option.some.inj (hs.symm.trans hs')
  rw [coreUnits_large, hreg] at hreg'
  rw [coreUnits_large] at hbrk'
  have hmalloc := malloc_eq (nunits_large.symm ▸ hloop F (Nat.le_refl F))
  have hne : a + HEADER ≠ 0 := Nat.succ_ne_zero _
  rw [if_neg hne] at hmalloc
  have hN : N' = [⟨16, 0⟩] := by
    refine hheap'.eq_base ?_
    have h1 := hheap'.units_eq
    have h2 := hheap.units_eq
    rw [hreg', units_cons, units_cons] at h1
    rw [hreg, show units [⟨16, 0⟩] = 0 from rfl] at h2
    simp only at h1
    omega
  subst hN
  have hlarge : Allowed s (.malloc large) := (by decide : large < 2 ^ 32)
  refine ⟨_, ⟨⟨.step h.run hlarge trivial (.malloc hmalloc), ?_, ?_, fun x hx hlt => ?_, ?_, ?_⟩, ?_, fun _ => hheap'.freep_ne, ?_⟩⟩
  · simp only [hreg', units_cons, h.units]
    ring
  · simp only [hbrk', h.brk]
    ring
  · simp only [hreg', hbrk'] at hlt ⊢
    by_cases hold : x < s.brk
    · obtain ⟨r, hr, hc⟩ := h.whole x hx hold
      exact ⟨r, List.mem_cons_of_mem _ hr, hc⟩
    · exact ⟨_, List.mem_cons_self, covers_iff.2 ⟨Nat.le_of_not_lt hold, hlt⟩⟩
  · simp only [hreg']
    refine List.forall_mem_cons.2 ⟨?_, h.above⟩
    rw [h.brk]
    exact Nat.le_add_right ..
  · simp only [hlive', hlive]
    exact List.forall_mem_cons.2 ⟨rfl, h.bytes⟩
  · rw [prepare, if_neg hheap'.freep_ne]
    have hu : State.used { s' with live := (a + HEADER, large) :: s'.live } =
        ⟨a, largeUnits⟩ :: (prepare sampleImage s).used := by
      simp only [State.used, List.map_cons, hlive', blockOf, Nat.add_sub_cancel, nunits_large]
    rw [hu]
    exact hheap'
  · simp only [hlive', hlive, List.length_cons, h.length]

lemma exists_filled (hk : k ≤ 33) : ∃ s, Filled k s := by
  induction k with
  | zero =>
    refine ⟨init sampleImage fun _ => 0, ⟨.refl, rfl, rfl, ?_, nofun, nofun⟩, ?_, fun h => absurd rfl h, rfl⟩
    · intro x h1 h2
      exact absurd (h1.trans_lt h2) (by decide)
    · have hbase : sampleImage.base + HEADER ≤ 4096 := by decide
      exact heap_first hbase (by decide)
  | succ k ih =>
    obtain ⟨s, hs⟩ := ih (by omega)
    exact hs.malloc (by omega)

structure Freed (j : Nat) (s : State) : Prop extends Grown 33 s where
  heap : ∃ N, Heap sampleImage s.mem s.freep N s.used s.regions s.brk
  length : s.live.length = j

lemma fits_of_used {u v : Nat × Nat} {l : List (Nat × Nat)} (h : Tiles im N ((u :: v :: l).map blockOf) R brk)
    (hR : units R = 33 * largeUnits) (hu : ∀ w ∈ u :: v :: l, w.2 = large) : Fits N (blockOf u) := by
  have hsum := h.units_eq
  have hb : ∀ w ∈ u :: v :: l, (blockOf w).units = largeUnits := by
    intro w hw
    rw [blockOf, hu w hw, nunits_large]
  rw [List.map_cons, List.map_cons, units_cons, units_cons, hb u (by simp), hb v (by simp), hR] at hsum
  have hlarge : 32 * largeUnits < 2 ^ 32 := by decide
  rintro a c (rfl | ⟨p, hp, hpe, rfl⟩) (rfl | ⟨q, hq, hqe, rfl⟩)
  · rw [hb u (by simp)]
    omega
  · have := le_units_one hq
    rw [hb u (by simp)]
    omega
  · have := le_units_one hp
    rw [hb u (by simp)]
    omega
  · have hne : q ≠ p := by
      rintro rfl
      have h1 := q.addr_le
      have h2 := (h.used (blockOf u) (by simp)).lt_stop
      simp only [HEADER] at h2
      omega
    have := le_units hp hq hne
    rw [hb u (by simp)]
    omega

lemma Freed.step {j : Nat} (h : Freed (j + 1) s) : ∃ s', Grown 33 s' ∧ s'.live.length = j ∧
    (j = 0 ∨ ∃ N, Heap sampleImage s'.mem s'.freep N s'.used s'.regions s'.brk) := by
  obtain ⟨u, l, hl⟩ := List.exists_cons_of_length_eq_add_one h.length
  have hu : (u.1, u.2) ∈ s.live := hl ▸ List.mem_cons_self
  obtain ⟨N, pre, p, post, hheap, hp, hfree⟩ := WellFormed.free_returns (.inr h.heap) hu
  have hlen : (s.live.filter fun v => v.1 ≠ u.1).length = j := by
    have := (perm_filter hheap.live_nodup hu).length_eq
    simp only [List.length_cons, h.length] at this
    omega
  have hbytes : ∀ v ∈ s.live.filter fun v => v.1 ≠ u.1, v.2 = large :=
    fun v hv => h.bytes v (List.mem_of_mem_filter hv)
  have ha : Allowed s (.free u.1) := ⟨u.2, hu⟩
  refine ⟨_, ⟨.step h.run ha trivial (.free (hfree _ (Nat.le_refl _))), h.units, h.brk, h.whole, h.above, hbytes⟩,
    hlen, ?_⟩
  cases j with
  | zero => exact .inl rfl
  | succ j =>
    obtain ⟨v, l', hf⟩ := List.exists_cons_of_length_eq_add_one hlen
    have hsplit := hheap.split_live hu
    have hfits : Fits N (blockOf (u.1, u.2)) := by
      simp only [hf] at hsplit hbytes
      refine fits_of_used hsplit.toTiles h.units fun w hw => ?_
      rcases List.mem_cons.1 hw with rfl | hw
      · exact h.bytes _ hu
      · exact hbytes w hw
    have hjoin := hsplit.join hp hfits
    dsimp only [blockOf] at hjoin
    refine .inr ⟨insert (blockOf (u.1, u.2)) pre p post, ?_⟩
    dsimp only [State.used]
    exact hjoin

lemma exists_freed {j : Nat} (hj : j ≤ 32) : ∃ s, Freed (33 - j) s := by
  induction j with
  | zero =>
    obtain ⟨s, h⟩ := exists_filled (Nat.le_refl 33)
    have hheap := h.heap
    rw [prepare, if_neg (h.freep (by decide))] at hheap
    exact ⟨s, h.toGrown, ⟨_, hheap⟩, h.length⟩
  | succ j ih =>
    obtain ⟨s, h⟩ := ih (by omega)
    rw [show 33 - j = 33 - (j + 1) + 1 by omega] at h
    obtain ⟨s', hg, hl, h0 | hheap⟩ := h.step
    · omega
    · exact ⟨s', hg, hheap, hl⟩

/-- Two free blocks have a gap between them, so contiguous memory that is all free is one block. -/
lemma Tiles.not_two {lo : Nat} (h : Tiles im (⟨im.base, 0⟩ :: b :: c :: N) [] R brk)
    (hwhole : ∀ x, lo ≤ x → x < brk → ∃ r ∈ R, covers x r = true) (hlo : ∀ r ∈ R, lo ≤ r.addr) : False := by
  obtain ⟨hbase, hsorted⟩ := List.pairwise_cons.1 h.sorted_pairwise
  obtain ⟨hb, hsorted⟩ := List.pairwise_cons.1 hsorted
  have hpos : ∀ d ∈ b :: c :: N, Pos im d := by
    intro d hd
    rcases h.free d (List.mem_cons_of_mem _ hd) with rfl | hd'
    · exact absurd (hbase _ hd) (Nat.lt_irrefl _)
    · exact hd'
  have hbpos := (hpos b (by simp)).lt_stop
  have hcpos := (hpos c (by simp)).lt_stop
  have hbc := hb c (by simp)
  have hcstop := h.stop_le (b := c) (by simp) (hpos c (by simp))
  simp only [HEADER] at hbpos hcpos
  -- the first byte of the block is memory, so the bytes up to the next block are memory too
  have hblo : lo ≤ b.addr := by
    have : 0 < R.countP (covers b.addr) := by
      rw [← h.tile]
      exact List.countP_pos_iff.2 ⟨b, by simp, covers_iff.2 ⟨Nat.le_refl _, by omega⟩⟩
    obtain ⟨r, hr, hc⟩ := List.countP_pos_iff.1 this
    exact (hlo r hr).trans (covers_iff.1 hc).1
  obtain ⟨r, hr, hcov⟩ := hwhole b.stop (by omega) (by omega)
  have hcount : 0 < R.countP (covers b.stop) := List.countP_pos_iff.2 ⟨r, hr, hcov⟩
  rw [← h.tile] at hcount
  obtain ⟨d, hd, hcov⟩ := List.countP_pos_iff.1 hcount
  have hcov := covers_iff.1 hcov
  simp only [List.append_nil, List.mem_cons] at hd
  rcases hd with rfl | rfl | hd
  · have := hbase b (by simp)
    simp only [Block.stop] at *
    omega
  · omega
  · have := hb d (by simpa using hd)
    omega

lemma Grown.not_wellFormed (h : Grown 33 s) (hl : s.live = []) : ¬ WellFormed sampleImage s := by
  rintro (⟨-, -, hr, -⟩ | ⟨N, hheap⟩)
  · have := h.units
    rw [hr] at this
    exact absurd this (by decide)
  · rw [State.used, hl, List.map_nil] at hheap
    have hunits := hheap.units_eq
    have hhead := hheap.head
    rw [h.units] at hunits
    obtain _ | ⟨a, _ | ⟨b, _ | ⟨c, N⟩⟩⟩ := N
    · cases hhead
    · obtain rfl := Option.some.inj hhead
      exact absurd hunits (by decide)
    · obtain rfl := Option.some.inj hhead
      have hlt : b.units < 2 ^ 32 := hheap.rep.sizes b (by simp) ▸ le_lt
      have hb : b.units = 33 * largeUnits := by
        simpa [Umalloc.units] using hunits
      exact absurd (hb ▸ hlt) (by decide)
    · obtain rfl := Option.some.inj hhead
      exact hheap.toTiles.not_two h.whole h.above

/-- 33 blocks of almost 2 GiB are allocated and all of them are freed: the heap has lost its shape. -/
theorem umalloc_overflow : ∃ s, Run sampleImage plenty (fun _ _ => True) (init sampleImage fun _ => 0) s ∧
    s.live = [] ∧ ¬ WellFormed sampleImage s := by
  obtain ⟨s, h⟩ := exists_freed (Nat.le_refl 32)
  obtain ⟨s', hg, hl, -⟩ := h.step
  exact ⟨s', hg.run, List.length_eq_zero_iff.1 hl, hg.not_wellFormed (List.length_eq_zero_iff.1 hl)⟩

end Run

end Xv6n.Umalloc
