import Xv6n.Kalloc.Lists

/-!
# `kinit`

`per_hart_alloc_init` links the pages of each hart by hand and `freerange` frees the others through `kfree`.
Both go up through memory page by page: when they are at the address `b`, the pages below `b` are on their
lists and the others have not been touched.
-/

namespace Xv6n.Kalloc
open Lib Prog Function

variable {ι : Type} [End] {t : ι} {s : State ι} {b r : Nat} {k : ListId}

/-- The pages below `b` are on their lists. -/
structure Carved (b : Nat) (s : State ι) : Prop where
  lists : ∃ l, Lists s l
  done : ∀ p, s.use p ≠ .kernel ↔ IsPage p ∧ p < b
  free : ∀ p, s.use p ≠ .kernel → s.use p = .free

lemma Carved.lock {x : ListId → Option ι} (h : Carved b s) : Carved b { s with lock := x } := by
  obtain ⟨⟨l, hl⟩, h2, h3⟩ := h
  exact ⟨⟨l, hl.chain, hl.nodup, hl.mem, hl.page⟩, h2, h3⟩

lemma Carved.link (h : Carved b s) (hp : IsPage b) (hk : Home b k) :
    Carved (b + PGSIZE) { State.setHead { s with mem := putLe s.mem b 8 (s.head k) } k b with
      use := update s.use b .free } := by
  obtain ⟨⟨l, hl⟩, h2, h3⟩ := h
  have hkern : s.use b = .kernel := not_not.1 fun e => Nat.lt_irrefl _ ((h2 b).1 e).2
  have hfree : s.use b ≠ .free := by rw [hkern]; nofun
  have hl' := hl.write (m := putLe s.mem b 8 (s.head k)) hfree hp (fun a ha => putLe_of_out (.inl ha))
    fun p hm hne => same_putLe (i := 0) hp.1 (by decide) hm hne
  have hlt : s.head k < 256 ^ 8 := by
    by_cases e : s.head k = 0
    · rw [e]
      decide
    · exact (hl.head_page e).lt
  have hnext : State.next { s with mem := putLe s.mem b 8 (s.head k) } b =
      State.head { s with mem := putLe s.mem b 8 (s.head k) } k := by
    rw [head_same hp.2.1 fun a ha => putLe_of_out (.inl ha)]
    exact le_putLe.trans (Nat.mod_eq_of_lt hlt)
  refine ⟨⟨_, hl'.link hp hfree hk hnext⟩, fun p => ?_, fun p hp' => ?_⟩
  · show update s.use b .free p ≠ .kernel ↔ _
    by_cases e : p = b
    · subst e
      rw [update_self]
      exact ⟨fun _ => ⟨hp, by simp⟩, fun _ => nofun⟩
    · rw [update_of_ne e, h2]
      refine and_congr_right fun hp' => ?_
      have := page_disjoint hp'.1 hp.1 e
      omega
  · refine (forall_update_iff s.use fun p v => v ≠ .kernel → v = .free).2 ⟨fun _ => rfl, fun p _ => h3 p⟩ p hp'

lemma pageLoop_spec {i : Fin NCPU} {n : Nat} (h : Carved b s) (hb : b % PGSIZE = 0)
    (hlo : heapStart + i * PER_HART_ALLOC_SIZE ≤ b)
    (hhi : b + n * PGSIZE ≤ heapStart + (i + 1) * PER_HART_ALLOC_SIZE) :
    wp ((pageLoop (some i) n b).run (act t))
      (fun b' s' => b' = b + n * PGSIZE ∧ Carved b' s' ∧ s'.lock = s.lock) (fun _ _ => False) s := by
  induction n generalizing b s with
  | zero =>
    exact wp_pure.2 ⟨by omega, h, rfl⟩
  | succ n ih =>
    have hfits := heapStart_fits
    have hi := i.isLt
    have hp : IsPage b := by
      refine ⟨hb, by omega, ?_⟩
      simp only [PER_HART_ALLOC_SIZE, NCPU, PGSIZE] at *
      omega
    have hk : Home b (some i) := ⟨hlo, by simp only [PGSIZE] at hhi; omega⟩
    have hb' : (b + PGSIZE) % PGSIZE = 0 := by rw [Nat.add_mod_right, hb]
    have hhi' : b + PGSIZE + n * PGSIZE ≤ heapStart + (i + 1) * PER_HART_ALLOC_SIZE := by
      rw [Nat.succ_mul] at hhi
      omega
    unfold pageLoop
    rw [wp_run_bind, run_perform]
    refine wp_bind.2 (wp_get.2 (wp_pure.2 ?_))
    rw [wp_run_bind, run_perform]
    refine wp_modify.2 ?_
    rw [wp_run_bind, run_perform]
    refine wp_modify.2 ?_
    apply wp_mono (ih (h.link hp hk) hb' (Nat.le_add_right_of_le hlo) hhi')
    rintro b' s' ⟨rfl, h1, h2⟩
    exact ⟨by rw [Nat.succ_mul]; omega, h1, h2.trans setHead_lock⟩

lemma hartLoop_spec {n : Nat} {l : List (Fin NCPU)} (hl : l.map Fin.val = List.range' n l.length)
    (hn : n + l.length = NCPU) (h : Carved (heapStart + n * PER_HART_ALLOC_SIZE) s) :
    wp ((hartLoop l (heapStart + n * PER_HART_ALLOC_SIZE)).run (act t))
      (fun b' s' => b' = heapStart + NCPU * PER_HART_ALLOC_SIZE ∧ Carved b' s' ∧ s'.lock = s.lock)
      (fun _ _ => False) s := by
  induction l generalizing n s with
  | nil =>
    have e : n = NCPU := hn
    exact wp_pure.2 ⟨by rw [e], h, rfl⟩
  | cons i l ih =>
    obtain ⟨hi, hl'⟩ := List.cons.inj hl
    have hlen : n + 1 + l.length = NCPU := by
      rw [List.length_cons] at hn
      omega
    have hfits := heapStart_fits
    have hmod : (heapStart + n * PER_HART_ALLOC_SIZE) % PGSIZE = 0 := by
      have := heapStart_mod
      simp only [PER_HART_ALLOC_SIZE, PGSIZE] at *
      omega
    have hnext : heapStart + n * PER_HART_ALLOC_SIZE + PER_HART_ALLOC_SIZE / PGSIZE * PGSIZE =
        heapStart + (n + 1) * PER_HART_ALLOC_SIZE := by
      simp only [PER_HART_ALLOC_SIZE, PGSIZE]
      omega
    have hok : ¬ PHYSTOP < heapStart + (n + 1) * PER_HART_ALLOC_SIZE := by
      simp only [PER_HART_ALLOC_SIZE, NCPU] at *
      omega
    unfold hartLoop
    rw [wp_run_bind]
    apply wp_mono (pageLoop_spec h hmod (by rw [hi]) (by rw [hi, hnext]))
    rintro _ s' ⟨rfl, h1, h2⟩
    rw [hnext] at h1 ⊢
    rw [if_neg hok]
    apply wp_mono (ih hl' hlen h1)
    rintro b' s'' ⟨e, h3, h4⟩
    exact ⟨e, h3, h4.trans h2⟩

lemma initLoop_spec {l : List (Fin NCPU)} :
    wp ((initLoop l).run (act t)) (fun _ s' => (∀ i, i ∈ l ∨ s.head (some i) = 0 → s'.head (some i) = 0) ∧
      (∀ i, i ∈ l ∨ s.lock (some i) = none → s'.lock (some i) = none) ∧ s'.kmem = s.kmem ∧ s'.use = s.use)
      (fun _ _ => False) s := by
  induction l generalizing s with
  | nil =>
    refine wp_pure.2 ⟨fun i h => ?_, fun i h => ?_, rfl, rfl⟩
    · exact h.resolve_left List.not_mem_nil
    · exact h.resolve_left List.not_mem_nil
  | cons j l ih =>
    unfold initLoop
    rw [wp_run_bind, run_perform]
    refine wp_modify.2 ?_
    rw [wp_run_bind, run_perform]
    refine wp_modify.2 ?_
    apply wp_mono ih
    rintro _ s' ⟨h1, h2, h3, h4⟩
    refine ⟨fun i h => h1 i ?_, fun i h => h2 i ?_, h3, h4⟩
    · by_cases e : i = j
      · subst e
        exact .inr (head_setHead (by decide))
      · refine h.imp (fun h => (List.mem_cons.1 h).resolve_left e) fun h => ?_
        rw [head_setHead_of_ne fun e' => e (Option.some.inj e')]
        exact h
    · by_cases e : i = j
      · subst e
        exact .inr (update_self ..)
      · refine h.imp (fun h => (List.mem_cons.1 h).resolve_left e) fun h => ?_
        exact (update_of_ne (fun e' => e (Option.some.inj e')) ..).trans h

lemma push_boot (h : Carved b s) (hl : ∀ k, s.lock k = none) (hp : IsPage b) (hk : Home b k) :
    wp ((push k b).run (act t)) (fun _ s' => Carved (b + PGSIZE) s' ∧ ∀ k, s'.lock k = none)
      (fun _ _ => False) s := by
  unfold push
  rw [wp_run_bind, run_perform]
  refine wp_bind.2 (wp_get.2 ?_)
  rw [if_neg (not_not.2 (hl k))]
  refine wp_set.2 ?_
  rw [wp_run_bind, run_perform]
  refine wp_bind.2 (wp_get.2 (wp_pure.2 ?_))
  rw [wp_run_bind, run_perform]
  refine wp_modify.2 ?_
  rw [wp_run_bind, run_perform]
  refine wp_modify.2 ?_
  rw [run_perform]
  refine wp_modify.2 ⟨((h.lock (x := update s.lock k (some t))).link hp hk).lock, ?_⟩
  show ∀ j, update (State.lock (State.setHead _ k b)) k none j = none
  rw [setHead_lock]
  refine (forall_update_iff _ fun _ v => v = none).2 ⟨rfl, fun j hj => ?_⟩
  exact (update_of_ne hj ..).trans (hl j)

lemma kfree_boot (h : Carved b s) (hl : ∀ k, s.lock k = none) (hp : IsPage b) :
    wp ((kfree b).run (act t)) (fun _ s' => Carved (b + PGSIZE) s' ∧ ∀ k, s'.lock k = none)
      (fun _ _ => False) s := by
  have h0 : Carved b { s with mem := fill s.mem b PGSIZE 1 } := by
    obtain ⟨⟨l, hl⟩, h2, h3⟩ := h
    have hkern : s.use b ≠ .free := by
      rw [not_not.1 fun e => Nat.lt_irrefl _ ((h2 b).1 e).2]
      nofun
    exact ⟨⟨l, hl.write hkern hp (fun a ha => fill_of_out (.inl ha))
      fun p hm hne => same_fill hp.1 hm hne⟩, h2, h3⟩
  unfold kfree
  rw [if_neg hp.ok, wp_run_bind, run_perform]
  refine wp_modify.2 ?_
  rw [wp_run_bind]
  unfold pkfree
  by_cases hh : hartOf b < NCPU
  · rw [dif_pos hh, wp_run_bind]
    apply wp_mono (push_boot h0 hl hp (hp.home_some hh))
    intro _ s' h'
    exact wp_pure.2 (wp_pure.2 h')
  · rw [dif_neg hh]
    exact wp_pure.2 (push_boot h0 hl hp (hp.home_none hh))

lemma freeLoop_spec {n : Nat} (h : Carved b s) (hl : ∀ k, s.lock k = none) (hb : b % PGSIZE = 0)
    (hlo : heapStart ≤ b) (hn : b + n * PGSIZE = PHYSTOP) :
    wp ((freeLoop PHYSTOP b).run (act t)) (fun _ s' => Carved PHYSTOP s' ∧ ∀ k, s'.lock k = none)
      (fun _ _ => False) s := by
  induction n generalizing b s with
  | zero =>
    rw [Nat.zero_mul, Nat.add_zero] at hn
    subst hn
    rw [freeLoop, if_neg (by decide)]
    exact wp_pure.2 ⟨h, hl⟩
  | succ n ih =>
    rw [Nat.succ_mul, Nat.add_comm _ PGSIZE, ← Nat.add_assoc] at hn
    have hlt : b + PGSIZE ≤ PHYSTOP := by omega
    rw [freeLoop, if_pos hlt, wp_run_bind]
    apply wp_mono (kfree_boot h hl ⟨hb, hlo, hlt⟩)
    rintro _ s' ⟨h1, h2⟩
    exact ih h1 h2 (by rw [Nat.add_mod_right, hb]) (Nat.le_add_right_of_le hlo) hn

lemma kinit_spec (mem : Nat → UInt8) (lock : ListId → Option ι) :
    wp (kinit.run (act t)) (fun _ s' => Carved PHYSTOP s' ∧ ∀ k, s'.lock k = none) (fun _ _ => False)
      (start mem lock) := by
  have hmod := heapStart_mod
  have hfits := heapStart_fits
  unfold kinit perHartAllocInit
  rw [wp_run_bind, wp_run_bind]
  apply wp_mono initLoop_spec
  rintro _ s1 ⟨h1, h2, h3, h4⟩
  have huse : ∀ p, s1.use p = .kernel := fun p => congrFun h4 p
  have hhead : ∀ k, s1.head k = 0 := by
    intro k
    cases k with
    | none => exact h3
    | some i => exact h1 i (.inl (List.mem_finRange i))
  have hc : Carved heapStart s1 := by
    refine ⟨⟨fun _ => [], hhead, fun _ => List.nodup_nil, fun k p => ?_, fun p hp => absurd (huse p) hp⟩,
      fun p => ?_, fun p hp => absurd (huse p) hp⟩
    · rw [huse]
      exact ⟨fun h => absurd h List.not_mem_nil, fun h => nomatch h.1⟩
    · exact ⟨fun h => absurd (huse p) h, fun h => absurd h.1.2.1 (by omega)⟩
  rw [← Nat.add_zero (pgRoundUp _), ← Nat.zero_mul PER_HART_ALLOC_SIZE]
  apply wp_mono (hartLoop_spec (by decide) (by decide) (by rwa [Nat.zero_mul, Nat.add_zero]))
  rintro b' s2 ⟨rfl, h5, h6⟩
  rw [wp_run_bind, run_perform]
  refine wp_modify.2 ?_
  unfold freerange
  have hround : pgRoundUp (heapStart + NCPU * PER_HART_ALLOC_SIZE) = heapStart + NCPU * PER_HART_ALLOC_SIZE := by
    simp only [PHYSTOP, KERNBASE, NCPU] at hfits
    rw [pgRoundUp_of_lt (by simp only [PER_HART_ALLOC_SIZE, NCPU] at *; omega)]
    simp only [PGSIZE, PER_HART_ALLOC_SIZE, NCPU] at *
    omega
  rw [hround]
  have hend : heapStart + NCPU * PER_HART_ALLOC_SIZE +
      (PHYSTOP - (heapStart + NCPU * PER_HART_ALLOC_SIZE)) / PGSIZE * PGSIZE = PHYSTOP := by
    simp only [PHYSTOP, KERNBASE, PGSIZE, PER_HART_ALLOC_SIZE, NCPU] at *
    omega
  refine freeLoop_spec h5.lock ?_ (by simp only [PGSIZE, PER_HART_ALLOC_SIZE, NCPU] at *; omega)
    (Nat.le_add_right ..) hend
  refine (forall_update_iff s2.lock fun _ v => v = none).2 ⟨rfl, fun k hk => ?_⟩
  cases k with
  | none => exact absurd rfl hk
  | some i =>
    rw [h6]
    exact h2 i (.inl (List.mem_finRange i))

end Xv6n.Kalloc
