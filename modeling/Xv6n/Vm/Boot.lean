import Xv6n.Vm.ExecSpec

/-!
# Booting

`kinit` puts every page that the allocator manages on a free list: first 1 MiB for each hart, then
the rest. After that the invariant of the process table holds, the pages that the kernel takes while
it boots keep it, and so does the start of the first process.
-/

namespace Xv6n
open Lib KernM Function

variable [Layout] {s s0 s' : Kernel} {own : Nat → Owner} {live : Nat → List Nat → Prop} {b q : Nat}

lemma push_spec {k} (h : Heap s own live) (hq : own q = .held) :
    wp (push k q) (fun _ s' => Retag live s own q (.free k) s') Never s := by
  have hmod : q % PGSIZE = 0 := h.mod (by rw [hq]; nofun)
  have hsame : ∀ p, p % PGSIZE = 0 → p ≠ q → Same s.mem (putLe s.mem q 8 (s.freelist k)) p := by
    intro p hp hne
    exact same_putLe (i := 0) hmod (by decide) hp hne
  rw [wp_push]
  refine ⟨?_, ⟨rfl, rfl, rfl, rfl, rfl, rfl⟩, hsame⟩
  refine h.push (by rw [hq]; nofun) (by rw [hq]; nofun) (fun _ _ e => e) ?_ (by rw [hq]; nofun) h.up
    hsame ?_
  · intro p r path hp _
    exact (h.owned p r path hp).1
  · rw [le_putLe]
    exact Nat.mod_eq_of_lt (by simpa using h.freelist_lt)

/-- The page at `p` is in the memory of hart `i`. -/
def OfHart (i : Fin NCPU) (p : Nat) : Prop :=
  heapStart + i * PER_HART_ALLOC_SIZE ≤ p ∧ p < heapStart + (i + 1) * PER_HART_ALLOC_SIZE

/-- The pages below `b` are on free lists; the others have not been reached yet. -/
structure Carved (s0 : Kernel) (b : Nat) (s : Kernel) (own : Nat → Owner) : Prop where
  tables : Tables s0 s
  heap : Heap s own fun _ _ => False
  free : ∀ p, Managed p → p < b → ∃ k, own p = .free k
  held : ∀ p, Managed p → b ≤ p → own p = .held
  hart : ∀ p (i : Fin NCPU), Managed p → p < b → OfHart i p → own p = .free (some i)

lemma Carved.next {k} (c : Carved s0 b s own) (hb : Managed b)
    (rt : Retag (fun _ _ => False) s own b (.free k) s') (hk : ∀ i, OfHart i b → k = some i) :
    Carved s0 (b + PGSIZE) s' (update own b (.free k)) := by
  refine ⟨c.tables.trans rt.tables, rt.heap, fun p hp hlt => ?_, fun p hp hle => ?_, fun p i hp hlt hi => ?_⟩
  · by_cases e : p = b
    · subst e
      exact ⟨k, update_self ..⟩
    · have := page_disjoint hp.1 hb.1 e
      rw [update_of_ne e]
      exact c.free p hp (by omega)
  · have e : p ≠ b := by
      simp only [PGSIZE] at hle
      omega
    rw [update_of_ne e]
    exact c.held p hp (by omega)
  · by_cases e : p = b
    · subst e
      rw [update_self, hk i hi]
    · have := page_disjoint hp.1 hb.1 e
      rw [update_of_ne e]
      exact c.hart p i hp (by omega) hi

lemma heapStart_mod : heapStart % PGSIZE = 0 := pgRoundUp_mod

omit [Layout] in
lemma mod_add_mul {a n : Nat} (ha : a % PGSIZE = 0) : (a + n * PGSIZE) % PGSIZE = 0 := by
  rw [Nat.add_mul_mod_self_right, ha]

lemma heapStart_fits : heapStart + NCPU * PER_HART_ALLOC_SIZE ≤ PHYSTOP := Layout.fits

lemma managed_heapStart {n : Nat} (hn : heapStart + n * PGSIZE < PHYSTOP) :
    Managed (heapStart + n * PGSIZE) :=
  ⟨mod_add_mul heapStart_mod, Nat.le_add_right .., hn⟩

lemma hart_page (i : Fin NCPU) {n : Nat} (hn : n < PER_HART_ALLOC_SIZE / PGSIZE) :
    Managed (heapStart + (i * (PER_HART_ALLOC_SIZE / PGSIZE) + n) * PGSIZE) ∧
      OfHart i (heapStart + (i * (PER_HART_ALLOC_SIZE / PGSIZE) + n) * PGSIZE) := by
  refine ⟨managed_heapStart ?_, ?_, ?_⟩
  · have hend := heapStart_fits
    have hi := i.isLt
    simp only [PER_HART_ALLOC_SIZE, PGSIZE, NCPU] at *
    omega
  · simp only [PER_HART_ALLOC_SIZE, PGSIZE]
    omega
  · simp only [PER_HART_ALLOC_SIZE, PGSIZE] at hn ⊢
    omega

lemma OfHart.unique {i j : Fin NCPU} {p : Nat} (h : OfHart i p) (h' : OfHart j p) : i = j := by
  unfold OfHart at h h'
  refine Fin.ext ?_
  simp only [PER_HART_ALLOC_SIZE] at h h'
  omega

lemma hartLoop_spec {i : Fin NCPU}
    (c : Carved s0 (heapStart + i * PER_HART_ALLOC_SIZE) s own) :
    wp (forIn (List.range (PER_HART_ALLOC_SIZE / PGSIZE)) PUnit.unit fun j _ => do
        push (some i) (heapStart + (i * (PER_HART_ALLOC_SIZE / PGSIZE) + j) * PGSIZE)
        pure (ForInStep.yield PUnit.unit))
      (fun _ s' => ∃ own', Carved s0 (heapStart + (i + 1) * PER_HART_ALLOC_SIZE) s' own') Never s := by
  refine wp_mono (wp_forIn (I := fun n s' => ∃ own', Carved s0
    (heapStart + (i * (PER_HART_ALLOC_SIZE / PGSIZE) + n) * PGSIZE) s' own') ⟨own, ?_⟩ ?_) ?_
  · convert c using 2
    simp only [PER_HART_ALLOC_SIZE, PGSIZE]
    omega
  · rintro n j s1 hj ⟨own1, c1⟩
    obtain ⟨hn, rfl⟩ := List.getElem?_eq_some_iff.1 hj
    rw [List.length_range] at hn
    obtain ⟨hm, ho⟩ := hart_page i hn
    rw [List.getElem_range, wp_bind]
    apply wp_mono (push_spec c1.heap (c1.held _ hm (Nat.le_refl _)))
    intro _ s2 rt
    rw [wp_pure]
    have c2 := c1.next hm rt fun i' h => by rw [ho.unique h]
    rw [Nat.add_assoc, ← Nat.succ_mul, Nat.succ_eq_add_one, Nat.add_assoc] at c2
    exact ⟨rfl, _, c2⟩
  · rintro _ s2 ⟨own2, c2⟩
    refine ⟨own2, ?_⟩
    convert c2 using 2
    rw [List.length_range]
    simp only [PER_HART_ALLOC_SIZE, PGSIZE]
    omega

lemma perHartAllocInit_spec (c : Carved s0 heapStart s own) :
    wp perHartAllocInit (fun b s' => b = heapStart + NCPU * PER_HART_ALLOC_SIZE ∧
      ∃ own', Carved s0 b s' own') Never s := by
  have hend := heapStart_fits
  unfold perHartAllocInit
  rw [wp_bind]
  refine wp_mono (wp_forIn (I := fun n s' => ∃ own', Carved s0
    (heapStart + n * PER_HART_ALLOC_SIZE) s' own') ⟨own, ?_⟩ ?_) ?_
  · rwa [Nat.zero_mul, Nat.add_zero]
  · rintro n i s1 hi ⟨own1, c1⟩
    obtain rfl := val_of_finRange hi
    have hlt := i.isLt
    rw [wp_bind]
    apply wp_mono (hartLoop_spec c1)
    rintro _ s2 h2
    have hok : ¬ PHYSTOP < heapStart + (i + 1) * PER_HART_ALLOC_SIZE := by
      simp only [PER_HART_ALLOC_SIZE, NCPU] at *
      omega
    rw [if_neg hok, wp_pure]
    exact ⟨rfl, h2⟩
  · rintro _ s2 h2
    rw [List.length_finRange] at h2
    rw [wp_pure]
    exact ⟨rfl, h2⟩

lemma freerange_spec (c : Carved s0 b s own) (hb : b % PGSIZE = 0)
    (hle : heapStart + NCPU * PER_HART_ALLOC_SIZE ≤ b) (hlt : b ≤ PHYSTOP) :
    wp (freerange b PHYSTOP) (fun _ s' => ∃ own', Carved s0 PHYSTOP s' own') Never s := by
  have hround : pgRoundUp b = b := by
    simp only [PHYSTOP, KERNBASE] at hlt
    rw [pgRoundUp_of_lt (by omega)]
    simp only [PGSIZE] at *
    omega
  unfold freerange
  rw [hround, wp_bind]
  refine wp_mono (wp_forIn (I := fun n s' => ∃ own', Carved s0 (b + n * PGSIZE) s' own') ⟨own, ?_⟩ ?_) ?_
  · rwa [Nat.zero_mul, Nat.add_zero]
  · rintro n j s1 hj ⟨own1, c1⟩
    obtain ⟨hn, rfl⟩ := List.getElem?_eq_some_iff.1 hj
    rw [List.length_range] at hn
    have hm : Managed (b + n * PGSIZE) := by
      refine ⟨mod_add_mul hb, by omega, ?_⟩
      simp only [PHYSTOP, KERNBASE, PGSIZE] at *
      omega
    rw [List.getElem_range, wp_bind]
    apply wp_mono (kfreeHeld_spec c1.heap (c1.held _ hm (Nat.le_refl _)))
    rintro _ s2 ⟨k, rt⟩
    rw [wp_pure]
    have c2 := c1.next hm rt fun i h => by
      have := h.2
      have := i.isLt
      simp only [PER_HART_ALLOC_SIZE, NCPU] at *
      omega
    rw [Nat.add_assoc, ← Nat.succ_mul, Nat.succ_eq_add_one] at c2
    exact ⟨rfl, _, c2⟩
  · rintro _ s2 ⟨own2, c2⟩
    have hstop : b + (PHYSTOP - b) / PGSIZE * PGSIZE = PHYSTOP := by
      simp only [PHYSTOP, KERNBASE, PGSIZE] at *
      omega
    rw [List.length_range, hstop] at c2
    rw [wp_pure]
    exact ⟨own2, c2⟩

instance : DecidablePred Managed := fun _ => inferInstanceAs (Decidable (_ ∧ _ ∧ _))

lemma Kernel.Blank.carved (hb : s.Blank) :
    Carved s heapStart s fun p => if Managed p then .held else .kernel := by
  have hcases : ∀ p, (if Managed p then Owner.held else .kernel) = .held ∨
      (if Managed p then Owner.held else .kernel) = .kernel := by
    intro p
    split
    · exact .inl rfl
    · exact .inr rfl
  refine ⟨.refl, ⟨?_, ?_, nofun, nofun, ?_, nofun, nofun⟩, ?_, ?_, ?_⟩
  · intro p
    split
    · rename_i h
      exact ⟨fun _ => h, nofun⟩
    · rename_i h
      exact ⟨fun e => absurd rfl e, fun e => absurd e h⟩
  · intro i
    refine ⟨[], hb.freelist i, List.nodup_nil, fun p => ⟨fun e => ?_, nofun⟩⟩
    obtain h | h := hcases p
    · cases h.symm.trans e
    · cases h.symm.trans e
  · intro p r path e
    obtain h | h := hcases p
    · cases h.symm.trans e
    · cases h.symm.trans e
  · intro p hp hlt
    exact absurd hp.2.1 (by omega)
  · intro p hp _
    exact if_pos hp
  · intro p i hp hlt
    exact absurd hp.2.1 (by omega)

lemma Carved.inv (c : Carved s0 PHYSTOP s own) (hb : s0.Blank) : Inv s own [] fun _ => 0 := by
  have hfree : ∀ p, own p = .kernel ∨ ∃ k, own p = .free k := by
    intro p
    by_cases hp : Managed p
    · exact .inr (c.free p hp hp.2.2)
    · exact .inl (not_not.1 fun e => hp ((c.heap.managed p).1 e))
  have hno : ∀ p o, o ≠ .kernel → (∀ k, o ≠ .free k) → own p ≠ o := by
    rintro p o h1 h2 rfl
    obtain h | ⟨k, h⟩ := hfree p
    · exact h1 h
    · exact h2 k h
  have hproc := hb.proc
  have hfile := hb.file
  rw [← c.tables.proc] at hproc
  rw [← c.tables.file] at hfile
  have hrefs : ∀ f, refs (descs s) f = 0 := by
    intro f
    refine Finset.card_eq_zero.2 (Finset.filter_eq_empty_iff.2 fun x _ e => ?_)
    rw [descs, (hproc x.1).2.2.2.2] at e
    cases e
  have hpipe : ∀ f p, ¬ IsPipe s f p := by
    rintro f p ⟨h, _⟩
    rw [(hfile f).1] at h
    cases h
  refine ⟨c.heap.relive fun r _ => ⟨False.elim, ?_⟩, ⟨?_, ?_, ?_, ?_, ?_⟩, ?_, ?_, ?_, ?_⟩
  · rintro ⟨h0, i, e⟩
    exact h0 (e.symm.trans (hproc i).2.2.1)
  · intro f
    rw [hrefs, (hfile f).2]
    rfl
  · exact fun f _ => (hfile f).1
  · exact fun p => ⟨fun e => absurd e (hno p _ nofun nofun), fun ⟨f, e⟩ => absurd e (hpipe f p)⟩
  · exact fun f g p h => absurd h (hpipe f p)
  · exact fun p _ e => absurd e (hno p _ nofun nofun)
  · exact fun p => ⟨fun e => absurd e (hno p _ nofun nofun), nofun⟩
  · intro p
    rw [c.tables.boot, hb.boot]
    exact ⟨fun e => absurd e (hno p _ nofun nofun), nofun⟩
  · intro i
    obtain ⟨h1, h2, h3, h4, h5⟩ := hproc i
    refine ⟨fun p => ?_, fun e => absurd h3 e, fun _ => h2, ⟨fun _ => ⟨h3, h4, h5⟩,
      fun e => absurd h1 e, fun _ => h5⟩⟩
    rw [h4]
    exact ⟨fun e => absurd e (hno p _ nofun nofun), fun e => absurd e.2.symm e.1⟩
  · intro i _ h0
    exact absurd (hproc i).2.2.1 h0

lemma kinit_spec (hb : s.Blank) :
    wp kinit (fun _ s' => (∃ own', (Inv s' own' [] fun _ => 0) ∧
      ∀ p i, Managed p → OfHart i p → own' p = .free (some i)) ∧ Tables s s') Never s := by
  unfold kinit
  rw [wp_bind]
  apply wp_mono (perHartAllocInit_spec hb.carved)
  rintro _ s1 ⟨rfl, own1, c1⟩
  have hmod : (heapStart + NCPU * PER_HART_ALLOC_SIZE) % PGSIZE = 0 :=
    mod_add_mul (n := NCPU * (PER_HART_ALLOC_SIZE / PGSIZE)) heapStart_mod
  apply wp_mono (freerange_spec c1 hmod (Nat.le_refl _) heapStart_fits)
  rintro _ s2 ⟨own2, c2⟩
  exact ⟨⟨own2, c2.inv hb, fun p i hp hi => c2.hart p i hp hp.2.2 hi⟩, c2.tables⟩

variable {held : List Nat} {extra : Fin NFILE → Nat} {j : Fin NPROC} {r : Nat}

lemma Inv.giveBoot (hi : Inv s own (q :: held) extra) (hq : q ∉ held) :
    Inv { s with boot := q :: s.boot } (update own q .boot) held extra := by
  have hown : own q = .held := (hi.held q).2 (List.mem_cons_self ..)
  have k : Keeps (fun o => o ≠ .held ∧ o ≠ .boot) s own { s with boot := q :: s.boot }
      (update own q .boot) := by
    refine ⟨fun p hp => ?_, fun p hpm hp => .refl⟩
    rw [update_of_ne]
    rintro rfl
    rw [update_self, hown] at hp
    exact hp.elim (fun e => e.1 rfl) fun e => e.2 rfl
  have hheap : Heap { s with boot := q :: s.boot } (update own q .boot) fun r _ => Root s r :=
    (hi.heap.retag (q := q) (o := .boot) (by rw [hown]; trivial) trivial).of_eq rfl rfl
  refine ⟨hheap, ?_, ?_, ?_, fun i => ?_, hi.inj⟩
  · exact k.files ⟨nofun, nofun⟩ rfl hi.files fun _ => hi.pipe_mod
  · intro p
    by_cases hp : p = q
    · subst hp
      rw [update_self]
      exact ⟨nofun, fun e => absurd e hq⟩
    · rw [update_of_ne hp, hi.held, List.mem_cons]
      simp [hp]
  · intro p
    by_cases hp : p = q
    · subst hp
      simp
    · rw [update_of_ne hp, hi.boot]
      simp [hp]
  · refine k.procOk hi.heap hheap ?_ ⟨nofun, nofun⟩ (fun _ _ => ⟨nofun, nofun⟩) rfl (hi.proc i)
    exact fun h0 _ => ⟨⟨h0, i, rfl⟩, h0, i, rfl⟩

lemma bootAlloc_spec {id : Fin NCPU} (hi : Inv s own [] extra) :
    wp (bootAlloc id) (fun _ s' => ∃ own', Inv s' own' [] extra) (fun e _ => e = .null) s := by
  unfold bootAlloc
  rw [wp_bind]
  apply wp_never (kalloc_spec hi.heap)
  intro o s1 ho
  cases o with
  | none =>
    dsimp only
    rw [wp_throw]
  | some q =>
    dsimp only
    rw [wp_modify]
    exact ⟨_, (hi.fresh ho).giveBoot nofun⟩

end Xv6n
