import Xv6n.Vm.Transfer

/-!
# Page tables as finite maps

A page table is a map from virtual page numbers to physical pages with flags (`lookup`). `mappages` adds the
bindings of a range, all of them or, when memory runs out, those of a first part of it; `uvmunmap` removes
those of a range; `walkaddr` reads it. They ask of the table that its pages form a tree (`PageTree`): no page
is reached in two ways, and none is free. What the leaves are bound to does not matter.

The proofs use the owners of `Heap`, for a table of which only the two upper levels are places in use.
-/

namespace Xv6n
open Lib KernM Function

/-- What virtual page `v` is bound to: a physical page and flags. -/
def lookup (mem : Nat → UInt8) (r v : Nat) : Option (Nat × Nat) :=
  if pteAt mem r v &&& PTE_V ≠ 0 then some (pte2pa (pteAt mem r v), pteFlags (pteAt mem r v)) else none

/-- The page at `p` is on free list `i`. -/
def OnFreelist (s : Kernel) (i : Option (Fin NCPU)) (p : Nat) : Prop :=
  ∃ l, Chain (fun q => le s.mem q 8) (s.freelist i) l ∧ p ∈ l

/-- The page-table pages below `r` form a tree, apart from the free lists. -/
structure PageTree [Layout] (s : Kernel) (r : Nat) : Prop where
  table : ∀ path t, IsTable path → pageAt s.mem r path = some t → Managed t
  inj : ∀ path path' t, IsTable path → IsTable path' → pageAt s.mem r path = some t →
    pageAt s.mem r path' = some t → path = path'
  entry : ∀ i path t, IsTable (i :: path) → pageAt s.mem r path = some t →
    ent s.mem t i = 0 ∨ pteFlags (ent s.mem t i) = PTE_V
  lists : ∀ i, ∃ l, Chain (fun q => le s.mem q 8) (s.freelist i) l ∧ l.Nodup
  free : ∀ i p, OnFreelist s i p → Managed p
  once : ∀ i j p, OnFreelist s i p → OnFreelist s j p → i = j
  apart : ∀ i p path, OnFreelist s i p → IsTable path → pageAt s.mem r path ≠ some p

/-- The places of the page-table pages below `r`. -/
def Only (r : Nat) : Nat → List Nat → Prop := fun r' path => r' = r ∧ path.length ≤ 2

/-- The entry that `mappages` stores for page `k` of a range. -/
def leafPte (pa perm k : Nat) : Nat := (pa2pte ((pa + k * PGSIZE) % 2 ^ 64) ||| perm ||| PTE_V) % 2 ^ 64

/-- The binding of page `k` of a range. -/
def binding (pa perm k : Nat) : Nat × Nat := (pte2pa (leafPte pa perm k), pteFlags (leafPte pa perm k))

section entry
variable {pa perm k : Nat}

lemma leafPte_valid : leafPte pa perm k &&& PTE_V ≠ 0 := by
  unfold leafPte
  rw [and_V, Nat.mod_mod_of_dvd _ (by decide), Nat.or_mod_two_eq_one.2 (.inr rfl)]
  decide

lemma leafPte_succ : leafPte ((pa + PGSIZE) % 2 ^ 64) perm k = leafPte pa perm (k + 1) := by
  unfold leafPte
  rw [Nat.mod_add_mod, Nat.add_assoc, Nat.add_comm PGSIZE, ← Nat.succ_mul]

lemma binding_eq (hperm : perm < 1024) :
    binding pa perm k = ((pa + k * PGSIZE) % 2 ^ 64 / PGSIZE * PGSIZE, perm ||| PTE_V) := by
  have hflag : perm ||| PTE_V < 1024 := Nat.or_lt_two_pow (n := 10) hperm (by decide)
  have hlt : (pa + k * PGSIZE) % 2 ^ 64 < 2 ^ 64 := Nat.mod_lt _ (by decide)
  unfold binding leafPte
  generalize (pa + k * PGSIZE) % 2 ^ 64 = x at hlt
  have hmod : (pa2pte x ||| perm ||| PTE_V) % 2 ^ 64 = pa2pte x ||| (perm ||| PTE_V) := by
    rw [Nat.or_assoc]
    refine Nat.mod_eq_of_lt ?_
    rw [pa2pte_or hflag]
    simp only [PGSIZE]
    omega
  rw [hmod, pteFlags_mk hflag, pte2pa_eq, pa2pte_or hflag]
  refine Prod.ext ?_ rfl
  simp only [PGSIZE]
  omega

end entry

section tree
variable [Layout] {s s' : Kernel} {own own' : Nat → Owner} {r t v w p : Nat} {path : List Nat}

omit [Layout] in
lemma only_table {path : List Nat} (h : IsTable path) : Only r r path := ⟨rfl, h.length⟩

lemma Heap.freePage_iff {live : Nat → List Nat → Prop} (h : Heap s own live) {i} :
    OnFreelist s i p ↔ own p = .free i := by
  obtain ⟨l, hc, -, hl⟩ := h.free i
  rw [hl]
  exact ⟨fun ⟨_, hc', hp⟩ => hc'.unique hc ▸ hp, fun hp => ⟨l, hc, hp⟩⟩

/-- Owners of the pages of a tree and of the free ones; all other pages are held by somebody. -/
lemma PageTree.heap (h : PageTree s r) : ∃ own, Heap s own (Only r) ∧
    ∀ p, Managed p → (∀ i, ¬ OnFreelist s i p) →
      (∀ path, IsTable path → pageAt s.mem r path ≠ some p) → own p = .held := by
  have howner : ∀ p, ∃ o : Owner, (∀ i, o = .free i ↔ OnFreelist s i p) ∧
      (∀ r' path, o = .slot r' path ↔ r' = r ∧ IsTable path ∧ pageAt s.mem r path = some p) ∧
      (o ≠ .kernel ↔ Managed p) ∧ (Managed p → (∀ i, ¬ OnFreelist s i p) →
        (∀ path, IsTable path → pageAt s.mem r path ≠ some p) → o = .held) := by
    intro p
    by_cases hf : ∃ i, OnFreelist s i p
    · obtain ⟨i, hi⟩ := hf
      refine ⟨.free i, fun j => ?_, fun r' path => ?_, ?_, fun _ hn => absurd hi (hn i)⟩
      · rw [Owner.free.injEq]
        exact ⟨fun e => e ▸ hi, fun hj => h.once i j p hi hj⟩
      · exact iff_of_false nofun fun e => h.apart i p path hi e.2.1 e.2.2
      · exact iff_of_true nofun (h.free i p hi)
    rw [not_exists] at hf
    by_cases ht : ∃ path, IsTable path ∧ pageAt s.mem r path = some p
    · obtain ⟨path, hp, he⟩ := ht
      refine ⟨.slot r path, fun j => iff_of_false nofun (hf j), fun r' path' => ?_, ?_,
        fun _ _ hn => absurd he (hn path hp)⟩
      · rw [Owner.slot.injEq]
        refine ⟨?_, ?_⟩
        · rintro ⟨rfl, rfl⟩
          exact ⟨rfl, hp, he⟩
        · rintro ⟨rfl, hp', he'⟩
          exact ⟨rfl, h.inj path path' p hp hp' he he'⟩
      · exact iff_of_true nofun (h.table path p hp he)
    have hno : ∀ r' path, ¬ (r' = r ∧ IsTable path ∧ pageAt s.mem r path = some p) :=
      fun _ path e => ht ⟨path, e.2⟩
    by_cases hm : Managed p
    · exact ⟨.held, fun j => iff_of_false nofun (hf j), fun r' path => iff_of_false nofun (hno r' path),
        iff_of_true nofun hm, fun _ _ _ => rfl⟩
    · exact ⟨.kernel, fun j => iff_of_false nofun (hf j), fun r' path => iff_of_false nofun (hno r' path),
        iff_of_false (fun e => e rfl) hm, fun e => absurd e hm⟩
  choose own hfree hslot hman hheld using howner
  refine ⟨own, ⟨fun p => hman p, fun i => ?_, ?_, ?_, ?_, ?_, ?_⟩, hheld⟩
  · obtain ⟨l, hc, hn⟩ := h.lists i
    refine ⟨l, hc, hn, fun p => ?_⟩
    rw [hfree]
    exact ⟨fun ⟨_, hc', hp⟩ => hc'.unique hc ▸ hp, fun hp => ⟨l, hc, hp⟩⟩
  · rintro _ ⟨rfl, -⟩ p
    rw [hslot]
    refine ⟨fun e => (Option.some_inj.1 e.2.2).symm, ?_⟩
    rintro rfl
    exact ⟨rfl, ⟨Nat.zero_le _, nofun⟩, rfl⟩
  · rintro _ i path ⟨rfl, hlen⟩ hs p
    have ht : IsTable (i :: path) := ⟨hlen, hs.lt⟩
    rw [hslot, pageAt, descend_cons, Option.bind_eq_some_iff]
    refine ⟨?_, ?_⟩
    · rintro ⟨-, -, t, h1, h2⟩
      exact ⟨t, (hslot t _ _).2 ⟨rfl, hs.table, h1⟩, h2⟩
    · rintro ⟨t, h1, h2⟩
      exact ⟨rfl, ht, t, ((hslot t _ _).1 h1).2.2, h2⟩
  · intro p r' path hp
    obtain ⟨rfl, ht, -⟩ := (hslot p r' path).1 hp
    exact ⟨only_table ht, ht.slot⟩
  · rintro r' i path ⟨rfl, hlen⟩
    exact ⟨rfl, Nat.le_of_succ_le hlen⟩
  · rintro r' i path t - ht ho
    exact h.entry i path t ht ((hslot t _ _).1 ho).2.2

lemma Heap.pageTree {live : Nat → List Nat → Prop} (h : Heap s own live)
    (hl : ∀ path, IsTable path → live r path) : PageTree s r := by
  have hown : ∀ {path t}, IsTable path → pageAt s.mem r path = some t → own t = .slot r path :=
    fun hp ht => (h.pageAt_iff (hl _ hp) hp.slot).1 ht
  refine ⟨fun path t hp ht => ?_, fun path path' t hp hp' ht ht' => ?_, fun i path t hp ht => ?_, fun i => ?_,
    fun i p hf => ?_, fun i j p hi hj => ?_, fun i p path hf hp ht => ?_⟩
  · refine (h.managed t).1 ?_
    rw [hown hp ht]
    nofun
  · have := hown hp ht
    rw [hown hp' ht'] at this
    exact (Owner.slot.inj this).2.symm
  · exact h.entry r i path t (hl _ hp) hp (hown (hp.suffix (List.suffix_cons ..)) ht)
  · obtain ⟨l, hc, hn, -⟩ := h.free i
    exact ⟨l, hc, hn⟩
  · refine (h.managed p).1 ?_
    rw [h.freePage_iff.1 hf]
    nofun
  · have := h.freePage_iff.1 hi
    rw [h.freePage_iff.1 hj] at this
    exact (Owner.free.inj this).symm
  · have := h.freePage_iff.1 hf
    rw [hown hp ht] at this
    cases this

lemma Heap.storeLeaf (h : Heap s own (Only r)) (ht : own t = .slot r (lowPath v)) (hv : v < NLEAF) :
    Heap { s with mem := putLe s.mem (t + 8 * (v % 512)) 8 w } own (Only r) ∧
    ∀ a, a < NLEAF → pteAt (putLe s.mem (t + 8 * (v % 512)) 8 w) r a =
      if a = v then w % 2 ^ 64 else pteAt s.mem r a := by
  have hi : v % 512 < 512 := Nat.mod_lt _ (by decide)
  have hdead : ¬ (Only r r (v % 512 :: lowPath v) ∧ IsSlot (v % 512 :: lowPath v)) := by
    rintro ⟨⟨-, hlen⟩, -⟩
    rw [List.length_cons, lowPath_length] at hlen
    omega
  have h1 := h.putDead (w := w) ht hdead hi
  have hent : ent (putLe s.mem (t + 8 * (v % 512)) 8 w) t (v % 512) = w % 2 ^ 64 := by
    unfold ent
    rw [le_putLe]
    rfl
  have hpte := pteAt_store h h1 (fun _ => only_table isTable_lowPath) (fun _ => only_table isTable_lowPath)
    (fun _ _ => Iff.rfl) ht hv hent
  refine ⟨h1, hpte fun p a j hp hj hne => ?_⟩
  exact ent_store (h.slot_mod ht) (h.slot_mod hp) hj hi hne

lemma mapLoop_spec (perm : Nat) {n pa : Nat} (h : Heap s own (Only r)) (hv : v * PGSIZE < 2 ^ 64) (hpa : pa < 2 ^ 64)
    (hun : ∀ a, v ≤ a → a < v + n → a < NVPN → pteAt s.mem r a &&& PTE_V = 0) :
    wp (mapLoop r perm n (v * PGSIZE) pa) (fun ok s' => ∃ own' m, Heap s' own' (Only r) ∧
        (ok = true → m = n ∧ (n = 0 ∨ v + n ≤ NVPN)) ∧ (ok = false → m < n) ∧ ∀ a, a < NLEAF →
          pteAt s'.mem r a = if v ≤ a ∧ a < v + m then leafPte pa perm (a - v) else pteAt s.mem r a)
      (fun e _ => e = .walk ∧ NVPN < v + n) s := by
  induction n generalizing s own v pa with
  | zero =>
    rw [mapLoop, wp_pure]
    refine ⟨own, 0, h, fun _ => ⟨rfl, .inl rfl⟩, by rintro ⟨⟩, fun a _ => ?_⟩
    rw [if_neg (by omega)]
  | succ n ih =>
    rw [mapLoop, wp_bind]
    by_cases hvn : NVPN ≤ v
    · unfold walk
      have hva : MAXVA ≤ v * PGSIZE := by
        simp only [MAXVA, PGSIZE, NVPN] at *
        omega
      rw [if_pos hva, wp_bind, wp_throw]
      exact ⟨rfl, by omega⟩
    have hvl : v < NLEAF := by
      simp only [NVPN, NLEAF] at *
      omega
    refine wp_never (walk_spec h (fun _ hp => only_table hp) (by omega)) ?_
    rintro o s1 ⟨own1, g, ho⟩
    cases o with
    | none =>
      dsimp only
      rw [wp_pure]
      refine ⟨own1, 0, g.heap, by rintro ⟨⟩, fun _ => Nat.succ_pos n, fun a _ => ?_⟩
      rw [if_neg (by omega)]
      exact g.pte a
    | some a =>
      obtain ⟨t, ht, rfl⟩ := ho a rfl
      have hz : le s1.mem (t + 8 * (v % 512)) 8 &&& PTE_V = 0 := by
        rw [← hun v (Nat.le_refl _) (by omega) (by omega), ← g.pte v,
          g.heap.pteAt_some (only_table isTable_lowPath) ht]
        rfl
      dsimp only
      rw [wp_bind, wp_load64, if_neg (fun e => e hz), wp_bind, wp_store64]
      obtain ⟨h2, hp2⟩ := g.heap.storeLeaf (w := pa2pte pa ||| perm ||| PTE_V) ht hvl
      generalize hs2 : ({ s1 with mem := putLe s1.mem (t + 8 * (v % 512)) 8 _ } : Kernel) = s2 at h2 ⊢
      have hp2 : ∀ a, a < NLEAF → pteAt s2.mem r a =
          if a = v then leafPte pa perm 0 else pteAt s.mem r a := by
        intro a ha
        rw [← hs2, hp2 a ha, g.pte a, leafPte, Nat.zero_mul, Nat.add_zero, Nat.mod_eq_of_lt hpa]
      have hnext : (v * PGSIZE + PGSIZE) % 2 ^ 64 = (v + 1) * PGSIZE ∧ (v + 1) * PGSIZE < 2 ^ 64 := by
        rw [← Nat.succ_mul]
        have hle : (v + 1) * PGSIZE ≤ NVPN * PGSIZE := Nat.mul_le_mul_right _ (by omega)
        have hlt : (v + 1) * PGSIZE < 2 ^ 64 := Nat.lt_of_le_of_lt hle (by decide)
        exact ⟨Nat.mod_eq_of_lt hlt, hlt⟩
      rw [hnext.1]
      refine wp_conseq (ih h2 hnext.2 (Nat.mod_lt _ (by decide)) fun a h3 h4 h5 => ?_) ?_ ?_
      · rw [hp2 a (by simp only [NVPN, NLEAF] at *; omega), if_neg (by omega)]
        exact hun a (by omega) (by omega) h5
      · rintro ok s3 ⟨own3, m, h3, hok, hno, hp3⟩
        refine ⟨own3, m + 1, h3, fun e => ?_, fun e => Nat.succ_lt_succ (hno e), fun a ha => ?_⟩
        · have := hok e
          omega
        rw [hp3 a ha, hp2 a ha]
        by_cases hav : a = v
        · rw [if_neg (by omega), if_pos hav, if_pos (by omega), hav, Nat.sub_self]
        · rw [if_neg hav, leafPte_succ]
          by_cases hin : v + 1 ≤ a ∧ a < v + 1 + m
          · rw [if_pos hin, if_pos (by omega), show a - (v + 1) + 1 = a - v by omega]
          · rw [if_neg hin, if_neg (by omega)]
      · rintro e _ ⟨rfl, hlt⟩
        exact ⟨rfl, by omega⟩

omit [Layout] in
lemma pagesOf_eq {va size : Nat} (hva : va < 2 ^ 64) (h : va / PGSIZE + pagesOf va size ≤ NVPN) :
    va / PGSIZE + pagesOf va size = pgRoundDown (va + size - 1) / PGSIZE + 1 := by
  unfold pagesOf at *
  have h2 : pgRoundDown (va + size - 1) % PGSIZE = 0 := Nat.mul_mod_left ..
  have h3 : pgRoundDown (va + size - 1) < 2 ^ 64 := by
    unfold pgRoundDown
    have := Nat.mod_lt (va + size - 1) (show 0 < 2 ^ 64 by decide)
    simp only [PGSIZE]
    omega
  rw [pgRoundDown_of_lt hva] at h ⊢
  generalize pgRoundDown (va + size - 1) = x at *
  simp only [PGSIZE, NVPN] at h h2 ⊢
  omega

lemma mappages_spec (perm : Nat) {va size pa : Nat} (h : Heap s own (Only r)) (hva : va < 2 ^ 64) (hpa : pa < 2 ^ 64)
    (h0 : size ≠ 0) (hun : ∀ a, va / PGSIZE ≤ a → a < va / PGSIZE + pagesOf va size → a < NVPN →
      pteAt s.mem r a &&& PTE_V = 0) :
    wp (mappages r va size pa perm) (fun ok s' => ∃ own' m, Heap s' own' (Only r) ∧
        (ok = true → m = pagesOf va size ∧ va / PGSIZE + m ≤ NVPN) ∧ (ok = false → m < pagesOf va size) ∧ ∀ a, a < NLEAF →
          pteAt s'.mem r a = if va / PGSIZE ≤ a ∧ a < va / PGSIZE + m then leafPte pa perm (a - va / PGSIZE)
            else pteAt s.mem r a)
      (fun e _ => e = .walk ∧ NVPN < va / PGSIZE + pagesOf va size) s := by
  have hlt : va / PGSIZE * PGSIZE < 2 ^ 64 := Nat.lt_of_le_of_lt (Nat.div_mul_le_self ..) hva
  rw [mappages_eq h0, pgRoundDown_of_lt hva]
  refine wp_mono (mapLoop_spec perm h hlt hpa hun) ?_
  rintro ok s' ⟨own', m, h', hok, hno, hpte⟩
  refine ⟨own', m, h', fun e => ?_, hno, hpte⟩
  obtain ⟨hm, h0 | hle⟩ := hok e
  · exact absurd h0 pagesOf_ne_zero
  · rw [hm]
    exact ⟨rfl, hle⟩

lemma unmapPage_spec {b : Bool} (h : Heap s own (Only r)) (hv : v < NVPN) (hw : IsLeaf (pteAt s.mem r v))
    (hq : b = true → own (pte2pa (pteAt s.mem r v)) = .held) :
    wp (unmapPage r (v * PGSIZE) b) (fun _ s' => ∃ own', Heap s' own' (Only r) ∧ PteUpd r s s' v 0 ∧
      (∀ p, p ≠ pte2pa (pteAt s.mem r v) ∨ b = false → own' p = own p) ∧
      (b = true → ∃ k, own' (pte2pa (pteAt s.mem r v)) = .free k)) Never s := by
  have hl : Only r r (lowPath v) := only_table isTable_lowPath
  have hvl : v < NLEAF := by
    simp only [NVPN, NLEAF] at *
    omega
  obtain ⟨t, ht⟩ := h.exists_low hl (fun e => hw.valid (by rw [e]; rfl))
  have he : le s.mem (t + 8 * (v % 512)) 8 = pteAt s.mem r v := (h.pteAt_some hl ht).symm
  unfold unmapPage
  rw [wp_bind, wp_walk_leaf h hl hv ht rfl]
  dsimp only
  rw [wp_bind, wp_load64, he, if_neg hw.valid, if_neg hw.leaf]
  generalize hqe : pte2pa (pteAt s.mem r v) = q at *
  cases b with
  | false =>
    rw [if_neg nofun, wp_store64]
    obtain ⟨h1, hp1⟩ := h.storeLeaf (w := 0) ht hvl
    exact ⟨own, h1, hp1, fun _ _ => rfl, nofun⟩
  | true =>
    rw [if_pos rfl, wp_bind]
    refine wp_mono (kfreeHeld_spec h (hq rfl)) ?_
    rintro _ s1 ⟨k, f⟩
    have htq : t ≠ q := by
      rintro rfl
      rw [hq rfl] at ht
      cases ht
    rw [wp_store64]
    obtain ⟨h1, hp1⟩ := f.heap.storeLeaf (w := 0) (t := t) (v := v)
      (by rw [update_of_ne htq, ht]) hvl
    refine ⟨_, h1, fun a ha => ?_, fun p hp => ?_, fun _ => ⟨k, update_self ..⟩⟩
    · have hsame : pteAt s1.mem r a = pteAt s.mem r a := by
        refine h.pteAt_low f.heap (only_table isTable_lowPath) (only_table isTable_lowPath) (fun p => ?_)
          fun p hp => f.same p (h.slot_mod hp) ?_
        · by_cases hpq : p = q
          · subst hpq
            rw [update_self, hq rfl]
            exact iff_of_false nofun nofun
          · rw [update_of_ne hpq]
        · rintro rfl
          rw [hq rfl] at hp
          cases hp
      exact (hp1 a ha).trans (by rw [hsame]; rfl)
    · obtain hp | hp := hp
      · rw [update_of_ne hp]
      · cases hp

lemma uvmunmap_map_spec {n : Nat} {b : Bool} (h : Heap s own (Only r)) (hn : v + n ≤ NVPN)
    (hw : ∀ k < n, IsLeaf (pteAt s.mem r (v + k)))
    (hq : b = true → ∀ k < n, own (pte2pa (pteAt s.mem r (v + k))) = .held)
    (hinj : b = true → ∀ j < n, ∀ k < n,
      pte2pa (pteAt s.mem r (v + j)) = pte2pa (pteAt s.mem r (v + k)) → j = k) :
    wp (uvmunmap r (v * PGSIZE) n b) (fun _ s' => ∃ own', Heap s' own' (Only r) ∧
      (∀ a, a < NLEAF → pteAt s'.mem r a = if v ≤ a ∧ a < v + n then 0 else pteAt s.mem r a) ∧
      ∀ p, (∃ i, own' p = .free i) ↔
        (∃ i, own p = .free i) ∨ b = true ∧ ∃ k < n, p = pte2pa (pteAt s.mem r (v + k))) Never s := by
  unfold uvmunmap
  rw [if_neg (by rw [Nat.mul_mod_left]; exact fun e => e rfl), unmap_count hn]
  dsimp only
  rw [wp_bind]
  -- the pages from `k` on are still mapped and still held
  refine wp_mono (wp_forIn (I := fun k s' => ∃ own', Heap s' own' (Only r) ∧
    (∀ a, a < NLEAF → pteAt s'.mem r a = if v ≤ a ∧ a < v + k then 0 else pteAt s.mem r a) ∧
    (∀ p, (∃ i, own' p = .free i) ↔
      (∃ i, own p = .free i) ∨ b = true ∧ ∃ j < k, p = pte2pa (pteAt s.mem r (v + j))) ∧
    (b = true → ∀ j, k ≤ j → j < n → own' (pte2pa (pteAt s.mem r (v + j))) = .held)) ?_ ?_) ?_
  · refine ⟨own, h, fun a _ => by rw [if_neg (by omega)], fun p => ?_, fun hb j _ hj => hq hb j hj⟩
    exact ⟨.inl, fun e => e.elim id fun e => absurd e.2 (by rintro ⟨_, hlt, -⟩; omega)⟩
  · rintro k x s1 hx ⟨own1, h1, hp1, hf1, hh1⟩
    obtain ⟨hk, rfl⟩ := List.getElem?_eq_some_iff.1 hx
    rw [List.length_range] at hk
    rw [List.getElem_range, ← Nat.add_mul, wp_bind]
    have hlt : v + k < NLEAF := by
      simp only [NVPN, NLEAF] at *
      omega
    have hpk : pteAt s1.mem r (v + k) = pteAt s.mem r (v + k) := by
      rw [hp1 _ hlt, if_neg (by omega)]
    refine wp_mono (unmapPage_spec h1 (by omega) (by rw [hpk]; exact hw k hk)
      fun hb => by rw [hpk]; exact hh1 hb k (Nat.le_refl _) hk) ?_
    rintro _ s2 ⟨own2, h2, hp2, hkeep, hfree⟩
    rw [hpk] at hkeep hfree
    rw [wp_pure]
    refine ⟨rfl, own2, h2, fun a ha => ?_, fun p => ?_, fun hb j hj hjn => ?_⟩
    · rw [hp2 a ha, hp1 a ha]
      by_cases e : a = v + k
      · rw [if_pos e, if_pos (by omega)]
      · rw [if_neg e]
        by_cases hin : v ≤ a ∧ a < v + k
        · rw [if_pos hin, if_pos (by omega)]
        · rw [if_neg hin, if_neg (by omega)]
    · by_cases hpq : p = pte2pa (pteAt s.mem r (v + k)) ∧ b = true
      · obtain ⟨rfl, hb⟩ := hpq
        exact iff_of_true (hfree hb) (.inr ⟨hb, k, Nat.lt_succ_self k, rfl⟩)
      · have hne : p ≠ pte2pa (pteAt s.mem r (v + k)) ∨ b = false := by
          cases b with
          | false => exact .inr rfl
          | true => exact .inl fun e => hpq ⟨e, rfl⟩
        rw [hkeep p hne, hf1 p]
        refine or_congr_right (and_congr_right fun hb => ?_)
        refine ⟨fun ⟨j, hj, e⟩ => ⟨j, Nat.lt_succ_of_lt hj, e⟩, fun ⟨j, hj, e⟩ => ⟨j, ?_, e⟩⟩
        refine Nat.lt_of_le_of_ne (Nat.le_of_lt_succ hj) ?_
        rintro rfl
        exact hpq ⟨e, hb⟩
    · rw [hkeep _ (.inl fun e => ?_), hh1 hb j (by omega) hjn]
      have := hinj hb j hjn k hk e
      omega
  · rintro _ s1 ⟨own1, h1, hp1, hf1, -⟩
    rw [wp_pure]
    rw [List.length_range] at hp1 hf1
    exact ⟨own1, h1, hp1, hf1⟩

/-- A page that is in use, and not by the table. -/
structure InUse (s : Kernel) (r p : Nat) : Prop where
  managed : Managed p
  taken : ∀ i, ¬ OnFreelist s i p
  apart : ∀ path, IsTable path → pageAt s.mem r path ≠ some p

omit [Layout] in
lemma lookup_none : lookup s.mem r v = none ↔ pteAt s.mem r v &&& PTE_V = 0 := by
  unfold lookup
  split
  · rename_i hv
    exact iff_of_false nofun hv
  · rename_i hv
    exact iff_of_true rfl (not_not.1 hv)

omit [Layout] in
lemma lookup_some {pa f : Nat} (h : lookup s.mem r v = some (pa, f)) :
    pteAt s.mem r v &&& PTE_V ≠ 0 ∧ pte2pa (pteAt s.mem r v) = pa ∧ pteFlags (pteAt s.mem r v) = f := by
  unfold lookup at h
  split at h
  · rename_i hv
    cases h
    exact ⟨hv, rfl, rfl⟩
  · cases h

omit [Layout] in
lemma lookup_congr (h : pteAt s'.mem r v = pteAt s.mem r v) : lookup s'.mem r v = lookup s.mem r v := by
  unfold lookup
  rw [h]

/-- The value of C `walkaddr`, read off the map. -/
def userAddr (mem : Nat → UInt8) (r va : Nat) : Nat :=
  match lookup mem r (va / PGSIZE) with
  | some (pa, f) => if va < MAXVA ∧ f &&& PTE_U ≠ 0 then pa else 0
  | none => 0

omit [Layout] in
lemma userPage_getD {va : Nat} : (userPage s.mem r va).getD 0 = userAddr s.mem r va := by
  unfold userPage userAddr lookup
  by_cases hv : pteAt s.mem r (va / PGSIZE) &&& PTE_V = 0
  · rw [if_neg fun e => e.2.1 hv, if_neg fun e => e hv]
    rfl
  rw [if_pos hv]
  dsimp only
  rw [← and_of_flags (by decide)]
  by_cases hu : va < MAXVA ∧ pteAt s.mem r (va / PGSIZE) &&& PTE_U ≠ 0
  · rw [if_pos hu]
    by_cases h0 : pte2pa (pteAt s.mem r (va / PGSIZE)) = 0
    · rw [if_neg fun e => e.2.2.2 h0, h0]
      rfl
    · rw [if_pos ⟨hu.1, hv, hu.2, h0⟩]
      rfl
  · rw [if_neg hu, if_neg fun e => hu ⟨e.1, e.2.2.1⟩]
    rfl

/-- Page tables implement a finite map, for every tree of page-table pages, all arguments and every pattern of
    failing allocations. `mappages` over unmapped pages adds the bindings of the whole range and returns 0, or
    those of a proper part at its start and returns -1, and changes no other; it can only panic if the range is
    empty or leaves the address space. `uvmunmap` removes the bindings of its range and, if told so, frees exactly
    their pages. `walkaddr` reads the map. -/
theorem page_table_map (h : PageTree s r) :
    (∀ va size pa perm : UInt64,
      (∀ v < NVPN, va.toNat / PGSIZE ≤ v → v < va.toNat / PGSIZE + pagesOf va.toNat size.toNat →
        lookup s.mem r v = none) →
      match mappages r va.toNat size.toNat pa.toNat perm.toNat s with
      | .ok ok s' => PageTree s' r ∧ ∃ n, (∀ v < NVPN, lookup s'.mem r v =
            if va.toNat / PGSIZE ≤ v ∧ v < va.toNat / PGSIZE + n then
              some (binding pa.toNat perm.toNat (v - va.toNat / PGSIZE))
            else lookup s.mem r v) ∧
          (ok = true → n = pagesOf va.toNat size.toNat ∧
            va.toNat / PGSIZE + n = pgRoundDown (va.toNat + size.toNat - 1) / PGSIZE + 1) ∧
          (ok = false → n < pagesOf va.toNat size.toNat)
      | .error e _ => e = .mappagesSize ∧ size = 0 ∨
          e = .walk ∧ NVPN < va.toNat / PGSIZE + pagesOf va.toNat size.toNat) ∧
    (∀ pa perm k, perm < 1024 →
      binding pa perm k = ((pa + k * PGSIZE) % 2 ^ 64 / PGSIZE * PGSIZE, perm ||| PTE_V)) ∧
    (∀ v n (free : Bool), v + n ≤ NVPN →
      (∀ k < n, ∃ pa f, lookup s.mem r (v + k) = some (pa, f) ∧ f ≠ PTE_V ∧ (free = true → InUse s r pa)) →
      (free = true → ∀ j < n, ∀ k < n,
        (lookup s.mem r (v + j)).map Prod.fst = (lookup s.mem r (v + k)).map Prod.fst → j = k) →
      ∃ s', uvmunmap r (v * PGSIZE) n free s = .ok ⟨⟩ s' ∧ PageTree s' r ∧
        (∀ a < NVPN, lookup s'.mem r a = if v ≤ a ∧ a < v + n then none else lookup s.mem r a) ∧
        ∀ p, (∃ i, OnFreelist s' i p) ↔ (∃ i, OnFreelist s i p) ∨
          free = true ∧ ∃ k < n, (lookup s.mem r (v + k)).map Prod.fst = some p) ∧
    ∀ va : UInt64, ∃ o, walkaddr r va.toNat s = .ok o s ∧ o.getD 0 = userAddr s.mem r va.toNat := by
  obtain ⟨own, hh, hheld⟩ := h.heap
  have hN : ∀ {a}, a < NVPN → a < NLEAF := by
    intro a ha
    simp only [NVPN, NLEAF] at *
    omega
  refine ⟨fun va size pa perm hun => ?_, fun pa perm k => binding_eq, fun v n free hn hmap hinj => ?_,
    fun va => ?_⟩
  · by_cases h0 : size.toNat = 0
    · have hpanic : wp (mappages r va.toNat size.toNat pa.toNat perm.toNat) (fun _ _ => False)
          (fun e _ => e = .mappagesSize) s := by
        unfold mappages
        rw [if_pos h0, wp_bind, wp_throw]
      obtain ⟨hok, herr⟩ := wp_def.1 hpanic
      split
      · rename_i e
        exact (hok _ _ e).elim
      · rename_i e
        exact .inl ⟨herr _ _ e, UInt64.toNat_inj.1 h0⟩
    obtain ⟨hok, herr⟩ := wp_def.1 (mappages_spec perm.toNat hh va.toNat_lt pa.toNat_lt h0
      fun a h1 h2 h3 => lookup_none.1 (hun a h3 h1 h2))
    split
    · rename_i ok s' e
      obtain ⟨own', n, h', hall, hpart, hpte⟩ := hok ok s' e
      refine ⟨h'.pageTree fun _ => only_table, n, fun v hv => ?_, fun ht => ?_, hpart⟩
      · split
        · rename_i hin
          rw [lookup, hpte v (hN hv), if_pos hin, if_pos leafPte_valid]
          rfl
        · rename_i hin
          exact lookup_congr (by rw [hpte v (hN hv), if_neg hin])
      · obtain ⟨rfl, hle⟩ := hall ht
        exact ⟨rfl, pagesOf_eq va.toNat_lt hle⟩
    · rename_i e s' he
      exact .inr (herr e s' he)
  · have hleaf : ∀ k < n, IsLeaf (pteAt s.mem r (v + k)) ∧
        (lookup s.mem r (v + k)).map Prod.fst = some (pte2pa (pteAt s.mem r (v + k))) ∧
        (free = true → own (pte2pa (pteAt s.mem r (v + k))) = .held) := by
      intro k hk
      obtain ⟨pa, f, hl, hf, hu⟩ := hmap k hk
      obtain ⟨hv, rfl, rfl⟩ := lookup_some hl
      rw [hl]
      exact ⟨⟨hv, hf⟩, rfl, fun hb => hheld _ (hu hb).managed (hu hb).taken (hu hb).apart⟩
    have hspec := uvmunmap_map_spec (b := free) hh hn (fun k hk => (hleaf k hk).1)
      (fun hb k hk => (hleaf k hk).2.2 hb) fun hb j hj k hk e => hinj hb j hj k hk (by
        rw [(hleaf j hj).2.1, (hleaf k hk).2.1, e])
    obtain ⟨_, s', hrun, own', h', hpte, hfree⟩ := hspec.returns
    refine ⟨s', hrun, h'.pageTree fun _ => only_table, fun a ha => ?_, fun p => ?_⟩
    · split
      · rename_i hin
        rw [lookup_none, hpte a (hN ha), if_pos hin]
        rfl
      · rename_i hin
        exact lookup_congr (by rw [hpte a (hN ha), if_neg hin])
    · simp only [h'.freePage_iff, hh.freePage_iff]
      rw [hfree p]
      refine or_congr_right (and_congr_right fun _ => exists_congr fun k => and_congr_right fun hk => ?_)
      rw [(hleaf k hk).2.1, Option.some_inj]
      exact eq_comm
  · obtain ⟨o, s', hrun, rfl, ho⟩ := (show wp (walkaddr r va.toNat)
      (fun o s' => s' = s ∧ o.getD 0 = userAddr s.mem r va.toNat) Never s by
        rw [wp_walkaddr]
        exact ⟨rfl, userPage_getD⟩).returns
    exact ⟨o, hrun, ho⟩

omit [Layout] in
/-- The table of the first process, whose page 0 is mapped. -/
theorem page_table_map_first : ∃ s : Kernel, @Kernel.Reachable sampleLayout s ∧ ∃ i,
    lookup s.mem (s.proc i).pagetable 0 ≠ none ∧ ∃ o, walkaddr (s.proc i).pagetable 0 s = .ok o s ∧
      o.getD 0 = userAddr s.mem (s.proc i).pagetable 0 := by
  let _layout := sampleLayout
  obtain ⟨s, hs, j, hj⟩ := exists_started
  obtain ⟨own, hi⟩ := hs.inv
  have h0 := hi.pagetable_ne (i := j) (.inr (.inl hj.runnable))
  have ht : PageTree s (s.proc j).pagetable := hi.heap.pageTree fun _ _ => ⟨h0, j, rfl⟩
  obtain ⟨pa, hpa⟩ := Option.ne_none_iff_exists'.1 hj.code
  obtain ⟨o, hrun, ho⟩ := (page_table_map ht).2.2.2 0
  exact ⟨s, hs, j, fun e => (userPage_mapped hpa).1.2.1 (lookup_none.1 e), o, hrun, ho⟩

end tree

end Xv6n
