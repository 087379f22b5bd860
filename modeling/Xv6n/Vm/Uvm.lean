import Mathlib.Data.Finset.Card
import Xv6n.Vm.Freewalk
import Xv6n.Vm.Image

/-!
# Growing and shrinking user memory

The functions of `vm.c` that add and remove user pages, for a table that maps the pages below a size
and nothing else but the two pages at the top. That a size never reaches these is checked nowhere: it
holds because the pages of a table are different pages of physical memory, and there are not that
many of them.
-/

namespace Xv6n
open Lib KernM Function

/-- The number of pages that cover `sz` bytes. -/
def npages (sz : Nat) : Nat := (sz + PGSIZE - 1) / PGSIZE

/-- What a table maps above its user pages: `x` at the trampoline and `y` at the trapframe. -/
def topPte (x y v : Nat) : Nat := if v = NVPN - 1 then x else if v = NVPN - 2 then y else 0

/-- The entries of the table with root `r`: `n` user pages, each with `P`, and the top. -/
structure Shape (mem : Nat → UInt8) (r n : Nat) (P : Nat → Prop) (x y : Nat) : Prop where
  le : n ≤ NVPN - 2
  user : ∀ v, v < n → P (pteAt mem r v)
  rest : ∀ v, n ≤ v → v < NLEAF → pteAt mem r v = topPte x y v

lemma topPte_of_not_top {x y v : Nat} (h : ¬ Top v) : topPte x y v = 0 := by
  unfold Top at h
  rw [not_or] at h
  unfold topPte
  rw [if_neg h.1, if_neg h.2]

lemma npages_mul {n : Nat} : npages (n * PGSIZE) = n := by
  unfold npages
  simp only [PGSIZE]
  omega

lemma le_npages (sz : Nat) : sz ≤ npages sz * PGSIZE := by
  unfold npages
  simp only [PGSIZE]
  omega

lemma npages_mono {a b : Nat} (h : a ≤ b) : npages a ≤ npages b := by
  unfold npages
  exact Nat.div_le_div_right (by omega)

lemma pgRoundUp_eq {sz : Nat} (h : npages sz ≤ NVPN - 2) : pgRoundUp sz = npages sz * PGSIZE := by
  apply pgRoundUp_of_lt
  have := le_npages sz
  simp only [NVPN, PGSIZE] at *
  omega

section
variable {mem mem' : Nat → UInt8} {r n m v w x y : Nat} {P Q : Nat → Prop}

section
variable (h : Shape mem r n P x y)
include h

lemma Shape.empty (hn : n < NVPN - 2) : pteAt mem r n = 0 := by
  rw [h.rest n (Nat.le_refl _) (by simp only [NVPN, NLEAF] at *; omega)]
  exact topPte_of_not_top (not_top_of_lt hn)

lemma Shape.congr (he : ∀ v, pteAt mem' r v = pteAt mem r v) :
    Shape mem' r n P x y := by
  refine ⟨h.le, fun v hv => ?_, fun v hv hl => ?_⟩
  · rw [he]
    exact h.user v hv
  · rw [he]
    exact h.rest v hv hl

lemma Shape.mono (hpq : ∀ w, P w → Q w) : Shape mem r n Q x y :=
  ⟨h.le, fun v hv => hpq _ (h.user v hv), h.rest⟩

lemma Shape.extend (hn : n < NVPN - 2) (hw : P w)
    (hu : ∀ a, a < NLEAF → pteAt mem' r a = if a = n then w else pteAt mem r a) :
    Shape mem' r (n + 1) P x y := by
  refine ⟨hn, fun v hv => ?_, fun v hv hl => ?_⟩
  · rw [hu v (by simp only [NVPN, NLEAF] at *; omega)]
    by_cases e : v = n
    · rw [if_pos e]
      exact hw
    · rw [if_neg e]
      exact h.user v (by omega)
  · rw [hu v hl, if_neg (by omega)]
    exact h.rest v (by omega) hl

lemma Shape.cut (hm : m ≤ n)
    (hu : ∀ a, a < NLEAF → pteAt mem' r a = if m ≤ a ∧ a < n then 0 else pteAt mem r a) :
    Shape mem' r m P x y := by
  have hle := h.le
  refine ⟨by omega, fun v hv => ?_, fun v hv hl => ?_⟩
  · rw [hu v (by simp only [NVPN, NLEAF] at *; omega), if_neg (by omega)]
    exact h.user v (by omega)
  · rw [hu v hl]
    by_cases e : v < n
    · rw [if_pos ⟨hv, e⟩, topPte_of_not_top (not_top_of_lt (by omega))]
    · rw [if_neg (by omega)]
      exact h.rest v (by omega) hl

lemma Shape.change (hv : v < n) (hpq : ∀ w, P w → Q w) (hw : Q w)
    (hu : ∀ a, a < NLEAF → pteAt mem' r a = if a = v then w else pteAt mem r a) :
    Shape mem' r n Q x y := by
  have hle := h.le
  refine ⟨hle, fun a ha => ?_, fun a ha hl => ?_⟩
  · rw [hu a (by simp only [NVPN, NLEAF] at *; omega)]
    split
    · exact hw
    · exact hpq _ (h.user a ha)
  · rw [hu a hl, if_neg (by omega)]
    exact h.rest a ha hl

lemma Shape.image_none (hv : n ≤ v) : image mem r v = none := by
  by_cases hlt : v < NVPN - 2
  · refine Xv6n.image_none ?_
    rw [h.rest v hv (lt_nleaf hlt), topPte_of_not_top (not_top_of_lt hlt)]
    rfl
  · exact if_neg fun e => hlt e.1

lemma Shape.cut_image : (image mem r).cut n = image mem r :=
  Image.cut_eq fun _ => h.image_none

end

end

variable [Layout] {s s' : Kernel} {own own' : Nat → Owner} {live live' : Nat → List Nat → Prop}
  {r q n m v x y : Nat} {P Q : Nat → Prop}

lemma Heap.count (h : Heap s own live) (hr : ∀ path, live r path) (hn : n ≤ NVPN - 2)
    (hv : ∀ v, v < n → pteAt s.mem r v &&& PTE_V ≠ 0) : n ≤ (PHYSTOP - KERNBASE) / PGSIZE := by
  have hown : ∀ v, v < n → v < NLEAF ∧ own (pte2pa (pteAt s.mem r v)) = .slot r (leafPath v) := by
    intro v hlt
    have hvl : v < NLEAF := by
      simp only [NVPN, NLEAF] at *
      omega
    exact ⟨hvl, (h.leaf_iff (hr _) hvl (not_top_of_lt (by omega))).2 ⟨hv v hlt, rfl⟩⟩
  have hman : ∀ v, v < n → Managed (pte2pa (pteAt s.mem r v)) := by
    intro v hlt
    exact (h.managed _).1 (by rw [(hown v hlt).2]; nofun)
  have hcard := Finset.card_le_card_of_injOn (s := Finset.range n)
    (t := Finset.range ((PHYSTOP - KERNBASE) / PGSIZE))
    (fun v => (pte2pa (pteAt s.mem r v) - KERNBASE) / PGSIZE) ?_ ?_
  · rwa [Finset.card_range, Finset.card_range] at hcard
  · intro v hlt
    rw [Finset.mem_coe, Finset.mem_range] at hlt ⊢
    have h1 := hman v hlt
    have h2 := h1.lt.1
    have h3 := h1.2.2
    simp only [PHYSTOP, KERNBASE, PGSIZE] at *
    omega
  · intro a ha b hb e
    rw [Finset.mem_coe, Finset.mem_range] at ha hb
    have h1 := hman a ha
    have h2 := hman b hb
    have hpage : pte2pa (pteAt s.mem r a) = pte2pa (pteAt s.mem r b) := by
      have h3 := h1.lt.1
      have h4 := h2.lt.1
      have h5 := h1.1
      have h6 := h2.1
      simp only [KERNBASE, PGSIZE] at *
      omega
    have e1 := (hown a ha).2
    rw [hpage, (hown b hb).2, Owner.slot.injEq] at e1
    exact (leafPath_inj (hown b hb).1 (hown a ha).1 e1.2).symm

lemma Shape.lt (sh : Shape s.mem r n P x y) (h : Heap s own live) (hr : ∀ path, live r path)
    (hP : ∀ w, P w → IsLeaf w) : n ≤ (PHYSTOP - KERNBASE) / PGSIZE ∧ n < NVPN - 2 := by
  have hc := h.count hr sh.le fun v hv => (hP _ (sh.user v hv)).valid
  refine ⟨hc, ?_⟩
  simp only [PHYSTOP, KERNBASE, PGSIZE, NVPN] at *
  omega

lemma Frame.shape {r'} (f : Frame r none s own s' own') (h : Heap s own live)
    (h' : Heap s' own' live') (hne : r' ≠ r) (hl : ∀ path, live r' path)
    (hl' : ∀ path, live' r' path) (sh : Shape s.mem r' n P x y) : Shape s'.mem r' n P x y :=
  sh.congr fun _ => f.pteAt h h' hne hl hl' nofun

section
variable (h : Heap s own live) (hr : ∀ path, live r path)
include h hr

lemma uvmdealloc_spec {a b : Nat} (sh : Shape s.mem r (npages a) P x y) (hP : ∀ w, P w → IsLeaf w) :
    wp (uvmdealloc r a b) (fun res s' => ∃ own', Heap s' own' live ∧ Frame r none s own s' own' ∧
      res = min a b ∧ Shape s'.mem r (npages (min a b)) P x y ∧
      image s'.mem r = (image s.mem r).cut (npages (min a b))) Never s := by
  have hle := sh.le
  unfold uvmdealloc
  by_cases hab : a ≤ b
  · rw [if_pos hab, wp_pure, Nat.min_eq_left hab]
    exact ⟨own, h, .refl, rfl, sh, sh.cut_image.symm⟩
  · have hba : npages b ≤ npages a := npages_mono (by omega)
    rw [if_neg hab, pgRoundUp_eq hle, pgRoundUp_eq (Nat.le_trans hba hle),
      Nat.min_eq_right (by omega)]
    by_cases hlt : npages b * PGSIZE < npages a * PGSIZE
    · have hn : (npages a * PGSIZE - npages b * PGSIZE) / PGSIZE = npages a - npages b := by
        rw [← Nat.sub_mul, Nat.mul_div_cancel _ (by decide)]
      rw [if_pos hlt, wp_bind]
      dsimp only
      rw [hn, toU64_toInt (by simp only [NVPN] at *; omega)]
      have hsum : npages b + (npages a - npages b) = npages a := by omega
      have hleaf : ∀ v, npages b ≤ v → v < npages b + (npages a - npages b) → IsLeaf (pteAt s.mem r v) :=
        fun v h1 h2 => hP _ (sh.user v (by omega))
      refine wp_conseq (wp_and (uvmunmap_spec h hr (by rwa [hsum]) hleaf) (uvmunmap_image h hr (by rwa [hsum]) hleaf))
        ?_ fun _ _ h => h.1
      rintro _ s1 ⟨⟨own1, h1, h2, h3⟩, h4⟩
      rw [hsum] at h3 h4
      rw [wp_pure]
      refine ⟨own1, h1, h2, rfl, sh.cut hba h3, ?_⟩
      rw [h4, ← sh.cut_image]
      funext v
      unfold Image.cut
      by_cases hv : v < npages b
      · rw [if_neg (by omega), if_pos (by omega), if_pos hv]
      · rw [if_neg hv]
        split
        · rfl
        · exact if_neg (by omega)
    · have heq : npages b = npages a := by
        simp only [PGSIZE] at hlt
        omega
      rw [if_neg hlt, wp_pure, heq]
      exact ⟨own, h, .refl, rfl, sh, sh.cut_image.symm⟩

lemma takeBack_spec {s0 own0} {I : Image} (f : Frame r none s0 own0 s own) (sh : Shape s.mem r m P x y) (hm : v ≤ m)
    (hP : ∀ w, P w → IsLeaf w) :
    wp (uvmdealloc r (m * PGSIZE) (v * PGSIZE) >>= fun _ => pure false) (fun ok s' => ∃ own',
      Heap s' own' live ∧ Frame r none s0 own0 s' own' ∧
      Shape s'.mem r (if ok then n else v) P x y ∧
      image s'.mem r = if ok then I else (image s.mem r).cut v) Never s := by
  rw [wp_bind]
  apply wp_mono (uvmdealloc_spec h hr (by rwa [npages_mul]) hP)
  rintro _ s1 ⟨own1, h1, f1, _, sh1, hi⟩
  rw [Nat.min_eq_right (Nat.mul_le_mul_right _ hm), npages_mul] at sh1 hi
  rw [wp_pure]
  exact ⟨own1, h1, f.trans f1, sh1, hi⟩

/-- The loop of `uvmalloc` maps all the pages or takes back those it has mapped. -/
lemma allocLoop_spec {xperm : Nat} (sh : Shape s.mem r m P x y) (hm : v ≤ m) (hP : ∀ w, P w → IsLeaf w) (hx : xperm < 1024)
    (hnew : ∀ q, P (pa2pte q ||| (PTE_R ||| PTE_U ||| xperm ||| PTE_V))) :
    wp (allocLoop r (v * PGSIZE) xperm n (m * PGSIZE)) (fun ok s' => ∃ own', Heap s' own' live ∧
      Frame r none s own s' own' ∧ Shape s'.mem r (if ok then m + n else v) P x y ∧
      image s'.mem r = if ok then (image s.mem r).grow m (m + n) (PTE_R ||| PTE_U ||| xperm ||| PTE_V)
        else (image s.mem r).cut v) Never s := by
  induction n generalizing s own m with
  | zero =>
    rw [allocLoop, wp_pure]
    exact ⟨own, h, .refl, sh, Image.grow_self.symm⟩
  | succ n ih =>
    obtain ⟨_, hlt⟩ := sh.lt h hr hP
    rw [allocLoop, wp_bind]
    apply wp_mono (alloc_spec h)
    intro o s1 ho
    cases o with
    | none =>
      obtain ⟨h1, h2, h3⟩ := ho
      rw [← h3]
      refine takeBack_spec h1 hr ⟨h2, fun _ _ _ => rfl, fun p _ _ _ => ?_⟩ (by rwa [h3]) hm hP
      rw [h3]
      exact .refl
    | some q =>
      dsimp only
      rw [wp_bind, wp_memset, wp_bind]
      have hqm := Fresh.mod ho
      have f1 := Fresh.write ho fun p hp hne => same_fill (c := 0) hqm hp hne
      have hpte : ∀ a, pteAt (fill s1.mem q PGSIZE 0) r a = pteAt s.mem r a :=
        fun a => f1.pteAt h hr
      have fr1 := f1.frame (r := r)
      have himg := f1.image h hr
      have hperm : PTE_R ||| PTE_U ||| xperm < 1024 := Nat.or_lt_two_pow (n := 10) (by decide) hx
      have hz : pteAt (fill s1.mem q PGSIZE 0) r m = 0 := by
        rw [hpte]
        exact sh.empty hlt
      refine wp_conseq (wp_and (mapUser_spec f1.heap hr (by simp only [NVPN] at *; omega) (not_top_of_lt hlt)
        hz (update_self ..) hperm) (mapUser_image f1.heap hr hlt hz (update_self ..) hperm))
        ?_ fun _ _ h => h.1
      · rintro ok s2 ⟨⟨own2, h2, fr2, _, hok, hfail⟩, hi2⟩
        dsimp only at himg hi2
        rw [himg] at hi2
        cases ok with
        | true =>
          obtain ⟨hq, hu⟩ := hok rfl
          have fr : Frame r none s own s2 own2 :=
            (fr1.trans fr2).close f1.out (by rw [hq]; exact fun e => e rfl)
          have sh2 : Shape s2.mem r (m + 1) P x y := by
            refine sh.extend hlt (hnew q) fun a ha => ?_
            rw [hu a ha]
            dsimp only
            rw [hpte]
          have hnext : m * PGSIZE + PGSIZE = (m + 1) * PGSIZE := (Nat.succ_mul ..).symm
          have hzero : (⟨PTE_R ||| PTE_U ||| xperm ||| PTE_V, fun k => fill s1.mem q PGSIZE 0 (q + k)⟩ : Page) =
              .zero (PTE_R ||| PTE_U ||| xperm ||| PTE_V) := by
            refine Page.ext rfl (funext fun k => fill_of_in ?_)
            have := k.isLt
            omega
          rw [if_pos rfl, hzero] at hi2
          rw [if_pos rfl, hnext]
          apply wp_mono (ih h2 sh2 (by omega))
          rintro ok s3 ⟨own3, h3, fr3, sh3, hi3⟩
          rw [Nat.add_assoc, Nat.add_comm 1 n] at sh3 hi3
          refine ⟨own3, h3, fr.trans fr3, sh3, ?_⟩
          rw [hi3, hi2]
          cases ok with
          | true => exact Image.grow_update (by omega)
          | false => exact Image.cut_congr fun a ha => update_of_ne (by omega) ..
        | false =>
          obtain ⟨hq, hsame⟩ := hfail rfl
          rw [if_neg (by nofun), wp_bind]
          apply wp_mono (kfreeHeld_spec h2 hq)
          rintro _ s3 ⟨k, f3⟩
          have fr : Frame r none s own s3 (update own2 q (.free k)) :=
            ((fr1.trans fr2).trans f3.frame).close f1.out (by rw [update_self]; exact id)
          rw [if_neg nofun, ← f3.image h2 hr (by rw [hq]; nofun) nofun] at hi2
          rw [← hi2]
          refine takeBack_spec f3.heap hr fr (sh.congr fun a => ?_) hm hP
          rw [f3.pte h2 hr hr (by rw [hq]; nofun) nofun, hsame]
          exact hpte a

lemma uvmalloc_spec {a b xperm : Nat} (sh : Shape s.mem r (npages a) P x y) (hP : ∀ w, P w → IsLeaf w) (hx : xperm < 1024)
    (hnew : ∀ q, P (pa2pte q ||| (PTE_R ||| PTE_U ||| xperm ||| PTE_V))) :
    wp (uvmalloc r a b xperm) (fun res s' => ∃ own', Heap s' own' live ∧
      Frame r none s own s' own' ∧
      (res = 0 ∧ Shape s'.mem r (npages a) P x y ∧ image s'.mem r = image s.mem r ∨
        res = max a b ∧ Shape s'.mem r (npages res) P x y ∧ image s'.mem r =
          (image s.mem r).grow (npages a) (npages res) (PTE_R ||| PTE_U ||| xperm ||| PTE_V))) Never s := by
  unfold uvmalloc
  by_cases hba : b < a
  · rw [if_pos hba, wp_pure]
    exact ⟨own, h, .refl, .inr ⟨by omega, sh, Image.grow_self.symm⟩⟩
  · rw [if_neg hba, pgRoundUp_eq sh.le, wp_bind]
    apply wp_mono (allocLoop_spec h hr sh (Nat.le_refl _) hP hx hnew)
    rintro ok s1 ⟨own1, h1, f1, sh1, hi1⟩
    rw [wp_pure]
    refine ⟨own1, h1, f1, ?_⟩
    cases ok with
    | true =>
      have hn : npages a + (b - npages a * PGSIZE + PGSIZE - 1) / PGSIZE = npages b := by
        unfold npages
        simp only [PGSIZE]
        omega
      rw [if_pos rfl, hn] at sh1 hi1
      exact .inr ⟨by simp only [if_pos]; omega, sh1, hi1⟩
    | false =>
      rw [if_neg nofun, sh.cut_image] at hi1
      exact .inl ⟨rfl, sh1, hi1⟩

lemma dropCopy_spec {s0 own0} {I : Image} (f : Frame r none s0 own0 s own) (sh : Shape s.mem r m P x y) (hP : ∀ w, P w → IsLeaf w) :
    wp (uvmunmap r 0 m true >>= fun _ => pure false) (fun ok s' => ∃ own',
      Heap s' own' live ∧ Frame r none s0 own0 s' own' ∧
      Shape s'.mem r (if ok then n else 0) P x y ∧ image s'.mem r = if ok then I else fun _ => none) Never s := by
  have hle := sh.le
  have hu := uvmunmap_spec (v := 0) (n := m) h hr (by omega) fun a _ ha => hP _ (sh.user a (by omega))
  rw [Nat.zero_mul, Nat.zero_add] at hu
  rw [wp_bind]
  apply wp_mono hu
  rintro _ s1 ⟨own1, h1, f1, hpte⟩
  rw [wp_pure]
  have sh1 := sh.cut (Nat.zero_le _) hpte
  exact ⟨own1, h1, f.trans f1, sh1, funext fun v => sh1.image_none (Nat.zero_le v)⟩

/-- The loop of `uvmcopy` copies the pages that are left or removes those it has copied. -/
lemma copyLoop_spec {r0 k x0 y0 : Nat} (hr0 : ∀ path, live r0 path) (hne : r0 ≠ r) (sh0 : Shape s.mem r0 m P x0 y0)
    (sh : Shape s.mem r k P x y) (hk : k + n = m) (hP : ∀ w, P w → IsLeaf w)
    (hcopy : ∀ w q, P w → P (pa2pte q ||| (pteFlags w ||| PTE_V)))
    (hi : image s.mem r = (image s.mem r0).cut k) :
    wp (copyLoop r0 r n k) (fun ok s' => ∃ own', Heap s' own' live ∧ Frame r none s own s' own' ∧
      Shape s'.mem r (if ok then m else 0) P x y ∧
      image s'.mem r = if ok then image s.mem r0 else fun _ => none) Never s := by
  induction n generalizing s own k with
  | zero =>
    obtain rfl : k = m := hk
    rw [copyLoop, wp_pure]
    exact ⟨own, h, .refl, sh, hi.trans sh0.cut_image⟩
  | succ n ih =>
    have hlt : k < NVPN - 2 := Nat.lt_of_lt_of_le (by omega) sh0.le
    have hv : k < NVPN := by
      simp only [NVPN] at *
      omega
    have hPk := sh0.user k (by omega)
    have hnz : pteAt s.mem r0 k ≠ 0 := by
      intro e
      have := (hP _ hPk).valid
      rw [e] at this
      exact this rfl
    obtain ⟨t, ht⟩ := h.exists_low (hr0 _) hnz
    have he : le s.mem (t + 8 * (k % 512)) 8 = pteAt s.mem r0 k := (h.pteAt_some (hr0 _) ht).symm
    rw [copyLoop, wp_bind, wp_walk_leaf h (hr0 _) hv ht rfl]
    dsimp only
    rw [wp_bind, wp_load64, he, if_neg (hP _ hPk).valid, wp_bind]
    apply wp_mono (alloc_spec h)
    intro o s1 ho
    cases o with
    | none =>
      obtain ⟨h1, h2, h3⟩ := ho
      refine dropCopy_spec h1 hr ⟨h2, fun _ _ _ => rfl, fun p _ _ _ => ?_⟩ (by rwa [h3]) hP
      rw [h3]
      exact .refl
    | some q =>
      dsimp only
      rw [wp_bind, wp_memmove, wp_bind]
      have hqm := Fresh.mod ho
      have f1 := Fresh.write ho fun p hp hne =>
        (same_copy hqm hp hne : Same s1.mem (copy s1.mem q (pte2pa (pteAt s.mem r0 k)) PGSIZE) p)
      have hpte : ∀ r, (∀ path, live r path) → ∀ a,
          pteAt (copy s1.mem q (pte2pa (pteAt s.mem r0 k)) PGSIZE) r a = pteAt s.mem r a :=
        fun r hr a => f1.pteAt h hr
      have fr1 := f1.frame (r := r)
      have hperm : pteFlags (pteAt s.mem r0 k) < 1024 := by
        rw [pteFlags_eq]
        exact Nat.mod_lt _ (by decide)
      have hz : pteAt (copy s1.mem q (pte2pa (pteAt s.mem r0 k)) PGSIZE) r k = 0 := by
        rw [hpte r hr]
        exact sh.empty hlt
      have himg := f1.image h hr
      refine wp_conseq (wp_and (mapUser_spec f1.heap hr hv (not_top_of_lt hlt) hz (update_self ..) hperm)
        (mapUser_image f1.heap hr hlt hz (update_self ..) hperm)) ?_ fun _ _ h => h.1
      · rintro ok s2 ⟨⟨own2, h2, fr2, _, hok, hfail⟩, hi2⟩
        dsimp only at himg hi2
        rw [himg] at hi2
        cases ok with
        | true =>
          obtain ⟨hq, hu⟩ := hok rfl
          have fr : Frame r none s own s2 own2 :=
            (fr1.trans fr2).close f1.out (by rw [hq]; exact fun e => e rfl)
          have sh2 : Shape s2.mem r (k + 1) P x y := by
            refine sh.extend hlt (hcopy _ q hPk) fun a ha => ?_
            rw [hu a ha]
            dsimp only
            rw [hpte r hr]
          have himg0 : image s2.mem r0 = image s.mem r0 := fr.image h h2 hne hr0 hr0 nofun
          have hpage : some (⟨pteFlags (pteAt s.mem r0 k) ||| PTE_V,
              fun j => copy s1.mem q (pte2pa (pteAt s.mem r0 k)) PGSIZE (q + j)⟩ : Page) = image s.mem r0 k := by
            rw [image_some hlt (hP _ hPk).valid, pteFlags_or_valid (hP _ hPk).valid]
            exact congrArg some (copied_of_fresh ho h hr0 hlt (hP _ hPk).valid)
          have hcut : image s2.mem r = (image s2.mem r0).cut (k + 1) := by
            rw [hi2, if_pos rfl, hpage, hi, himg0]
            exact Image.update_cut
          rw [if_pos rfl, ← himg0]
          apply wp_mono (ih h2 (fr.shape h h2 hne hr0 hr0 sh0) sh2 (by omega) hcut)
          rintro ok s3 ⟨own3, h3, fr3, sh3, hi3⟩
          exact ⟨own3, h3, fr.trans fr3, sh3, hi3⟩
        | false =>
          obtain ⟨hq, hsame⟩ := hfail rfl
          rw [if_neg (by nofun), wp_bind]
          apply wp_mono (kfreeHeld_spec h2 hq)
          rintro _ s3 ⟨j, f3⟩
          have fr : Frame r none s own s3 (update own2 q (.free j)) :=
            ((fr1.trans fr2).trans f3.frame).close f1.out (by rw [update_self]; exact id)
          refine dropCopy_spec f3.heap hr fr (sh.congr fun a => ?_) hP
          rw [f3.pte h2 hr hr (by rw [hq]; nofun) nofun, hsame]
          exact hpte r hr a

lemma uvmcopy_spec {r0 sz x0 y0 : Nat} (hr0 : ∀ path, live r0 path) (hne : r0 ≠ r) (sh0 : Shape s.mem r0 (npages sz) P x0 y0)
    (sh : Shape s.mem r 0 P x y) (hP : ∀ w, P w → IsLeaf w)
    (hcopy : ∀ w q, P w → P (pa2pte q ||| (pteFlags w ||| PTE_V))) :
    wp (uvmcopy r0 r sz) (fun ok s' => ∃ own', Heap s' own' live ∧ Frame r none s own s' own' ∧
      Shape s'.mem r (if ok then npages sz else 0) P x y ∧
      image s'.mem r = if ok then image s.mem r0 else fun _ => none) Never s := by
  refine copyLoop_spec h hr hr0 hne sh0 sh (Nat.zero_add _) hP hcopy (funext fun v => ?_)
  exact (sh.image_none (Nat.zero_le v)).trans (if_neg (Nat.not_lt_zero v)).symm

lemma Heap.setLeaf {t w : Nat} (ht : own t = .slot r (lowPath v)) (hv : v < NLEAF) (hw : w < 2 ^ 64)
    (hwv : w &&& PTE_V ≠ 0) (hv0 : pteAt s.mem r v &&& PTE_V ≠ 0)
    (hpa : pte2pa w = pte2pa (pteAt s.mem r v)) :
    Heap { s with mem := putLe s.mem (t + 8 * (v % 512)) 8 w } own live ∧
    ∀ a, a < NLEAF → pteAt (putLe s.mem (t + 8 * (v % 512)) 8 w) r a =
      if a = v then w else pteAt s.mem r a := by
  have htm := h.slot_mod ht
  have hi : v % 512 < 512 := Nat.mod_lt _ (by decide)
  have hent : ∀ p r' path j, own p = .slot r' path → j < 512 → (p ≠ t ∨ j ≠ v % 512) →
      ent (putLe s.mem (t + 8 * (v % 512)) 8 w) p j = ent s.mem p j :=
    fun p r' path j hp hj hne => ent_store htm (h.slot_mod hp) hj hi hne
  have h1 : Heap { s with mem := putLe s.mem (t + 8 * (v % 512)) 8 w } own live := by
    refine h.congr rfl ?_ ?_ ?_
    · intro p k hp
      apply same_putLe htm hi (h.mod (by rw [hp]; nofun))
      rintro rfl
      rw [hp] at ht
      cases ht
    · intro p r' path j hp _ hj
      by_cases hne : p ≠ t ∨ j ≠ v % 512
      · unfold child
        rw [hent p r' path j hp hj hne]
      · rw [not_or, not_not, not_not] at hne
        obtain ⟨rfl, rfl⟩ := hne
        have he := h.pteAt_some (hr _) ht
        unfold child
        dsimp only
        rw [ent_putLe hw, if_pos hwv, ← he, if_pos hv0, hpa]
    · intro p r' path j hp hpath
      apply hent p r' path j hp (hpath.lt j (List.mem_cons_self ..))
      left
      rintro rfl
      rw [ht, Owner.slot.injEq] at hp
      have := hpath.length
      rw [← hp.2, List.length_cons, lowPath_length] at this
      omega
  have hpte := pteAt_store (w := w) h h1 (fun _ => hr _) (fun _ => hr _) (fun _ _ => Iff.rfl) ht hv
    (ent_putLe hw) fun p a j hp hj hne => ent_store htm (h.slot_mod hp) hj hi hne
  exact ⟨h1, hpte⟩

lemma uvmclear_spec (sh : Shape s.mem r n P x y) (hv : v < n) (hP : ∀ w, P w → IsLeaf w) (hpq : ∀ w, P w → Q w)
    (hclear : ∀ w, P w → Q (w &&& (2 ^ 64 - 1 - PTE_U))) :
    wp (uvmclear r (v * PGSIZE)) (fun _ s' => Heap s' own live ∧ Frame r none s own s' own ∧
      Shape s'.mem r n Q x y ∧ image s'.mem r = (image s.mem r).clear v) Never s := by
  have hlt : v < NVPN - 2 := Nat.lt_of_lt_of_le hv sh.le
  have hv' : v < NVPN ∧ v < NLEAF := by
    simp only [NVPN, NLEAF] at *
    omega
  have hPv := sh.user v hv
  have hvalid := (hP _ hPv).valid
  have hnz : pteAt s.mem r v ≠ 0 := by
    intro e
    rw [e] at hvalid
    exact hvalid rfl
  obtain ⟨t, ht⟩ := h.exists_low (hr _) hnz
  have he : le s.mem (t + 8 * (v % 512)) 8 = pteAt s.mem r v := (h.pteAt_some (hr _) ht).symm
  have hw : pteAt s.mem r v < 2 ^ 64 := by
    rw [← he]
    exact le_lt
  unfold uvmclear
  rw [wp_bind, wp_walk_leaf h (hr _) hv'.1 ht rfl]
  dsimp only
  rw [wp_bind, wp_load64, he, wp_store64]
  have hwv : (pteAt s.mem r v &&& (2 ^ 64 - 1 - PTE_U)) &&& PTE_V ≠ 0 := by
    rwa [clear_and rfl]
  obtain ⟨h1, h2⟩ := h.setLeaf hr ht hv'.2 (Nat.lt_of_le_of_lt Nat.and_le_left hw) hwv hvalid
    (pte2pa_clear hw)
  have hsame : ∀ p, p % PGSIZE = 0 → p ≠ t → Same s.mem (putLe s.mem (t + 8 * (v % 512)) 8
      (pteAt s.mem r v &&& (2 ^ 64 - 1 - PTE_U))) p :=
    fun p hpm hne => same_putLe (h.slot_mod ht) (Nat.mod_lt _ (by decide)) hpm hne
  refine ⟨h1, ⟨Tables.refl.mem, fun _ _ _ => rfl, ?_⟩, sh.change hv hpq (hclear _ hPv) h2, ?_⟩
  · intro p _ hpm hout
    refine hsame p hpm ?_
    rintro rfl
    rw [ht] at hout
    exact hout rfl
  · funext a
    unfold Image.clear
    by_cases e : a = v
    · subst e
      have hw' := h2 a hv'.2
      rw [if_pos rfl] at hw'
      rw [update_self, image_some hlt (by rwa [hw']), image_some hlt hvalid, hw', Option.map_some, pageOf_clear hw]
      have := h.own_leaf hr hlt hvalid
      rw [(hsame _ (h.slot_mod this) (slot_ne ht this)).pageOf]
    · rw [update_of_ne e]
      refine h.image_congr hr (fun ha => by rw [h2 a (lt_nleaf ha), if_neg e]) fun p hp => ?_
      exact hsame p (h.slot_mod hp) (slot_ne ht hp)

end

end Xv6n
