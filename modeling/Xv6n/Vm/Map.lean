import Xv6n.Vm.Walk

/-!
# Specifications of `mappages`, `uvmunmap` and `freewalk`

The three functions that change the entries of a page table, each as a change of the function `pteAt`
together with what happens to the owners of pages.
-/

namespace Xv6n
open Lib KernM Function
variable [Layout] {s s' : Kernel} {own own' : Nat → Owner} {live live' : Nat → List Nat → Prop}
  {r t q i v w : Nat} {path : List Nat}

lemma Heap.unique (h : Heap s own live) {p} (hp : own p = .slot r path) (hq : own q = .slot r path) :
    p = q := by
  obtain ⟨hl, hs⟩ := h.owned p r path hp
  have e1 := (h.pageAt_iff hl hs).2 hp
  have e2 := (h.pageAt_iff hl hs).2 hq
  exact Option.some_inj.1 (e1.symm.trans e2)

lemma Heap.exists_low (h : Heap s own live) (hl : live r (lowPath v)) (hne : pteAt s.mem r v ≠ 0) :
    ∃ t, own t = .slot r (lowPath v) := by
  by_contra hn
  rw [not_exists] at hn
  exact hne (h.pteAt_none hl hn)

lemma pteAt_store (h : Heap s own live) (h' : Heap s' own' live') (hl : ∀ a, live r (lowPath a))
    (hl' : ∀ a, live' r (lowPath a))
    (hown : ∀ p a, own' p = .slot r (lowPath a) ↔ own p = .slot r (lowPath a))
    (ht : own t = .slot r (lowPath v)) (hv : v < NLEAF) (hent : ent s'.mem t (v % 512) = w)
    (hsame : ∀ p a j, own p = .slot r (lowPath a) → j < 512 → (p ≠ t ∨ j ≠ v % 512) →
      ent s'.mem p j = ent s.mem p j) :
    ∀ a, a < NLEAF → pteAt s'.mem r a = if a = v then w else pteAt s.mem r a := by
  intro a ha
  by_cases hex : ∃ p, own p = .slot r (lowPath a)
  · obtain ⟨p, hp⟩ := hex
    rw [h.pteAt_some (hl _) hp, h'.pteAt_some (hl' _) ((hown p a).2 hp)]
    split
    · rename_i e
      subst e
      rw [h.unique hp ht, hent]
    · rename_i hne
      apply hsame p a _ hp (Nat.mod_lt _ (by decide))
      by_contra hn
      rw [not_or, not_not, not_not] at hn
      obtain ⟨rfl, hmod⟩ := hn
      have e := ht.symm.trans hp
      rw [Owner.slot.injEq] at e
      exact hne (eq_of_lowPath ha hv e.2.symm hmod)
  · rw [not_exists] at hex
    rw [h.pteAt_none (hl _) hex, h'.pteAt_none (hl' _) fun p hp => hex p ((hown p a).1 hp)]
    split
    · rename_i e
      subst e
      exact absurd ht (hex t)
    · rfl

omit [Layout] in
lemma ent_store {mem : Nat → UInt8} {p j : Nat} (ht : t % PGSIZE = 0) (hp : p % PGSIZE = 0)
    (hj : j < 512) (hi : i < 512) (hne : p ≠ t ∨ j ≠ i) :
    ent (putLe mem (t + 8 * i) 8 w) p j = ent mem p j := by
  by_cases e : p = t
  · subst e
    exact ent_putLe_of_ne (by omega) ht ht
  · exact (same_putLe ht hi hp e).ent hj

lemma Heap.mapLeaf (h : Heap s own live) (hr : ∀ path, live r path)
    (ht : own t = .slot r (lowPath v)) (hv : v < NLEAF) (htop : ¬ Top v)
    (hz : pteAt s.mem r v &&& PTE_V = 0) (hq : own q = .held) (hw : w < 2 ^ 64)
    (hwv : w &&& PTE_V ≠ 0) (hpa : pte2pa w = q) :
    Heap { s with mem := putLe s.mem (t + 8 * (v % 512)) 8 w }
      (update own q (.slot r (leafPath v))) live ∧
    ∀ a, a < NLEAF → pteAt (putLe s.mem (t + 8 * (v % 512)) 8 w) r a =
      if a = v then w else pteAt s.mem r a := by
  have hc : child s.mem t (v % 512) = none := by
    unfold child
    rw [← h.pteAt_some (hr _) ht, if_neg (by rw [hz]; exact fun e => e rfl)]
  have hlen : ¬ (lowPath v).length < 2 := by
    rw [lowPath_length]
    omega
  have hslot := isSlot_leafPath hv htop
  rw [leafPath_eq] at hslot ⊢
  have h1 := h.link ht hslot (hr _) hc hq (fun e => absurd e hlen) hw hwv hpa
    fun e => absurd e hlen
  have htq : t ≠ q := by
    rintro rfl
    rw [hq] at ht
    cases ht
  have hown : ∀ p a, update own q (.slot r (v % 512 :: lowPath v)) p = .slot r (lowPath a) ↔
      own p = .slot r (lowPath a) := by
    intro p a
    by_cases hp : p = q
    · subst hp
      rw [update_self, hq, ← leafPath_eq, Owner.slot.injEq]
      simp [lowPath_ne_leafPath.symm]
    · rw [update_of_ne hp]
  have hpte := pteAt_store (w := w) h h1 (fun _ => hr _) (fun _ => hr _) hown ht hv (ent_putLe hw)
    fun p a j hp hj hne => ent_store (h.slot_mod ht) (h.slot_mod hp) hj
      (Nat.mod_lt _ (by decide)) hne
  exact ⟨h1, hpte⟩

lemma Heap.mapTop (h : Heap s own live) (hr : ∀ path, live r path)
    (ht : own t = .slot r (lowPath v)) (htop : Top v) (hw : w < 2 ^ 64) :
    Heap { s with mem := putLe s.mem (t + 8 * (v % 512)) 8 w } own live ∧
    ∀ a, a < NLEAF → pteAt (putLe s.mem (t + 8 * (v % 512)) 8 w) r a =
      if a = v then w else pteAt s.mem r a := by
  have hv : v < NLEAF := by
    simp only [Top, NVPN, NLEAF] at *
    omega
  have hslot : ¬ (live r (v % 512 :: lowPath v) ∧ IsSlot (v % 512 :: lowPath v)) :=
    fun e => e.2.low v htop leafPath_eq.symm
  have h1 := h.putDead (w := w) ht hslot (Nat.mod_lt _ (by decide))
  have hpte := pteAt_store (w := w) h h1 (fun _ => hr _) (fun _ => hr _) (fun _ _ => Iff.rfl) ht hv
    (ent_putLe hw) fun p a j hp hj hne => ent_store (h.slot_mod ht) (h.slot_mod hp) hj
      (Nat.mod_lt _ (by decide)) hne
  exact ⟨h1, hpte⟩

/-- The number of pages from `PGROUNDDOWN(va)` to `PGROUNDDOWN(va + size - 1)`, counted as the loop of
    `mappages` does. -/
def pagesOf (va size : Nat) : Nat :=
  (pgRoundDown (va + size - 1) + 2 ^ 64 - pgRoundDown va) % 2 ^ 64 / PGSIZE + 1

omit [Layout] in
lemma pagesOf_ne_zero {va size : Nat} : pagesOf va size ≠ 0 := by
  unfold pagesOf
  exact Nat.succ_ne_zero _

omit [Layout] in
lemma mappages_eq {va size pa perm : Nat} (h0 : size ≠ 0) :
    mappages r va size pa perm = mapLoop r perm (pagesOf va size) (pgRoundDown va) pa := by
  unfold mappages pagesOf
  rw [if_neg h0]

omit [Layout] in
lemma mappages_one {pa perm : Nat} (hv : v < NVPN) :
    mappages r (v * PGSIZE) PGSIZE pa perm = mapLoop r perm 1 (v * PGSIZE) pa := by
  have hlt : v * PGSIZE + PGSIZE ≤ 2 ^ 64 := by
    simp only [NVPN, PGSIZE] at *
    omega
  have h1 : pgRoundDown (v * PGSIZE) = v * PGSIZE :=
    pgRoundDown_of_dvd (Nat.mul_mod_left ..) (by simp only [PGSIZE] at *; omega)
  have h2 : pgRoundDown (v * PGSIZE + PGSIZE - 1) = v * PGSIZE :=
    pgRoundDown_last (Nat.mul_mod_left ..) hlt
  have h3 : pagesOf (v * PGSIZE) PGSIZE = 1 := by
    unfold pagesOf
    rw [h1, h2, Nat.add_sub_cancel_left]
    rfl
  rw [mappages_eq (by decide), h1, h3]

/-- The entries of a table other than `v` stay, and `v` becomes `w`. -/
def PteUpd (r : Nat) (s s' : Kernel) (v w : Nat) : Prop :=
  ∀ a, a < NLEAF → pteAt s'.mem r a = if a = v then w else pteAt s.mem r a

lemma mapUser_spec {perm : Nat} (h : Heap s own live) (hr : ∀ path, live r path) (hv : v < NVPN)
    (htop : ¬ Top v) (hz : pteAt s.mem r v = 0) (hq : own q = .held) (hperm : perm < 1024) :
    wp (mappages r (v * PGSIZE) PGSIZE q perm) (fun ok s' => ∃ own', Heap s' own' live ∧
      Frame r (some q) s own s' own' ∧ Same s.mem s'.mem q ∧
      (ok = true → own' q = .slot r (leafPath v) ∧
        PteUpd r s s' v (pa2pte q ||| (perm ||| PTE_V))) ∧
      (ok = false → own' q = .held ∧ ∀ a, pteAt s'.mem r a = pteAt s.mem r a)) Never s := by
  have hqne : own q ≠ .kernel := by
    rw [hq]
    nofun
  have hqm := h.mod hqne
  have hqlt := ((h.managed q).1 hqne).lt.2
  rw [mappages_one hv, mapLoop, wp_bind]
  apply wp_mono (walk_spec h (fun path _ => hr path) hv)
  rintro o s1 ⟨own1, g, ho⟩
  have hout : (own q).Out r := by
    rw [hq]
    trivial
  have hq1 : own1 q = .held := (g.frame.owner q nofun (.inl hout)).trans hq
  have hs1 : Same s.mem s1.mem q := g.frame.same q nofun hqm hout
  cases o with
  | none =>
    dsimp only
    rw [wp_pure]
    exact ⟨own1, g.heap, g.frame.weaken, hs1, nofun, fun _ => ⟨hq1, g.pte⟩⟩
  | some a =>
    obtain ⟨t, ht, rfl⟩ := ho a rfl
    have hz1 : le s1.mem (t + 8 * (v % 512)) 8 = 0 := by
      rw [← hz, ← g.pte v, g.heap.pteAt_some (hr _) ht]
      rfl
    dsimp only
    rw [wp_bind, wp_load64, hz1, if_neg (by decide), wp_bind, wp_store64, mapLoop, wp_pure]
    have hflag : perm ||| PTE_V < 1024 := Nat.or_lt_two_pow (n := 10) hperm (by decide)
    have hodd : (perm ||| PTE_V) % 2 = 1 := Nat.or_mod_two_eq_one.2 (.inr rfl)
    have hvl : v < NLEAF := by
      simp only [NVPN, NLEAF] at *
      omega
    have hpz : pteAt s1.mem r v &&& PTE_V = 0 := by
      rw [g.pte v, hz]
      rfl
    rw [Nat.or_assoc]
    obtain ⟨h2, h3⟩ := g.heap.mapLeaf hr ht hvl htop hpz hq1 (mk_lt (by omega) hflag)
      (mk_valid hflag hodd) (pte2pa_mk hqm hflag)
    have htq : t ≠ q := by
      rintro rfl
      rw [hq1] at ht
      cases ht
    have htm := g.heap.slot_mod ht
    have hi : v % 512 < 512 := Nat.mod_lt _ (by decide)
    refine ⟨_, h2, ⟨g.frame.tables.mem, ?_, ?_⟩, ?_, fun _ => ⟨update_self .., ?_⟩, nofun⟩
    · intro p hp hout'
      have hp' : p ≠ q := fun e => hp (by rw [e])
      rw [update_of_ne hp'] at hout' ⊢
      exact g.frame.owner p nofun hout'
    · intro p hp hpm hout'
      refine (g.frame.same p nofun hpm hout').trans (same_putLe htm hi hpm ?_)
      rintro rfl
      rw [← g.frame.owner p nofun (.inl hout'), ht] at hout'
      exact hout' rfl
    · exact hs1.trans (same_putLe htm hi hqm htq.symm)
    · intro a ha
      have := h3 a ha
      rw [g.pte a] at this
      exact this

lemma mapTop_spec {pa perm : Nat} (h : Heap s own live) (hr : ∀ path, live r path) (htop : Top v)
    (hz : pteAt s.mem r v = 0) (hpa : pa < 2 ^ 56) (hperm : perm < 1024) :
    wp (mappages r (v * PGSIZE) PGSIZE pa perm) (fun ok s' => ∃ own', Heap s' own' live ∧
      Frame r none s own s' own' ∧
      (ok = true → PteUpd r s s' v (pa2pte pa ||| (perm ||| PTE_V))) ∧
      (ok = false → ∀ a, pteAt s'.mem r a = pteAt s.mem r a)) Never s := by
  have hv : v < NVPN := by
    simp only [Top, NVPN] at *
    omega
  rw [mappages_one hv, mapLoop, wp_bind]
  apply wp_mono (walk_spec h (fun path _ => hr path) hv)
  rintro o s1 ⟨own1, g, ho⟩
  cases o with
  | none =>
    dsimp only
    rw [wp_pure]
    exact ⟨own1, g.heap, g.frame, by rintro ⟨⟩, fun _ => g.pte⟩
  | some a =>
    obtain ⟨t, ht, rfl⟩ := ho a rfl
    have hz1 : le s1.mem (t + 8 * (v % 512)) 8 = 0 := by
      rw [← hz, ← g.pte v, g.heap.pteAt_some (hr _) ht]
      rfl
    dsimp only
    rw [wp_bind, wp_load64, hz1, if_neg (by decide), wp_bind, wp_store64, mapLoop, wp_pure]
    have hflag : perm ||| PTE_V < 1024 := Nat.or_lt_two_pow (n := 10) hperm (by decide)
    rw [Nat.or_assoc]
    obtain ⟨h2, h3⟩ := g.heap.mapTop hr ht htop (mk_lt hpa hflag)
    refine ⟨own1, h2, ⟨g.frame.tables.mem, g.frame.owner, ?_⟩, fun _ a ha => ?_, by rintro ⟨⟩⟩
    · intro p hp hpm hout
      refine (g.frame.same p (by rintro ⟨⟩) hpm hout).trans
        (same_putLe (g.heap.slot_mod ht) (Nat.mod_lt _ (by decide)) hpm ?_)
      rintro rfl
      rw [← g.frame.owner p (by rintro ⟨⟩) (.inl hout), ht] at hout
      exact hout rfl
    · have := h3 a ha
      rw [g.pte a] at this
      exact this

/-- The places that are left when those below `path` are gone. -/
def Without (live : Nat → List Nat → Prop) (r : Nat) (path : List Nat) : Nat → List Nat → Prop :=
  fun r' path' => live r' path' ∧ ¬ (r' = r ∧ path <:+ path')

omit [Layout] in
lemma Without.up (hup : ∀ r i path, live r (i :: path) → live r path) {r' i path'}
    (h : Without live r path r' (i :: path')) : Without live r path r' path' :=
  ⟨hup r' i path' h.1, fun e => h.2 ⟨e.1, e.2.trans (List.suffix_cons ..)⟩⟩

/-- A mapping that `uvmunmap` accepts. -/
structure IsLeaf (w : Nat) : Prop where
  valid : w &&& PTE_V ≠ 0
  leaf : pteFlags w ≠ PTE_V

lemma wp_walk_leaf {a : Bool} {E} {Q : Option Nat → Kernel → Prop} (h : Heap s own live)
    (hl : live r (lowPath v)) (hv : v < NVPN) (ht : own t = .slot r (lowPath v)) (ha : a = false) :
    wp (walk r (v * PGSIZE) a) Q E s ↔ Q (some (t + 8 * (v % 512))) s := by
  have hva : v * PGSIZE < MAXVA := by
    simp only [MAXVA, PGSIZE, NVPN] at *
    omega
  rw [ha, wp_walk_false hva, Nat.mul_div_cancel _ (by decide),
    (h.pageAt_iff hl isTable_lowPath.slot).2 ht, Option.map_some]

lemma unmapUser_spec (h : Heap s own live) (hr : ∀ path, live r path) (hv : v < NVPN)
    (htop : ¬ Top v) (hw : IsLeaf (pteAt s.mem r v)) :
    wp (unmapPage r (v * PGSIZE) true) (fun _ s' => ∃ own', Heap s' own' live ∧
      Frame r none s own s' own' ∧ PteUpd r s s' v 0) Never s := by
  have hne : pteAt s.mem r v ≠ 0 := by
    intro e
    rw [e] at hw
    exact hw.valid rfl
  have hvl : v < NLEAF := by
    simp only [NVPN, NLEAF] at *
    omega
  obtain ⟨t, ht⟩ := h.exists_low (hr _) hne
  have he : le s.mem (t + 8 * (v % 512)) 8 = pteAt s.mem r v := (h.pteAt_some (hr _) ht).symm
  have hq : own (pte2pa (pteAt s.mem r v)) = .slot r (leafPath v) :=
    (h.leaf_iff (hr _) hvl htop).2 ⟨hw.valid, rfl⟩
  unfold unmapPage
  rw [wp_bind, wp_walk_leaf h (hr _) hv ht rfl]
  dsimp only
  rw [wp_bind, wp_load64, he, if_neg hw.valid, if_neg hw.leaf, if_pos rfl, wp_bind]
  generalize pte2pa (pteAt s.mem r v) = q at hq
  have htq : t ≠ q := by
    rintro rfl
    rw [ht, Owner.slot.injEq] at hq
    exact lowPath_ne_leafPath hq.2
  -- freed before its entry is cleared, the page leaves a place that is not in use
  refine wp_mono (kfree_spec (L := Without live r (leafPath v)) h (by rw [hq]; nofun)
    (by rw [hq]; nofun) (fun _ _ e => e.1) ?_ ?_ fun _ _ _ => Without.up h.up) ?_
  · intro p r' path' hp hpq
    refine ⟨(h.owned p r' path' hp).1, ?_⟩
    rintro ⟨rfl, hsuf⟩
    have hlen := (h.owned p r' path' hp).2.length
    have := hsuf.eq_of_length_le (by rw [leafPath_length]; exact hlen)
    rw [← this] at hp
    exact hpq (h.unique hp hq)
  · intro r' path' hp hl
    rw [hq, Owner.slot.injEq] at hp
    exact hl.2 ⟨hp.1.symm, by rw [hp.2]⟩
  · rintro _ s1 ⟨k, h1, h2, h3⟩
    rw [wp_store64]
    have ht1 : update own q (.free k) t = .slot r (lowPath v) := by
      rw [update_of_ne htq, ht]
    have hi : v % 512 < 512 := Nat.mod_lt _ (by decide)
    have htm := h.slot_mod ht
    have h4 := h1.putDead (w := 0) ht1 (fun e => e.1.2 ⟨rfl, by rw [leafPath_eq]⟩) hi
    have h5 : Heap { s1 with mem := putLe s1.mem (t + 8 * (v % 512)) 8 0 }
        (update own q (.free k)) live := by
      refine h4.revive (fun _ _ e => e.1) h.up ?_ ?_
      · intro r' hl
        refine ⟨hl, fun e => ?_⟩
        have := e.2.length_le
        rw [leafPath_length] at this
        simp at this
      · intro r' j path' t' hl hn ht'
        have hsuf : r' = r ∧ leafPath v <:+ j :: path' := by
          by_contra hc
          exact hn ⟨hl, hc⟩
        obtain ⟨rfl, hsuf⟩ := hsuf
        obtain e | e := List.suffix_cons_iff.1 hsuf
        · rw [leafPath_eq, List.cons.injEq] at e
          obtain ⟨rfl, rfl⟩ := e
          rw [h4.unique ht' ht1]
          exact ent_putLe (by decide)
        · exact absurd ⟨rfl, e⟩ (h4.owned t' r' path' ht').1.2
    have hown : ∀ p a, update own q (.free k) p = .slot r (lowPath a) ↔
        own p = .slot r (lowPath a) := by
      intro p a
      by_cases hp : p = q
      · subst hp
        rw [update_self, hq, Owner.slot.injEq]
        simp [lowPath_ne_leafPath.symm]
      · rw [update_of_ne hp]
    have hsame : ∀ p a j, own p = .slot r (lowPath a) → j < 512 → (p ≠ t ∨ j ≠ v % 512) →
        ent (putLe s1.mem (t + 8 * (v % 512)) 8 0) p j = ent s.mem p j := by
      intro p a j hp hj hne
      have hpq : p ≠ q := by
        rintro rfl
        rw [hp, Owner.slot.injEq] at hq
        exact lowPath_ne_leafPath hq.2
      rw [ent_store htm (h.slot_mod hp) hj hi hne]
      exact (h3 p (h.slot_mod hp) hpq).ent hj
    have hpte := pteAt_store (w := 0) h h5 (fun _ => hr _) (fun _ => hr _) hown ht hvl
      (ent_putLe (by decide)) hsame
    refine ⟨_, h5, ⟨h2.mem, ?_, ?_⟩, hpte⟩
    · intro p _ ho
      by_cases hp : p = q
      · subst hp
        rw [update_self, hq] at ho
        simp [Owner.Out] at ho
      · rw [update_of_ne hp]
    · intro p _ hpm ho
      have hpq : p ≠ q := by
        rintro rfl
        rw [hq] at ho
        exact ho rfl
      have hpt : p ≠ t := by
        rintro rfl
        rw [ht] at ho
        exact ho rfl
      exact (h3 p hpm hpq).trans (same_putLe htm hi hpm hpt)

lemma unmapTop_spec (h : Heap s own live) (hr : ∀ path, live r path) (htop : Top v)
    (hw : IsLeaf (pteAt s.mem r v)) :
    wp (unmapPage r (v * PGSIZE) false) (fun _ s' => Heap s' own live ∧
      Frame r none s own s' own ∧ PteUpd r s s' v 0) Never s := by
  have hne : pteAt s.mem r v ≠ 0 := by
    intro e
    rw [e] at hw
    exact hw.valid rfl
  have hv : v < NVPN := by
    simp only [Top, NVPN] at *
    omega
  obtain ⟨t, ht⟩ := h.exists_low (hr _) hne
  have he : le s.mem (t + 8 * (v % 512)) 8 = pteAt s.mem r v := (h.pteAt_some (hr _) ht).symm
  unfold unmapPage
  rw [wp_bind, wp_walk_leaf h (hr _) hv ht rfl]
  dsimp only
  rw [wp_bind, wp_load64, he, if_neg hw.valid, if_neg hw.leaf, if_neg (by rintro ⟨⟩), wp_store64]
  obtain ⟨h1, h2⟩ := h.mapTop hr ht htop (w := 0) (by decide)
  refine ⟨h1, ⟨Tables.refl.mem, fun _ _ _ => rfl, ?_⟩, h2⟩
  intro p _ hpm ho
  apply same_putLe (h.slot_mod ht) (Nat.mod_lt _ (by decide)) hpm
  rintro rfl
  rw [ht] at ho
  exact ho rfl

omit [Layout] in
lemma unmap_count {v n : Nat} (h : v + n ≤ NVPN) :
    ((v * PGSIZE + n * PGSIZE) % 2 ^ 64 - v * PGSIZE) / PGSIZE = n := by
  simp only [NVPN, PGSIZE] at *
  rw [Nat.mod_eq_of_lt (by omega)]
  omega

lemma uvmunmap_spec {n : Nat} (h : Heap s own live) (hr : ∀ path, live r path)
    (hn : v + n ≤ NVPN - 2) (hw : ∀ a, v ≤ a → a < v + n → IsLeaf (pteAt s.mem r a)) :
    wp (uvmunmap r (v * PGSIZE) n true) (fun _ s' => ∃ own', Heap s' own' live ∧
      Frame r none s own s' own' ∧ ∀ a, a < NLEAF →
        pteAt s'.mem r a = if v ≤ a ∧ a < v + n then 0 else pteAt s.mem r a) Never s := by
  have hn' : v + n ≤ NVPN - 2 ∧ v + n < NLEAF := by
    simp only [NVPN, NLEAF] at *
    omega
  unfold uvmunmap
  rw [if_neg (by rw [Nat.mul_mod_left]; exact fun e => e rfl),
    unmap_count (by simp only [NVPN] at *; omega)]
  dsimp only
  rw [wp_bind]
  refine wp_mono (wp_forIn (I := fun k s' => ∃ own', Heap s' own' live ∧
    Frame r none s own s' own' ∧ ∀ a, a < NLEAF →
      pteAt s'.mem r a = if v ≤ a ∧ a < v + k then 0 else pteAt s.mem r a) ?_ ?_) ?_
  · refine ⟨own, h, .refl, fun a _ => ?_⟩
    rw [if_neg (by omega)]
  · rintro k b s1 hb ⟨own1, h1, h2, h3⟩
    obtain ⟨hk, rfl⟩ := List.getElem?_eq_some_iff.1 hb
    rw [List.length_range] at hk
    rw [List.getElem_range, ← Nat.add_mul, wp_bind]
    have hlt : v + k < NVPN - 2 := by
      simp only [NVPN] at *
      omega
    have hleaf : IsLeaf (pteAt s1.mem r (v + k)) := by
      rw [h3 _ (by simp only [NVPN, NLEAF] at *; omega), if_neg (by omega)]
      exact hw _ (by omega) (by omega)
    have htop : ¬ Top (v + k) := by
      simp only [Top, NVPN] at *
      omega
    apply wp_mono (unmapUser_spec h1 hr (by simp only [NVPN] at *; omega) htop hleaf)
    rintro _ s2 ⟨own2, h4, h5, h6⟩
    rw [wp_pure]
    refine ⟨rfl, own2, h4, h2.trans h5, fun a ha => ?_⟩
    rw [h6 a ha, h3 a ha]
    by_cases e : a = v + k
    · rw [if_pos e, if_pos (by omega)]
    · rw [if_neg e]
      by_cases hin : v ≤ a ∧ a < v + k
      · rw [if_pos hin, if_pos (by omega)]
      · rw [if_neg hin, if_neg (by omega)]
  · rintro _ s1 h1
    rw [wp_pure]
    rwa [List.length_range] at h1

end Xv6n
