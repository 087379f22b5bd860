import Xv6n.Vm.Uvm
import Xv6n.Vm.Proc

/-!
# Making and freeing page tables

`proc_pagetable` makes a page table without user pages and `proc_freepagetable` frees one with all it
maps. A failed `proc_pagetable` has freed every page that it took.
-/

namespace Xv6n
open Lib KernM Function

/-- The table with root `r` has been freed and nothing else has changed. -/
structure Dropped (r : Nat) (s : Kernel) (own : Nat → Owner) (s' : Kernel) (own' : Nat → Owner) :
    Prop where
  tables : Tables s s'
  keep : ∀ p, (own p).Out r → own' p = own p
  same : ∀ p, p % PGSIZE = 0 → (own p).Out r → Same s.mem s'.mem p
  freed : ∀ p, ¬ (own p).Out r → ∃ k, own' p = .free k

structure Quiet (s : Kernel) (own : Nat → Owner) (s' : Kernel) (own' : Nat → Owner) : Prop where
  tables : Tables s s'
  keep : ∀ p, (∀ k, own p ≠ .free k) → own' p = own p
  same : ∀ p, p % PGSIZE = 0 → (∀ k, own p ≠ .free k) → Same s.mem s'.mem p
  freed : ∀ p k, own p = .free k → ∃ k', own' p = .free k'

variable {s s' s1 s2 : Kernel} {own own' own1 own2 : Nat → Owner} {r x y n v w : Nat} {P : Nat → Prop}

lemma not_out {o : Owner} (h : ¬ o.Out r) : o.Below r [] ∨ ∃ k, o = .free k := by
  cases o with
  | free k => exact .inr ⟨k, rfl⟩
  | slot r' path =>
    left
    have : r' = r := by
      by_contra hne
      exact h hne
    exact below_slot.2 ⟨this, List.nil_suffix⟩
  | kernel | trapframe i | pipe | boot | held => exact absurd trivial h

lemma Owner.Out.not_below {o : Owner} (h : o.Out r) : ¬ o.Below r [] ∧ ∀ k, o ≠ .free k := by
  refine ⟨?_, ?_⟩
  · rintro ⟨path, rfl, _⟩
    exact h rfl
  · rintro k rfl
    exact h

lemma Frame.dropped (f : Frame r none s own s1 own1) (g : Gone r [] s1 own1 s2 own2) :
    Dropped r s own s2 own2 := by
  have hout : ∀ p, (own p).Out r → own1 p = own p := fun p hp => f.owner p nofun (.inl hp)
  refine ⟨f.tables.trans g.tables, ?_, ?_, ?_⟩
  · intro p hp
    obtain ⟨h1, h2⟩ := hp.not_below
    rw [← hout p hp] at h1 h2
    rw [g.keep p h1 h2, hout p hp]
  · intro p hpm hp
    obtain ⟨h1, h2⟩ := hp.not_below
    rw [← hout p hp] at h1 h2
    exact (f.same p nofun hpm hp).trans (g.same p hpm h1 h2)
  · intro p hp
    apply g.freed p
    apply not_out
    intro h1
    rw [f.owner p nofun (.inr h1)] at h1
    exact hp h1

lemma Frame.quiet (f : Frame r none s own s1 own1) (d : Dropped r s1 own1 s2 own2)
    (hno : ∀ p path, own p ≠ .slot r path) : Quiet s own s2 own2 := by
  have hout : ∀ p, (∀ k, own p ≠ .free k) → (own p).Out r := by
    intro p hp
    by_contra hc
    obtain ⟨path, hb, _⟩ | ⟨k, hk⟩ := not_out hc
    · exact hno p path hb
    · exact hp k hk
  refine ⟨f.tables.trans d.tables, ?_, ?_, ?_⟩
  · intro p hp
    have e := f.owner p nofun (.inl (hout p hp))
    rw [d.keep p (by rw [e]; exact hout p hp), e]
  · intro p hpm hp
    have e := f.owner p nofun (.inl (hout p hp))
    exact (f.same p nofun hpm (hout p hp)).trans (d.same p hpm (by rw [e]; exact hout p hp))
  · intro p k hp
    apply d.freed p
    intro h1
    rw [f.owner p nofun (.inr h1), hp] at h1
    exact h1

lemma Shape.setTrampoline (sh : Shape s.mem r n P x y) (hu : PteUpd r s s' (NVPN - 1) w) :
    Shape s'.mem r n P w y := by
  have hle := sh.le
  refine ⟨hle, fun v hv => ?_, fun v hv hl => ?_⟩
  · rw [hu v (by simp only [NVPN, NLEAF] at *; omega), if_neg (by simp only [NVPN] at *; omega)]
    exact sh.user v hv
  · rw [hu v hl, sh.rest v hv hl]
    unfold topPte
    split
    · rfl
    · rfl

lemma Shape.setTrapframe (sh : Shape s.mem r n P x y) (hu : PteUpd r s s' (NVPN - 2) w) :
    Shape s'.mem r n P x w := by
  have hle := sh.le
  refine ⟨hle, fun v hv => ?_, fun v hv hl => ?_⟩
  · rw [hu v (by simp only [NVPN, NLEAF] at *; omega), if_neg (by simp only [NVPN] at *; omega)]
    exact sh.user v hv
  · rw [hu v hl, sh.rest v hv hl]
    unfold topPte
    by_cases h1 : v = NVPN - 1
    · rw [if_pos h1, if_pos h1, if_neg (by simp only [NVPN] at *; omega)]
    · rw [if_neg h1, if_neg h1]
      split
      · rfl
      · rfl

variable [Layout] {live live' : Nat → List Nat → Prop}

lemma uvmfree_spec {n : Nat} (h : Heap s own live) (hr : ∀ path, live r path)
    (sh : Shape s.mem r (npages n) P 0 0) (hP : ∀ w, P w → IsLeaf w) :
    wp (uvmfree r n) (fun _ s' => ∃ own', Heap s' own' (Without live r []) ∧
      Dropped r s own s' own') Never s := by
  have hwalk : ∀ {s1 own1}, Heap s1 own1 live → Frame r none s own s1 own1 → Shape s1.mem r 0 P 0 0 →
      wp (freewalk 3 r) (fun _ s' => ∃ own', Heap s' own' (Without live r []) ∧
        Dropped r s own s' own') Never s1 := by
    intro s1 own1 h1 f1 sh1
    refine wp_mono (freewalk_spec h1 ((h1.root r (hr _) r).2 rfl) ⟨Nat.zero_le _, by simp⟩ rfl
      (fun path' _ => hr path') ?_) ?_
    · intro t path i ht hlen _ hi
      obtain ⟨v, hv, rfl, rfl⟩ := exists_lowPath
        ⟨Nat.le_of_eq hlen, (h1.owned t r path ht).2.lt⟩ hlen hi
      rw [← h1.pteAt_some (hr _) ht, sh1.rest v (Nat.zero_le _) hv]
      unfold topPte
      rw [ite_self, ite_self]
    · rintro _ s2 ⟨own2, h2, g⟩
      exact ⟨own2, h2, f1.dropped g⟩
  unfold uvmfree
  by_cases hsz : 0 < n
  · have hu := uvmunmap_spec (v := 0) (n := npages n) h hr (by rw [Nat.zero_add]; exact sh.le)
      fun a _ ha => hP _ (sh.user a (by omega))
    rw [Nat.zero_mul, Nat.zero_add] at hu
    rw [if_pos hsz, wp_bind, pgRoundUp_eq sh.le, Nat.mul_div_cancel _ (by decide)]
    apply wp_mono hu
    rintro _ s1 ⟨own1, h1, f1, hpte⟩
    exact hwalk h1 f1 (sh.cut (Nat.zero_le _) hpte)
  · have hz : npages n = 0 := by
      unfold npages
      simp only [PGSIZE]
      omega
    rw [hz] at sh
    rw [if_neg hsz]
    exact hwalk h .refl sh

def trampolinePte : Nat := pa2pte Layout.trampoline ||| (PTE_R ||| PTE_X ||| PTE_V)

/-- The entry of the trapframe at `tf`. -/
def trapframePte (tf : Nat) : Nat := pa2pte tf ||| (PTE_R ||| PTE_W ||| PTE_V)

omit [Layout] in
lemma isLeaf_mk {pa f : Nat} (hf : f < 1024) (hodd : f % 2 = 1) (hne : f ≠ PTE_V) :
    IsLeaf (pa2pte pa ||| f) := by
  refine ⟨mk_valid hf hodd, ?_⟩
  rwa [pteFlags_mk hf]

lemma isLeaf_trampoline : IsLeaf trampolinePte := isLeaf_mk (by decide) rfl (by decide)

omit [Layout] in
lemma isLeaf_trapframe {tf : Nat} : IsLeaf (trapframePte tf) := isLeaf_mk (by decide) rfl (by decide)

lemma uvmunmapTop_spec (h : Heap s own live) (hr : ∀ path, live r path) (htop : Top v)
    (hw : IsLeaf (pteAt s.mem r v)) :
    wp (uvmunmap r (v * PGSIZE) 1 false) (fun _ s' => Heap s' own live ∧
      Frame r none s own s' own ∧ PteUpd r s s' v 0) Never s := by
  have hv : v + 1 ≤ NVPN := by
    simp only [Top, NVPN] at *
    omega
  unfold uvmunmap
  rw [if_neg (by rw [Nat.mul_mod_left]; exact fun e => e rfl), unmap_count hv]
  dsimp only
  rw [wp_bind, List.range_one, List.forIn_cons, wp_bind, wp_bind, Nat.zero_mul, Nat.add_zero]
  apply wp_mono (unmapTop_spec h hr htop hw)
  rintro _ s1 h1
  rw [wp_pure]
  dsimp only
  rw [List.forIn_nil, wp_pure, wp_pure]
  exact h1

omit [Layout] in
lemma Shape.trampoline (sh : Shape s.mem r n P x y) : pteAt s.mem r (NVPN - 1) = x := by
  rw [sh.rest _ (Nat.le_trans sh.le (by decide)) (by decide)]
  rfl

omit [Layout] in
lemma Shape.trapframe (sh : Shape s.mem r n P x y) : pteAt s.mem r (NVPN - 2) = y := by
  rw [sh.rest _ (Nat.le_trans sh.le (by decide)) (by decide)]
  unfold topPte
  rw [if_neg (by decide), if_pos rfl]

lemma procFreepagetable_spec {sz : Nat} (h : Heap s own live) (hr : ∀ path, live r path)
    (sh : Shape s.mem r (npages sz) P x y) (hP : ∀ w, P w → IsLeaf w) (hx : IsLeaf x)
    (hy : IsLeaf y) :
    wp (procFreepagetable r sz) (fun _ s' => ∃ own', Heap s' own' (Without live r []) ∧
      Dropped r s own s' own') Never s := by
  have h1 := uvmunmapTop_spec h hr (.inl rfl) (by rwa [sh.trampoline])
  unfold procFreepagetable
  rw [wp_bind]
  apply wp_mono h1
  rintro _ s1 ⟨h1, f1, hu1⟩
  have sh1 := sh.setTrampoline hu1
  have h2 := uvmunmapTop_spec h1 hr (.inr rfl) (by rwa [sh1.trapframe])
  rw [wp_bind]
  apply wp_mono h2
  rintro _ s2 ⟨h2, f2, hu2⟩
  apply wp_mono (uvmfree_spec h2 hr (sh1.setTrapframe hu2) hP)
  rintro _ s3 ⟨own3, h3, d⟩
  refine ⟨own3, h3, (f1.trans f2).tables.trans d.tables, d.keep, ?_, d.freed⟩
  intro p hpm hout
  exact ((f1.trans f2).same p nofun hpm hout).trans (d.same p hpm hout)

def With (live : Nat → List Nat → Prop) (r : Nat) : Nat → List Nat → Prop :=
  fun r' path => live r' path ∨ r' = r

lemma Heap.without_with (h : Heap s own (Without (With live r) r [])) (hr : ∀ path, ¬ live r path) :
    Heap s own live := by
  have e : Without (With live r) r [] = live := by
    funext r' path
    apply propext
    constructor
    · rintro ⟨h1 | h1, h2⟩
      · exact h1
      · exact absurd ⟨h1, List.nil_suffix⟩ h2
    · intro h1
      refine ⟨.inl h1, ?_⟩
      rintro ⟨rfl, _⟩
      exact hr _ h1
  rwa [e] at h

lemma Heap.not_live (h : Heap s own live) {k} (hr : own r = .free k) (path : List Nat) :
    ¬ live r path := by
  intro hl
  have := (h.root r (h.live_nil hl) r).2 rfl
  rw [hr] at this
  cases this

lemma uvmcreate_spec (h : Heap s own live) :
    wp uvmcreate (fun o s' => match o with
      | none => Heap s' own live ∧ Tables s s' ∧ s'.mem = s.mem
      | some r => (∃ k, own r = .free k) ∧ ∃ own', Heap s' own' (With live r) ∧
          Frame r none s own s' own' ∧ ∀ v, pteAt s'.mem r v = 0) Never s := by
  unfold uvmcreate
  rw [wp_bind]
  apply wp_mono (alloc_spec h)
  intro o s1 ho
  cases o with
  | none =>
    dsimp only
    rw [wp_pure]
    exact ho
  | some r =>
    dsimp only
    rw [wp_bind, wp_memset, wp_pure]
    have hqm := Fresh.mod ho
    have f1 := Fresh.write ho fun p hp hne => same_fill (c := 0) hqm hp hne
    obtain ⟨k, hk⟩ := f1.free
    have h2 := f1.heap.newRoot (update_self ..) (h.not_live hk) fun j hj => ent_fill hj
    rw [update_idem] at h2
    refine ⟨⟨k, hk⟩, _, h2, ⟨f1.tables, ?_, ?_⟩, ?_⟩
    · intro p _ ho
      by_cases hp : p = r
      · subst hp
        rw [update_self, hk] at ho
        exact absurd ho (by simp [Owner.Out])
      · rw [update_of_ne hp]
    · intro p _ hpm ho
      apply f1.same p hpm
      rintro rfl
      rw [hk] at ho
      exact ho
    · intro v
      apply h2.pteAt_none (.inr rfl)
      intro t ht
      by_cases hp : t = r
      · subst hp
        rw [update_self, Owner.slot.injEq] at ht
        have := congrArg List.length ht.2
        rw [lowPath_length] at this
        cases this
      · rw [update_of_ne hp] at ht
        exact h.not_live hk _ (h.owned t r _ ht).1

lemma undoPagetable_spec {s0 own0 k} (h0 : Heap s0 own0 live) (hr : own0 r = .free k)
    (h : Heap s own (With live r)) (f : Frame r none s0 own0 s own) (sh : Shape s.mem r 0 P 0 0)
    (hP : ∀ w, P w → IsLeaf w) :
    wp (uvmfree r 0 >>= fun _ => pure (none : Option Nat)) (fun o s' => match o with
      | none => ∃ own', Heap s' own' live ∧ Quiet s0 own0 s' own'
      | some r => (∃ k, own0 r = .free k) ∧ ∃ own', Heap s' own' (With live r) ∧
          Frame r none s0 own0 s' own' ∧ Shape s'.mem r 0 P x y) Never s := by
  rw [wp_bind]
  apply wp_mono (uvmfree_spec (n := 0) h (fun _ => .inr rfl) sh hP)
  rintro _ s1 ⟨own1, h1, d⟩
  rw [wp_pure]
  refine ⟨own1, h1.without_with (h0.not_live hr), f.quiet d ?_⟩
  intro p path hp
  exact h0.not_live hr path (h0.owned p r path hp).1

lemma trampoline_lt : Layout.trampoline < 2 ^ 56 := by
  have h1 := Layout.trampoline_lt
  have h2 := Layout.kend_lt
  simp only [PHYSTOP, KERNBASE] at h2
  omega

/-- `proc_pagetable` makes a table with the trampoline and the trapframe, or changes nothing. -/
lemma procPagetable_spec {tf : Nat} (h : Heap s own live) (htf : tf < 2 ^ 56)
    (hP : ∀ w, P w → IsLeaf w) :
    wp (procPagetable tf) (fun o s' => match o with
      | none => ∃ own', Heap s' own' live ∧ Quiet s own s' own'
      | some r => (∃ k, own r = .free k) ∧ ∃ own', Heap s' own' (With live r) ∧
          Frame r none s own s' own' ∧
          Shape s'.mem r 0 P trampolinePte (trapframePte tf)) Never s := by
  unfold procPagetable
  rw [wp_bind]
  apply wp_mono (uvmcreate_spec h)
  intro o s1 ho
  cases o with
  | none =>
    obtain ⟨h1, h2, h3⟩ := ho
    dsimp only
    rw [wp_pure]
    refine ⟨own, h1, h2, fun _ _ => rfl, fun p _ _ => ?_, fun p k hp => ⟨k, hp⟩⟩
    rw [h3]
    exact .refl
  | some r =>
    obtain ⟨⟨k, hk⟩, own1, h1, f1, hz⟩ := ho
    have hr : ∀ path, With live r r path := fun _ => .inr rfl
    have sh1 : Shape s1.mem r 0 P 0 0 := by
      refine ⟨Nat.zero_le _, nofun, fun v _ _ => ?_⟩
      unfold topPte
      rw [hz, ite_self, ite_self]
    dsimp only
    rw [wp_bind]
    refine wp_mono (mapTop_spec (v := NVPN - 1) h1 hr (.inl rfl) (hz _) trampoline_lt (by decide)) ?_
    rintro ok s2 ⟨own2, h2, f2, hok, hfail⟩
    cases ok with
    | false =>
      rw [if_neg (by nofun)]
      exact undoPagetable_spec h hk h2 (f1.trans f2) (sh1.congr (hfail rfl)) hP
    | true =>
      have sh2 := sh1.setTrampoline (hok rfl)
      rw [if_pos rfl, wp_bind]
      have hz2 : pteAt s2.mem r (NVPN - 2) = 0 := sh2.trapframe
      refine wp_mono (mapTop_spec (v := NVPN - 2) h2 hr (.inr rfl) hz2 htf (by decide)) ?_
      rintro ok s3 ⟨own3, h3, f3, hok3, hfail3⟩
      have f13 := (f1.trans f2).trans f3
      cases ok with
      | true =>
        rw [if_pos rfl, wp_pure]
        exact ⟨⟨k, hk⟩, own3, h3, f13, sh2.setTrapframe (hok3 rfl)⟩
      | false =>
        have sh3 := sh2.congr (hfail3 rfl)
        rw [if_neg (by nofun), wp_bind]
        have hu := uvmunmapTop_spec h3 hr (.inl rfl) (by rw [sh3.trampoline]; exact isLeaf_trampoline)
        apply wp_mono hu
        rintro _ s4 ⟨h4, f4, hu4⟩
        exact undoPagetable_spec h hk h4 (f13.trans f4) (sh3.setTrampoline hu4) hP

lemma Shape.hidden {tf : Nat} (sh : Shape s.mem r n P trampolinePte (trapframePte tf)) (v : Nat) (hv : Top v) :
    pteAt s.mem r v &&& PTE_U = 0 := by
  obtain rfl | rfl := hv
  · rw [sh.trampoline, trampolinePte, and_of_flags (by decide), pteFlags_mk (by decide)]
    decide
  · rw [sh.trapframe, trapframePte, and_of_flags (by decide), pteFlags_mk (by decide)]
    decide

end Xv6n
