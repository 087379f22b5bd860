import Xv6n.Lib.Links
import Xv6n.Lib.Update
import Xv6n.Vm.Vm

/-!
# Who owns a page

Every page that `kalloc` manages has one owner: a free list, a place in a page table, a process's
trapframe, a pipe, the boot code, or the running system call. `own` gives the owner of each page, and
`Heap` says that memory agrees with it: each free list is a chain of exactly the pages it owns, and
following a page table from its root leads to a page exactly if that place owns the page.

A place in a page table is a root with the indices that lead to it, the last one first; at three
indices it is a user page. The two pages at the top of the address space belong to no place. `live`
are the places that are in use: while a table is taken apart, the part that is gone is not.
-/

namespace Xv6n
open Lib KernM Function
variable {mem : Nat → UInt8} {v : Nat}

inductive Owner where
  | kernel
  | free (i : Option (Fin NCPU))
  | slot (r : Nat) (path : List Nat)
  | trapframe (i : Fin NPROC)
  | pipe
  | boot
  | held
deriving DecidableEq

/-- Two memories agree on the page at `p`. -/
def Same (f g : Nat → UInt8) (p : Nat) : Prop := ∀ a, p ≤ a → a < p + PGSIZE → g a = f a

/-- Entry `i` of the page-table page `t`. -/
def ent (mem : Nat → UInt8) (t i : Nat) : Nat := le mem (t + 8 * i) 8

/-- The page below entry `i` of the page-table page `t`. -/
def child (mem : Nat → UInt8) (t i : Nat) : Option Nat :=
  if ent mem t i &&& PTE_V ≠ 0 then some (pte2pa (ent mem t i)) else none

/-- The page at a place of the table with root `r`. -/
def pageAt (mem : Nat → UInt8) (r : Nat) (path : List Nat) : Option Nat := descend (child mem) r path

/-- The place of page-table pages for virtual page `v`. -/
def lowPath (v : Nat) : List Nat := [v / 512 % 512, v / 512 / 512 % 512]

/-- The place of virtual page `v`. -/
def leafPath (v : Nat) : List Nat := (v % 512) :: lowPath v

/-- The entry for virtual page `v` in the table with root `r`; 0 if its page-table page is missing. -/
def pteAt (mem : Nat → UInt8) (r v : Nat) : Nat :=
  match pageAt mem r (lowPath v) with
  | some t => ent mem t (v % 512)
  | none => 0

/-- The number of virtual pages below `MAXVA`. -/
abbrev NVPN : Nat := 2 ^ 26

abbrev NLEAF : Nat := 2 ^ 27

/-- Virtual page `v` is the trampoline or the trapframe. -/
def Top (v : Nat) : Prop := v = NVPN - 1 ∨ v = NVPN - 2

structure IsSlot (path : List Nat) : Prop where
  length : path.length ≤ 3
  lt : ∀ i ∈ path, i < 512
  low : ∀ v, Top v → path ≠ leafPath v

structure IsTable (path : List Nat) : Prop where
  length : path.length ≤ 2
  lt : ∀ i ∈ path, i < 512

lemma IsTable.slot {path} (h : IsTable path) : IsSlot path := by
  refine ⟨Nat.le_succ_of_le h.length, h.lt, ?_⟩
  rintro v _ rfl
  have := h.length
  simp [leafPath, lowPath] at this

lemma IsSlot.table {i : Nat} {path} (h : IsSlot (i :: path)) : IsTable path :=
  ⟨Nat.le_of_succ_le_succ h.length, fun j hj => h.lt j (List.mem_cons_of_mem _ hj)⟩

lemma IsSlot.head {i : Nat} {path} (h : IsSlot (i :: path)) : i < 512 := h.lt i (List.mem_cons_self ..)

lemma IsTable.cons {i : Nat} {path} (h : IsTable path) (hlen : path.length < 2) (hi : i < 512) :
    IsTable (i :: path) := by
  refine ⟨hlen, ?_⟩
  intro j hj
  obtain rfl | hj := List.mem_cons.1 hj
  · exact hi
  · exact h.lt j hj

lemma isTable_lowPath : IsTable (lowPath v) := by
  refine ⟨Nat.le_refl _, ?_⟩
  intro i hi
  simp only [lowPath, List.mem_cons, List.not_mem_nil, or_false] at hi
  omega

lemma leafPath_inj {v w : Nat} (hv : v < NLEAF) (hw : w < NLEAF) (h : leafPath v = leafPath w) :
    v = w := by
  simp only [leafPath, lowPath, List.cons.injEq, and_true, NLEAF] at *
  omega

lemma isSlot_leafPath (hv : v < NLEAF) (ht : ¬ Top v) : IsSlot (leafPath v) := by
  refine ⟨Nat.le_refl _, ?_, ?_⟩
  · intro i hi
    simp only [leafPath, lowPath, List.mem_cons, List.not_mem_nil, or_false] at hi
    omega
  · intro w hw e
    have hlt : w < NLEAF := by
      simp only [Top, NVPN, NLEAF] at *
      omega
    rw [leafPath_inj hv hlt e] at ht
    exact ht hw

lemma pageAt_leafPath {r v : Nat} :
    pageAt mem r (leafPath v) =
      if pteAt mem r v &&& PTE_V ≠ 0 then some (pte2pa (pteAt mem r v)) else none := by
  unfold pteAt pageAt leafPath
  rw [descend_cons]
  cases descend (child mem) r (lowPath v) with
  | none => simp
  | some t => rfl

lemma lowPath_eq : lowPath v = [v / 512 % 512, v / 512 / 512 % 512] := rfl

lemma leafPath_eq : leafPath v = (v % 512) :: lowPath v := rfl

lemma lowPath_length : (lowPath v).length = 2 := rfl

lemma leafPath_length : (leafPath v).length = 3 := rfl

lemma lowPath_ne_leafPath {v w : Nat} : lowPath v ≠ leafPath w := by
  intro e
  have := congrArg List.length e
  rw [lowPath_length, leafPath_length] at this
  omega

lemma eq_of_lowPath {v w : Nat} (hv : v < NLEAF) (hw : w < NLEAF) (h : lowPath v = lowPath w)
    (hmod : v % 512 = w % 512) : v = w := by
  apply leafPath_inj hv hw
  rw [leafPath_eq, leafPath_eq, h, hmod]

lemma exists_lowPath {path : List Nat} {i : Nat} (hp : IsTable path) (hlen : path.length = 2)
    (hi : i < 512) : ∃ v, v < NLEAF ∧ lowPath v = path ∧ v % 512 = i := by
  obtain ⟨a, b, rfl⟩ := List.length_eq_two.1 hlen
  have ha := hp.lt a (by simp)
  have hb := hp.lt b (by simp)
  refine ⟨(b * 512 + a) * 512 + i, by simp only [NLEAF]; omega, ?_, by omega⟩
  rw [lowPath_eq, List.cons.injEq, List.cons.injEq]
  exact ⟨by omega, by omega, rfl⟩

-- indices are compared by the lemmas above and not by computing them
attribute [irreducible] lowPath leafPath

lemma ent_putLe_of_ne {t t' i j w : Nat} (h : t' + 8 * j ≠ t + 8 * i)
    (ht : t % PGSIZE = 0) (ht' : t' % PGSIZE = 0) : ent (putLe mem (t + 8 * i) 8 w) t' j = ent mem t' j := by
  apply le_putLe_of_disjoint
  simp only [PGSIZE] at ht ht'
  omega

lemma ent_putLe {t i w : Nat} (hw : w < 2 ^ 64) :
    ent (putLe mem (t + 8 * i) 8 w) t i = w := by
  unfold ent
  rw [le_putLe]
  exact Nat.mod_eq_of_lt (by simpa using hw)

lemma Same.ent {f g : Nat → UInt8} {t i : Nat} (h : Same f g t) (hi : i < 512) :
    ent g t i = ent f t i := by
  apply le_congr
  intro a h1 h2
  simp only [Same, PGSIZE] at h
  exact h a (by omega) (by omega)

lemma Same.child {f g : Nat → UInt8} {t i : Nat} (h : Same f g t) (hi : i < 512) :
    child g t i = child f t i := by
  unfold Xv6n.child
  rw [h.ent hi]

lemma child_of_zero {t i : Nat} (h : ent mem t i = 0) : child mem t i = none := by
  unfold child
  rw [h]
  rfl

lemma page_disjoint {p q : Nat} (hp : p % PGSIZE = 0) (hq : q % PGSIZE = 0) (h : p ≠ q) :
    p + PGSIZE ≤ q ∨ q + PGSIZE ≤ p := by
  simp only [PGSIZE] at *
  omega

lemma same_putLe {t i p w : Nat} (ht : t % PGSIZE = 0) (hi : i < 512)
    (hp : p % PGSIZE = 0) (hne : p ≠ t) : Same mem (putLe mem (t + 8 * i) 8 w) p := by
  intro a h1 h2
  have := page_disjoint hp ht hne
  simp only [PGSIZE] at *
  exact putLe_of_out (by omega)

lemma ent_fill {q j : Nat} (hj : j < 512) : ent (fill mem q PGSIZE 0) q j = 0 := by
  apply le_zero
  intro a h1 h2
  apply fill_of_in
  simp only [PGSIZE]
  omega

lemma same_fill {c : UInt8} {p q : Nat} (hq : q % PGSIZE = 0) (hp : p % PGSIZE = 0)
    (hne : p ≠ q) : Same mem (fill mem q PGSIZE c) p := by
  intro a h1 h2
  have := page_disjoint hp hq hne
  exact fill_of_out (by omega)

lemma same_putBytes {l : List UInt8} {o p q : Nat} (hq : q % PGSIZE = 0)
    (hp : p % PGSIZE = 0) (hne : p ≠ q) (hl : o + l.length ≤ PGSIZE) :
    Same mem (putBytes mem (q + o) l) p := by
  intro a h1 h2
  have := page_disjoint hp hq hne
  exact putBytes_of_out (by omega)

lemma same_copy {b p q : Nat} (hq : q % PGSIZE = 0) (hp : p % PGSIZE = 0)
    (hne : p ≠ q) : Same mem (copy mem q b PGSIZE) p := by
  intro a h1 h2
  have := page_disjoint hp hq hne
  exact copy_of_out (by omega)

lemma Same.link {f g : Nat → UInt8} {p : Nat} (h : Same f g p) : le g p 8 = le f p 8 := by
  apply le_congr
  intro a h1 h2
  simp only [Same, PGSIZE] at h
  exact h a h1 (by omega)

section
variable [Layout]

/-- A page that `kalloc` manages. -/
def Managed (p : Nat) : Prop := p % PGSIZE = 0 ∧ heapStart ≤ p ∧ p < PHYSTOP

lemma kend_le_heapStart : Layout.kend ≤ heapStart := by
  have := Layout.kend_lt
  simp only [PHYSTOP, KERNBASE] at this
  unfold heapStart
  apply Nat.le_trans _ (le_pgRoundUp _)
  · exact Nat.le_add_right ..
  · simp only [NCPU]
    omega

lemma Managed.lt {p} (h : Managed p) : KERNBASE ≤ p ∧ p < 2 ^ 32 := by
  have h1 := Layout.kernbase_le
  have h2 := kend_le_heapStart
  have h3 := h.2
  simp only [PHYSTOP, KERNBASE] at *
  omega

lemma Managed.ne_zero {p} (h : Managed p) : p ≠ 0 := by
  have := h.lt.1
  simp only [KERNBASE] at this
  omega

/-- Memory agrees with the owners `own`. -/
structure Heap (s : Kernel) (own : Nat → Owner) (live : Nat → List Nat → Prop) : Prop where
  managed : ∀ p, own p ≠ .kernel ↔ Managed p
  free : ∀ i, ∃ l, Chain (fun p => le s.mem p 8) (s.freelist i) l ∧ l.Nodup ∧
    ∀ p, own p = .free i ↔ p ∈ l
  root : ∀ r, live r [] → ∀ p, own p = .slot r [] ↔ p = r
  sub : ∀ r i path, live r (i :: path) → IsSlot (i :: path) → ∀ p,
    own p = .slot r (i :: path) ↔ ∃ t, own t = .slot r path ∧ child s.mem t i = some p
  owned : ∀ p r path, own p = .slot r path → live r path ∧ IsSlot path
  up : ∀ r i path, live r (i :: path) → live r path
  entry : ∀ r i path t, live r (i :: path) → IsTable (i :: path) → own t = .slot r path →
    ent s.mem t i = 0 ∨ pteFlags (ent s.mem t i) = PTE_V

section heap
variable {s s' : Kernel} {own : Nat → Owner} {live live' : Nat → List Nat → Prop} {r t q i w : Nat}
  {path : List Nat}

section
variable (h : Heap s own live)
include h

lemma Heap.mod {p} (hp : own p ≠ .kernel) : p % PGSIZE = 0 :=
  ((h.managed p).1 hp).1

lemma Heap.slot_mod (ht : own t = .slot r path) : t % PGSIZE = 0 :=
  h.mod (by rw [ht]; nofun)

lemma Heap.live_nil (hl : live r path) : live r [] := by
  induction path with
  | nil => exact hl
  | cons i path ih => exact ih (h.up r i path hl)

lemma Heap.pageAt_iff (hl : live r path) (hp : IsSlot path) {p} :
    pageAt s.mem r path = some p ↔ own p = .slot r path := by
  induction path generalizing p with
  | nil =>
    rw [h.root r hl]
    exact Option.some_inj.trans eq_comm
  | cons i path ih =>
    have ih := @ih (h.up r i path hl) hp.table.slot
    rw [h.sub r i path hl hp, pageAt, descend_cons, Option.bind_eq_some_iff]
    constructor
    · rintro ⟨t, ht, hc⟩
      exact ⟨t, ih.1 ht, hc⟩
    · rintro ⟨t, ht, hc⟩
      exact ⟨t, ih.2 ht, hc⟩

lemma Heap.pteAt_some (hl : live r (lowPath i))
    (ht : own t = .slot r (lowPath i)) : pteAt s.mem r i = ent s.mem t (i % 512) := by
  unfold pteAt
  rw [(h.pageAt_iff hl isTable_lowPath.slot).2 ht]

lemma Heap.pteAt_none (hl : live r (lowPath i))
    (hn : ∀ t, own t ≠ .slot r (lowPath i)) : pteAt s.mem r i = 0 := by
  unfold pteAt
  cases e : pageAt s.mem r (lowPath i) with
  | none => rfl
  | some t => exact absurd ((h.pageAt_iff hl isTable_lowPath.slot).1 e) (hn t)

lemma Heap.pteAt_low {own' : Nat → Owner} (h' : Heap s' own' live')
    (hl : live r (lowPath i)) (hl' : live' r (lowPath i))
    (hown : ∀ p, own' p = .slot r (lowPath i) ↔ own p = .slot r (lowPath i))
    (hm : ∀ p, own p = .slot r (lowPath i) → Same s.mem s'.mem p) : pteAt s'.mem r i = pteAt s.mem r i := by
  by_cases ht : ∃ t, own t = .slot r (lowPath i)
  · obtain ⟨t, ht⟩ := ht
    rw [h.pteAt_some hl ht, h'.pteAt_some hl' ((hown t).2 ht)]
    exact (hm t ht).ent (Nat.mod_lt _ (by decide))
  · rw [not_exists] at ht
    rw [h.pteAt_none hl ht]
    exact h'.pteAt_none hl' fun t ht' => ht t ((hown t).1 ht')

lemma Heap.pteAt_same {own' : Nat → Owner} (h' : Heap s' own' live')
    (hl : ∀ path, live r path) (hl' : ∀ path, live' r path)
    (hown : ∀ p path, own' p = .slot r path ↔ own p = .slot r path)
    (hm : ∀ p path, own p = .slot r path → path.length = 2 → Same s.mem s'.mem p) :
    pteAt s'.mem r i = pteAt s.mem r i :=
  h.pteAt_low h' (hl _) (hl' _) (fun p => hown p _) fun p hp => hm p _ hp lowPath_length

lemma Heap.leaf_iff (hl : live r (leafPath i)) (hi : i < NLEAF)
    (htop : ¬ Top i) {p} : own p = .slot r (leafPath i) ↔
      pteAt s.mem r i &&& PTE_V ≠ 0 ∧ pte2pa (pteAt s.mem r i) = p := by
  rw [← h.pageAt_iff hl (isSlot_leafPath hi htop), pageAt_leafPath]
  split
  · rename_i hv
    rw [Option.some_inj]
    exact ⟨fun e => ⟨hv, e⟩, fun e => e.2⟩
  · rename_i hv
    exact ⟨nofun, fun e => absurd e.1 hv⟩

lemma Heap.free_congr {mem'} (hm : ∀ p i, own p = .free i → Same s.mem mem' p)
    (i : Option (Fin NCPU)) : ∃ l, Chain (fun p => le mem' p 8) (s.freelist i) l ∧ l.Nodup ∧
      ∀ p, own p = .free i ↔ p ∈ l := by
  obtain ⟨l, hc, hn, hl⟩ := h.free i
  exact ⟨l, hc.congr fun p hp => (hm p i ((hl p).2 hp)).link, hn, hl⟩

lemma Heap.congr (hfl : s'.freelist = s.freelist)
    (hfree : ∀ p i, own p = .free i → Same s.mem s'.mem p)
    (hchild : ∀ t r path i, own t = .slot r path → IsTable path → i < 512 →
      child s'.mem t i = child s.mem t i)
    (hent : ∀ t r path i, own t = .slot r path → IsTable (i :: path) →
      ent s'.mem t i = ent s.mem t i) : Heap s' own live := by
  refine ⟨h.managed, ?_, h.root, ?_, h.owned, h.up, ?_⟩
  · rw [hfl]
    exact h.free_congr hfree
  · intro r i path hl hs p
    rw [h.sub r i path hl hs]
    constructor
    · rintro ⟨t, ht, hc⟩
      exact ⟨t, ht, by rwa [hchild t r path i ht hs.table hs.head]⟩
    · rintro ⟨t, ht, hc⟩
      exact ⟨t, ht, by rwa [hchild t r path i ht hs.table hs.head] at hc⟩
  · intro r i path t hl hs ht
    rw [hent t r path i ht hs]
    exact h.entry r i path t hl hs ht

end

def Owner.Links : Owner → Prop
  | .free _ => True
  | .slot _ path => path.length ≤ 2
  | _ => False

section
variable (h : Heap s own live)
include h

lemma Heap.write {mem'}
    (hm : ∀ p, p % PGSIZE = 0 → (own p).Links → Same s.mem mem' p) :
    Heap { s with mem := mem' } own live := by
  have hslot : ∀ t r path, own t = .slot r path → path.length ≤ 2 → Same s.mem mem' t := by
    intro t r path ht hlen
    apply hm t (h.slot_mod ht)
    rw [ht]
    exact hlen
  refine h.congr rfl ?_ ?_ ?_
  · intro p i hp
    exact hm p (h.mod (by rw [hp]; nofun)) (by rw [hp]; trivial)
  · intro t r path i ht hp hi
    exact (hslot t r path ht hp.length).child hi
  · intro t r path i ht hp
    have hlen := hp.length
    rw [List.length_cons] at hlen
    exact (hslot t r path ht (by omega)).ent (hp.lt i (List.mem_cons_self ..))

lemma Heap.putDead (ht : own t = .slot r path)
    (hd : ¬ (live r (i :: path) ∧ IsSlot (i :: path))) (hi : i < 512) :
    Heap { s with mem := putLe s.mem (t + 8 * i) 8 w } own live := by
  have hmod := h.slot_mod ht
  have hpage : ∀ p, p % PGSIZE = 0 → p ≠ t → Same s.mem (putLe s.mem (t + 8 * i) 8 w) p :=
    fun p hp hne => same_putLe hmod hi hp hne
  -- no place in use goes through the entry that changes
  have hother : ∀ t' r' path' j, own t' = .slot r' path' → live r' (j :: path') →
      IsSlot (j :: path') → ent (putLe s.mem (t + 8 * i) 8 w) t' j = ent s.mem t' j := by
    intro t' r' path' j ht' hl hs
    by_cases hne : t' = t
    · subst hne
      cases ht.symm.trans ht'
      apply ent_putLe_of_ne _ hmod hmod
      rintro e
      have : j = i := by omega
      subst this
      exact hd ⟨hl, hs⟩
    · exact (hpage t' (h.slot_mod ht') hne).ent hs.head
  refine ⟨h.managed, ?_, h.root, ?_, h.owned, h.up, ?_⟩
  · apply h.free_congr
    intro p k ho
    apply hpage p (h.mod (by rw [ho]; nofun))
    rintro rfl
    rw [ht] at ho
    cases ho
  · intro r' j path' hl hs p
    rw [h.sub r' j path' hl hs]
    apply exists_congr
    intro t'
    apply and_congr_right
    intro ht'
    unfold child
    rw [hother t' r' path' j ht' hl hs]
  · intro r' j path' t' hl hs ht'
    rw [hother t' r' path' j ht' hl hs.slot]
    exact h.entry r' j path' t' hl hs ht'

lemma Heap.link (ht : own t = .slot r path) (hslot : IsSlot (i :: path))
    (hlive : live r (i :: path)) (he : child s.mem t i = none) (hq : own q = .held)
    (hz : path.length < 2 → ∀ j, j < 512 → ent s.mem q j = 0) (hw : w < 2 ^ 64)
    (hv : w &&& PTE_V ≠ 0) (hpa : pte2pa w = q) (hf : path.length < 2 → pteFlags w = PTE_V) :
    Heap { s with mem := putLe s.mem (t + 8 * i) 8 w }
      (update own q (.slot r (i :: path))) live := by
  have hmod := h.slot_mod ht
  have hqmod : q % PGSIZE = 0 := h.mod (by rw [hq]; nofun)
  have htq : t ≠ q := by
    rintro rfl
    rw [hq] at ht
    cases ht
  have hpage : ∀ p, p % PGSIZE = 0 → p ≠ t → Same s.mem (putLe s.mem (t + 8 * i) 8 w) p :=
    fun p hp hne => same_putLe hmod hslot.head hp hne
  have hnew : child (putLe s.mem (t + 8 * i) 8 w) t i = some q := by
    unfold child
    rw [ent_putLe hw, if_pos hv, hpa]
  have hsame : ∀ j, j ≠ i → ent (putLe s.mem (t + 8 * i) 8 w) t j = ent s.mem t j := by
    intro j hj
    exact ent_putLe_of_ne (by omega) hmod hmod
  refine ⟨?_, ?_, ?_, ?_, ?_, h.up, ?_⟩
  · intro p
    by_cases hp : p = q
    · subst hp
      rw [update_self, ← h.managed p, hq]
      simp
    · rw [update_of_ne hp]
      exact h.managed p
  · intro k
    have hfree : ∀ p k, own p = .free k → Same s.mem (putLe s.mem (t + 8 * i) 8 w) p := by
      intro p k ho
      apply hpage p (h.mod (by rw [ho]; nofun))
      rintro rfl
      rw [ht] at ho
      cases ho
    obtain ⟨l, hc, hn, hl⟩ := h.free_congr hfree k
    refine ⟨l, hc, hn, fun p => ?_⟩
    by_cases hp : p = q
    · subst hp
      rw [update_self, ← hl p, hq]
      simp
    · rw [update_of_ne hp]
      exact hl p
  · intro r' hl p
    by_cases hp : p = q
    · subst hp
      rw [update_self, ← h.root r' hl p, hq]
      simp
    · rw [update_of_ne hp]
      exact h.root r' hl p
  · intro r' j path' hl hs p
    constructor
    · intro ho
      by_cases hp : p = q
      · subst hp
        rw [update_self] at ho
        cases ho
        exact ⟨t, by rw [update_of_ne htq, ht], hnew⟩
      · rw [update_of_ne hp, h.sub r' j path' hl hs] at ho
        obtain ⟨t', ht', hc⟩ := ho
        have hne : t' ≠ q := by
          rintro rfl
          rw [hq] at ht'
          cases ht'
        refine ⟨t', by rw [update_of_ne hne, ht'], ?_⟩
        by_cases htt : t' = t
        · subst htt
          by_cases hj : j = i
          · subst hj
            rw [he] at hc
            cases hc
          · dsimp only
            unfold child
            rw [hsame j hj]
            exact hc
        · exact ((hpage t' (h.slot_mod ht') htt).child hs.head).trans hc
    · rintro ⟨t', ht', hc⟩
      by_cases hne : t' = q
      · -- the new page has no children yet
        subst hne
        rw [update_self] at ht'
        cases ht'
        have hlen := hs.length
        simp only [List.length_cons] at hlen
        have hzero := hz (by omega) j hs.head
        dsimp only at hc
        rw [(hpage t' hqmod htq.symm).child hs.head, child_of_zero hzero] at hc
        cases hc
      · rw [update_of_ne hne] at ht'
        by_cases htt : t' = t ∧ j = i
        · obtain ⟨rfl, rfl⟩ := htt
          cases ht.symm.trans ht'
          cases hnew.symm.trans hc
          rw [update_self]
        · have hold : child s.mem t' j = some p := by
            rw [← hc]
            by_cases h1 : t' = t
            · subst h1
              have hj : j ≠ i := fun e => htt ⟨rfl, e⟩
              dsimp only
              unfold child
              rw [hsame j hj]
            · exact ((hpage t' (h.slot_mod ht') h1).child hs.head).symm
          have ho := (h.sub r' j path' hl hs p).2 ⟨t', ht', hold⟩
          have hp : p ≠ q := by
            rintro rfl
            rw [hq] at ho
            cases ho
          rwa [update_of_ne hp]
  · intro p r' path' ho
    by_cases hp : p = q
    · subst hp
      rw [update_self] at ho
      cases ho
      exact ⟨hlive, hslot⟩
    · rw [update_of_ne hp] at ho
      exact h.owned p r' path' ho
  · intro r' j path' t' hl hs ht'
    by_cases hne : t' = q
    · subst hne
      rw [update_self] at ht'
      cases ht'
      have hlen := hs.length
      simp only [List.length_cons] at hlen
      left
      rw [(hpage t' hqmod htq.symm).ent (hs.lt j (List.mem_cons_self ..))]
      exact hz (by omega) j (hs.lt j (List.mem_cons_self ..))
    · rw [update_of_ne hne] at ht'
      by_cases htt : t' = t
      · subst htt
        cases ht.symm.trans ht'
        by_cases hj : j = i
        · subst hj
          right
          have hlen := hs.length
          rw [List.length_cons] at hlen
          dsimp only
          rw [ent_putLe hw]
          exact hf (by omega)
        · dsimp only
          rw [hsame j hj]
          exact h.entry _ j _ _ hl hs ht'
      · dsimp only
        rw [(hpage t' (h.slot_mod ht') htt).ent (hs.lt j (List.mem_cons_self ..))]
        exact h.entry r' j path' t' hl hs ht'

/-- Putting a page on a free list. Places that are no longer in use may be dropped with it. -/
lemma Heap.push {k mem'} (hq : own q ≠ .kernel)
    (hqf : ∀ k, own q ≠ .free k) (hsub : ∀ r path, live' r path → live r path)
    (hown : ∀ p r path, own p = .slot r path → p ≠ q → live' r path)
    (hdead : ∀ r path, own q = .slot r path → ¬ live' r path)
    (hup : ∀ r i path, live' r (i :: path) → live' r path)
    (hm : ∀ p, p % PGSIZE = 0 → p ≠ q → Same s.mem mem' p) (hlink : le mem' q 8 = s.freelist k) :
    Heap { s with mem := mem', freelist := update s.freelist k q }
      (update own q (.free k)) live' := by
  have hqm := (h.managed q).1 hq
  have hfree : ∀ p j, own p = .free j → Same s.mem mem' p := by
    intro p j ho
    apply hm p (h.mod (by rw [ho]; nofun))
    rintro rfl
    exact hqf j ho
  refine ⟨?_, ?_, ?_, ?_, ?_, hup, ?_⟩
  · intro p
    by_cases hp : p = q
    · subst hp
      rw [update_self, ← h.managed p]
      simpa using hq
    · rw [update_of_ne hp]
      exact h.managed p
  · intro j
    obtain ⟨l, hc, hn, hl'⟩ := h.free_congr hfree j
    have hql : q ∉ l := fun e => hqf j ((hl' q).2 e)
    by_cases hj : j = k
    · subst hj
      refine ⟨q :: l, ⟨?_, hqm.ne_zero, ?_⟩, List.nodup_cons.2 ⟨hql, hn⟩, fun p => ?_⟩
      · exact update_self ..
      · dsimp only
        rwa [hlink]
      · by_cases hp : p = q
        · subst hp
          simp
        · rw [update_of_ne hp, hl', List.mem_cons]
          simp [hp]
    · refine ⟨l, ?_, hn, fun p => ?_⟩
      · dsimp only
        rwa [update_of_ne hj]
      · by_cases hp : p = q
        · subst hp
          rw [update_self]
          simp [hql, Ne.symm hj]
        · rw [update_of_ne hp, hl']
  · intro r hl p
    by_cases hp : p = q
    · subst hp
      rw [update_self]
      constructor
      · nofun
      · rintro rfl
        exact absurd hl (hdead _ _ ((h.root _ (hsub _ _ hl) _).2 rfl))
    · rw [update_of_ne hp]
      exact h.root r (hsub _ _ hl) p
  · intro r i path hl hs p
    constructor
    · intro ho
      obtain ⟨hp, ho⟩ := of_update ho nofun
      rw [h.sub r i path (hsub _ _ hl) hs] at ho
      obtain ⟨t, ht, hc⟩ := ho
      have htq : t ≠ q := by
        rintro rfl
        exact hdead _ _ ht (hup _ _ _ hl)
      refine ⟨t, by rwa [update_of_ne htq], ?_⟩
      exact ((hm t (h.slot_mod ht) htq).child hs.head).trans hc
    · rintro ⟨t, ht, hc⟩
      obtain ⟨htq, ht⟩ := of_update ht nofun
      have hc' := ((hm t (h.slot_mod ht) htq).child hs.head).symm.trans hc
      have ho := (h.sub r i path (hsub _ _ hl) hs p).2 ⟨t, ht, hc'⟩
      have hp : p ≠ q := by
        rintro rfl
        exact hdead _ _ ho hl
      rwa [update_of_ne hp]
  · intro p r path ho
    obtain ⟨hp, ho⟩ := of_update ho nofun
    exact ⟨hown p r path ho hp, (h.owned p r path ho).2⟩
  · intro r i path t hl hs ht
    obtain ⟨htq, ht⟩ := of_update ht nofun
    dsimp only
    rw [(hm t (h.slot_mod ht) htq).ent (hs.lt i (List.mem_cons_self ..))]
    exact h.entry r i path t (hsub _ _ hl) hs ht

lemma Heap.pop {k mem'} (hq : s.freelist k ≠ 0)
    (hm : ∀ p, p % PGSIZE = 0 → p ≠ s.freelist k → Same s.mem mem' p) :
    own (s.freelist k) = .free k ∧
    Heap { s with mem := mem', freelist := update s.freelist k (le s.mem (s.freelist k) 8) }
      (update own (s.freelist k) .held) live := by
  obtain ⟨l, hc, hn, hl⟩ := h.free k
  obtain ⟨l', rfl, hc'⟩ := hc.uncons hq
  rw [List.nodup_cons] at hn
  have hk : own (s.freelist k) = .free k := (hl _).2 (List.mem_cons_self ..)
  generalize hqe : s.freelist k = q at *
  refine ⟨hk, ?_⟩
  have hfree : ∀ p j, own p = .free j → p ≠ q → Same s.mem mem' p := by
    intro p j ho hp
    exact hm p (h.mod (by rw [ho]; nofun)) hp
  have hslot : ∀ p r path, own p = .slot r path → p ≠ q := by
    rintro p r path ho rfl
    rw [hk] at ho
    cases ho
  have hupd : ∀ p r path, update own q .held p = .slot r path ↔ own p = .slot r path := by
    intro p r path
    by_cases hp : p = q
    · subst hp
      rw [update_self, hk]
      simp
    · rw [update_of_ne hp]
  refine ⟨?_, ?_, ?_, ?_, ?_, h.up, ?_⟩
  · intro p
    by_cases hp : p = q
    · subst hp
      rw [update_self, ← h.managed p, hk]
      simp
    · rw [update_of_ne hp]
      exact h.managed p
  · intro j
    by_cases hj : j = k
    · subst hj
      refine ⟨l', ?_, hn.2, fun p => ?_⟩
      · dsimp only
        rw [update_self]
        apply hc'.congr
        intro p hp
        refine (hfree p j ((hl p).2 (List.mem_cons_of_mem _ hp)) ?_).link
        rintro rfl
        exact hn.1 hp
      · by_cases hp : p = q
        · subst hp
          rw [update_self]
          simp [hn.1]
        · rw [update_of_ne hp, hl, List.mem_cons]
          simp [hp]
    · obtain ⟨lj, hcj, hnj, hlj⟩ := h.free j
      refine ⟨lj, ?_, hnj, fun p => ?_⟩
      · dsimp only
        rw [update_of_ne hj]
        apply hcj.congr
        intro p hp
        refine (hfree p j ((hlj p).2 hp) ?_).link
        rintro rfl
        rw [(hlj p).2 hp] at hk
        cases hk
        exact hj rfl
      · by_cases hp : p = q
        · subst hp
          rw [update_self, ← hlj p, hk]
          simp [Ne.symm hj]
        · rw [update_of_ne hp, hlj]
  · intro r hl p
    rw [hupd]
    exact h.root r hl p
  · intro r i path hl hs p
    rw [hupd, h.sub r i path hl hs]
    apply exists_congr
    intro t
    rw [hupd]
    apply and_congr_right
    intro ht
    dsimp only
    rw [(hm t (h.slot_mod ht) (hslot t r path ht)).child hs.head]
  · intro p r path ho
    rw [hupd] at ho
    exact h.owned p r path ho
  · intro r i path t hl hs ht
    rw [hupd] at ht
    dsimp only
    rw [(hm t (h.slot_mod ht) (hslot t r path ht)).ent (hs.lt i (List.mem_cons_self ..))]
    exact h.entry r i path t hl hs ht

lemma Heap.revive (hsub : ∀ r path, live r path → live' r path)
    (hup : ∀ r i path, live' r (i :: path) → live' r path) (hroot : ∀ r, live' r [] → live r [])
    (hz : ∀ r i path t, live' r (i :: path) → ¬ live r (i :: path) → own t = .slot r path →
      ent s.mem t i = 0) : Heap s own live' := by
  refine ⟨h.managed, h.free, fun r hl => h.root r (hroot r hl), ?_, ?_, hup, ?_⟩
  · intro r i path hl hs p
    by_cases hlive : live r (i :: path)
    · exact h.sub r i path hlive hs p
    · constructor
      · intro ho
        exact absurd (h.owned p r _ ho).1 hlive
      · rintro ⟨t, ht, hc⟩
        rw [child_of_zero (hz r i path t hl hlive ht)] at hc
        cases hc
  · intro p r path ho
    obtain ⟨h1, h2⟩ := h.owned p r path ho
    exact ⟨hsub _ _ h1, h2⟩
  · intro r i path t hl hs ht
    by_cases hlive : live r (i :: path)
    · exact h.entry r i path t hlive hs ht
    · exact .inl (hz r i path t hl hlive ht)

end

def Owner.Plain : Owner → Prop
  | .trapframe _ => True
  | .pipe => True
  | .boot => True
  | .held => True
  | _ => False

lemma Heap.retag (h : Heap s own live) {o} (hq : (own q).Plain) (ho : o.Plain) :
    Heap s (update own q o) live := by
  have hupd : ∀ p o', ¬ o'.Plain → (update own q o p = o' ↔ own p = o') := by
    intro p o' hn
    by_cases hp : p = q
    · subst hp
      rw [update_self]
      constructor
      · rintro rfl
        exact absurd ho hn
      · rintro rfl
        exact absurd hq hn
    · rw [update_of_ne hp]
  have hslot : ∀ p r path, update own q o p = .slot r path ↔ own p = .slot r path :=
    fun p r path => hupd p _ id
  refine ⟨?_, ?_, ?_, ?_, ?_, h.up, ?_⟩
  · intro p
    rw [Ne, hupd p .kernel id]
    exact h.managed p
  · intro i
    obtain ⟨l, h1, h2, h3⟩ := h.free i
    refine ⟨l, h1, h2, fun p => ?_⟩
    rw [hupd p (.free i) id]
    exact h3 p
  · intro r hl p
    rw [hslot]
    exact h.root r hl p
  · intro r i path hl hs p
    rw [hslot, h.sub r i path hl hs]
    simp only [hslot]
  · intro p r path hp
    exact h.owned p r path ((hslot p r path).1 hp)
  · intro r i path t hl hs ht
    exact h.entry r i path t hl hs ((hslot t r path).1 ht)

lemma Heap.newRoot (h : Heap s own live) (hq : own q = .held) (hlive : ∀ path, ¬ live q path)
    (hz : ∀ j, j < 512 → ent s.mem q j = 0) :
    Heap s (update own q (.slot q [])) fun r path => live r path ∨ r = q := by
  have hupd : ∀ p r path, r ≠ q →
      (update own q (.slot q []) p = .slot r path ↔ own p = .slot r path) := by
    intro p r path hr
    by_cases hp : p = q
    · subst hp
      rw [update_self, hq]
      simp [Ne.symm hr]
    · rw [update_of_ne hp]
  have hq' : ∀ p path, update own q (.slot q []) p = .slot q path ↔ p = q ∧ path = [] := by
    intro p path
    by_cases hp : p = q
    · subst hp
      rw [update_self]
      simp [eq_comm]
    · rw [update_of_ne hp]
      simp only [hp, false_and, iff_false]
      intro ho
      exact hlive _ (h.owned p q path ho).1
  refine ⟨?_, ?_, ?_, ?_, ?_, ?_, ?_⟩
  · intro p
    by_cases hp : p = q
    · subst hp
      rw [update_self, ← h.managed p, hq]
      simp
    · rw [update_of_ne hp]
      exact h.managed p
  · intro k
    obtain ⟨l, hc, hn, hl⟩ := h.free k
    refine ⟨l, hc, hn, fun p => ?_⟩
    by_cases hp : p = q
    · subst hp
      rw [update_self, ← hl p, hq]
      simp
    · rw [update_of_ne hp]
      exact hl p
  · intro r hl p
    by_cases hr : r = q
    · subst hr
      rw [hq']
      simp
    · rw [hupd p r [] hr]
      exact h.root r (hl.resolve_right hr) p
  · intro r i path hl hs p
    by_cases hr : r = q
    · subst hr
      rw [hq']
      constructor
      · rintro ⟨_, h2⟩
        cases h2
      · rintro ⟨t, ht, hc⟩
        obtain ⟨rfl, _⟩ := (hq' t path).1 ht
        rw [child_of_zero (hz i hs.head)] at hc
        cases hc
    · rw [hupd p r _ hr, h.sub r i path (hl.resolve_right hr) hs]
      apply exists_congr
      intro t
      rw [hupd t r path hr]
  · intro p r path ho
    by_cases hr : r = q
    · subst hr
      obtain ⟨_, rfl⟩ := (hq' p path).1 ho
      exact ⟨.inr rfl, ⟨by simp, by simp, by simp [leafPath]⟩⟩
    · obtain ⟨h1, h2⟩ := h.owned p r path ((hupd p r path hr).1 ho)
      exact ⟨.inl h1, h2⟩
  · rintro r i path (hl | hr)
    · exact .inl (h.up r i path hl)
    · exact .inr hr
  · intro r i path t hl hs ht
    by_cases hr : r = q
    · subst hr
      obtain ⟨rfl, _⟩ := (hq' t path).1 ht
      exact .inl (hz i (hs.lt i (List.mem_cons_self ..)))
    · exact h.entry r i path t (hl.resolve_right hr) hs ((hupd t r path hr).1 ht)

end heap

end

end Xv6n
