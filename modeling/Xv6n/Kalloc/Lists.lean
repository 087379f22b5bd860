import Xv6n.Kalloc.Basic
import Xv6n.Vm.Heap

/-!
# The free lists partition the memory

Every page behind the kernel is on the list of its own region, inside a call, or handed out. The heads of the
per-hart lists lie below all pages, so writing a page changes no head and writing a head changes no link; a
list loses or gains a page only at its front, under its lock.

A thread's record has the pages of its call, the list whose lock it holds, and what it has read of that list.
-/

namespace Xv6n.Kalloc
open Lib Function

variable {ι : Type} [End] {s : State ι} {p q r : Nat} {k : ListId}

def IsPage (p : Nat) : Prop := p % PGSIZE = 0 ∧ heapStart ≤ p ∧ p + PGSIZE ≤ PHYSTOP

def Home (p : Nat) : ListId → Prop
  | some i => heapStart + i * PER_HART_ALLOC_SIZE ≤ p ∧ p < heapStart + (i + 1) * PER_HART_ALLOC_SIZE
  | none => heapStart + NCPU * PER_HART_ALLOC_SIZE ≤ p

lemma heapStart_eq : heapStart = (End.kend + NCPU * 32 + PGSIZE - 1) / PGSIZE * PGSIZE := by
  have h := End.fits
  refine pgRoundUp_of_lt ?_
  simp only [PHYSTOP, KERNBASE, PER_HART_ALLOC_SIZE, PGSIZE, NCPU] at *
  omega

lemma heapStart_mod : heapStart % PGSIZE = 0 := pgRoundUp_mod

lemma heapStart_fits : heapStart + NCPU * PER_HART_ALLOC_SIZE ≤ PHYSTOP := by
  rw [heapStart_eq]
  exact End.fits

lemma array_le : End.kend + NCPU * 32 ≤ heapStart := by
  rw [heapStart_eq]
  simp only [PGSIZE, NCPU]
  omega

lemma headAddr_le (i : Fin NCPU) : headAddr i + 8 ≤ heapStart := by
  have h := array_le
  have hi := i.isLt
  simp only [headAddr, NCPU] at *
  omega

lemma headAddr_disjoint {i j : Fin NCPU} (h : i ≠ j) :
    headAddr i + 8 ≤ headAddr j ∨ headAddr j + 8 ≤ headAddr i := by
  have : (i : Nat) ≠ j := fun e => h (Fin.ext e)
  simp only [headAddr]
  omega

lemma Home.unique {k' : ListId} (h : Home p k) (h' : Home p k') : k = k' := by
  cases k with
  | none =>
    cases k' with
    | none => rfl
    | some j =>
      have := j.isLt
      simp only [Home, PER_HART_ALLOC_SIZE, NCPU] at *
      omega
  | some i =>
    cases k' with
    | none =>
      have := i.isLt
      simp only [Home, PER_HART_ALLOC_SIZE, NCPU] at *
      omega
    | some j =>
      congr 1
      apply Fin.ext
      simp only [Home, PER_HART_ALLOC_SIZE] at *
      omega

lemma IsPage.hartOf_eq (h : IsPage p) : hartOf p = (p - heapStart) / PER_HART_ALLOC_SIZE := by
  obtain ⟨_, h1, h2⟩ := h
  simp only [PHYSTOP, KERNBASE, PGSIZE] at h2
  unfold hartOf
  rw [show p + 2 ^ 64 - heapStart = p - heapStart + 2 ^ 64 from by omega, Nat.add_mod_right,
    Nat.mod_eq_of_lt (by omega)]

lemma IsPage.home_some (h : IsPage p) (hi : hartOf p < NCPU) : Home p (some ⟨hartOf p, hi⟩) := by
  have e := h.hartOf_eq
  have h1 := h.2.1
  simp only [Home, PER_HART_ALLOC_SIZE] at *
  omega

lemma IsPage.home_none (h : IsPage p) (hi : ¬ hartOf p < NCPU) : Home p none := by
  have e := h.hartOf_eq
  have h1 := h.2.1
  simp only [Home, PER_HART_ALLOC_SIZE, NCPU] at *
  omega

lemma IsPage.home (h : IsPage p) : ∃ k, Home p k := by
  by_cases hi : hartOf p < NCPU
  · exact ⟨_, h.home_some hi⟩
  · exact ⟨_, h.home_none hi⟩

lemma IsPage.ok (h : IsPage p) : ¬ (p % PGSIZE ≠ 0 ∨ p < End.kend ∨ PHYSTOP ≤ p) := by
  have h1 := array_le
  obtain ⟨h2, h3, h4⟩ := h
  simp only [PGSIZE, NCPU] at *
  omega

lemma IsPage.ne_zero (h : IsPage p) : p ≠ 0 := by
  have h1 := h.2.1
  have h2 := array_le
  simp only [NCPU] at h2
  omega

lemma IsPage.lt (h : IsPage p) : p < 256 ^ 8 := by
  have h2 := h.2.2
  simp only [PHYSTOP, KERNBASE, PGSIZE] at h2
  omega

/-! ## Writes -/

section frame
variable {mem : Nat → UInt8} {v : Nat}

lemma head_same (hr : heapStart ≤ r) (hm : ∀ a, a < r → mem a = s.mem a) :
    State.head { s with mem := mem } k = s.head k := by
  cases k with
  | none => rfl
  | some i =>
    refine le_congr fun a _ h => hm a ?_
    have := headAddr_le i
    omega

lemma head_setHead (hv : v < 256 ^ 8) : (s.setHead k v).head k = v := by
  cases k with
  | none => rfl
  | some i => exact le_putLe.trans (Nat.mod_eq_of_lt hv)

lemma head_setHead_of_ne {k' : ListId} (h : k' ≠ k) : (s.setHead k v).head k' = s.head k' := by
  cases k with
  | none =>
    cases k' with
    | none => exact absurd rfl h
    | some j => rfl
  | some i =>
    cases k' with
    | none => rfl
    | some j => exact le_putLe_of_disjoint (headAddr_disjoint fun e => h (congrArg some e))

lemma next_setHead (hp : IsPage p) : (s.setHead k v).next p = s.next p := by
  cases k with
  | none => rfl
  | some i =>
    refine le_putLe_of_disjoint (.inr ?_)
    have := headAddr_le i
    have := hp.2.1
    omega

lemma setHead_lock : (s.setHead k v).lock = s.lock := by cases k <;> rfl

end frame

/-! ## The lists -/

/-- Each list is a chain of exactly the free pages of its region. -/
structure Lists (s : State ι) (l : ListId → List Nat) : Prop where
  chain : ∀ k, Chain s.next (s.head k) (l k)
  nodup : ∀ k, (l k).Nodup
  mem : ∀ k p, p ∈ l k ↔ s.use p = .free ∧ Home p k
  page : ∀ p, s.use p ≠ .kernel → IsPage p

section lists
variable {l : ListId → List Nat} {m : Nat → UInt8} {u : Use}

section
variable (h : Lists s l)
include h

lemma Lists.head (hk : s.head k ≠ 0) :
    s.use (s.head k) = .free ∧ Home (s.head k) k := by
  obtain ⟨l', e, _⟩ := (h.chain k).uncons hk
  exact (h.mem k _).1 (by rw [e]; exact List.mem_cons_self ..)

lemma Lists.head_page (hk : s.head k ≠ 0) : IsPage (s.head k) :=
  h.page _ (by rw [(h.head hk).1]; nofun)

lemma Lists.write (hr : s.use r ≠ .free) (hp : IsPage r) (hlow : ∀ a, a < r → m a = s.mem a)
    (hm : ∀ p, p % PGSIZE = 0 → p ≠ r → Same s.mem m p) : Lists { s with mem := m } l := by
  refine ⟨fun k => ?_, h.nodup, h.mem, h.page⟩
  rw [head_same hp.2.1 hlow]
  refine (h.chain k).congr fun p hpl => ?_
  have hf := ((h.mem k p).1 hpl).1
  refine (hm p (h.page p (by rw [hf]; nofun)).1 ?_).link
  rintro rfl
  exact hr hf

lemma Lists.page_update (hp : IsPage r) : ∀ p, update s.use r u p ≠ .kernel → IsPage p :=
  (forall_update_iff s.use fun p v => v ≠ .kernel → IsPage p).2 ⟨fun _ => hp, fun p _ => h.page p⟩

lemma Lists.mark (hp : IsPage r) (hr : s.use r ≠ .free) (hu : u ≠ .free) :
    Lists { s with use := update s.use r u } l := by
  have hfree : ∀ p, update s.use r u p = .free ↔ s.use p = .free := by
    intro p
    by_cases e : p = r
    · subst e
      rw [update_self]
      exact ⟨fun h => absurd h hu, fun h => absurd h hr⟩
    · rw [update_of_ne e]
  refine ⟨h.chain, h.nodup, fun k p => ?_, h.page_update hp⟩
  rw [h.mem, hfree]

lemma Lists.link (hp : IsPage r) (hr : s.use r ≠ .free) (hk : Home r k)
    (hn : s.next r = s.head k) :
    Lists { s.setHead k r with use := update s.use r .free } (update l k (r :: l k)) := by
  have hchain : ∀ j, Chain (s.setHead k r).next (s.head j) (l j) := fun j =>
    (h.chain j).congr fun p hpl => next_setHead (h.page p (by rw [((h.mem j p).1 hpl).1]; nofun))
  have hnot : r ∉ l k := fun e => hr ((h.mem k r).1 e).1
  refine ⟨fun j => ?_, fun j => ?_, fun j p => ?_, h.page_update hp⟩
  · show Chain (s.setHead k r).next ((s.setHead k r).head j) _
    by_cases e : j = k
    · subst e
      rw [update_self, head_setHead hp.lt]
      refine ⟨rfl, hp.ne_zero, ?_⟩
      rw [next_setHead hp, hn]
      exact hchain j
    · rw [update_of_ne e, head_setHead_of_ne e]
      exact hchain j
  · by_cases e : j = k
    · subst e
      rw [update_self]
      exact List.nodup_cons.2 ⟨hnot, h.nodup j⟩
    · rw [update_of_ne e]
      exact h.nodup j
  · show _ ↔ update s.use r .free p = .free ∧ _
    by_cases ep : p = r
    · subst ep
      rw [update_self]
      by_cases e : j = k
      · subst e
        rw [update_self]
        exact ⟨fun _ => ⟨rfl, hk⟩, fun _ => List.mem_cons_self ..⟩
      · rw [update_of_ne e, h.mem]
        exact ⟨fun hc => absurd hc.1 hr, fun hc => absurd (hc.2.unique hk) e⟩
    · rw [update_of_ne ep, ← h.mem]
      by_cases e : j = k
      · subst e
        rw [update_self]
        exact ⟨fun hc => (List.mem_cons.1 hc).resolve_left ep, fun hc => List.mem_cons_of_mem _ hc⟩
      · rw [update_of_ne e]

lemma Lists.unlink (hk : s.head k ≠ 0) :
    Lists { s.setHead k (s.next (s.head k)) with use := update s.use (s.head k) .busy }
      (update l k (l k).tail) := by
  obtain ⟨hf, hh⟩ := h.head hk
  have hpage := h.head_page hk
  obtain ⟨l', el, hl'⟩ := (h.chain k).uncons hk
  have hnd := h.nodup k
  rw [el] at hnd
  obtain ⟨hnot, hnd'⟩ := List.nodup_cons.1 hnd
  have hlt : s.next (s.head k) < 256 ^ 8 := le_lt
  have hmem : ∀ j p, p ∈ l j → IsPage p := fun j p hpl => h.page p (by rw [((h.mem j p).1 hpl).1]; nofun)
  generalize hv : s.next (s.head k) = v at *
  refine ⟨fun j => ?_, fun j => ?_, fun j p => ?_, h.page_update hpage⟩
  · show Chain (s.setHead k v).next ((s.setHead k v).head j) _
    by_cases e : j = k
    · subst e
      rw [update_self, head_setHead hlt, el]
      exact hl'.congr fun p hpl => next_setHead (hmem j p (by rw [el]; exact List.mem_cons_of_mem _ hpl))
    · rw [update_of_ne e, head_setHead_of_ne e]
      exact (h.chain j).congr fun p hpl => next_setHead (hmem j p hpl)
  · by_cases e : j = k
    · subst e
      rw [update_self, el]
      exact hnd'
    · rw [update_of_ne e]
      exact h.nodup j
  · show _ ↔ update s.use (s.head k) .busy p = .free ∧ _
    by_cases ep : p = s.head k
    · rw [ep, update_self]
      refine ⟨fun hc => ?_, fun hc => nomatch hc.1⟩
      by_cases e : j = k
      · subst e
        rw [update_self, el] at hc
        exact absurd hc hnot
      · rw [update_of_ne e] at hc
        exact absurd (((h.mem j _).1 hc).2.unique hh) e
    · rw [update_of_ne ep, ← h.mem]
      by_cases e : j = k
      · subst e
        rw [update_self, el]
        exact ⟨fun hc => List.mem_cons_of_mem _ hc, fun hc => (List.mem_cons.1 hc).resolve_left ep⟩
      · rw [update_of_ne e]

end

end lists

end Xv6n.Kalloc
