import Xv6n.Vm.Map

/-!
# Address spaces

What a process sees of its memory: for every virtual page its flags and its bytes. `image` reads this off a
page table. The functions of `kernel/vm.c` change it in simple ways, each of which is an equation between
images: `mappages` sets one page, `uvmunmap` removes a range.

That the bytes of the other pages stay is shown by taking the leaves of the table out of its tree
(`Heap.hide`): for what is left of the tree they are pages of somebody else, which `walk` leaves alone.
-/

namespace Xv6n
open Lib KernM Function
variable {o : Owner}

/-- A page of an address space. -/
@[ext]
structure Page where
  flags : Nat
  byte : Fin PGSIZE → UInt8

abbrev Image := Nat → Option Page

def Page.zero (flags : Nat) : Page := ⟨flags, fun _ => 0⟩

/-- New pages of zeroes from page `a` up to page `b`. -/
def Image.grow (I : Image) (a b flags : Nat) : Image :=
  fun v => if a ≤ v ∧ v < b then some (.zero flags) else I v

/-- The first `n` pages. -/
def Image.cut (I : Image) (n : Nat) : Image := fun v => if v < n then I v else none

/-- Page `v` is taken from the user. -/
def Image.clear (I : Image) (v : Nat) : Image :=
  update I v ((I v).map fun p => { p with flags := p.flags &&& (2 ^ 64 - 1 - PTE_U) })

/-- The bytes `l` are written from address `va` on. -/
def Image.write (I : Image) (va : Nat) (l : List UInt8) : Image := fun v => (I v).map fun p =>
  { p with byte := fun k => if va ≤ v * PGSIZE + k then l.getD (v * PGSIZE + k - va) (p.byte k) else p.byte k }

def Image.byteAt (I : Image) (va : Nat) : Option UInt8 :=
  (I (va / PGSIZE)).map fun p => p.byte ⟨va % PGSIZE, Nat.mod_lt _ (by decide)⟩

def pageOf (mem : Nat → UInt8) (w : Nat) : Page := ⟨pteFlags w, fun k => mem (pte2pa w + k)⟩

/-- The user pages of the table with root `r`. -/
def image (mem : Nat → UInt8) (r : Nat) : Image := fun v =>
  if v < NVPN - 2 ∧ pteAt mem r v &&& PTE_V ≠ 0 then some (pageOf mem (pteAt mem r v)) else none

section
variable {mem mem' : Nat → UInt8} {r v w q f : Nat}

lemma not_top_of_lt {v : Nat} (h : v < NVPN - 2) : ¬ Top v := by
  simp only [Top, NVPN] at *
  omega

lemma lt_nleaf {v : Nat} (h : v < NVPN - 2) : v < NLEAF := by
  simp only [NVPN, NLEAF] at *
  omega

lemma Same.pageOf (h : Same mem mem' (pte2pa w)) : pageOf mem' w = pageOf mem w := by
  refine Page.ext rfl (funext fun k => ?_)
  exact h _ (Nat.le_add_right ..) (by have := k.isLt; omega)

lemma pageOf_clear (h : w < 2 ^ 64) : Xv6n.pageOf mem (w &&& (2 ^ 64 - 1 - PTE_U)) =
    { Xv6n.pageOf mem w with flags := (Xv6n.pageOf mem w).flags &&& (2 ^ 64 - 1 - PTE_U) } := by
  unfold Xv6n.pageOf
  rw [pte2pa_clear h]
  refine Page.ext ?_ rfl
  exact Nat.and_right_comm ..

lemma pteFlags_or_valid (h : w &&& PTE_V ≠ 0) : pteFlags w ||| PTE_V = pteFlags w := by
  rw [and_V] at h
  have hodd : pteFlags w % 2 = 1 := by
    rw [pteFlags_eq]
    omega
  refine Nat.eq_of_testBit_eq fun i => ?_
  rw [Nat.testBit_or]
  cases i with
  | zero => simp [Nat.testBit_zero, hodd]
  | succ i => simp [Nat.testBit_succ, PTE_V]

lemma image_none (h : pteAt mem r v &&& PTE_V = 0) : image mem r v = none := if_neg fun e => e.2 h

lemma image_some (hv : v < NVPN - 2) (h : pteAt mem r v &&& PTE_V ≠ 0) :
    image mem r v = some (Xv6n.pageOf mem (pteAt mem r v)) := if_pos ⟨hv, h⟩

lemma image_mk (hv : v < NVPN - 2) (h : pteAt mem r v = pa2pte q ||| f) (hq : q % PGSIZE = 0) (hf : f < 1024)
    (hodd : f % 2 = 1) : image mem r v = some ⟨f, fun k => mem (q + k)⟩ := by
  rw [image_some hv (by rw [h]; exact mk_valid hf hodd), h, Xv6n.pageOf, pteFlags_mk hf, pte2pa_mk hq hf]

variable {I J : Image} {a b n : Nat}

lemma Image.cut_congr (h : ∀ v < n, I v = J v) : I.cut n = J.cut n := by
  funext v
  unfold Image.cut
  split
  · rename_i hv
    exact h v hv
  · rfl

lemma Image.cut_eq (h : ∀ v, n ≤ v → I v = none) : I.cut n = I := by
  funext v
  unfold Image.cut
  split
  · rfl
  · rename_i hv
    exact (h v (by omega)).symm

lemma Image.update_cut : update (J.cut n) n (J n) = J.cut (n + 1) := by
  funext v
  unfold Image.cut
  by_cases e : v = n
  · rw [e, update_self, if_pos (by omega)]
  · rw [update_of_ne e]
    by_cases hv : v < n
    · rw [if_pos hv, if_pos (by omega)]
    · rw [if_neg hv, if_neg (by omega)]

lemma Image.grow_self : I.grow a a f = I := by
  funext v
  exact if_neg (by omega)

lemma Image.grow_update (h : a < b) : Image.grow (update I a (some (.zero f))) (a + 1) b f = I.grow a b f := by
  funext v
  unfold Image.grow
  by_cases e : v = a
  · rw [if_neg (by omega), e, update_self, if_pos (by omega)]
  · rw [update_of_ne e]
    by_cases hv : a + 1 ≤ v ∧ v < b
    · rw [if_pos hv, if_pos (by omega)]
    · rw [if_neg hv, if_neg (by omega)]

variable {va x : Nat} {l l' : List UInt8}

lemma Image.write_nil : I.write va [] = I := by
  funext v
  unfold Image.write
  simp

lemma Image.write_append : (I.write va l).write (va + l.length) l' = I.write va (l ++ l') := by
  funext v
  unfold Image.write
  rw [Option.map_map]
  congr 1
  funext p
  refine Page.ext rfl (funext fun k => ?_)
  dsimp only [Function.comp]
  by_cases h1 : va ≤ v * PGSIZE + k
  · by_cases h2 : va + l.length ≤ v * PGSIZE + k
    · rw [if_pos h2, if_pos h1, if_pos h1, List.getD_append_right _ _ _ _ (by omega),
        List.getD_eq_default l _ (by omega), Nat.sub_add_eq]
    · rw [if_neg h2, if_pos h1, if_pos h1, List.getD_append _ _ _ _ (by omega)]
  · rw [if_neg (by omega), if_neg h1, if_neg h1]

lemma Image.write_below (h : (v + 1) * PGSIZE ≤ va) : I.write va l v = I v := by
  unfold Image.write
  cases hv : I v with
  | none => rfl
  | some p =>
    refine congrArg some (Page.ext rfl (funext fun k => ?_))
    have hk := k.isLt
    rw [Nat.succ_mul] at h
    exact if_neg (by omega)

lemma Image.write_above (h : va + l.length ≤ v * PGSIZE) : I.write va l v = I v := by
  unfold Image.write
  cases hv : I v with
  | none => rfl
  | some p =>
    refine congrArg some (Page.ext rfl (funext fun k => ?_))
    dsimp only
    rw [if_pos (by omega), List.getD_eq_default _ _ (by omega)]

lemma Image.flags_write : (I.write va l v).map Page.flags = (I v).map Page.flags := by
  unfold Image.write
  rw [Option.map_map]
  rfl

lemma Image.byteAt_write :
    (I.write va l).byteAt x = (I.byteAt x).map fun b => if va ≤ x then l.getD (x - va) b else b := by
  have hx : x / PGSIZE * PGSIZE + x % PGSIZE = x := by
    rw [Nat.mul_comm]
    exact Nat.div_add_mod ..
  unfold Image.byteAt Image.write
  rw [Option.map_map, Option.map_map]
  congr 1
  funext p
  dsimp only [Function.comp]
  rw [hx]

end

section hide

/-- Owners in which the leaves of the table with root `r` are held by somebody. -/
def Owner.hide (r : Nat) : Owner → Owner
  | .slot r' path => if r' = r ∧ path.length = 3 then .held else .slot r' path
  | o => o

variable [Layout] {s s' : Kernel} {own own' : Nat → Owner} {live : Nat → List Nat → Prop}
  {r p q v a perm : Nat} {path : List Nat}

section
omit [Layout]

lemma Owner.hide_leaf {r' : Nat} (h : r' = r ∧ path.length = 3) : (Owner.slot r' path).hide r = .held := if_pos h

lemma Owner.hide_of_not {r' : Nat} (h : ¬ (r' = r ∧ path.length = 3)) :
    (Owner.slot r' path).hide r = .slot r' path := if_neg h

lemma Owner.hide_slot {r' : Nat} :
    o.hide r = .slot r' path ↔ o = .slot r' path ∧ ¬ (r' = r ∧ path.length = 3) := by
  cases o with
  | slot r1 path1 =>
    by_cases h : r1 = r ∧ path1.length = 3
    · rw [hide_leaf h]
      refine iff_of_false nofun ?_
      rintro ⟨e, hn⟩
      cases e
      exact hn h
    · rw [hide_of_not h]
      refine ⟨fun e => ⟨e, ?_⟩, fun e => e.1⟩
      cases e
      exact h
  | _ => exact iff_of_false nofun fun e => nomatch e.1

lemma Owner.hide_free {k} : o.hide r = .free k ↔ o = .free k := by
  cases o with
  | slot r1 path1 =>
    by_cases h : r1 = r ∧ path1.length = 3
    · rw [hide_leaf h]
      exact iff_of_false nofun nofun
    · rw [hide_of_not h]
  | _ => exact Iff.rfl

lemma Owner.hide_kernel : o.hide r = .kernel ↔ o = .kernel := by
  cases o with
  | slot r1 path1 =>
    by_cases h : r1 = r ∧ path1.length = 3
    · rw [hide_leaf h]
      exact iff_of_false nofun nofun
    · rw [hide_of_not h]
  | _ => exact Iff.rfl

end

lemma Heap.hide (h : Heap s own live) (r : Nat) :
    Heap s (fun p => (own p).hide r) fun r' path => live r' path ∧ (r' = r → path.length ≤ 2) := by
  refine ⟨fun p => ?_, fun i => ?_, fun r' hl p => ?_, fun r' i path hl hs p => ?_, fun p r' path hp => ?_,
    fun r' i path hl => ?_, fun r' i path t hl ht ho => ?_⟩
  · rw [← h.managed p, Ne, Ne, Owner.hide_kernel]
  · obtain ⟨l, h1, h2, h3⟩ := h.free i
    exact ⟨l, h1, h2, fun p => by rw [Owner.hide_free, h3]⟩
  · rw [Owner.hide_slot, h.root r' hl.1]
    exact and_iff_left (by simp)
  · -- a place above the leaves is the same as before
    have hlen := hl.2
    rw [List.length_cons] at hlen
    rw [Owner.hide_slot, h.sub r' i path hl.1 hs]
    have h1 : ¬ (r' = r ∧ (i :: path).length = 3) := by
      rintro ⟨e, e'⟩
      rw [List.length_cons] at e'
      have := hlen e
      omega
    have h2 : ¬ (r' = r ∧ path.length = 3) := by
      rintro ⟨e, e'⟩
      have := hlen e
      omega
    rw [and_iff_left h1]
    refine exists_congr fun t => and_congr_left fun _ => ?_
    rw [Owner.hide_slot, and_iff_left h2]
  · obtain ⟨hp, hn⟩ := Owner.hide_slot.1 hp
    obtain ⟨hl, hs⟩ := h.owned p r' path hp
    refine ⟨⟨hl, fun e => ?_⟩, hs⟩
    have := hs.length
    have : path.length ≠ 3 := fun e' => hn ⟨e, e'⟩
    omega
  · have := hl.2
    rw [List.length_cons] at this
    exact ⟨h.up r' i path hl.1, fun e => by have := this e; omega⟩
  · exact h.entry r' i path t hl.1 ht (Owner.hide_slot.1 ho).1

lemma Heap.own_leaf (h : Heap s own live) (hr : ∀ path, live r path) (hv : v < NVPN - 2)
    (hval : pteAt s.mem r v &&& PTE_V ≠ 0) : own (pte2pa (pteAt s.mem r v)) = .slot r (leafPath v) := by
  exact (h.leaf_iff (hr _) (lt_nleaf hv) (not_top_of_lt hv)).2 ⟨hval, rfl⟩

lemma Heap.image_congr (h : Heap s own live) (hr : ∀ path, live r path) {mem' : Nat → UInt8}
    (hp : v < NVPN - 2 → pteAt mem' r v = pteAt s.mem r v)
    (hs : ∀ p, own p = .slot r (leafPath v) → Same s.mem mem' p) : image mem' r v = image s.mem r v := by
  by_cases hv : v < NVPN - 2
  · by_cases hval : pteAt s.mem r v &&& PTE_V = 0
    · rw [image_none hval, image_none (by rwa [hp hv])]
    · rw [image_some hv hval, image_some hv (by rwa [hp hv]), hp hv, (hs _ (h.own_leaf hr hv hval)).pageOf]
  · rw [image, image, if_neg fun e => hv e.1, if_neg fun e => hv e.1]

lemma Retag.image (f : Retag live s own q o s') (h : Heap s own live) (hr : ∀ path, live r path)
    (hq : ∀ path, own q ≠ .slot r path) (ho : ∀ path, o ≠ .slot r path) : image s'.mem r = image s.mem r := by
  funext v
  refine h.image_congr hr (fun _ => f.pte h hr hr hq ho) fun p hp => f.same p (h.slot_mod hp) ?_
  rintro rfl
  exact hq _ hp

lemma Fresh.image (f : Fresh live s own q s') (h : Heap s own live) (hr : ∀ path, live r path) :
    image s'.mem r = image s.mem r := by
  obtain ⟨k, hk⟩ := f.free
  exact f.toRetag.image h hr (by rw [hk]; nofun) nofun

lemma copied_of_fresh (f : Fresh live s own q s') (h : Heap s own live) (hr : ∀ path, live r path) (hv : v < NVPN - 2)
    (hval : pteAt s.mem r v &&& PTE_V ≠ 0) :
    (⟨pteFlags (pteAt s.mem r v), fun j => copy s'.mem q (pte2pa (pteAt s.mem r v)) PGSIZE (q + j)⟩ : Page) =
      pageOf s.mem (pteAt s.mem r v) := by
  have hown := h.own_leaf hr hv hval
  have hne : pte2pa (pteAt s.mem r v) ≠ q := by
    intro e
    obtain ⟨k, hk⟩ := f.free
    rw [e, hk] at hown
    cases hown
  refine Page.ext rfl (funext fun j => ?_)
  have hj := j.isLt
  dsimp only
  unfold copy
  rw [if_pos (by omega), Nat.add_sub_cancel_left]
  exact f.same _ (h.slot_mod hown) hne _ (Nat.le_add_right ..) (by omega)

lemma Frame.image {r'} {x : Option Nat} {live' : Nat → List Nat → Prop} (f : Frame r x s own s' own')
    (h : Heap s own live) (h' : Heap s' own' live') (hne : r' ≠ r) (hl : ∀ path, live r' path)
    (hl' : ∀ path, live' r' path)
    (hx : ∀ p path, x = some p → own p ≠ .slot r' path ∧ own' p ≠ .slot r' path) :
    Xv6n.image s'.mem r' = Xv6n.image s.mem r' := by
  funext v
  refine h.image_congr hl (fun _ => f.pteAt h h' hne hl hl' hx) fun p hp => ?_
  refine f.same p (fun e => (hx p _ e).1 hp) (h.slot_mod hp) ?_
  rw [hp]
  exact hne

lemma kfree_data : wp (kfree q) (fun _ s' => ∀ p, p % PGSIZE = 0 → p ≠ q → Same s.mem s'.mem p) Any s := by
  have hpush : ∀ k, q % PGSIZE = 0 → wp (push k q) (fun _ s' => ∀ p, p % PGSIZE = 0 → p ≠ q → Same s.mem s'.mem p)
      Any { s with mem := fill s.mem q PGSIZE 1 } := by
    intro k hq
    rw [wp_push]
    intro p hp hne
    exact (same_fill hq hp hne).trans (by simpa using same_putLe (i := 0) hq (by decide) hp hne)
  unfold kfree pkfree
  rw [wp_ite]
  refine ⟨fun _ => by rw [wp_bind, wp_throw]; trivial, fun hok => ?_⟩
  have hq : q % PGSIZE = 0 := by omega
  rw [wp_bind, wp_memset, wp_bind]
  split
  · rw [wp_bind]
    refine wp_mono (hpush _ hq) ?_
    intro _ s1 h1
    rw [wp_pure, if_neg nofun, wp_pure]
    exact h1
  · rw [wp_pure, if_pos rfl]
    exact hpush _ hq

lemma walk_data (h : Heap s own live) (hr : ∀ path, live r path) (hv : v < NVPN) :
    wp (walk r (v * PGSIZE) true) (fun _ s' => ∀ p a, own p = .slot r (leafPath a) → Same s.mem s'.mem p)
      Never s := by
  refine wp_mono (walk_spec (h.hide r) (fun path ht => ⟨hr path, fun _ => ht.length⟩) hv) ?_
  rintro _ s1 ⟨own1, g, -⟩ p a hp
  refine g.frame.same p nofun (h.slot_mod hp) ?_
  rw [hp, Owner.hide_leaf ⟨rfl, leafPath_length⟩]
  trivial

omit [Layout] in
lemma slot_ne (ht : own q = .slot r (lowPath v)) (hp : own p = .slot r (leafPath a)) : p ≠ q := by
  rintro rfl
  rw [hp, Owner.slot.injEq] at ht
  exact lowPath_ne_leafPath ht.2.symm

section
variable (h : Heap s own live) (hr : ∀ path, live r path)
include h hr

lemma mappages_data (hv : v < NVPN) :
    wp (mappages r (v * PGSIZE) PGSIZE q perm)
      (fun _ s' => ∀ p a, own p = .slot r (leafPath a) → Same s.mem s'.mem p) Any s := by
  rw [mappages_one hv, mapLoop, wp_bind]
  refine wp_conseq (wp_and (walk_spec h (fun path _ => hr path) hv) (walk_data h hr hv)) ?_ fun _ _ _ => trivial
  rintro o s1 ⟨⟨own1, g, ho⟩, hs⟩
  cases o with
  | none =>
    dsimp only
    rw [wp_pure]
    exact hs
  | some x =>
    obtain ⟨t, ht, rfl⟩ := ho x rfl
    dsimp only
    rw [wp_bind, wp_load64, wp_ite]
    refine ⟨fun _ => by rw [wp_bind, wp_throw]; trivial, fun _ => ?_⟩
    rw [wp_bind, wp_store64, mapLoop, wp_pure]
    intro p a hp
    exact (hs p a hp).trans (same_putLe (g.heap.slot_mod ht) (Nat.mod_lt _ (by decide)) (h.slot_mod hp)
      (slot_ne ht (g.slot p r _ hp)))

lemma mapUser_image (hv : v < NVPN - 2)
    (hz : pteAt s.mem r v = 0) (hq : own q = .held) (hperm : perm < 1024) :
    wp (mappages r (v * PGSIZE) PGSIZE q perm) (fun ok s' => image s'.mem r =
      if ok then update (image s.mem r) v (some ⟨perm ||| PTE_V, fun k => s.mem (q + k)⟩)
      else image s.mem r) Any s := by
  have hv' : v < NVPN := by
    simp only [NVPN] at *
    omega
  have hflag : perm ||| PTE_V < 1024 := Nat.or_lt_two_pow (n := 10) hperm (by decide)
  have hodd : (perm ||| PTE_V) % 2 = 1 := Nat.or_mod_two_eq_one.2 (.inr rfl)
  have hqm := h.mod (p := q) (by rw [hq]; nofun)
  refine wp_conseq (wp_and (mapUser_spec h hr hv' (not_top_of_lt hv) hz hq hperm) (mappages_data h hr hv')) ?_
    fun _ _ _ => trivial
  rintro ok s1 ⟨⟨own1, h1, -, hsq, hok, hno⟩, hs⟩
  cases ok with
  | false =>
    rw [if_neg nofun]
    funext a
    exact h.image_congr hr (fun _ => (hno rfl).2 a) fun p hp => hs p a hp
  | true =>
    obtain ⟨-, hu⟩ := hok rfl
    rw [if_pos rfl]
    funext a
    by_cases e : a = v
    · subst e
      rw [update_self, image_mk hv (by rw [hu a (lt_nleaf hv), if_pos rfl]) hqm hflag hodd]
      refine congrArg some (Page.ext rfl (funext fun k => ?_))
      exact hsq _ (Nat.le_add_right ..) (by have := k.isLt; omega)
    · rw [update_of_ne e]
      exact h.image_congr hr (fun ha => by rw [hu a (lt_nleaf ha), if_neg e]) fun p hp => hs p a hp

lemma unmapUser_image (hv : v < NVPN - 2)
    (hw : IsLeaf (pteAt s.mem r v)) :
    wp (unmapPage r (v * PGSIZE) true) (fun _ s' => image s'.mem r = update (image s.mem r) v none) Any s := by
  have hv' : v < NVPN ∧ v * PGSIZE < MAXVA := by
    simp only [NVPN, MAXVA, PGSIZE] at *
    omega
  have hdata : wp (unmapPage r (v * PGSIZE) true)
      (fun _ s' => ∀ p a, a ≠ v → a < NVPN - 2 → own p = .slot r (leafPath a) → Same s.mem s'.mem p) Any s := by
    obtain ⟨t, ht⟩ := h.exists_low (hr _) fun e => hw.valid (by rw [e]; rfl)
    have he : le s.mem (t + 8 * (v % 512)) 8 = pteAt s.mem r v := (h.pteAt_some (hr _) ht).symm
    unfold unmapPage
    rw [wp_bind, wp_walk_leaf h (hr _) hv'.1 ht rfl]
    dsimp only
    rw [wp_bind, wp_load64, he, if_neg hw.valid, if_neg hw.leaf, if_pos rfl, wp_bind]
    have hq := h.own_leaf hr hv hw.valid
    refine wp_mono kfree_data ?_
    intro _ s1 h1
    rw [wp_store64]
    intro p a hne ha hp
    refine (h1 p (h.slot_mod hp) ?_).trans (same_putLe (h.slot_mod ht) (Nat.mod_lt _ (by decide)) (h.slot_mod hp)
      (slot_ne ht hp))
    rintro rfl
    rw [hp, Owner.slot.injEq] at hq
    exact hne (leafPath_inj (lt_nleaf ha) (lt_nleaf hv) hq.2)
  refine wp_conseq (wp_and (unmapUser_spec h hr hv'.1 (not_top_of_lt hv) hw) hdata) ?_ fun _ _ _ => trivial
  rintro _ s1 ⟨⟨own1, h1, -, hu⟩, hs⟩
  funext a
  by_cases e : a = v
  · subst e
    rw [update_self]
    refine image_none ?_
    rw [hu a (lt_nleaf hv), if_pos rfl]
    rfl
  · rw [update_of_ne e]
    by_cases ha : a < NVPN - 2
    · refine h.image_congr hr (fun _ => ?_) fun p hp => hs p a e ha hp
      rw [hu a (lt_nleaf ha), if_neg e]
    · rw [image, image, if_neg fun e => ha e.1, if_neg fun e => ha e.1]

lemma uvmunmap_image {n : Nat} (hn : v + n ≤ NVPN - 2)
    (hw : ∀ a, v ≤ a → a < v + n → IsLeaf (pteAt s.mem r a)) :
    wp (uvmunmap r (v * PGSIZE) n true) (fun _ s' =>
      image s'.mem r = fun a => if v ≤ a ∧ a < v + n then none else image s.mem r a) Any s := by
  unfold uvmunmap
  rw [if_neg (by rw [Nat.mul_mod_left]; exact fun e => e rfl), unmap_count (by simp only [NVPN] at *; omega)]
  dsimp only
  rw [wp_bind]
  refine wp_mono (wp_forIn (I := fun k s' => (∃ own', Heap s' own' live) ∧
    (∀ a, v + k ≤ a → a < v + n → pteAt s'.mem r a = pteAt s.mem r a) ∧
    image s'.mem r = fun a => if v ≤ a ∧ a < v + k then none else image s.mem r a) ?_ ?_) ?_
  · refine ⟨⟨own, h⟩, fun _ _ _ => rfl, funext fun a => ?_⟩
    rw [if_neg (by omega)]
  · rintro k b s1 hb ⟨⟨own1, h1⟩, h2, h3⟩
    obtain ⟨hk, rfl⟩ := List.getElem?_eq_some_iff.1 hb
    rw [List.length_range] at hk
    rw [List.getElem_range, ← Nat.add_mul, wp_bind]
    have hlt : v + k < NVPN - 2 := by omega
    have hleaf : IsLeaf (pteAt s1.mem r (v + k)) := by
      rw [h2 _ (Nat.le_refl _) (by omega)]
      exact hw _ (by omega) (by omega)
    refine wp_conseq (wp_and (unmapUser_spec h1 hr (by simp only [NVPN] at *; omega) (not_top_of_lt hlt) hleaf)
      (unmapUser_image h1 hr hlt hleaf)) ?_ fun _ _ _ => trivial
    rintro _ s2 ⟨⟨own2, h4, -, h5⟩, h6⟩
    rw [wp_pure]
    refine ⟨rfl, ⟨own2, h4⟩, fun a ha1 ha2 => ?_, ?_⟩
    · rw [h5 a (lt_nleaf (by omega)), if_neg (by omega), h2 a (by omega) ha2]
    · rw [h6, h3]
      funext a
      by_cases e : a = v + k
      · rw [e, update_self, if_pos (by omega)]
      · rw [update_of_ne e]
        by_cases hin : v ≤ a ∧ a < v + k
        · rw [if_pos hin, if_pos (by omega)]
        · rw [if_neg hin, if_neg (by omega)]
  · rintro _ s1 ⟨-, -, h1⟩
    rw [wp_pure]
    rwa [List.length_range] at h1

end

end hide

end Xv6n
