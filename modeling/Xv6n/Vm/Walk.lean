import Xv6n.Vm.Heap

/-!
# Specifications of `kalloc.c` and of the walk

What `kalloc`, `kfree`, `walk` and `mappages` do to the owners of pages. `Never` is the
specification of a program that does not panic. `Frame r x` says what a function that works on the page table with root `r` leaves
alone: the tables of the kernel, and every page that is neither free nor part of that page table,
the page `x` excepted.
-/

namespace Xv6n
open Lib KernM Function
variable {Q : PUnit → Kernel → Prop}

def Never : Panic → Kernel → Prop := fun _ _ => False

def Any : Panic → Kernel → Prop := fun _ _ => True

lemma wp_never {α : Type} {x : KernM α} {Q R : α → Kernel → Prop} {E : Panic → Kernel → Prop}
    {s : Kernel} (h : wp x Q Never s) (hq : ∀ a s', Q a s' → R a s') : wp x R E s :=
  wp_conseq h hq fun _ _ => False.elim

section prim
variable {s : Kernel} {E : Panic → Kernel → Prop} {a v n : Nat}

@[simp] lemma wp_load64 {Q : Nat → Kernel → Prop} :
    wp (load64 a) Q E s ↔ Q (le s.mem a 8) s := by
  unfold wp
  rfl

@[simp] lemma wp_store64 :
    wp (store64 a v) Q E s ↔ Q ⟨⟩ { s with mem := putLe s.mem a 8 v } := by
  unfold wp
  rfl

@[simp] lemma wp_memset {c : UInt8} :
    wp (memset a c n) Q E s ↔ Q ⟨⟩ { s with mem := fill s.mem a n c } := by
  unfold wp
  rfl

@[simp] lemma wp_memmove {b : Nat} :
    wp (KernM.memmove a b n) Q E s ↔ Q ⟨⟩ { s with mem := copy s.mem a b n } := by
  unfold wp
  rfl

@[simp] lemma wp_putBytes {l : List UInt8} :
    wp (KernM.putBytes a l) Q E s ↔ Q ⟨⟩ { s with mem := Lib.putBytes s.mem a l } := by
  unfold wp
  rfl

@[simp] lemma wp_push {i : Option (Fin NCPU)} :
    wp (push i a) Q E s ↔ Q ⟨⟩ { s with
      mem := putLe s.mem a 8 (s.freelist i)
      freelist := update s.freelist i a } := by
  unfold wp
  rfl

@[simp] lemma wp_pop {Q : Option Nat → Kernel → Prop} {i : Option (Fin NCPU)} :
    wp (pop i) Q E s ↔ (s.freelist i = 0 → Q none s) ∧ (s.freelist i ≠ 0 → Q (some (s.freelist i))
      { s with freelist := update s.freelist i (le s.mem (s.freelist i) 8) }) := by
  unfold pop
  simp only [wp_bind, wp_get, wp_ite, wp_pure, wp_load64, wp_modify, ne_eq]

end prim

/-- The tables of the kernel are the same, and the harts that allocations run on. -/
structure Tables (s s' : Kernel) : Prop where
  proc : s'.proc = s.proc
  file : s'.file = s.file
  boot : s'.boot = s.boot
  initproc : s'.initproc = s.initproc
  nextpid : s'.nextpid = s.nextpid
  env : s'.env = s.env

lemma Tables.refl {s : Kernel} : Tables s s := ⟨rfl, rfl, rfl, rfl, rfl, rfl⟩

lemma Tables.trans {s1 s2 s3 : Kernel} (h1 : Tables s1 s2) (h2 : Tables s2 s3) : Tables s1 s3 :=
  ⟨h2.proc.trans h1.proc, h2.file.trans h1.file, h2.boot.trans h1.boot,
    h2.initproc.trans h1.initproc, h2.nextpid.trans h1.nextpid, h2.env.trans h1.env⟩

lemma Tables.mem {s1 s2 : Kernel} (h : Tables s1 s2) {m} : Tables s1 { s2 with mem := m } :=
  ⟨h.proc, h.file, h.boot, h.initproc, h.nextpid, h.env⟩

/-- Owners of pages that a function working on the table with root `r` leaves alone. -/
def Owner.Out (r : Nat) : Owner → Prop
  | .free _ => False
  | .slot r' _ => r' ≠ r
  | _ => True

/-- What a function working on the table with root `r` leaves alone, the page `x` excepted. -/
structure Frame (r : Nat) (x : Option Nat) (s : Kernel) (own : Nat → Owner) (s' : Kernel)
    (own' : Nat → Owner) : Prop where
  tables : Tables s s'
  owner : ∀ p, x ≠ some p → (own p).Out r ∨ (own' p).Out r → own' p = own p
  same : ∀ p, x ≠ some p → p % PGSIZE = 0 → (own p).Out r → Same s.mem s'.mem p

lemma Same.refl {f : Nat → UInt8} {p : Nat} : Same f f p := fun _ _ _ => rfl

lemma Same.trans {f g h : Nat → UInt8} {p : Nat} (h1 : Same f g p) (h2 : Same g h p) : Same f h p :=
  fun a h3 h4 => (h2 a h3 h4).trans (h1 a h3 h4)

lemma Frame.refl {r x s own} : Frame r x s own s own :=
  ⟨.refl, fun _ _ _ => rfl, fun _ _ _ _ => .refl⟩

lemma Frame.trans {r x s1 s2 s3 own1 own2 own3} (h1 : Frame r x s1 own1 s2 own2)
    (h2 : Frame r x s2 own2 s3 own3) : Frame r x s1 own1 s3 own3 := by
  have hown : ∀ p, x ≠ some p → (own1 p).Out r ∨ (own3 p).Out r →
      own2 p = own1 p ∧ own3 p = own2 p := by
    rintro p hp (h | h)
    · have e1 := h1.owner p hp (.inl h)
      exact ⟨e1, h2.owner p hp (.inl (by rwa [e1]))⟩
    · have e2 := h2.owner p hp (.inr h)
      exact ⟨h1.owner p hp (.inr (by rwa [← e2])), e2⟩
  refine ⟨h1.tables.trans h2.tables, ?_, ?_⟩
  · intro p hp h
    obtain ⟨e1, e2⟩ := hown p hp h
    exact e2.trans e1
  · intro p hp hmod h
    obtain ⟨e1, _⟩ := hown p hp (.inl h)
    exact (h1.same p hp hmod h).trans (h2.same p hp hmod (by rwa [e1]))

lemma Frame.close {r x s own s' own'} (h : Frame r (some x) s own s' own') (h1 : ¬ (own x).Out r)
    (h2 : ¬ (own' x).Out r) : Frame r none s own s' own' := by
  refine ⟨h.tables, ?_, ?_⟩
  · intro p _ ho
    by_cases hp : x = p
    · subst hp
      exact absurd ho (not_or.2 ⟨h1, h2⟩)
    · exact h.owner p (by simpa using hp) ho
  · intro p _ hmod ho
    by_cases hp : x = p
    · subst hp
      exact absurd ho h1
    · exact h.same p (by simpa using hp) hmod ho

lemma Frame.weaken {r x s own s' own'} (h : Frame r none s own s' own') :
    Frame r x s own s' own' :=
  ⟨h.tables, fun p _ => h.owner p nofun, fun p _ => h.same p nofun⟩

section spec
variable [Layout] {s : Kernel} {own : Nat → Owner} {live live' : Nat → List Nat → Prop}
  {r t q i : Nat} {path : List Nat}

/-- The page `q` has got the owner `o`; only this page has changed. -/
structure Retag (live : Nat → List Nat → Prop) (s : Kernel) (own : Nat → Owner) (q : Nat) (o : Owner)
    (s' : Kernel) : Prop where
  heap : Heap s' (update own q o) live
  tables : Tables s s'
  same : ∀ p, p % PGSIZE = 0 → p ≠ q → Same s.mem s'.mem p

/-- The page `q` has been taken from a free list. -/
structure Fresh (live : Nat → List Nat → Prop) (s : Kernel) (own : Nat → Owner) (q : Nat)
    (s' : Kernel) : Prop extends Retag live s own q .held s' where
  free : ∃ k, own q = .free k

lemma kalloc_spec {id : Fin NCPU} (h : Heap s own live) :
    wp (kalloc id) (fun o s' => match o with
      | none => s' = s
      | some q => Fresh live s own q s') Never s := by
  have hfill : ∀ k, s.freelist k ≠ 0 →
      (∃ j, own (s.freelist k) = .free j) ∧
      Heap { s with
          freelist := update s.freelist k (le s.mem (s.freelist k) 8)
          mem := fill s.mem (s.freelist k) PGSIZE 5 }
        (update own (s.freelist k) .held) live ∧
      ∀ p, p % PGSIZE = 0 → p ≠ s.freelist k →
        Same s.mem (fill s.mem (s.freelist k) PGSIZE 5) p := by
    intro k hk
    have hmod : s.freelist k % PGSIZE = 0 := by
      obtain ⟨l, hc, _, hl⟩ := h.free k
      obtain ⟨l', rfl, _⟩ := hc.uncons hk
      exact h.mod (by rw [(hl _).2 (List.mem_cons_self ..)]; nofun)
    have hsame : ∀ p, p % PGSIZE = 0 → p ≠ s.freelist k →
        Same s.mem (fill s.mem (s.freelist k) PGSIZE 5) p := by
      intro p hp hne a h1 h2
      have := page_disjoint hp hmod hne
      exact fill_of_out (by omega)
    obtain ⟨h1, h2⟩ := h.pop hk hsame
    exact ⟨⟨k, h1⟩, h2, hsame⟩
  unfold kalloc pkalloc
  simp only [wp_bind, wp_pop, wp_memset, wp_pure]
  refine ⟨fun _ => ⟨fun _ => trivial, fun hk => ?_⟩, fun hk => ?_⟩
  · obtain ⟨h1, h2, h3⟩ := hfill none hk
    exact ⟨⟨h2, ⟨rfl, rfl, rfl, rfl, rfl, rfl⟩, h3⟩, h1⟩
  · obtain ⟨h1, h2, h3⟩ := hfill (some id) hk
    exact ⟨⟨h2, ⟨rfl, rfl, rfl, rfl, rfl, rfl⟩, h3⟩, h1⟩

lemma Heap.tick (h : Heap s own live) {c} : Heap { s with clock := c } own live :=
  h.congr rfl (fun _ _ _ => .refl) (fun _ _ _ _ _ _ _ => rfl) fun _ _ _ _ _ _ => rfl

lemma alloc_spec (h : Heap s own live) :
    wp alloc (fun o s' => match o with
      | none => Heap s' own live ∧ Tables s s' ∧ s'.mem = s.mem
      | some q => Fresh live s own q s') Never s := by
  have ht := h.tick (c := s.clock + 1)
  unfold alloc
  simp only [wp_bind, wp_get, wp_set]
  cases s.env s.clock with
  | none =>
    rw [wp_pure]
    exact ⟨ht, ⟨rfl, rfl, rfl, rfl, rfl, rfl⟩, rfl⟩
  | some id =>
    apply wp_mono (kalloc_spec ht)
    intro o s' ho
    cases o with
    | none =>
      obtain rfl : s' = _ := ho
      exact ⟨ht, ⟨rfl, rfl, rfl, rfl, rfl, rfl⟩, rfl⟩
    | some q =>
      obtain ⟨⟨h1, h2, h3⟩, h4⟩ := ho
      exact ⟨⟨h1, ⟨h2.proc, h2.file, h2.boot, h2.initproc, h2.nextpid, h2.env⟩, h3⟩, h4⟩

lemma Heap.freelist_lt (h : Heap s own live) {k} : s.freelist k < 2 ^ 64 := by
  by_cases hk : s.freelist k = 0
  · omega
  · obtain ⟨l, hc, _, hl⟩ := h.free k
    obtain ⟨l', rfl, _⟩ := hc.uncons hk
    have hne : own (s.freelist k) ≠ .kernel := by
      rw [(hl _).2 (List.mem_cons_self ..)]
      nofun
    have := ((h.managed _).1 hne).lt.2
    omega

lemma kfree_spec {L : Nat → List Nat → Prop} (h : Heap s own live) (hq : own q ≠ .kernel)
    (hqf : ∀ k, own q ≠ .free k) (hsub : ∀ r path, L r path → live r path)
    (hown : ∀ p r path, own p = .slot r path → p ≠ q → L r path)
    (hdead : ∀ r path, own q = .slot r path → ¬ L r path)
    (hup : ∀ r i path, L r (i :: path) → L r path) :
    wp (kfree q) (fun _ s' => ∃ k, Retag L s own q (.free k) s') Never s := by
  have hm := (h.managed q).1 hq
  have hpush : ∀ k, Heap { s with
        mem := putLe (fill s.mem q PGSIZE 1) q 8 (s.freelist k)
        freelist := update s.freelist k q } (update own q (.free k)) L ∧
      ∀ p, p % PGSIZE = 0 → p ≠ q →
        Same s.mem (putLe (fill s.mem q PGSIZE 1) q 8 (s.freelist k)) p := by
    intro k
    have hsame : ∀ p, p % PGSIZE = 0 → p ≠ q →
        Same s.mem (putLe (fill s.mem q PGSIZE 1) q 8 (s.freelist k)) p := by
      intro p hp hne a h1 h2
      have := page_disjoint hp hm.1 hne
      simp only [PGSIZE] at *
      rw [putLe_of_out (by omega)]
      exact fill_of_out (by omega)
    refine ⟨h.push hq hqf hsub hown hdead hup hsame ?_, hsame⟩
    rw [le_putLe]
    exact Nat.mod_eq_of_lt (by simpa using h.freelist_lt)
  have hcheck : ¬ (q % PGSIZE ≠ 0 ∨ q < Layout.kend ∨ PHYSTOP ≤ q) := by
    have := kend_le_heapStart
    have := hm.2
    rw [not_or, not_or, not_not]
    exact ⟨hm.1, by omega, by omega⟩
  unfold kfree pkfree
  rw [if_neg hcheck]
  dsimp only
  rw [wp_bind, wp_memset, wp_bind]
  split
  · rename_i hid
    rw [wp_bind, wp_push, wp_pure, if_neg (by nofun), wp_pure]
    obtain ⟨h1, h2⟩ := hpush (some ⟨_, hid⟩)
    exact ⟨_, h1, ⟨rfl, rfl, rfl, rfl, rfl, rfl⟩, h2⟩
  · rw [wp_pure, if_pos rfl, wp_push]
    obtain ⟨h1, h2⟩ := hpush none
    exact ⟨_, h1, ⟨rfl, rfl, rfl, rfl, rfl, rfl⟩, h2⟩

lemma Frame.pteAt {r' x s' own'} (f : Frame r x s own s' own') (h : Heap s own live)
    (h' : Heap s' own' live') (hne : r' ≠ r) (hl : ∀ path, live r' path) (hl' : ∀ path, live' r' path)
    (hx : ∀ p path, x = some p → own p ≠ .slot r' path ∧ own' p ≠ .slot r' path) {v : Nat} :
    pteAt s'.mem r' v = pteAt s.mem r' v := by
  apply h.pteAt_same h' hl hl'
  · intro p path
    constructor
    · intro hp
      rw [← f.owner p (fun e => (hx p path e).2 hp) (.inr (by rw [hp]; exact hne)), hp]
    · intro hp
      rw [f.owner p (fun e => (hx p path e).1 hp) (.inl (by rw [hp]; exact hne)), hp]
  · intro p path hp _
    exact f.same p (fun e => (hx p path e).1 hp) (h.slot_mod hp) (by rw [hp]; exact hne)

lemma Retag.frame {s' o} (f : Retag live s own q o s') :
    Frame r (some q) s own s' (update own q o) := by
  refine ⟨f.tables, ?_, ?_⟩
  · intro p hp _
    rw [update_of_ne]
    rintro rfl
    exact hp rfl
  · intro p hp hpm _
    exact f.same p hpm fun e => hp (by rw [e])

lemma Retag.pte {s' o} (f : Retag live' s own q o s') (h : Heap s own live)
    (hr : ∀ path, live r path) (hr' : ∀ path, live' r path) (hq : ∀ path, own q ≠ .slot r path)
    (ho : ∀ path, o ≠ .slot r path) {v : Nat} : pteAt s'.mem r v = pteAt s.mem r v := by
  apply h.pteAt_same f.heap hr hr'
  · intro p path
    by_cases hp : p = q
    · subst hp
      rw [update_self]
      exact ⟨fun e => absurd e (ho path), fun e => absurd e (hq path)⟩
    · rw [update_of_ne hp]
  · intro p path hp _
    apply f.same p (h.slot_mod hp)
    rintro rfl
    exact hq path hp

lemma Fresh.out {s'} (f : Fresh live s own q s') : ¬ (own q).Out r := by
  obtain ⟨k, hk⟩ := f.free
  rw [hk]
  exact id

lemma Fresh.pteAt {s'} (f : Fresh live s own q s') (h : Heap s own live) (hr : ∀ path, live r path)
    {v : Nat} : pteAt s'.mem r v = pteAt s.mem r v := by
  obtain ⟨k, hk⟩ := f.free
  exact f.pte h hr hr (by rw [hk]; nofun) nofun

lemma kfreePlain_spec (h : Heap s own live) (hq : own q ≠ .kernel) (hf : ∀ k, own q ≠ .free k)
    (hs : ∀ r path, own q ≠ .slot r path) :
    wp (kfree q) (fun _ s' => ∃ k, Retag live s own q (.free k) s') Never s := by
  refine kfree_spec h hq hf (fun _ _ e => e) ?_ ?_ h.up
  · intro p r path hp _
    exact (h.owned p r path hp).1
  · intro r path e
    exact absurd e (hs r path)

lemma kfreeHeld_spec (h : Heap s own live) (hq : own q = .held) :
    wp (kfree q) (fun _ s' => ∃ k, Retag live s own q (.free k) s') Never s :=
  kfreePlain_spec h (by rw [hq]; nofun) (by rw [hq]; nofun) (by rw [hq]; nofun)

lemma Fresh.write {s' mem'} (f : Fresh live s own q s')
    (hm : ∀ p, p % PGSIZE = 0 → p ≠ q → Same s'.mem mem' p) :
    Fresh live s own q { s' with mem := mem' } := by
  refine ⟨⟨?_, f.tables.mem, fun p hp hne => (f.same p hp hne).trans (hm p hp hne)⟩, f.free⟩
  apply f.heap.write
  intro p hp hlinks
  apply hm p hp
  rintro rfl
  rw [update_self] at hlinks
  exact hlinks

lemma Fresh.mod {s'} (f : Fresh live s own q s') : q % PGSIZE = 0 :=
  f.heap.mod (by rw [update_self]; nofun)

omit [Layout] in
@[simp] lemma wp_walkLevel_false {E} {Q : Option Nat → Kernel → Prop} :
    wp (walkLevel t i false) Q E s ↔ Q (child s.mem t i) s := by
  unfold walkLevel child
  rw [wp_bind, wp_load64]
  change wp (if ent s.mem t i &&& PTE_V ≠ 0 then _ else _) Q E s ↔ _
  by_cases hv : ent s.mem t i &&& PTE_V ≠ 0
  · rw [if_pos hv, if_pos hv, wp_pure]
    rfl
  · rw [if_neg hv, if_neg hv, if_pos rfl, wp_pure]

omit [Layout] in
@[simp] lemma wp_walk_false {va : Nat} (hva : va < MAXVA) {E} {Q : Option Nat → Kernel → Prop} :
    wp (walk r va false) Q E s ↔
      Q ((pageAt s.mem r (lowPath (va / PGSIZE))).map (· + 8 * (va / PGSIZE % 512))) s := by
  unfold walk
  rw [if_neg (by omega), wp_bind, wp_walkLevel_false, px_zero, px_one, px_two]
  unfold pageAt
  rw [lowPath_eq, descend_cons, descend_cons]
  unfold descend
  rw [Option.bind_some]
  cases child s.mem r (va / PGSIZE / 512 / 512 % 512) with
  | none => simp
  | some t1 =>
    rw [Option.bind_some]
    simp only [wp_bind, wp_walkLevel_false]
    cases child s.mem t1 (va / PGSIZE / 512 % 512) with
    | none => simp
    | some t0 => simp

/-- A step of the heap that adds to the table with root `r` and keeps its entries. -/
structure Grows (r : Nat) (live : Nat → List Nat → Prop) (s : Kernel) (own : Nat → Owner)
    (s' : Kernel) (own' : Nat → Owner) : Prop where
  heap : Heap s' own' live
  frame : Frame r none s own s' own'
  slot : ∀ p r' path, own p = .slot r' path → own' p = .slot r' path
  pte : ∀ v, pteAt s'.mem r v = pteAt s.mem r v

lemma Grows.trans {s1 s2 s3 own1 own2 own3} (h1 : Grows r live s1 own1 s2 own2)
    (h2 : Grows r live s2 own2 s3 own3) : Grows r live s1 own1 s3 own3 :=
  ⟨h2.heap, h1.frame.trans h2.frame, fun p r' path h => h2.slot p r' path (h1.slot p r' path h),
    fun v => (h2.pte v).trans (h1.pte v)⟩

lemma Heap.grows (h : Heap s own live) : Grows r live s own s own :=
  ⟨h, .refl, fun _ _ _ h => h, fun _ => rfl⟩

lemma walkLevel_spec (h : Heap s own live) (hr : ∀ path, IsTable path → live r path) (ht : own t = .slot r path)
    (hp : IsTable (i :: path)) :
    wp (walkLevel t i true) (fun o s' => ∃ own', Grows r live s own s' own' ∧
      ∀ t', o = some t' → own' t' = .slot r (i :: path)) Never s := by
  have hi : i < 512 := hp.lt i (List.mem_cons_self ..)
  have hlen : path.length < 2 := hp.length
  unfold walkLevel
  rw [wp_bind, wp_load64]
  change wp (if ent s.mem t i &&& PTE_V ≠ 0 then _ else _) _ _ s
  by_cases hv : ent s.mem t i &&& PTE_V ≠ 0
  · rw [if_pos hv, wp_pure]
    refine ⟨own, h.grows, ?_⟩
    rintro t' e
    cases e
    apply (h.sub r i path (hr _ hp) hp.slot _).2
    refine ⟨t, ht, ?_⟩
    unfold child
    rw [if_pos hv]
    rfl
  · have hc : child s.mem t i = none := by
      unfold child
      rw [if_neg hv]
    rw [if_neg hv, if_neg (by nofun), wp_bind]
    apply wp_mono (alloc_spec h)
    intro o s1 ho
    cases o with
    | none =>
      obtain ⟨h1, h2, h3⟩ := ho
      rw [wp_pure]
      refine ⟨own, ⟨h1, ⟨h2, fun _ _ _ => rfl, fun p _ _ _ => ?_⟩, fun _ _ _ h => h, ?_⟩, nofun⟩
      · rw [h3]
        exact .refl
      · intro v
        rw [h3]
    | some q =>
      obtain ⟨⟨h1, h2, h3⟩, ⟨k, hk⟩⟩ := ho
      dsimp only
      rw [wp_bind, wp_memset, wp_bind, wp_store64, wp_pure]
      have hqm : q % PGSIZE = 0 := h.mod (by rw [hk]; nofun)
      have hqlt := ((h.managed q).1 (by rw [hk]; nofun)).lt
      have htq : t ≠ q := by
        rintro rfl
        rw [hk] at ht
        cases ht
      have htm := h.slot_mod ht
      have hq1 : update own q .held q = .held := update_self ..
      have ht1 : update own q .held t = .slot r path := by
        rw [update_of_ne htq, ht]
      -- the page is cleared, then linked
      have h4 : Heap { s1 with mem := fill s1.mem q PGSIZE 0 } (update own q .held) live := by
        apply h1.write
        intro p hp hlinks
        apply same_fill hqm hp
        rintro rfl
        rw [hq1] at hlinks
        exact hlinks
      have hsame : ∀ p, p % PGSIZE = 0 → p ≠ q → p ≠ t → Same s.mem
          (putLe (fill s1.mem q PGSIZE 0) (t + 8 * i) 8 (pa2pte q ||| PTE_V)) p := by
        intro p hp h5 h6
        exact ((h3 p hp h5).trans (same_fill hqm hp h5)).trans (same_putLe htm hi hp h6)
      have hc1 : child (fill s1.mem q PGSIZE 0) t i = none := by
        rw [← hc]
        exact ((h3 t htm htq).trans (same_fill hqm htm htq)).child hi
      have h5 := h4.link ht1 hp.slot (hr _ hp) hc1 hq1 (fun _ j hj => ent_fill hj)
        (w := pa2pte q ||| PTE_V) (mk_lt (by omega) (by decide)) (mk_valid (by decide) rfl)
        (pte2pa_mk hqm (by decide)) (fun _ => pteFlags_mk (by decide))
      rw [update_idem] at h5
      refine ⟨_, ⟨h5, ⟨h2.mem, ?_, ?_⟩, ?_, ?_⟩, ?_⟩
      · intro p _ ho
        by_cases hpq : p = q
        · subst hpq
          rw [update_self, hk] at ho
          exact absurd ho (by simp [Owner.Out])
        · rw [update_of_ne hpq]
      · intro p _ hpm ho
        apply hsame p hpm
        · rintro rfl
          rw [hk] at ho
          exact ho
        · rintro rfl
          rw [ht] at ho
          exact ho rfl
      · intro p r' path' ho
        rw [update_of_ne, ho]
        rintro rfl
        rw [hk] at ho
        cases ho
      · intro v
        by_cases hlow : ∃ t', own t' = .slot r (lowPath v)
        · obtain ⟨t', ht'⟩ := hlow
          have h6 : t' ≠ q := by
            rintro rfl
            rw [hk] at ht'
            cases ht'
          have h7 : t' ≠ t := by
            rintro rfl
            cases ht.symm.trans ht'
            rw [lowPath_length] at hlen
            omega
          rw [h.pteAt_some (hr _ isTable_lowPath) ht', h5.pteAt_some (hr _ isTable_lowPath) (by rw [update_of_ne h6, ht'])]
          exact (hsame t' (h.slot_mod ht') h6 h7).ent (Nat.mod_lt _ (by decide))
        · rw [not_exists] at hlow
          rw [h.pteAt_none (hr _ isTable_lowPath) hlow]
          by_cases hnew : i :: path = lowPath v
          · rw [h5.pteAt_some (t := q) (hr _ isTable_lowPath) (by rw [update_self, hnew])]
            dsimp only
            rw [(same_putLe htm hi hqm htq.symm).ent (Nat.mod_lt _ (by decide))]
            exact ent_fill (Nat.mod_lt _ (by decide))
          · apply h5.pteAt_none (hr _ isTable_lowPath)
            intro t' ht'
            by_cases h6 : t' = q
            · subst h6
              rw [update_self, Owner.slot.injEq] at ht'
              exact hnew ht'.2
            · rw [update_of_ne h6] at ht'
              exact hlow t' ht'
      · intro t' e
        cases e
        rw [update_self]

lemma walk_spec {v : Nat} (h : Heap s own live) (hr : ∀ path, IsTable path → live r path) (hv : v < NVPN) :
    wp (walk r (v * PGSIZE) true) (fun o s' => ∃ own', Grows r live s own s' own' ∧
      ∀ a, o = some a → ∃ t, own' t = .slot r (lowPath v) ∧ a = t + 8 * (v % 512)) Never s := by
  have hva : ¬ MAXVA ≤ v * PGSIZE := by
    simp only [MAXVA, PGSIZE, NVPN] at *
    omega
  have hroot : own r = .slot r [] := (h.root r (hr _ ⟨Nat.zero_le _, by simp⟩) r).2 rfl
  have hdiv : v * PGSIZE / PGSIZE = v := Nat.mul_div_cancel _ (by decide)
  unfold walk
  rw [if_neg hva, wp_bind, px_zero, px_one, px_two, hdiv]
  have h1 : IsTable [v / 512 / 512 % 512] := by
    apply IsTable.cons ⟨Nat.zero_le _, by simp⟩ (by decide)
    exact Nat.mod_lt _ (by decide)
  apply wp_mono (walkLevel_spec h hr hroot h1)
  rintro o s1 ⟨own1, g1, ho⟩
  cases o with
  | none =>
    dsimp only
    rw [wp_pure]
    exact ⟨own1, g1, nofun⟩
  | some t1 =>
    dsimp only
    rw [wp_bind]
    have h2 := isTable_lowPath (v := v)
    rw [lowPath_eq] at h2
    apply wp_mono (walkLevel_spec g1.heap hr (ho t1 rfl) h2)
    rintro o s2 ⟨own2, g2, ho⟩
    cases o with
    | none =>
      dsimp only
      rw [wp_pure]
      exact ⟨own2, g1.trans g2, nofun⟩
    | some t0 =>
      dsimp only
      rw [wp_pure]
      refine ⟨own2, g1.trans g2, ?_⟩
      intro a e
      cases e
      exact ⟨t0, by rw [lowPath_eq]; exact ho t0 rfl, rfl⟩

end spec

end Xv6n
