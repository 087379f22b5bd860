import Xv6n.Vm.ExecSpec

/-!
# Enough memory

`Supply c n` says that all allocations run on hart `c` and that its free list holds at least `n` pages.
Then the functions that allocate succeed, and use up no more pages than they need: a level of a walk at
most one, a user page at most three, an empty address space at most five.
-/

namespace Xv6n
open Lib KernM Function

/-- The next `n` allocations find a page on the list of hart `c`. -/
structure Supply (c : Fin NCPU) (n : Nat) (s : Kernel) : Prop where
  env : ∀ m, s.env m = some c
  pages : ∃ l, Chain (fun p => le s.mem p 8) (s.freelist (some c)) l ∧ n ≤ l.length

variable {s s' s1 : Kernel} {own own1 : Nat → Owner} {live : Nat → List Nat → Prop} {c : Fin NCPU}
  {n m r t i v pa perm xperm sz : Nat} {path : List Nat}

lemma Supply.less (S : Supply c n s) (h : m ≤ n) : Supply c m s := by
  obtain ⟨l, hc, hl⟩ := S.pages
  exact ⟨S.env, l, hc, Nat.le_trans h hl⟩

lemma Supply.congr (S : Supply c n s) (he : s'.env = s.env) (hm : s'.mem = s.mem)
    (hf : s'.freelist = s.freelist) : Supply c n s' :=
  ⟨by rw [he]; exact S.env, by rw [hm, hf]; exact S.pages⟩

variable [Layout]

lemma Supply.write {mem' : Nat → UInt8} (S : Supply c n s) (h : Heap s own live)
    (hm : ∀ p, own p = .free (some c) → Same s.mem mem' p) : Supply c n { s with mem := mem' } := by
  obtain ⟨l, hc, hl⟩ := S.pages
  obtain ⟨l', hc', -, hown⟩ := h.free (some c)
  cases hc.unique hc'
  exact ⟨S.env, l, hc.congr fun p hp => (hm p ((hown p).2 hp)).link, hl⟩

lemma Supply.writePage {mem' : Nat → UInt8} (S : Supply c n s) (h : Heap s own live) (ht : own t ≠ .free (some c))
    (hm : ∀ p, p % PGSIZE = 0 → p ≠ t → Same s.mem mem' p) : Supply c n { s with mem := mem' } := by
  refine S.write h fun p hp => hm p (h.mod (by rw [hp]; nofun)) ?_
  rintro rfl
  exact ht hp

lemma Supply.wrote {A : Nat → Prop} (S : Supply c n s) (h : Heap s own live) (w : Wrote A s s')
    (hA : ∀ p, A p → own p ≠ .free (some c)) : Supply c n s' := by
  rw [w.eq]
  exact S.write h fun p hp => w.same p (h.mod (by rw [hp]; nofun)) fun ha => hA p ha hp

section
variable (h : Heap s own live)
include h

lemma alloc_supply (S : Supply c (n + 1) s) :
    wp alloc (fun o s' => o ≠ none ∧ Supply c n s') Any s := by
  obtain ⟨l, hc, hl⟩ := S.pages
  obtain ⟨l', hc', hnd, hown⟩ := h.free (some c)
  cases hc.unique hc'
  cases l with
  | nil => exact absurd hl (by simp)
  | cons q l =>
    obtain ⟨hq, hq0, hrest⟩ := hc
    rw [List.nodup_cons] at hnd
    have hmod : ∀ p ∈ q :: l, p % PGSIZE = 0 := fun p hp => h.mod (by rw [(hown p).2 hp]; nofun)
    unfold alloc kalloc pkalloc
    rw [wp_bind, wp_get, wp_bind, wp_set, S.env]
    dsimp only
    rw [wp_bind, wp_pop]
    refine ⟨fun e => absurd (hq.symm.trans e) hq0, fun _ => ?_⟩
    dsimp only
    rw [wp_bind, wp_memset, wp_pure]
    refine ⟨nofun, S.env, l, ?_, by simpa using hl⟩
    dsimp only
    rw [update_self, hq]
    refine hrest.congr fun p hp => Same.link (same_fill (hmod q (List.mem_cons_self ..))
      (hmod p (List.mem_cons_of_mem _ hp)) ?_)
    rintro rfl
    exact hnd.1 hp

lemma walkLevel_supply (ht : own t = .slot r path) (hi : i < 512) (S : Supply c (n + 1) s) :
    wp (walkLevel t i true) (fun o s' => o ≠ none ∧ Supply c n s') Any s := by
  unfold walkLevel
  rw [wp_bind, wp_load64, wp_ite]
  refine ⟨fun _ => by rw [wp_pure]; exact ⟨nofun, S.less (Nat.le_succ _)⟩, fun _ => ?_⟩
  rw [if_neg (by nofun), wp_bind]
  refine wp_conseq (wp_and (alloc_spec h) (alloc_supply h S)) ?_ fun _ _ _ => trivial
  rintro o s1 ⟨ho, hne, S1⟩
  cases o with
  | none => exact absurd rfl hne
  | some q =>
    have hqm := Fresh.mod ho
    have htm := h.slot_mod ht
    dsimp only
    rw [wp_bind, wp_memset, wp_bind, wp_store64, wp_pure]
    refine ⟨nofun, S1.write ho.heap fun p hp => ?_⟩
    have hpm : p % PGSIZE = 0 := ho.heap.mod (by rw [hp]; nofun)
    -- the new page and the table are not free
    have hpq := (of_update hp nofun).1
    have hpt : p ≠ t := by
      rintro rfl
      rw [update_of_ne hpq, ht] at hp
      cases hp
    exact (same_fill hqm hpm hpq).trans (same_putLe htm hi hpm hpt)

lemma walk_supply (hr : ∀ path, IsTable path → live r path) (hv : v < NVPN)
    (S : Supply c (n + 2) s) :
    wp (walk r (v * PGSIZE) true) (fun o s' => o ≠ none ∧ Supply c n s') Any s := by
  have hva : ¬ MAXVA ≤ v * PGSIZE := by
    simp only [MAXVA, PGSIZE, NVPN] at *
    omega
  have hroot : own r = .slot r [] := (h.root r (hr _ ⟨Nat.zero_le _, by simp⟩) r).2 rfl
  have hdiv : v * PGSIZE / PGSIZE = v := Nat.mul_div_cancel _ (by decide)
  have htab : IsTable [v / 512 / 512 % 512] := by
    apply IsTable.cons ⟨Nat.zero_le _, by simp⟩ (by decide)
    exact Nat.mod_lt _ (by decide)
  unfold walk
  rw [if_neg hva, wp_bind, px_zero, px_one, px_two, hdiv]
  refine wp_conseq (wp_and (walkLevel_spec h hr hroot htab)
    (walkLevel_supply h hroot (Nat.mod_lt _ (by decide)) S)) ?_ fun _ _ _ => trivial
  rintro o s1 ⟨⟨own1, g1, ho⟩, hne, S1⟩
  cases o with
  | none => exact absurd rfl hne
  | some t1 =>
    dsimp only
    rw [wp_bind]
    refine wp_mono (walkLevel_supply g1.heap (ho t1 rfl) (Nat.mod_lt _ (by decide)) S1) ?_
    rintro o s2 ⟨hne, S2⟩
    cases o with
    | none => exact absurd rfl hne
    | some t0 =>
      dsimp only
      rw [wp_pure]
      exact ⟨nofun, S2⟩

lemma mappages_supply (hr : ∀ path, live r path) (hv : v < NVPN) (S : Supply c (n + 2) s) :
    wp (mappages r (v * PGSIZE) PGSIZE pa perm) (fun ok s' => ok = true ∧ Supply c n s') Any s := by
  rw [mappages_one hv, mapLoop, wp_bind]
  refine wp_conseq (wp_and (walk_spec h (fun path _ => hr path) hv) (walk_supply h (fun path _ => hr path) hv S)) ?_
    fun _ _ _ => trivial
  rintro o s1 ⟨⟨own1, g, ho⟩, hne, S1⟩
  cases o with
  | none => exact absurd rfl hne
  | some a =>
    obtain ⟨t, ht, rfl⟩ := ho a rfl
    dsimp only
    rw [wp_bind, wp_load64, wp_ite]
    refine ⟨fun _ => by rw [wp_bind, wp_throw]; trivial, fun _ => ?_⟩
    rw [wp_bind, wp_store64, mapLoop, wp_pure]
    refine ⟨rfl, S1.writePage g.heap (by rw [ht]; rintro ⟨⟩) fun p hp hne => ?_⟩
    exact same_putLe (g.heap.slot_mod ht) (Nat.mod_lt _ (by decide)) hp hne

lemma uvmcreate_supply (S : Supply c (n + 1) s) :
    wp uvmcreate (fun o s' => o ≠ none ∧ Supply c n s') Any s := by
  unfold uvmcreate
  rw [wp_bind]
  refine wp_conseq (wp_and (alloc_spec h) (alloc_supply h S)) ?_ fun _ _ _ => trivial
  rintro o s1 ⟨ho, hne, S1⟩
  cases o with
  | none => exact absurd rfl hne
  | some q =>
    dsimp only
    rw [wp_bind, wp_memset, wp_pure]
    refine ⟨nofun, S1.writePage (t := q) ho.heap ?_ fun p hp hne => same_fill (Fresh.mod ho) hp hne⟩
    rw [update_self]
    nofun

lemma procPagetable_supply {tf : Nat} (S : Supply c (n + 5) s) :
    wp (procPagetable tf) (fun o s' => o ≠ none ∧ Supply c n s') Any s := by
  unfold procPagetable
  rw [wp_bind]
  refine wp_conseq (wp_and (uvmcreate_spec h) (uvmcreate_supply h S)) ?_ fun _ _ _ => trivial
  rintro o s1 ⟨ho, hne, S1⟩
  cases o with
  | none => exact absurd rfl hne
  | some r =>
    obtain ⟨-, own1, h1, -, hz⟩ := ho
    have hr : ∀ path, With live r r path := fun _ => .inr rfl
    dsimp only
    rw [wp_bind]
    refine wp_conseq (wp_and (mapTop_spec (v := NVPN - 1) h1 hr (.inl rfl) (hz _) trampoline_lt (by decide))
      (mappages_supply (v := NVPN - 1) h1 hr (by decide) S1)) ?_ fun _ _ _ => trivial
    rintro _ s2 ⟨⟨own2, h2, -⟩, rfl, S2⟩
    rw [if_pos rfl, wp_bind]
    refine wp_mono (mappages_supply (v := NVPN - 2) h2 hr (by decide) S2) ?_
    rintro _ s3 ⟨rfl, S3⟩
    rw [if_pos rfl, wp_pure]
    exact ⟨nofun, S3⟩

lemma allocLoop_supply {k oldsz : Nat} (hr : ∀ path, live r path) (hk : v + k ≤ NVPN - 2)
    (hz : ∀ a, v ≤ a → a < v + k → pteAt s.mem r a = 0) (hx : xperm < 1024) (S : Supply c (n + 3 * k) s) :
    wp (allocLoop r oldsz xperm k (v * PGSIZE)) (fun ok s' => ok = true ∧ Supply c n s') Any s := by
  induction k generalizing s own v with
  | zero =>
    rw [allocLoop, wp_pure]
    exact ⟨rfl, S⟩
  | succ k ih =>
    have hlt : v < NVPN - 2 := by omega
    have hperm : PTE_R ||| PTE_U ||| xperm < 1024 := Nat.or_lt_two_pow (n := 10) (by decide) hx
    rw [allocLoop, wp_bind]
    refine wp_conseq (wp_and (alloc_spec h) (alloc_supply (n := n + 3 * k + 2) h (S.less (by omega)))) ?_
      fun _ _ _ => trivial
    rintro o s1 ⟨ho, hne, S1⟩
    cases o with
    | none => exact absurd rfl hne
    | some q =>
      have hqm := Fresh.mod ho
      have f1 := Fresh.write ho fun p hp hne => same_fill (c := 0) hqm hp hne
      have S1 : Supply c (n + 3 * k + 2) { s1 with mem := fill s1.mem q PGSIZE 0 } := by
        refine S1.writePage (t := q) ho.heap ?_ fun p hp hne => same_fill hqm hp hne
        rw [update_self]
        rintro ⟨⟩
      have hpte : ∀ a, pteAt (fill s1.mem q PGSIZE 0) r a = pteAt s.mem r a := fun a => f1.pteAt h hr
      dsimp only
      rw [wp_bind, wp_memset, wp_bind]
      refine wp_conseq (wp_and (mapUser_spec f1.heap hr (by simp only [NVPN] at *; omega) (not_top_of_lt hlt)
        ((hpte v).trans (hz v (Nat.le_refl _) (by omega))) (update_self ..) hperm)
        (mappages_supply f1.heap hr (by simp only [NVPN] at *; omega) S1)) ?_ fun _ _ _ => trivial
      rintro _ s2 ⟨⟨own2, h2, -, -, hok, -⟩, rfl, S2⟩
      obtain ⟨-, hu⟩ := hok rfl
      rw [if_pos rfl, show v * PGSIZE + PGSIZE = (v + 1) * PGSIZE from (Nat.succ_mul ..).symm]
      refine ih h2 (by omega) (fun a h3 h4 => ?_) S2
      rw [hu a (lt_nleaf (by omega)), if_neg (by omega), hpte]
      exact hz a (by omega) (by omega)

lemma uvmalloc_supply {P : Nat → Prop} {x y newsz : Nat} (hr : ∀ path, live r path)
    (sh : Shape s.mem r (npages sz) P x y) (hnew : npages newsz ≤ NVPN - 2) (hx : xperm < 1024)
    (S : Supply c (n + 3 * npages newsz) s) :
    wp (uvmalloc r sz newsz xperm) (fun res s' => res = max sz newsz ∧ Supply c n s') Any s := by
  unfold uvmalloc
  by_cases hba : newsz < sz
  · rw [if_pos hba, wp_pure]
    exact ⟨by omega, S.less (by omega)⟩
  · have hn : npages sz + (newsz - npages sz * PGSIZE + PGSIZE - 1) / PGSIZE = npages newsz := by
      unfold npages
      simp only [PGSIZE]
      omega
    rw [if_neg hba, pgRoundUp_eq sh.le, wp_bind]
    refine wp_mono (allocLoop_supply (n := n) h hr (by omega) (fun a h1 h2 => ?_) hx (S.less (by omega))) ?_
    · rw [sh.rest a h1 (lt_nleaf (by omega)), topPte_of_not_top (not_top_of_lt (by omega))]
    · rintro _ s1 ⟨rfl, S1⟩
      rw [wp_pure, if_pos rfl]
      exact ⟨by omega, S1⟩

end

/-- A program file that `exec` can load with `m` pages for its segments. -/
structure Runs (file : List UInt8) (m : Nat) : Prop where
  header : ElfHdr.size ≤ file.length
  magic : (elfHdr file).magic = ELF_MAGIC
  table : InFile file ((elfHdr file).phoff % 2 ^ 32) ((elfHdr file).phnum * ProgHdr.size)
  segment : ∀ ph ∈ execHdrs file, ph.type = ELF_PROG_LOAD →
    ph.Loadable file ∧ 0 < ph.vaddr + ph.memsz ∧ npages (ph.vaddr + ph.memsz) ≤ m

/-- Each segment needs three pages for each page of the size that it is loaded up to. -/
lemma loadLoop_supply {file : List UInt8} {off k tf : Nat} (b : Building s own r tf sz LoadPte s1 own1)
    (hsz : npages sz ≤ m) (htab : InFile file off (k * ProgHdr.size))
    (hseg : ∀ ph ∈ progHdrs file k off, ph.type = ELF_PROG_LOAD →
      ph.Loadable file ∧ 0 < ph.vaddr + ph.memsz ∧ npages (ph.vaddr + ph.memsz) ≤ m)
    (S : Supply c (n + k * (3 * m)) s1) :
    wp (loadLoop r file k off sz) (fun a s' => a.2 = true ∧ npages a.1 ≤ m ∧ Supply c n s') Any s1 := by
  induction k generalizing off sz s1 own1 with
  | zero =>
    rw [loadLoop, wp_pure]
    exact ⟨rfl, hsz, S.less (by omega)⟩
  | succ k ih =>
    rw [Nat.succ_mul] at htab S
    have hnext : (off + ProgHdr.size) % 2 ^ 32 = off + ProgHdr.size := by
      have := (htab (by simp only [ProgHdr.size]; omega)).1
      exact Nat.mod_eq_of_lt (by omega)
    have hrest : InFile file (off + ProgHdr.size) (k * ProgHdr.size) := by
      have := htab.rest (m := ProgHdr.size)
      rwa [Nat.add_sub_cancel] at this
    obtain ⟨h1, h2⟩ := (htab.part (Nat.le_add_left ..)).readi
    have hph : ProgHdr.ofBytes (readi file off ProgHdr.size) = .read file off := by
      rw [h2]
      rfl
    have hseg' := fun ph hp => hseg ph (List.mem_cons_of_mem _ hp)
    have hseg := hseg _ (List.mem_cons_self ..)
    rw [loadLoop, if_neg (not_not.2 h1), hph, hnext]
    generalize ProgHdr.read file off = ph at *
    rw [wp_ite]
    refine ⟨fun _ => ih b hsz hrest hseg' (S.less (by omega)), fun htype => ?_⟩
    rw [not_not] at htype
    obtain ⟨⟨hfit, hle, hmod, hin⟩, hpos, hm⟩ := hseg htype
    have hend : (ph.vaddr + ph.memsz) % 2 ^ 64 = ph.vaddr + ph.memsz := by omega
    have hfile : ph.filesz % 2 ^ 32 = ph.filesz := by omega
    have hnv : npages (ph.vaddr + ph.memsz) ≤ NVPN - 2 := by
      simp only [npages, PGSIZE, NVPN]
      omega
    rw [if_neg (by omega), hend, if_neg (by omega), if_neg (not_not.2 hmod), hfile, wp_bind]
    refine wp_conseq (wp_and (b.grow flags2perm_lt) (uvmalloc_supply (n := n + k * (3 * m)) b.heap with_self b.shape hnv
      flags2perm_lt (S.less (by omega)))) ?_ fun _ _ _ => trivial
    rintro _ s2 ⟨⟨own2, h4⟩, rfl, S2⟩
    have hmax : max sz (ph.vaddr + ph.memsz) ≠ 0 := by omega
    obtain ⟨h5, _⟩ | ⟨-, b2, -⟩ := h4
    · exact absurd h5 hmax
    rw [if_neg hmax, wp_bind]
    refine wp_never (loadseg_spec b2 hmod (by omega) (Nat.mod_lt _ (by decide))) ?_
    rintro _ s3 ⟨b3, w, hok, -⟩
    rw [hok hin, if_pos rfl]
    refine ih b3 ?_ hrest hseg' (S2.wrote b2.heap w ?_)
    · rcases Nat.le_total sz (ph.vaddr + ph.memsz) with h | h
      · rwa [Nat.max_eq_right h]
      · rwa [Nat.max_eq_left h]
    · rintro p ⟨v, hv⟩ e
      rw [hv] at e
      cases e

lemma Runs.stackMapped {file : List UInt8} {extra : Fin NFILE → Nat} {held : List Nat} {i : Fin NPROC}
    (h : Runs file m) (hm : m ≤ 2 ^ 15) (hi : Inv s own held extra) (ha : Active s i)
    (S : Supply c (5 + (elfHdr file).phnum * (3 * m) + 3 * (m + 2)) s) : StackMapped i file s := by
  have h0 := hi.pagetable_ne ha
  have htf0 := ((hi.proc i).shape h0).1
  have htf := ((hi.proc i).trapframe _).2 ⟨htf0, rfl⟩
  have hlt : (s.proc i).trapframe < 2 ^ 56 := by
    have := ((hi.heap.managed _).1 (by rw [htf]; nofun)).lt.2
    omega
  have h1 : wp (procPagetable (s.proc i).trapframe) _ _ s :=
    wp_conseq (wp_and (procPagetable_spec (P := LoadPte) hi.heap hlt fun _ h => h.toUserPte.leaf)
      (procPagetable_supply (n := 3 * (m + 2) + (elfHdr file).phnum * (3 * m)) hi.heap (S.less (by omega))))
      (fun _ _ h => h) fun _ _ h => h.1
  obtain ⟨o, s1, hrun1, ho, hne, S1⟩ := h1.returns
  cases o with
  | none => exact absurd rfl hne
  | some r =>
    obtain ⟨-, own1, h1, f1, sh1⟩ := ho
    have b1 : Building s own r (s.proc i).trapframe 0 LoadPte s1 own1 := ⟨h1, f1, sh1⟩
    have h2 := wp_conseq (wp_and (loadLoop_spec b1 (Nat.mod_lt (elfHdr file).phoff (by decide : 0 < 2 ^ 32)))
      (loadLoop_supply b1 (Nat.zero_le _) h.table h.segment S1)) (fun _ _ h => h) fun _ _ h => h.1
    obtain ⟨⟨sz, ok⟩, s2, hrun2, ⟨⟨own2, b2⟩, -⟩, hok, hsz, S2⟩ := h2.returns
    dsimp only at b2 hok hsz
    subst hok
    have b0 : Building s own r (s.proc i).trapframe (npages sz * PGSIZE) LoadPte s2 own2 :=
      ⟨b2.heap, b2.frame, by rw [npages_mul]; exact b2.shape⟩
    have hnew : npages (npages sz * PGSIZE + 2 * PGSIZE) = npages sz + 2 := by
      rw [← Nat.add_mul, npages_mul]
    have h3 : wp (uvmalloc r (npages sz * PGSIZE) (npages sz * PGSIZE + 2 * PGSIZE) PTE_W) _ _ s2 :=
      wp_conseq (wp_and (b0.grow (by decide)) (uvmalloc_supply (n := 0) b0.heap with_self b0.shape
        (by rw [hnew]; simp only [NVPN]; omega) (by decide) (S2.less (by rw [hnew]; omega))))
        (fun _ _ h => h) fun _ _ h => h.1
    obtain ⟨sz1, s3, hrun3, -, hmax, -⟩ := h3.returns
    refine ⟨h.header, h.magic, r, s1, sz, s2, sz1, s3, hrun1, hrun2, ?_, ?_⟩
    · rw [pgRoundUp_eq b2.shape.le]
      exact hrun3
    · rw [hmax]
      simp only [PGSIZE]
      omega

end Xv6n
