import Xv6n.Vm.Start

/-!
# Page ownership and address spaces

The invariant of the process table holds after `kinit` and every step of the machine keeps it. Two
results follow for every state that the machine can reach. `page_ownership`: every page that the
allocator manages has exactly one holder, and no user page is shared. `address_space`: the page table
of every process maps exactly the pages below its size and the two pages at the top, and no system
call can panic, `exit` of the first process apart.
-/

namespace Xv6n
open Lib KernM

variable [Layout] {s s' s0 : Kernel} {own : Nat → Owner} {i j : Fin NPROC} {extra : Fin NFILE → Nat}

section
variable (hi : Inv s own [] extra) (ha : Active s i)
include hi ha

lemma callFn_spec {c : Call} :
    wp (callFn i c) (fun _ s' => ∃ own', Inv s' own' [] extra ∧ Active s' i)
      (fun e _ => e = .asleep) s := by
  cases c with
  | fork => exact wp_never (fork_spec hi ha) fun _ _ ⟨own1, h1, h2, _⟩ => ⟨own1, h1, h2⟩
  | exit => exact wp_pure.2 ⟨own, hi, ha⟩
  | wait addr => exact wait_spec hi ha addr.toNat_lt
  | pipe fdarray => exact wp_never (sysPipe_spec hi ha fdarray.toNat_lt) fun _ _ h => h
  | kill => exact wp_never (kill_spec hi ha) fun _ _ h => h
  | exec => exact wp_never (sysExec_spec hi ha) fun _ _ h => h
  | dup => exact wp_never (sysDup_spec hi ha) fun _ _ h => h
  | sbrk => exact wp_never (sysSbrk_spec hi ha) fun _ _ h => h
  | close => exact wp_never (sysClose_spec hi ha) fun _ _ h => h

lemma returnValue_spec {c : Call} :
    wp (do
        let ret ← callFn i c
        let p := (← get).proc i
        store64 (tfA0 p.trapframe) (toU64 ret))
      (fun _ s' => ∃ own', Inv s' own' [] extra) (fun e _ => e = .asleep) s := by
  rw [wp_bind]
  apply wp_mono (callFn_spec hi ha)
  rintro ret s1 ⟨own1, hi1, ha1⟩
  rw [wp_bind, wp_get, wp_store64]
  obtain ⟨htf, _⟩ := (hi1.proc i).shape (hi1.pagetable_ne ha1)
  exact ⟨own1, hi1.writeTrapframe htf
    (wrote_putLe (o := 112) (hi1.trapframe_mod htf) (by decide) rfl)⟩

lemma syscall_spec {c : Call} :
    wp (syscall i c) (fun _ s' => ∃ own', Inv s' own' [] extra)
      (fun e _ => e = .initExiting ∨ e = .asleep) s := by
  unfold syscall
  split
  · exact wp_conseq (exit_spec hi ha) (fun _ _ h => h) fun _ _ h => .inl h
  · exact wp_conseq (returnValue_spec hi ha) (fun _ _ h => h) fun _ _ h => .inr h

lemma userStore_spec {va : Nat} {b : UInt8} :
    wp (userStore i va b) (fun _ s' => Inv s' own [] extra) Never s := by
  have h0 := hi.pagetable_ne ha
  obtain ⟨_, sh⟩ := (hi.proc i).shape h0
  unfold userStore
  rw [wp_bind, wp_get]
  dsimp only
  rw [wp_bind, wp_walkaddr]
  cases hpa : userPage s.mem (s.proc i).pagetable va with
  | none =>
    dsimp only
    rw [wp_pure]
    exact hi
  | some pa =>
    dsimp only
    rw [wp_putBytes]
    obtain ⟨hu, hmod⟩ := hi.heap.userPage_own (fun _ => ⟨h0, i, rfl⟩) sh.hidden hpa
    have hlt : va % PGSIZE < PGSIZE := Nat.mod_lt _ (by decide)
    exact hi.writeUser (wrote_putBytes hmod hlt hu)

end

omit [Layout] in
lemma after_spec {α : Type} {x : KernM α} {Q : α → Kernel → Prop} {E : Panic → Kernel → Prop}
    (hx : wp x Q E s) (h : s.after x = some s') : ∃ a, Q a s' := by
  unfold Kernel.after at h
  split at h
  · rename_i a s1 e
    cases h
    exact ⟨a, (wp_def.1 hx).1 a _ e⟩
  · cases h

lemma step_inv {a : Kernel.Action} (hi : ∃ own, Inv s own [] fun _ => 0) (h : s.step a = some s') :
    ∃ own, Inv s' own [] fun _ => 0 := by
  obtain ⟨own, hi⟩ := hi
  cases a with
  | boot id =>
    rw [Kernel.step] at h
    split at h
    · obtain ⟨_, h⟩ := after_spec (bootAlloc_spec hi) h
      exact h
    · cases h
  | userinit =>
    rw [Kernel.step] at h
    split at h
    · split at h
      · rename_i e
        cases h
        obtain ⟨j, hj⟩ := ((wp_def.1 (bootEnd_spec (c := 0) (n := 0) hi)).1 _ _ e).1 rfl
        exact hj.inv
      · cases h
    · cases h
  | call i c =>
    rw [Kernel.step] at h
    split at h
    · rename_i ha
      obtain ⟨_, h⟩ := after_spec (syscall_spec hi ha) h
      exact h
    · cases h
  | store i va b =>
    rw [Kernel.step] at h
    split at h
    · rename_i ha
      obtain ⟨_, h⟩ := after_spec (userStore_spec hi ha) h
      exact ⟨own, h⟩
    · cases h
  | sched i state =>
    rw [Kernel.step] at h
    split at h
    · rename_i ha
      cases h
      refine ⟨own, hi.restateProc ⟨rfl, rfl, rfl, rfl⟩ ⟨?_, fun _ _ => hi.pagetable_ne ha.1, ?_⟩⟩
      · rintro rfl
        simp at ha
      · rintro rfl
        simp at ha
    · cases h

lemma Kernel.Reachable.inv (h : s.Reachable) : ∃ own, Inv s own [] fun _ => 0 := by
  obtain ⟨s0, s1, as, hb, hk, he⟩ := h
  have h1 := (wp_def.1 (kinit_spec hb)).1 _ _ hk
  exact exec_invariant (fun hi h => step_inv hi h) (h1.1.imp fun _ h => h.1) he

inductive Holder where
  | freelist (k : Option (Fin NCPU))
  | table (i : Fin NPROC) (path : List Nat)
  | user (i : Fin NPROC) (v : Nat)
  | trapframe (i : Fin NPROC)
  | pipe
  | boot

/-- `h` holds the page `p`: `p` is on the free list, is the page at a place for page-table pages of the
    process's page table, is mapped there at virtual page `v`, and so on. A pipe is live as long as
    some descriptor of some process refers to it. -/
def Holds (s : Kernel) (p : Nat) : Holder → Prop
  | .freelist k => ∃ l, Chain (fun q => le s.mem q 8) (s.freelist k) l ∧ p ∈ l
  | .table i path => (s.proc i).pagetable ≠ 0 ∧ IsTable path ∧
      pageAt s.mem (s.proc i).pagetable path = some p
  | .user i v => (s.proc i).pagetable ≠ 0 ∧ v < NLEAF ∧ ¬ Top v ∧
      pteAt s.mem (s.proc i).pagetable v &&& PTE_V ≠ 0 ∧
      pte2pa (pteAt s.mem (s.proc i).pagetable v) = p
  | .trapframe i => p ≠ 0 ∧ (s.proc i).trapframe = p
  | .pipe => ∃ i fd f, (s.proc i).ofile fd = some f ∧ (s.file f).type = .pipe ∧ (s.file f).pipe = p
  | .boot => p ∈ s.boot

def Holder.owner (s : Kernel) : Holder → Owner
  | .freelist k => .free k
  | .table i path => .slot (s.proc i).pagetable path
  | .user i v => .slot (s.proc i).pagetable (leafPath v)
  | .trapframe i => .trapframe i
  | .pipe => .pipe
  | .boot => .boot

variable {p : Nat} {h h' : Holder}

lemma Holds.owner {held : List Nat} (hi : Inv s own held extra) (hh : Holds s p h) : own p = h.owner s := by
  cases h with
  | freelist k =>
    obtain ⟨l, hl, hp⟩ := hh
    obtain ⟨l', hl', _, hiff⟩ := hi.heap.free k
    rw [hl.unique hl'] at hp
    exact (hiff p).2 hp
  | table i path =>
    obtain ⟨h0, ht, hp⟩ := hh
    exact (hi.heap.pageAt_iff ⟨h0, i, rfl⟩ ht.slot).1 hp
  | user i v =>
    obtain ⟨h0, hv, ht, hp⟩ := hh
    exact (hi.heap.leaf_iff ⟨h0, i, rfl⟩ hv ht).2 hp
  | trapframe i => exact ((hi.proc i).trapframe p).2 hh
  | pipe =>
    obtain ⟨i, fd, f, _, hf⟩ := hh
    exact (hi.files.pipe p).2 ⟨f, hf⟩
  | boot => exact (hi.boot p).2 hh

lemma Holds.unique (hi : Inv s own [] extra) (hh : Holds s p h) (hh' : Holds s p h') : h = h' := by
  have e := (hh.owner hi).symm.trans (hh'.owner hi)
  cases h with
  | freelist k =>
    cases h' with
    | freelist k' =>
      cases e
      rfl
    | _ => cases e
  | table i path =>
    cases h' with
    | table i' path' =>
      obtain ⟨e1, rfl⟩ := Owner.slot.inj e
      rw [hi.inj i i' hh.1 e1]
    | user i' v =>
      have hlen := hh.2.1.length
      rw [(Owner.slot.inj e).2, leafPath_length] at hlen
      omega
    | _ => cases e
  | user i v =>
    cases h' with
    | table i' path' =>
      have hlen := hh'.2.1.length
      rw [← (Owner.slot.inj e).2, leafPath_length] at hlen
      omega
    | user i' v' =>
      obtain ⟨e1, e2⟩ := Owner.slot.inj e
      rw [hi.inj i i' hh.1 e1, leafPath_inj hh.2.1 hh'.2.1 e2]
    | _ => cases e
  | trapframe i =>
    cases h' with
    | trapframe i' =>
      cases e
      rfl
    | _ => cases e
  | pipe =>
    cases h' with
    | pipe => rfl
    | _ => cases e
  | boot =>
    cases h' with
    | boot => rfl
    | _ => cases e

omit [Layout] in
lemma IsSlot.cases {path : List Nat} (hp : IsSlot path) :
    IsTable path ∨ ∃ v, v < NLEAF ∧ ¬ Top v ∧ leafPath v = path := by
  by_cases hlen : path.length ≤ 2
  · exact .inl ⟨hlen, hp.lt⟩
  · cases path with
    | nil => exact absurd (Nat.zero_le _) hlen
    | cons i path =>
      have h3 := hp.length
      rw [List.length_cons] at h3 hlen
      obtain ⟨v, hv, h1, h2⟩ := exists_lowPath hp.table (by omega) hp.head
      have e : leafPath v = i :: path := by rw [leafPath_eq, h1, h2]
      exact .inr ⟨v, hv, fun ht => hp.low v ht e.symm, e⟩

lemma Inv.desc_of_pipe (hi : Inv s own [] fun _ => 0) {f : Fin NFILE} (hf : (s.file f).type = .pipe) :
    ∃ i fd, (s.proc i).ofile fd = some f := by
  by_contra hno
  have h0 : refs (descs s) f = 0 := by
    refine Finset.card_eq_zero.2 (Finset.filter_eq_empty_iff.2 fun x _ e => ?_)
    exact hno ⟨x.1, x.2, e⟩
  rw [hi.files.closed f (Nat.add_eq_zero_iff.2 ⟨h0, rfl⟩)] at hf
  cases hf

lemma Inv.exists_holder (hi : Inv s own [] fun _ => 0) (hp : Managed p) : ∃ h, Holds s p h := by
  cases ho : own p with
  | kernel => exact absurd ho ((hi.heap.managed p).2 hp)
  | free k =>
    obtain ⟨l, hl, _, hiff⟩ := hi.heap.free k
    exact ⟨.freelist k, l, hl, (hiff p).1 ho⟩
  | slot r path =>
    obtain ⟨⟨h0, i, rfl⟩, hslot⟩ := hi.heap.owned p r path ho
    obtain ht | ⟨v, hv, ht, rfl⟩ := hslot.cases
    · exact ⟨.table i path, h0, ht, (hi.heap.pageAt_iff ⟨h0, i, rfl⟩ hslot).2 ho⟩
    · exact ⟨.user i v, h0, hv, ht, (hi.heap.leaf_iff ⟨h0, i, rfl⟩ hv ht).1 ho⟩
  | trapframe i => exact ⟨.trapframe i, ((hi.proc i).trapframe p).1 ho⟩
  | pipe =>
    obtain ⟨f, hf⟩ := (hi.files.pipe p).1 ho
    obtain ⟨i, fd, hfd⟩ := hi.desc_of_pipe hf.1
    exact ⟨.pipe, i, fd, f, hfd, hf⟩
  | boot => exact ⟨.boot, (hi.boot p).1 ho⟩
  | held => exact absurd ((hi.held p).1 ho) List.not_mem_nil

/-- In every reachable state each page of the allocator has exactly one holder, nothing else is held,
    the free lists are finite and without repetition, and what a program can reach at a virtual page
    is held by that process and that virtual page, and so by nothing else. -/
theorem page_ownership (hs : s.Reachable) :
    (∀ p, Managed p → ∃! h, Holds s p h) ∧
    (∀ p h, Holds s p h → Managed p) ∧
    (∀ k, ∃ l, Chain (fun q => le s.mem q 8) (s.freelist k) l ∧ l.Nodup) ∧
    ∀ i v, (s.proc i).pagetable ≠ 0 → v < NLEAF →
      pteAt s.mem (s.proc i).pagetable v &&& PTE_V ≠ 0 →
      pteAt s.mem (s.proc i).pagetable v &&& PTE_U ≠ 0 →
      Holds s (pte2pa (pteAt s.mem (s.proc i).pagetable v)) (.user i v) := by
  obtain ⟨own, hi⟩ := hs.inv
  refine ⟨fun p hp => ?_, fun p h hh => ?_, fun k => ?_, fun i v h0 hv hval hu => ?_⟩
  · obtain ⟨h, hh⟩ := hi.exists_holder hp
    exact ⟨h, hh, fun h' hh' => hh'.unique hi hh⟩
  · refine (hi.heap.managed p).1 ?_
    rw [hh.owner hi]
    cases h <;> nofun
  · obtain ⟨l, hl, hn, _⟩ := hi.heap.free k
    exact ⟨l, hl, hn⟩
  · obtain ⟨_, sh⟩ := (hi.proc i).shape h0
    exact ⟨h0, hv, fun ht => hu (sh.hidden v ht), hval, rfl⟩

@[reducible] def sampleLayout : Layout where
  kend := KERNBASE + 0x22000
  trampoline := KERNBASE + 0x7000
  kernbase_le := by decide
  kend_lt := by decide
  trampoline_mod := by decide
  trampoline_lt := by decide
  fits := by decide

omit [Layout] in
/-- The first process can run, and every page has one holder. -/
theorem page_ownership_first : ∃ s : Kernel, @Kernel.Reachable sampleLayout s ∧ (∃ i, Active s i) ∧
    ∀ p, @Managed sampleLayout p → ∃! h, Holds s p h := by
  let _layout := sampleLayout
  obtain ⟨s, hs, j, hj⟩ := exists_started
  exact ⟨s, hs, ⟨j, .inr (.inl hj.runnable)⟩, (page_ownership hs).1⟩

/-- The address space of process `i`: the valid leaf entries are those of the pages below its size,
    with `PTE_R` and pages of their own, and the two at the top, without `PTE_U`. Entries of the two
    upper levels are no leaves. -/
structure AddressSpace (s : Kernel) (i : Fin NPROC) : Prop where
  valid : ∀ v, v < NLEAF → (pteAt s.mem (s.proc i).pagetable v &&& PTE_V ≠ 0 ↔
    v * PGSIZE < pgRoundUp (s.proc i).sz ∨ v * PGSIZE = TRAMPOLINE ∨ v * PGSIZE = TRAPFRAME)
  user : ∀ v, v * PGSIZE < pgRoundUp (s.proc i).sz →
    pteAt s.mem (s.proc i).pagetable v &&& PTE_R ≠ 0 ∧
    Managed (pte2pa (pteAt s.mem (s.proc i).pagetable v))
  own : ∀ v j w, v * PGSIZE < pgRoundUp (s.proc i).sz → w * PGSIZE < pgRoundUp (s.proc j).sz →
    pte2pa (pteAt s.mem (s.proc i).pagetable v) = pte2pa (pteAt s.mem (s.proc j).pagetable w) →
    i = j ∧ v = w
  trampoline : ∀ v, v * PGSIZE = TRAMPOLINE →
    pteAt s.mem (s.proc i).pagetable v &&& PTE_U = 0 ∧
    pte2pa (pteAt s.mem (s.proc i).pagetable v) = Layout.trampoline
  trapframe : ∀ v, v * PGSIZE = TRAPFRAME →
    pteAt s.mem (s.proc i).pagetable v &&& PTE_U = 0 ∧
    pte2pa (pteAt s.mem (s.proc i).pagetable v) = (s.proc i).trapframe
  upper : ∀ k path t, IsTable (k :: path) → pageAt s.mem (s.proc i).pagetable path = some t →
    ent s.mem t k = 0 ∨ pteFlags (ent s.mem t k) = PTE_V
  size : (s.proc i).sz < TRAPFRAME

omit [Layout] in
lemma top_iff {v : Nat} : Top v ↔ v * PGSIZE = TRAMPOLINE ∨ v * PGSIZE = TRAPFRAME := by
  simp only [Top, NVPN, TRAMPOLINE, TRAPFRAME, MAXVA, PGSIZE]
  omega

lemma Inv.npages_lt (hi : Inv s own [] extra) (h0 : (s.proc i).pagetable ≠ 0) :
    npages (s.proc i).sz < NVPN - 2 := by
  obtain ⟨_, sh⟩ := (hi.proc i).shape h0
  exact (sh.lt hi.heap (fun _ => ⟨h0, i, rfl⟩) fun _ => UserPte.leaf).2

lemma Inv.lt_pgRoundUp (hi : Inv s own [] extra) {v : Nat} :
    v * PGSIZE < pgRoundUp (s.proc i).sz ↔ v < npages (s.proc i).sz := by
  have hle : npages (s.proc i).sz ≤ NVPN - 2 := by
    by_cases h0 : (s.proc i).pagetable = 0
    · rw [(hi.proc i).empty h0]
      decide
    · exact (hi.npages_lt h0).le
  rw [pgRoundUp_eq hle]
  simp only [PGSIZE]
  omega

lemma Inv.user_own (hi : Inv s own [] extra) {v : Nat} (hv : v < npages (s.proc i).sz) :
    (s.proc i).pagetable ≠ 0 ∧ v < NLEAF ∧ own (pte2pa (pteAt s.mem (s.proc i).pagetable v)) =
      .slot (s.proc i).pagetable (leafPath v) := by
  have h0 : (s.proc i).pagetable ≠ 0 := by
    intro e
    rw [(hi.proc i).empty e] at hv
    exact absurd hv (Nat.not_lt_zero _)
  obtain ⟨_, sh⟩ := (hi.proc i).shape h0
  have hlt := hi.npages_lt h0
  have hl : v < NLEAF := by
    simp only [NVPN, NLEAF] at *
    omega
  refine ⟨h0, hl, (hi.heap.leaf_iff ⟨h0, i, rfl⟩ hl (not_top_of_lt (by omega))).2 ⟨?_, rfl⟩⟩
  exact (sh.user v hv).valid

lemma Inv.addressSpace (hi : Inv s own [] extra) (h0 : (s.proc i).pagetable ≠ 0) :
    AddressSpace s i := by
  obtain ⟨htf, sh⟩ := (hi.proc i).shape h0
  have hn := hi.npages_lt h0
  refine ⟨fun v hv => ?_, fun v hv => ?_, fun v j w hv hw e => ?_, fun v hv => ?_, fun v hv => ?_,
    fun k path t hp ht => ?_, ?_⟩
  · rw [hi.lt_pgRoundUp, ← top_iff]
    constructor
    · intro hval
      by_contra hno
      rw [not_or] at hno
      rw [sh.rest v (by omega) hv, topPte_of_not_top hno.2] at hval
      exact hval rfl
    · rintro (h | rfl | rfl)
      · exact (sh.user v h).valid
      · rw [sh.trampoline]
        exact isLeaf_trampoline.valid
      · rw [sh.trapframe]
        exact isLeaf_trapframe.valid
  · rw [hi.lt_pgRoundUp] at hv
    refine ⟨(sh.user v hv).read, (hi.heap.managed _).1 ?_⟩
    rw [(hi.user_own hv).2.2]
    nofun
  · rw [hi.lt_pgRoundUp] at hv hw
    obtain ⟨_, hv, h1⟩ := hi.user_own hv
    obtain ⟨_, hw, h2⟩ := hi.user_own hw
    rw [e, h2] at h1
    obtain ⟨h3, h4⟩ := Owner.slot.inj h1
    exact ⟨hi.inj i j h0 h3.symm, leafPath_inj hv hw h4.symm⟩
  · obtain rfl : v = NVPN - 1 := by
      simp only [NVPN, TRAMPOLINE, MAXVA, PGSIZE] at *
      omega
    refine ⟨sh.hidden _ (.inl rfl), ?_⟩
    rw [sh.trampoline]
    exact pte2pa_mk Layout.trampoline_mod (by decide)
  · obtain rfl : v = NVPN - 2 := by
      simp only [NVPN, TRAPFRAME, TRAMPOLINE, MAXVA, PGSIZE] at *
      omega
    refine ⟨sh.hidden _ (.inr rfl), ?_⟩
    rw [sh.trapframe]
    exact pte2pa_mk (hi.trapframe_mod htf) (by decide)
  · have hlive : Root s (s.proc i).pagetable := ⟨h0, i, rfl⟩
    exact hi.heap.entry _ k path t hlive hp
      ((hi.heap.pageAt_iff hlive (IsSlot.table hp.slot).slot).1 ht)
  · have := le_npages (s.proc i).sz
    simp only [NVPN, TRAPFRAME, TRAMPOLINE, MAXVA, PGSIZE] at *
    omega

/-- In every reachable state every process has a page table, one that is being set up apart; every
    process with a page table has the address space described above; and a system call of any process
    ends without a panic, unless it is `exit` of the first process or a `wait` that never ends. -/
theorem address_space (hs : s.Reachable) :
    (∀ i, (s.proc i).state ≠ .unused → (s.proc i).state ≠ .used → (s.proc i).pagetable ≠ 0) ∧
    (∀ i, (s.proc i).pagetable ≠ 0 → AddressSpace s i) ∧
    ∀ i c e s', Active s i → syscall i c s = .error e s' → e = .initExiting ∨ e = .asleep := by
  obtain ⟨own, hi⟩ := hs.inv
  refine ⟨fun i => (hi.proc i).state.active, fun i => hi.addressSpace, fun i c e s' ha he => ?_⟩
  exact (wp_def.1 (syscall_spec hi ha)).2 e s' he

omit [Layout] in
/-- The address space of the first process. -/
theorem address_space_first : ∃ s : Kernel, @Kernel.Reachable sampleLayout s ∧
    ∃ i, Active s i ∧ @AddressSpace sampleLayout s i := by
  let _layout := sampleLayout
  obtain ⟨s, hs, j, hj⟩ := exists_started
  have ha : Active s j := .inr (.inl hj.runnable)
  obtain ⟨h1, h2, _⟩ := address_space hs
  exact ⟨s, hs, j, ha, h2 j (h1 j ha.ne.1 ha.ne.2.1)⟩

end Xv6n
