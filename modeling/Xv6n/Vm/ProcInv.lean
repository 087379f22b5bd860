import Mathlib.Data.Fintype.Prod
import Xv6n.Lib.Refs
import Xv6n.Vm.FileInv

/-!
# The invariant of the process table

`Inv` ties the process table to the owners of pages: the table and the trapframe of each process, the
shape of its address space, and the descriptors that refer to open files. A running system call may
hold pages and references to files of its own; between calls it holds none.
-/

namespace Xv6n
open Lib KernM Function

def descs (s : Kernel) : Fin NPROC × Fin NOFILE → Option (Fin NFILE) := fun x => (s.proc x.1).ofile x.2

/-- `r` is the page table of a process. -/
def Root (s : Kernel) (r : Nat) : Prop := r ≠ 0 ∧ ∃ i, (s.proc i).pagetable = r

structure UserPte (w : Nat) : Prop where
  valid : w &&& PTE_V ≠ 0
  read : w &&& PTE_R ≠ 0

/-- The state of a process agrees with what it has. -/
structure StateOk (p : Proc) : Prop where
  unused : p.state = .unused → p.pagetable = 0 ∧ p.trapframe = 0 ∧ ∀ fd, p.ofile fd = none
  active : p.state ≠ .unused → p.state ≠ .used → p.pagetable ≠ 0
  zombie : p.state = .zombie → ∀ fd, p.ofile fd = none

variable [Layout]

/-- Process `i` is well formed. -/
structure ProcOk (s : Kernel) (own : Nat → Owner) (i : Fin NPROC) : Prop where
  trapframe : ∀ p, own p = .trapframe i ↔ p ≠ 0 ∧ (s.proc i).trapframe = p
  shape : (s.proc i).pagetable ≠ 0 → (s.proc i).trapframe ≠ 0 ∧
    Shape s.mem (s.proc i).pagetable (npages (s.proc i).sz) UserPte trampolinePte
      (trapframePte (s.proc i).trapframe)
  empty : (s.proc i).pagetable = 0 → (s.proc i).sz = 0
  state : StateOk (s.proc i)

/-- The invariant: the running call holds the pages in `held` and `extra` references to files. -/
structure Inv (s : Kernel) (own : Nat → Owner) (held : List Nat) (extra : Fin NFILE → Nat) : Prop where
  heap : Heap s own fun r _ => Root s r
  files : Files s own fun f => refs (descs s) f + extra f
  held : ∀ p, own p = .held ↔ p ∈ held
  boot : ∀ p, own p = .boot ↔ p ∈ s.boot
  proc : ∀ i, ProcOk s own i
  inj : ∀ i j, (s.proc i).pagetable ≠ 0 → (s.proc i).pagetable = (s.proc j).pagetable → i = j

variable {s s' s1 : Kernel} {own own' own1 : Nat → Owner} {held held' : List Nat} {i j : Fin NPROC}
  {extra extra' : Fin NFILE → Nat} {K : Owner → Prop} {live live' : Nat → List Nat → Prop}

omit [Layout] in
lemma UserPte.leaf {w : Nat} (h : UserPte w) : IsLeaf w := by
  refine ⟨h.valid, fun e => h.read ?_⟩
  rw [and_of_flags (by decide), e]
  rfl

omit [Layout] in
lemma userPte_mk {pa f : Nat} (hf : f < 1024) (hv : f &&& PTE_V ≠ 0) (hr : f &&& PTE_R ≠ 0) :
    UserPte (pa2pte pa ||| f) :=
  ⟨mk_flag hf (by decide) hv, mk_flag hf (by decide) hr⟩

omit [Layout] in
lemma Heap.of_eq [Layout] (h : Heap s own live) (hm : s'.mem = s.mem)
    (hf : s'.freelist = s.freelist) : Heap s' own live := by
  refine h.congr hf ?_ ?_ ?_
  · intro p k _
    rw [hm]
    exact .refl
  · intro t r path k _ _ _
    rw [hm]
  · intro t r path k _ _
    rw [hm]

lemma Heap.withProc (h : Heap s own live) {p : Proc} : Heap (s.withProc i p) own live :=
  h.of_eq rfl rfl

omit [Layout] in
lemma Keeps.withProc (k : Keeps K s own s1 own1) {p : Proc} : Keeps K s own (s1.withProc i p) own1 :=
  k.to rfl

lemma Heap.relive (h : Heap s own live) (hl : ∀ r path, live r path ↔ live' r path) :
    Heap s own live' := by
  have e : live = live' := by
    funext r path
    exact propext (hl r path)
  rwa [← e]

lemma Keeps.procOk (k : Keeps K s own s' own') (h : Heap s own live) (h' : Heap s' own' live')
    (hl : (s.proc i).pagetable ≠ 0 → ∀ path, live (s.proc i).pagetable path ∧
      live' (s.proc i).pagetable path) (htf : K (.trapframe i))
    (hslot : (s.proc i).pagetable ≠ 0 → ∀ path, K (.slot (s.proc i).pagetable path))
    (hp : s'.proc i = s.proc i) (ok : ProcOk s own i) : ProcOk s' own' i := by
  refine ⟨?_, ?_, ?_, ?_⟩
  · intro p
    rw [k.iff htf, hp]
    exact ok.trapframe p
  · rw [hp]
    intro hr
    obtain ⟨h1, h2⟩ := ok.shape hr
    refine ⟨h1, h2.congr fun v => ?_⟩
    refine h.pteAt_same h' (fun path => (hl hr path).1) (fun path => (hl hr path).2) ?_ ?_
    · intro p path
      exact k.iff (hslot hr path)
    · intro p path hp _
      exact k.same p (h.slot_mod hp) (by rw [hp]; exact hslot hr path)
  · rw [hp]
    exact ok.empty
  · rw [hp]
    exact ok.state

section
variable (hi : Inv s own held extra)
include hi

lemma Inv.one (i : Fin NPROC) (k : Keeps K s own s' own')
    (heap : Heap s' own' fun r _ => Root s' r)
    (files : Files s' own' fun f => refs (descs s') f + extra' f)
    (hheld : ∀ p, own' p = .held ↔ p ∈ held') (hK : K .boot)
    (htf : ∀ j, j ≠ i → K (.trapframe j))
    (hslot : ∀ j, j ≠ i → (s.proc j).pagetable ≠ 0 → ∀ path, K (.slot (s.proc j).pagetable path))
    (hboot : s'.boot = s.boot) (hproc : ∀ j, j ≠ i → s'.proc j = s.proc j)
    (hok : ProcOk s' own' i)
    (hne : ∀ j, j ≠ i → (s'.proc i).pagetable ≠ 0 → (s'.proc i).pagetable ≠ (s.proc j).pagetable) :
    Inv s' own' held' extra' := by
  refine ⟨heap, files, hheld, ?_, ?_, ?_⟩
  · intro p
    rw [k.iff hK, hboot]
    exact hi.boot p
  · intro j
    by_cases hj : j = i
    · subst hj
      exact hok
    · refine k.procOk hi.heap heap ?_ (htf j hj) (hslot j hj) (hproc j hj) (hi.proc j)
      intro h0 _
      exact ⟨⟨h0, j, rfl⟩, h0, j, by rw [hproc j hj]⟩
  · intro a b h0 e
    by_cases ha : a = i
    · subst ha
      by_contra hab
      have hb : b ≠ a := fun e => hab e.symm
      rw [hproc b hb] at e
      exact hne b hb h0 e
    · by_cases hb : b = i
      · subst hb
        rw [hproc a ha] at e h0
        exact absurd e.symm (hne a ha (by rwa [← e]))
      · rw [hproc a ha, hproc b hb] at e
        rw [hproc a ha] at h0
        exact hi.inj a b h0 e

lemma Inv.same (k : Keeps K s own s' own') (t : ProcTables s s')
    (heap : Heap s' own' fun r _ => Root s r)
    (files : Files s' own' fun f => refs (descs s) f + extra' f)
    (hheld : ∀ p, own' p = .held ↔ p ∈ held') (hK : K .boot) (htf : ∀ j, K (.trapframe j))
    (hslot : ∀ r path, K (.slot r path)) : Inv s' own' held' extra' := by
  have hroot : Heap s' own' fun r _ => Root s' r := by
    refine heap.relive fun r _ => ?_
    unfold Root
    rw [t.proc]
  have hdesc : descs s' = descs s := by
    unfold descs
    rw [t.proc]
  refine hi.one 0 k hroot (by rwa [hdesc]) hheld hK (fun j _ => htf j) (fun _ _ _ => hslot _) t.boot
    (fun j _ => by rw [t.proc]) ?_ ?_
  · refine k.procOk hi.heap heap (fun h0 _ => ?_) (htf 0) (fun _ => hslot _) (by rw [t.proc])
      (hi.proc 0)
    exact ⟨⟨h0, 0, rfl⟩, h0, 0, rfl⟩
  · intro j hj h0 e
    rw [t.proc] at h0 e
    exact hj (hi.inj 0 j h0 e).symm

lemma Inv.pipe_mod {p} (hp : own p = .pipe) : p % PGSIZE = 0 :=
  hi.heap.mod (by rw [hp]; nofun)

lemma Inv.quiet (q : Quiet s own s' own')
    (h : Heap s' own' fun r _ => Root s r) : Inv s' own' held extra := by
  refine hi.same q.keeps q.tables.procs h ?_ ?_ nofun (fun _ => nofun) (fun _ _ => nofun)
  · exact q.keeps.files nofun q.tables.file hi.files fun _ => hi.pipe_mod
  · intro p
    rw [q.keeps.iff (o := .held) nofun]
    exact hi.held p

lemma Inv.retag {q : Nat} {o : Owner} (rt : Retag (fun r _ => Root s r) s own q o s') (hq : ∀ o', o' = own q ∨ o' = o → o' = .held ∨ ∃ k, o' = .free k)
    (hheld : ∀ p, update own q o p = .held ↔ p ∈ held') :
    Inv s' (update own q o) held' extra := by
  have hno : ∀ o', o' = own q ∨ o' = o → ¬ (o' ≠ .held ∧ ∀ k, o' ≠ .free k) := by
    rintro o' h ⟨h1, h2⟩
    obtain h3 | ⟨k, h3⟩ := hq o' h
    · exact h1 h3
    · exact h2 k h3
  have k : Keeps (fun o => o ≠ .held ∧ ∀ k, o ≠ .free k) s own s' (update own q o) := by
    refine ⟨fun p hp => ?_, fun p hpm hp => rt.same p hpm ?_⟩
    · rw [update_of_ne]
      rintro rfl
      rw [update_self] at hp
      exact hp.elim (hno _ (.inl rfl)) (hno _ (.inr rfl))
    · rintro rfl
      exact hno _ (.inl rfl) hp
  refine hi.same k rt.tables.procs rt.heap ?_ hheld ⟨nofun, nofun⟩ (fun _ => ⟨nofun, nofun⟩)
    (fun _ _ => ⟨nofun, nofun⟩)
  exact k.files ⟨nofun, nofun⟩ rt.tables.file hi.files fun _ => hi.pipe_mod

lemma Inv.fresh {q : Nat} (f : Fresh (fun r _ => Root s r) s own q s') :
    Inv s' (update own q .held) (q :: held) extra := by
  obtain ⟨k, hk⟩ := f.free
  refine hi.retag f.toRetag ?_ ?_
  · rintro o (h | h)
    · exact .inr ⟨k, h.trans hk⟩
    · exact .inl h
  · intro p
    rw [List.mem_cons]
    by_cases hp : p = q
    · subst hp
      simp
    · rw [update_of_ne hp, hi.held]
      simp [hp]

lemma Inv.write {A : Nat → Prop} (w : Wrote A s s')
    (hA : ∀ p, A p → ¬ (own p).Links ∧ own p ≠ .pipe) : Inv s' own held extra := by
  have hlinks : ∀ p, A p → ¬ (own p).Links := fun p ha => (hA p ha).1
  have hproc := w.tables.proc
  have hheap := w.heap hi.heap hlinks
  have k : Keeps (· = .pipe) s own s' own := w.keeps fun p ha => (hA p ha).2
  refine ⟨?_, ?_, hi.held, ?_, ?_, ?_⟩
  · refine hheap.relive fun r _ => ?_
    unfold Root
    rw [hproc]
  · unfold descs
    rw [hproc]
    exact k.files rfl w.tables.file hi.files fun _ => hi.pipe_mod
  · rw [w.tables.boot]
    exact hi.boot
  · intro i
    have ok := hi.proc i
    refine ⟨?_, ?_, ?_, ?_⟩
    · rw [hproc]
      exact ok.trapframe
    · rw [hproc]
      intro h0
      obtain ⟨h1, h2⟩ := ok.shape h0
      exact ⟨h1, h2.congr fun v => w.pteAt hi.heap hlinks fun _ => ⟨h0, i, rfl⟩⟩
    · rw [hproc]
      exact ok.empty
    · rw [hproc]
      exact ok.state
  · rw [hproc]
    exact hi.inj

lemma Inv.restate (hm : s'.mem = s.mem) (hf : s'.freelist = s.freelist)
    (hfile : s'.file = s.file) (hboot : s'.boot = s.boot)
    (hproc : ∀ j, (s'.proc j).pagetable = (s.proc j).pagetable ∧
      (s'.proc j).trapframe = (s.proc j).trapframe ∧ (s'.proc j).sz = (s.proc j).sz ∧
      (s'.proc j).ofile = (s.proc j).ofile) (hstate : ∀ j, StateOk (s'.proc j)) :
    Inv s' own held extra := by
  have hdesc : descs s' = descs s := by
    unfold descs
    funext x
    rw [(hproc x.1).2.2.2]
  have k : Keeps (fun _ => True) s own s' own := Keeps.refl.to hm
  refine ⟨?_, ?_, hi.held, ?_, ?_, ?_⟩
  · refine (hi.heap.of_eq hm hf).relive fun r _ => ?_
    unfold Root
    simp only [hproc]
  · rw [hdesc]
    exact k.files trivial hfile hi.files fun _ => hi.pipe_mod
  · rw [hboot]
    exact hi.boot
  · intro i
    have ok := hi.proc i
    obtain ⟨h1, h2, h3, _⟩ := hproc i
    refine ⟨?_, ?_, ?_, hstate i⟩
    · rw [h2]
      exact ok.trapframe
    · rw [h1, h2, h3, hm]
      exact ok.shape
    · rw [h1, h3]
      exact ok.empty
  · intro a b h0 e
    rw [(hproc a).1] at h0 e
    rw [(hproc b).1] at e
    exact hi.inj a b h0 e

end

/-- The part of `freeproc` before the process is marked unused: its trapframe and its table are free. -/
structure Reaped (j : Fin NPROC) (s : Kernel) (own : Nat → Owner) (s' : Kernel) (own' : Nat → Owner) :
    Prop where
  heap : Heap s' own' fun r _ => Root s r ∧ r ≠ (s.proc j).pagetable
  keeps : Keeps (fun o => o ≠ .trapframe j ∧ o.Out (s.proc j).pagetable) s own s' own'
  none : ∀ p, own' p ≠ .trapframe j
  file : s'.file = s.file
  boot : s'.boot = s.boot
  proc : s'.proc = (s.withProc j { s.proc j with trapframe := 0 }).proc

/-- What `freeproc` leaves alone: all pages but those of the process, and all other processes. -/
structure Freed (j : Fin NPROC) (s : Kernel) (own : Nat → Owner) (s' : Kernel) (own' : Nat → Owner) : Prop where
  keeps : Keeps (fun o => o ≠ .trapframe j ∧ o.Out (s.proc j).pagetable) s own s' own'
  proc : ∀ i, i ≠ j → s'.proc i = s.proc i
  unused : (s'.proc j).state = .unused
  file : s'.file = s.file
  boot : s'.boot = s.boot

lemma freeproc_spec (hi : Inv s own held extra) (hfd : ∀ fd, (s.proc j).ofile fd = none) :
    wp (freeproc j) (fun _ s' => ∃ own', Inv s' own' held extra ∧ Freed j s own s' own') Never s := by
  have ok := hi.proc j
  unfold freeproc
  rw [wp_bind, wp_get]
  dsimp only
  refine wp_when (I := fun s1 => ∃ own1, (Heap s1 own1 fun r _ => Root s r) ∧
    Keeps (fun o => o ≠ .trapframe j ∧ ∀ k, o ≠ .free k) s own s1 own1 ∧ Tables s s1 ∧
    ∀ p, own1 p ≠ .trapframe j) ?_ ?_ ?_
  · intro h0
    have htf : own (s.proc j).trapframe = .trapframe j := (ok.trapframe _).2 ⟨h0, rfl⟩
    apply wp_mono (kfreePlain_spec hi.heap (by rw [htf]; nofun) (by rw [htf]; nofun)
      (by rw [htf]; nofun))
    rintro _ s1 ⟨k, rt⟩
    refine ⟨_, rt.heap, ⟨fun p hp => ?_, fun p hpm hp => ?_⟩, rt.tables, fun p hp => ?_⟩
    · rw [update_of_ne]
      rintro rfl
      rw [update_self, htf] at hp
      obtain hp | hp := hp
      · exact hp.1 rfl
      · exact hp.2 k rfl
    · apply rt.same p hpm
      rintro rfl
      exact hp.1 htf
    · obtain ⟨e, hp⟩ := of_update hp nofun
      exact e ((ok.trapframe p).1 hp).2.symm
  · intro h0
    refine ⟨own, hi.heap, .refl, .refl, fun p hp => ?_⟩
    obtain ⟨h1, h2⟩ := (ok.trapframe p).1 hp
    rw [not_not] at h0
    exact h1 (h2.symm.trans h0)
  · rintro s1 ⟨own1, hh1, k1, t1, hno1⟩
    have hh1' := hh1.withProc (i := j) (p := { s1.proc j with trapframe := 0 })
    rw [wp_bind, wp_setProc]
    refine wp_when (I := fun s2 => ∃ own2, Reaped j s own s2 own2) ?_ ?_ ?_
    · intro h0
      have hr : ∀ path : List Nat, Root s (s.proc j).pagetable := fun _ => ⟨h0, j, rfl⟩
      obtain ⟨_, sh⟩ := ok.shape h0
      have sh1 : Shape s1.mem (s.proc j).pagetable (npages (s.proc j).sz) UserPte trampolinePte
          (trapframePte (s.proc j).trapframe) := by
        refine sh.congr fun v => hi.heap.pteAt_same hh1 hr hr (fun p path => k1.iff ?_) ?_
        · exact ⟨nofun, nofun⟩
        · intro p path hp _
          exact k1.same p (hi.heap.slot_mod hp) (by rw [hp]; exact ⟨nofun, nofun⟩)
      apply wp_mono (procFreepagetable_spec hh1' hr sh1 (fun _ => UserPte.leaf)
        isLeaf_trampoline isLeaf_trapframe)
      rintro _ s2 ⟨own2, hh2, d⟩
      refine ⟨own2, ⟨hh2.relive fun r path => ?_, ?_, ?_, ?_, ?_, ?_⟩⟩
      · unfold Without
        simp
      · refine Keeps.trans (k1.withProc.weaken ?_) (d.keeps.weaken ?_)
        · rintro o ⟨h1, h2⟩
          exact ⟨h1, h2.not_below.2⟩
        · rintro o ⟨_, h2⟩
          exact h2
      · intro p hp
        have e := d.keeps.owner p (.inr (by rw [hp]; trivial))
        exact hno1 p (e.symm.trans hp)
      · exact d.tables.file.trans t1.file
      · exact d.tables.boot.trans t1.boot
      · rw [d.tables.proc]
        unfold Kernel.withProc
        rw [t1.proc]
    · intro h0
      rw [not_not] at h0
      refine ⟨own1, hh1'.relive fun r path => ?_, k1.withProc.weaken ?_, hno1, t1.file, t1.boot, ?_⟩
      · rw [h0]
        exact ⟨fun e => ⟨e, e.1⟩, fun e => e.1⟩
      · rintro o ⟨h1, h2⟩
        exact ⟨h1, h2.not_below.2⟩
      · unfold Kernel.withProc
        rw [t1.proc]
    · rintro s2 ⟨own2, hr⟩
      rw [wp_setProc]
      have hother : ∀ i, i ≠ j → s2.proc i = s.proc i := by
        intro i hij
        rw [hr.proc, withProc_of_ne hij]
      have hself : s2.proc j = { s.proc j with trapframe := 0 } := by
        rw [hr.proc, withProc_self]
      generalize hp : { s2.proc j with
        pagetable := 0, sz := 0, pid := 0, parent := none, name := [], killed := false, xstate := 0,
        state := .unused } = p
      have hdesc : descs (s2.withProc j p) = descs s := by
        funext x
        unfold descs
        by_cases hij : x.1 = j
        · rw [hij, withProc_self, ← hp, hself]
        · rw [withProc_of_ne hij, hother _ hij]
      have hroot : ∀ r, Root s r ∧ r ≠ (s.proc j).pagetable ↔ Root (s2.withProc j p) r := by
        intro r
        constructor
        · rintro ⟨⟨h0, i, hi⟩, hne⟩
          have hij : i ≠ j := by
            rintro rfl
            exact hne hi.symm
          exact ⟨h0, i, by rw [withProc_of_ne hij, hother i hij, hi]⟩
        · rintro ⟨h0, i, hi'⟩
          by_cases hij : i = j
          · subst hij
            rw [withProc_self, ← hp] at hi'
            exact absurd hi'.symm h0
          · rw [withProc_of_ne hij, hother i hij] at hi'
            refine ⟨⟨h0, i, hi'⟩, ?_⟩
            rintro rfl
            exact hij (hi.inj i j (by rw [hi']; exact h0) hi')
      have hok : ProcOk (s2.withProc j p) own2 j := by
        refine ⟨fun q => ?_, ?_, ?_, ?_⟩
        · rw [withProc_self, ← hp, hself]
          exact ⟨fun e => absurd e (hr.none q), fun e => absurd e.2.symm e.1⟩
        · rw [withProc_self, ← hp]
          exact fun e => absurd rfl e
        · rw [withProc_self, ← hp]
          exact fun _ => rfl
        · rw [withProc_self, ← hp, hself]
          exact ⟨fun _ => ⟨rfl, rfl, hfd⟩, fun e => absurd rfl e, nofun⟩
      refine ⟨own2, hi.one j hr.keeps.withProc (hr.heap.withProc.relive fun r _ => hroot r) ?_ ?_
        ⟨nofun, trivial⟩ ?_ ?_ hr.boot ?_ hok ?_, hr.keeps.withProc, ?_, ?_, hr.file, hr.boot⟩
      · rw [hdesc]
        exact hr.keeps.withProc.files ⟨nofun, trivial⟩ hr.file hi.files fun _ => hi.pipe_mod
      · intro p
        rw [hr.keeps.iff (o := .held) ⟨nofun, trivial⟩]
        exact hi.held p
      · intro i hij
        exact ⟨fun e => hij (Owner.trapframe.inj e), trivial⟩
      · intro i hij h0 path
        exact ⟨nofun, fun e => hij (hi.inj i j h0 e)⟩
      · intro i hij
        rw [withProc_of_ne hij, hother i hij]
      · intro i _ h0
        rw [withProc_self, ← hp] at h0
        exact absurd rfl h0
      · intro i hij
        rw [withProc_of_ne hij, hother i hij]
      · rw [withProc_self, ← hp]

end Xv6n
