import Xv6n.Vm.ProcInv

/-!
# System calls on processes

Every system call of `proc.c` keeps the invariant of the process table, whether it succeeds or fails,
and none of them panics.
-/

namespace Xv6n
open Lib KernM Function

variable [Layout] {s s' s1 : Kernel} {own own' own1 : Nat → Owner} {held : List Nat} {i j : Fin NPROC}
  {extra : Fin NFILE → Nat} {r : Nat} {p : Proc}

omit [Layout] in
lemma Active.ne (h : Active s i) : (s.proc i).state ≠ .unused ∧ (s.proc i).state ≠ .used ∧
    (s.proc i).state ≠ .zombie := by
  unfold Active at h
  refine ⟨?_, ?_, ?_⟩
  all_goals
    intro e
    rw [e] at h
    simp at h

lemma Inv.pagetable_ne (hi : Inv s own held extra) (h : Active s i) : (s.proc i).pagetable ≠ 0 :=
  (hi.proc i).state.active h.ne.1 h.ne.2.1

lemma Inv.restateProc (hi : Inv s own held extra)
    (hp : p.pagetable = (s.proc i).pagetable ∧ p.trapframe = (s.proc i).trapframe ∧
      p.sz = (s.proc i).sz ∧ p.ofile = (s.proc i).ofile) (hstate : StateOk p) :
    Inv (s.withProc i p) own held extra := by
  refine hi.restate rfl rfl rfl rfl (fun j => ?_) fun j => ?_
  · by_cases hj : j = i
    · rw [hj, withProc_self]
      exact hp
    · rw [withProc_of_ne hj]
      exact ⟨rfl, rfl, rfl, rfl⟩
  · by_cases hj : j = i
    · rw [hj, withProc_self]
      exact hstate
    · rw [withProc_of_ne hj]
      exact (hi.proc j).state

lemma Inv.giveTrapframe {q : Nat} (hi : Inv s own (q :: held) extra) (hq : q ∉ held)
    (hj : (s.proc j).state = .used) (hp : (s.proc j).pagetable = 0) (ht : (s.proc j).trapframe = 0) :
    Inv (s.withProc j { s.proc j with trapframe := q }) (update own q (.trapframe j)) held
      extra := by
  have ok := hi.proc j
  have hown : own q = .held := (hi.held q).2 (List.mem_cons_self ..)
  have hq0 : q ≠ 0 := ((hi.heap.managed q).1 (by rw [hown]; nofun)).ne_zero
  have k : Keeps (fun o => o ≠ .held ∧ o ≠ .trapframe j) s own
      (s.withProc j { s.proc j with trapframe := q }) (update own q (.trapframe j)) := by
    refine ⟨fun p hp => ?_, fun p hpm hp => ?_⟩
    · rw [update_of_ne]
      rintro rfl
      rw [update_self, hown] at hp
      exact hp.elim (fun e => e.1 rfl) fun e => e.2 rfl
    · exact .refl
  have hheap := hi.heap.retag (q := q) (o := .trapframe j) (by rw [hown]; trivial) trivial
  have hdesc : descs (s.withProc j { s.proc j with trapframe := q }) = descs s := by
    funext x
    unfold descs
    by_cases hij : x.1 = j
    · rw [hij, withProc_self]
    · rw [withProc_of_ne hij]
  have hroot : ∀ r, Root s r ↔ Root (s.withProc j { s.proc j with trapframe := q }) r := by
    intro r
    unfold Root
    apply and_congr_right
    intro _
    apply exists_congr
    intro i
    by_cases hij : i = j
    · rw [hij, withProc_self]
    · rw [withProc_of_ne hij]
  refine hi.one j k (hheap.withProc.relive fun r _ => hroot r) ?_ ?_ ⟨nofun, nofun⟩ ?_
    (fun _ _ _ _ => ⟨nofun, nofun⟩) rfl (fun _ => withProc_of_ne) ⟨?_, ?_, ?_, ?_⟩ ?_
  · rw [hdesc]
    exact k.files ⟨nofun, nofun⟩ rfl hi.files fun _ => hi.pipe_mod
  · intro p
    by_cases hpq : p = q
    · subst hpq
      rw [update_self]
      simp [hq]
    · rw [update_of_ne hpq, hi.held, List.mem_cons]
      simp [hpq]
  · intro i hij
    exact ⟨nofun, fun e => hij (Owner.trapframe.inj e)⟩
  · intro p
    rw [withProc_self]
    by_cases hpq : p = q
    · subst hpq
      rw [update_self]
      exact ⟨fun _ => ⟨hq0, rfl⟩, fun _ => rfl⟩
    · rw [update_of_ne hpq, ok.trapframe, ht]
      exact ⟨fun e => absurd e.2.symm e.1, fun e => absurd e.2.symm hpq⟩
  · rw [withProc_self]
    exact fun e => absurd hp e
  · rw [withProc_self]
    exact ok.empty
  · rw [withProc_self]
    refine ⟨?_, ?_, ?_⟩
    · intro e
      rw [hj] at e
      cases e
    · exact fun _ e => absurd hj e
    · intro e
      rw [hj] at e
      cases e
  · rw [withProc_self]
    exact fun _ _ e => absurd hp e

lemma Inv.giveTable (hi : Inv s own held extra) (f : Keeps (Owner.Out r) s own s1 own1)
    (t : ProcTables s s1) (hf : s1.file = s.file)
    (h : Heap s1 own1 fun r' _ => Root (s1.withProc j p) r')
    (hr : r ≠ 0) (hnew : ∀ i, i ≠ j → (s.proc i).pagetable ≠ r) (hp : p.pagetable = r)
    (htf : p.trapframe = (s.proc j).trapframe) (htf0 : p.trapframe ≠ 0)
    (hfd : p.ofile = (s.proc j).ofile)
    (sh : Shape s1.mem r (npages p.sz) UserPte trampolinePte (trapframePte p.trapframe))
    (hstate : StateOk p) : Inv (s1.withProc j p) own1 held extra := by
  have ok := hi.proc j
  have hdesc : descs (s1.withProc j p) = descs s := by
    funext x
    unfold descs
    by_cases hij : x.1 = j
    · rw [hij, withProc_self, hfd]
    · rw [withProc_of_ne hij, t.proc]
  have k : Keeps (Owner.Out r) s own (s1.withProc j p) own1 := f.withProc
  refine hi.one j k h.withProc ?_ ?_ trivial (fun _ _ => trivial) ?_ t.boot ?_ ⟨?_, ?_, ?_, ?_⟩ ?_
  · rw [hdesc]
    exact k.files trivial hf hi.files fun _ => hi.pipe_mod
  · intro q
    rw [k.iff (o := .held) trivial]
    exact hi.held q
  · intro i hij _ path
    exact hnew i hij
  · intro i hij
    rw [withProc_of_ne hij, t.proc]
  · intro q
    rw [k.iff (o := .trapframe j) trivial, withProc_self, htf]
    exact ok.trapframe q
  · rw [withProc_self, hp]
    exact fun _ => ⟨htf0, sh⟩
  · rw [withProc_self, hp]
    exact fun e => absurd e hr
  · rw [withProc_self]
    exact hstate
  · intro i hij _
    rw [withProc_self, hp]
    exact (hnew i hij).symm

omit [Layout] in
lemma quiet_of_eq (t : Tables s s') (hm : s'.mem = s.mem) : Quiet s own s' own :=
  ⟨t, fun _ _ => rfl, fun p _ _ => by rw [hm]; exact .refl, fun _ k hk => ⟨k, hk⟩⟩

/-- Pages and processes in use stay as they are, and so do the open files. -/
structure Spares (s : Kernel) (own : Nat → Owner) (s' : Kernel) (own' : Nat → Owner) : Prop where
  owner : ∀ p, (∀ k, own p ≠ .free k) → own' p = own p
  same : ∀ p, p % PGSIZE = 0 → (∀ k, own p ≠ .free k) → Same s.mem s'.mem p
  proc : ∀ i, (s.proc i).state ≠ .unused → s'.proc i = s.proc i
  file : s'.file = s.file
  boot : s'.boot = s.boot

omit [Layout] in
lemma Spares.trans {s2 : Kernel} {own2 : Nat → Owner} (h1 : Spares s own s1 own1) (h2 : Spares s1 own1 s2 own2) :
    Spares s own s2 own2 := by
  refine ⟨fun p hp => ?_, fun p hm hp => ?_, fun i hu => ?_, h2.file.trans h1.file, h2.boot.trans h1.boot⟩
  · have e := h1.owner p hp
    rw [h2.owner p (by rwa [e]), e]
  · exact (h1.same p hm hp).trans (h2.same p hm (by rwa [h1.owner p hp]))
  · have e := h1.proc i hu
    rw [h2.proc i (by rwa [e]), e]

omit [Layout] in
lemma Quiet.spares (q : Quiet s own s' own') : Spares s own s' own' :=
  ⟨q.keep, q.same, fun _ _ => by rw [q.tables.proc], q.tables.file, q.tables.boot⟩

lemma spares_of_fresh {q : Nat} {live : Nat → List Nat → Prop} (f : Fresh live s own q s') {o : Owner} :
    Spares s own s' (update own q o) := by
  obtain ⟨k, hk⟩ := f.free
  have hne : ∀ p, (∀ k, own p ≠ .free k) → p ≠ q := by
    rintro p hp rfl
    exact hp k hk
  exact ⟨fun p hp => update_of_ne (hne p hp) .., fun p hm hp => f.same p hm (hne p hp),
    fun _ _ => by rw [f.tables.proc], f.tables.file, f.tables.boot⟩

omit [Layout] in
lemma Spares.frame {s2 : Kernel} {own2 : Nat → Owner} (h : Spares s own s1 own1) (f : Frame r none s1 own1 s2 own2)
    (hr : ∀ p path, own p ≠ .slot r path) : Spares s own s2 own2 := by
  have hout : ∀ p, (∀ k, own p ≠ .free k) → (own1 p).Out r := by
    intro p hp
    rw [h.owner p hp]
    by_contra hc
    obtain ⟨path, hb, -⟩ | ⟨k, hk⟩ := not_out hc
    · exact hr p path hb
    · exact hp k hk
  refine ⟨fun p hp => ?_, fun p hm hp => ?_, fun i hu => ?_, f.tables.file.trans h.file, f.tables.boot.trans h.boot⟩
  · rw [f.owner p nofun (.inl (hout p hp)), h.owner p hp]
  · exact (h.same p hm hp).trans (f.same p nofun hm (hout p hp))
  · rw [f.tables.proc, h.proc i hu]

omit [Layout] in
lemma Spares.withProc (h : Spares s own s1 own1) (hj : (s.proc j).state = .unused) :
    Spares s own (s1.withProc j p) own1 := by
  refine ⟨h.owner, h.same, fun i hu => ?_, h.file, h.boot⟩
  rw [withProc_of_ne, h.proc i hu]
  rintro rfl
  exact hu hj

lemma Spares.pageAt {live : Nat → List Nat → Prop} {path : List Nat} (h : Spares s own s' own')
    (hh : Heap s own live) (hl : ∀ path, live r path) (hp : IsSlot path) :
    pageAt s'.mem r path = pageAt s.mem r path := by
  refine descend_congr fun i path' hs t ht => ?_
  have hi : IsSlot (i :: path') := by
    refine ⟨Nat.le_trans hs.length_le hp.length, fun k hk => hp.lt k (hs.subset hk), ?_⟩
    rintro v hv e
    have := hs.eq_of_length_le (by rw [e, leafPath_length]; exact hp.length)
    exact hp.low v hv (this.symm.trans e)
  have hown := (hh.pageAt_iff (hl path') hi.table.slot).1 ht
  exact (h.same t (hh.slot_mod hown) (by rw [hown]; nofun)).child hi.head

lemma Spares.slot {live live' : Nat → List Nat → Prop} {path : List Nat} {p : Nat} (h : Spares s own s' own')
    (hh : Heap s own live) (hh' : Heap s' own' live') (hl : ∀ path, live r path) (hl' : ∀ path, live' r path) :
    own' p = .slot r path ↔ own p = .slot r path := by
  refine ⟨fun hp => ?_, fun hp => by rw [h.owner p (by rw [hp]; nofun), hp]⟩
  have hs := (hh'.owned p r path hp).2
  rw [← hh'.pageAt_iff (hl' path) hs, h.pageAt hh hl hs] at hp
  exact (hh.pageAt_iff (hl path) hs).1 hp

lemma Spares.image {live live' : Nat → List Nat → Prop} (h : Spares s own s' own') (hh : Heap s own live)
    (hh' : Heap s' own' live') (hl : ∀ path, live r path) (hl' : ∀ path, live' r path) :
    image s'.mem r = image s.mem r := by
  have hsame : ∀ p path, own p = .slot r path → Same s.mem s'.mem p := fun p path hp =>
    h.same p (hh.slot_mod hp) (by rw [hp]; nofun)
  funext v
  refine hh.image_congr hl (fun _ => ?_) fun p hp => hsame p _ hp
  exact hh.pteAt_same hh' hl hl' (fun p path => h.slot hh hh' hl hl') fun p path hp _ => hsame p path hp

lemma Spares.free (h : Spares s own s' own') (hi : Inv s own held extra) (hi' : Inv s' own' held extra)
    (hu : ∀ i, (s.proc i).state = .unused → (s'.proc i).state = .unused) {p : Nat} {k} (hp : own p = .free k) :
    ∃ k', own' p = .free k' := by
  -- a process that has something is in use, and was so before
  have hproc : ∀ i, (s'.proc i).pagetable ≠ 0 ∨ (s'.proc i).trapframe ≠ 0 → s'.proc i = s.proc i := by
    intro i hne
    refine h.proc i fun e => ?_
    obtain ⟨h1, h2, -⟩ := (hi'.proc i).state.unused (hu i e)
    exact hne.elim (fun e => e h1) fun e => e h2
  cases ho : own' p with
  | kernel =>
    have := (hi'.heap.managed p).not.1 (not_not.2 ho)
    exact absurd ((hi.heap.managed p).1 (by rw [hp]; nofun)) this
  | free k' => exact ⟨k', rfl⟩
  | slot r path =>
    obtain ⟨⟨h0, i, he⟩, -⟩ := hi'.heap.owned p r path ho
    have e := hproc i (.inl (by rwa [he]))
    have := (h.slot hi.heap hi'.heap (fun _ => ⟨h0, i, by rw [← e, he]⟩) fun _ => ⟨h0, i, he⟩).1 ho
    rw [hp] at this
    cases this
  | trapframe i =>
    obtain ⟨h0, he⟩ := ((hi'.proc i).trapframe p).1 ho
    have e := hproc i (.inr (by rwa [he]))
    have := ((hi.proc i).trapframe p).2 ⟨h0, by rw [← e, he]⟩
    rw [hp] at this
    cases this
  | pipe =>
    obtain ⟨f, hf⟩ := (hi'.files.pipe p).1 ho
    unfold IsPipe at hf
    rw [h.file] at hf
    have := (hi.files.pipe p).2 ⟨f, hf⟩
    rw [hp] at this
    cases this
  | boot =>
    have := (hi.boot p).2 (by rw [← h.boot]; exact (hi'.boot p).1 ho)
    rw [hp] at this
    cases this
  | held =>
    have := (hi.held p).2 ((hi'.held p).1 ho)
    rw [hp] at this
    cases this

lemma Spares.not_slot (h : Spares s own s1 own1) (hi : Inv s own held extra) (hi1 : Inv s1 own1 held extra)
    (hj : (s.proc j).state = .unused) (p : Nat) (path : List Nat) : own p ≠ .slot (s1.proc j).pagetable path := by
  intro hp
  obtain ⟨⟨h0, i, he⟩, -⟩ := hi.heap.owned p _ path hp
  have hu : (s.proc i).state ≠ .unused := by
    intro hu
    rw [((hi.proc i).state.unused hu).1] at he
    exact h0 he.symm
  have hij := hi1.inj j i h0 (by rw [h.proc i hu, he])
  rw [hij] at hj
  exact hu hj

lemma Spares.reap {s2 : Kernel} {own2 : Nat → Owner} (h : Spares s own s1 own1) (hi : Inv s own held extra)
    (hi1 : Inv s1 own1 held extra) (hj : (s.proc j).state = .unused) (f : Freed j s1 own1 s2 own2) :
    Spares s own s2 own2 := by
  have hK : ∀ p, (∀ k, own p ≠ .free k) → own1 p ≠ .trapframe j ∧ (own1 p).Out (s1.proc j).pagetable := by
    intro p hp
    rw [h.owner p hp]
    refine ⟨fun e => ?_, ?_⟩
    · obtain ⟨h1, h2⟩ := ((hi.proc j).trapframe p).1 e
      rw [((hi.proc j).state.unused hj).2.1] at h2
      exact h1 h2.symm
    · by_contra hc
      obtain ⟨path, hb, -⟩ | ⟨k, hk⟩ := not_out hc
      · exact h.not_slot hi hi1 hj p path hb
      · exact hp k hk
  refine ⟨fun p hp => ?_, fun p hm hp => ?_, fun i hu => ?_, f.file.trans h.file, f.boot.trans h.boot⟩
  · rw [f.keeps.owner p (.inl (hK p hp)), h.owner p hp]
  · exact (h.same p hm hp).trans (f.keeps.same p hm (hK p hp))
  · rw [f.proc i, h.proc i hu]
    rintro rfl
    exact hu hj

lemma allocproc_spec (hi : Inv s own held extra) :
    wp allocproc (fun o s' => ∃ own', Inv s' own' held extra ∧ Spares s own s' own' ∧
      (∀ i, (s.proc i).state = .unused → o ≠ some i → (s'.proc i).state = .unused) ∧
      ∀ j, o = some j → (s.proc j).state = .unused ∧ (s'.proc j).state = .used ∧
        (s'.proc j).pagetable ≠ 0 ∧ (s'.proc j).sz = 0 ∧ (∀ fd, (s'.proc j).ofile fd = none) ∧
        (s'.proc j).pid = s.nextpid) Never s := by
  unfold allocproc
  rw [wp_bind, wp_get]
  cases hfind : (List.finRange NPROC).find? fun i => decide ((s.proc i).state = .unused) with
  | none =>
    dsimp only
    rw [wp_pure]
    exact ⟨own, hi, quiet_of_eq .refl rfl |>.spares, fun _ h _ => h, nofun⟩
  | some j =>
    have hun : (s.proc j).state = .unused := by
      have := List.find?_some hfind
      rwa [decide_eq_true_eq] at this
    obtain ⟨hpt, htf, hfd⟩ := (hi.proc j).state.unused hun
    have hsz := (hi.proc j).empty hpt
    unfold allocpid
    dsimp only
    rw [wp_bind, wp_bind, wp_get, wp_bind, wp_modify, wp_pure, wp_bind, wp_setProc, wp_bind]
    dsimp only
    -- the process is marked as used
    have hi1 : Inv { s with nextpid := Int.bmod (s.nextpid + 1) (2 ^ 32) } own held extra :=
      hi.restate rfl rfl rfl rfl (fun _ => ⟨rfl, rfl, rfl, rfl⟩) fun j => (hi.proc j).state
    have hi2 := hi1.restateProc (i := j) (p := { s.proc j with pid := s.nextpid, state := .used })
      ⟨rfl, rfl, rfl, rfl⟩ ⟨nofun, fun _ e => absurd rfl e, nofun⟩
    generalize hs2 : Kernel.withProc { s with nextpid := Int.bmod (s.nextpid + 1) (2 ^ 32) } j
      { s.proc j with pid := s.nextpid, state := .used } = s2 at hi2
    have hj2 : s2.proc j = { s.proc j with pid := s.nextpid, state := .used } := by
      rw [← hs2, withProc_self]
    have ho2 : ∀ i, i ≠ j → s2.proc i = s.proc i := by
      intro i hij
      rw [← hs2, withProc_of_ne hij]
    have hsp2 : Spares s own s2 own := by
      rw [← hs2]
      exact Spares.withProc ⟨fun _ _ => rfl, fun _ _ _ => .refl, fun _ _ => rfl, rfl, rfl⟩ hun
    apply wp_mono (alloc_spec hi2.heap)
    intro o s3 ho
    cases o with
    | none =>
      obtain ⟨h3, t3, m3⟩ := ho
      have hi3 := hi2.quiet (quiet_of_eq t3 m3) h3
      dsimp only
      rw [wp_bind, wp_setProc, wp_bind]
      have hj3 : s3.proc j = { s.proc j with pid := s.nextpid, state := .used } := by
        rw [t3.proc, hj2]
      have hi4 := hi3.restateProc (i := j) (p := { s3.proc j with trapframe := 0 })
        ⟨rfl, by rw [hj3]; exact htf.symm, rfl, rfl⟩ (by
          rw [hj3]
          exact ⟨nofun, fun _ e => absurd rfl e, nofun⟩)
      apply wp_mono (freeproc_spec hi4 (by rw [withProc_self, hj3]; exact hfd))
      rintro _ s5 ⟨own5, hi5, fr⟩
      rw [wp_pure]
      refine ⟨own5, hi5, ((hsp2.trans (quiet_of_eq t3 m3).spares).withProc hun).reap hi hi4 hun fr, fun i hst _ => ?_,
        nofun⟩
      by_cases hij : i = j
      · rw [hij, fr.unused]
      · rw [fr.proc i hij, withProc_of_ne hij, t3.proc, ho2 i hij, hst]
    | some tf =>
      have hi3 := hi2.fresh ho
      have hsp3 := (hsp2.trans (spares_of_fresh ho (o := .trapframe j))).withProc
        (p := { s3.proc j with trapframe := tf }) hun
      obtain ⟨k, hk⟩ := ho.free
      have hj3 : s3.proc j = { s.proc j with pid := s.nextpid, state := .used } := by
        rw [ho.tables.proc, hj2]
      have hnh : tf ∉ held := by
        intro e
        have := (hi.held tf).2 e
        rw [hk] at this
        cases this
      have hi4 := hi3.giveTrapframe (j := j) hnh (by rw [hj3]) (by rw [hj3]; exact hpt)
        (by rw [hj3]; exact htf)
      rw [update_idem] at hi4
      have hlt : tf < 2 ^ 56 := by
        have := ((hi.heap.managed tf).1 (by rw [hk]; nofun)).lt.2
        omega
      have htf0 : tf ≠ 0 := ((hi.heap.managed tf).1 (by rw [hk]; nofun)).ne_zero
      dsimp only
      rw [wp_bind, wp_setProc, wp_bind]
      generalize hs4 : s3.withProc j { s3.proc j with trapframe := tf } = s4 at hi4 hsp3
      have hj4 : s4.proc j = { s.proc j with pid := s.nextpid, state := .used, trapframe := tf } := by
        rw [← hs4, withProc_self, hj3]
      have ho4 : ∀ i, i ≠ j → s4.proc i = s.proc i := by
        intro i hij
        rw [← hs4, withProc_of_ne hij, ho.tables.proc, ho2 i hij]
      apply wp_mono (procPagetable_spec (P := UserPte) hi4.heap hlt fun _ => UserPte.leaf)
      intro o s5 ho
      cases o with
      | none =>
        obtain ⟨own5, h5, q5⟩ := ho
        have hi5 := hi4.quiet q5 h5
        have hj5 : s5.proc j = s4.proc j := by rw [q5.tables.proc]
        dsimp only
        rw [wp_bind, wp_setProc, wp_bind]
        have hi6 := hi5.restateProc (i := j) (p := { s5.proc j with pagetable := 0 })
          ⟨by rw [hj5, hj4]; exact hpt.symm, rfl, rfl, rfl⟩ (by
            rw [hj5, hj4]
            exact ⟨nofun, fun _ e => absurd rfl e, nofun⟩)
        apply wp_mono (freeproc_spec hi6 (by rw [withProc_self, hj5, hj4]; exact hfd))
        rintro _ s7 ⟨own7, hi7, fr⟩
        rw [wp_pure]
        refine ⟨own7, hi7, ((hsp3.trans q5.spares).withProc hun).reap hi hi6 hun fr, fun i hst _ => ?_, nofun⟩
        by_cases hij : i = j
        · rw [hij, fr.unused]
        · rw [fr.proc i hij, withProc_of_ne hij, q5.tables.proc, ho4 i hij, hst]
      | some r =>
        obtain ⟨⟨k', hk'⟩, own5, h5, f5, sh5⟩ := ho
        have hr0 : r ≠ 0 := ((hi4.heap.managed r).1 (by rw [hk']; nofun)).ne_zero
        have hj5 : s5.proc j = s4.proc j := by rw [f5.tables.proc]
        have hnew : ∀ i, (s4.proc i).pagetable ≠ r := fun i e =>
          hi4.heap.not_live hk' [] ⟨hr0, i, e⟩
        dsimp only
        rw [wp_bind, wp_setProc, wp_pure]
        refine ⟨own5, hi4.giveTable f5.keeps f5.tables.procs f5.tables.file (h5.relive ?_) hr0
          (fun i _ => hnew i) rfl (by rw [hj5]) ?_ (by rw [hj5]) ?_ ?_,
          (hsp3.frame f5 fun p path hp => ?_).withProc hun, fun i hst hij => ?_, ?_⟩
        · intro r' path
          constructor
          · rintro (⟨h0, i, e⟩ | e)
            · refine ⟨h0, i, ?_⟩
              have hij : i ≠ j := by
                rintro rfl
                rw [hj4] at e
                exact h0 (e.symm.trans hpt)
              rw [withProc_of_ne hij, f5.tables.proc, e]
            · rw [e]
              exact ⟨hr0, j, by rw [withProc_self]⟩
          · rintro ⟨h0, i, e⟩
            by_cases hij : i = j
            · subst hij
              rw [withProc_self] at e
              exact .inr e.symm
            · rw [withProc_of_ne hij, f5.tables.proc] at e
              exact .inl ⟨h0, i, e⟩
        · rw [hj5, hj4]
          exact htf0
        · dsimp only
          rw [hj5, hj4]
          dsimp only
          rw [hsz]
          exact sh5
        · rw [hj5, hj4]
          exact ⟨nofun, fun _ e => absurd rfl e, nofun⟩
        · have := (hsp3.owner p (by rw [hp]; nofun)).trans hp
          exact hi4.heap.not_live hk' path (hi4.heap.owned p r path this).1
        · have hij : i ≠ j := fun e => hij (by rw [e])
          rw [withProc_of_ne hij, f5.tables.proc, ho4 i hij, hst]
        · rintro _ e
          cases e
          rw [withProc_self, hj5, hj4]
          exact ⟨hun, rfl, hr0, hsz, hfd, rfl⟩

omit [Layout] in
lemma withProc_eq : s.withProc i (s.proc i) = s := by
  unfold Kernel.withProc
  rw [update_eq_self]

lemma Inv.resize {n : Nat} (hi : Inv s own held extra) (h0 : (s.proc i).pagetable ≠ 0)
    (f : Frame (s.proc i).pagetable none s own s1 own1) (h : Heap s1 own1 fun r _ => Root s r)
    (sh : Shape s1.mem (s.proc i).pagetable (npages n) UserPte trampolinePte
      (trapframePte (s.proc i).trapframe)) :
    Inv (s1.withProc i { s1.proc i with sz := n }) own1 held extra := by
  have hp : s1.proc = s.proc := f.tables.proc
  refine hi.giveTable f.keeps f.tables.procs f.tables.file (h.relive fun r _ => ?_) h0 ?_
    (by rw [hp]) (by rw [hp]) ?_ (by rw [hp]) (by rw [hp]; exact sh) ?_
  · unfold Root
    apply and_congr_right
    intro _
    apply exists_congr
    intro j
    by_cases hj : j = i
    · rw [hj, withProc_self, hp]
    · rw [withProc_of_ne hj, hp]
  · intro j hj e
    exact hj (hi.inj i j h0 e.symm).symm
  · rw [hp]
    exact ((hi.proc i).shape h0).1
  · rw [hp]
    have := (hi.proc i).state
    exact ⟨this.unused, this.active, this.zombie⟩

/-- Process `i` has got the size `sz` and the address space `I`; the other processes are as before. -/
structure Resized (s : Kernel) (i : Fin NPROC) (sz : Nat) (I : Image) (s' : Kernel) : Prop where
  proc : s'.proc = update s.proc i { s.proc i with sz := sz }
  space : image s'.mem (s.proc i).pagetable = I

omit [Layout] in
lemma Resized.of_eq {I : Image} (hp : s'.proc = s.proc) (hI : image s'.mem (s.proc i).pagetable = I) :
    Resized s i (s.proc i).sz I s' :=
  ⟨hp.trans (update_eq_self i s.proc).symm, hI⟩

omit [Layout] in
lemma Resized.withProc {sz : Nat} {I : Image} (hp : s1.proc = s.proc)
    (hI : image s1.mem (s.proc i).pagetable = I) :
    Resized s i sz I (s1.withProc i { s1.proc i with sz := sz }) := by
  refine ⟨?_, hI⟩
  rw [Kernel.withProc, hp]

/-- What `growproc` does to a process: it fails and changes nothing, or gives it the size that `uvmalloc` or
    `uvmdealloc` returns. -/
inductive Grew (s : Kernel) (i : Fin NPROC) (n : Int) : Bool → Kernel → Prop where
  | fail {s' : Kernel} (hn : 0 < n) (h : Resized s i (s.proc i).sz (image s.mem (s.proc i).pagetable) s') : Grew s i n false s'
  | grow {s' : Kernel} (hn : 0 < n) (h : Resized s i (max (s.proc i).sz (toU64 ((s.proc i).sz + n)))
      ((image s.mem (s.proc i).pagetable).grow (npages (s.proc i).sz)
        (npages (max (s.proc i).sz (toU64 ((s.proc i).sz + n)))) (PTE_R ||| PTE_U ||| PTE_W ||| PTE_V)) s') :
      Grew s i n true s'
  | cut {s' : Kernel} (hn : n < 0) (h : Resized s i (min (s.proc i).sz (toU64 ((s.proc i).sz + n)))
      ((image s.mem (s.proc i).pagetable).cut (npages (min (s.proc i).sz (toU64 ((s.proc i).sz + n))))) s') :
      Grew s i n true s'
  | none (hn : n = 0) : Grew s i n true s

lemma growproc_spec {n : Int} (hi : Inv s own held extra) (ha : Active s i) :
    wp (growproc i n) (fun ok s' => (∃ own', Inv s' own' held extra ∧ Active s' i) ∧ Grew s i n ok s') Never s := by
  have h0 := hi.pagetable_ne ha
  have hr : ∀ path : List Nat, Root s (s.proc i).pagetable := fun _ => ⟨h0, i, rfl⟩
  obtain ⟨_, sh⟩ := (hi.proc i).shape h0
  have hact : ∀ {s1 : Kernel} {sz : Nat}, s1.proc = s.proc →
      Active (s1.withProc i { s1.proc i with sz := sz }) i := by
    intro s1 sz hp
    unfold Active
    rw [withProc_self, hp]
    exact ha
  unfold growproc
  rw [wp_bind, wp_get]
  dsimp only
  rw [wp_ite]
  refine ⟨fun hpos => ?_, fun hpos => ?_⟩
  · rw [wp_bind]
    apply wp_mono (uvmalloc_spec hi.heap hr sh (fun _ => UserPte.leaf) (by decide)
      fun q => userPte_mk (by decide) (by decide) (by decide))
    rintro res s1 ⟨own1, h1, f1, hres⟩
    have hp : s1.proc = s.proc := f1.tables.proc
    rw [wp_ite]
    refine ⟨fun hz => ?_, fun hz => ?_⟩
    · -- nothing was added, and the size stays
      have hsame : Shape s1.mem (s.proc i).pagetable (npages (s.proc i).sz) UserPte trampolinePte
          (trapframePte (s.proc i).trapframe) ∧
          image s1.mem (s.proc i).pagetable = image s.mem (s.proc i).pagetable := by
        obtain ⟨_, h2⟩ | ⟨h2, h3, h4⟩ := hres
        · exact h2
        · have : (s.proc i).sz = res := by omega
          rw [this] at h4 ⊢
          exact ⟨h3, h4.trans Image.grow_self⟩
      have hi1 := hi.resize h0 f1 h1 hsame.1
      rw [wp_pure]
      have e : s1.withProc i { s1.proc i with sz := (s.proc i).sz } = s1 := by
        rw [← hp]
        exact withProc_eq
      rw [e] at hi1
      refine ⟨⟨own1, hi1, ?_⟩, .fail hpos (.of_eq hp hsame.2)⟩
      unfold Active
      rw [hp]
      exact ha
    · rw [wp_bind, wp_setProc, wp_pure]
      obtain ⟨h2, _⟩ | ⟨rfl, h2, h3⟩ := hres
      · exact absurd h2 hz
      · exact ⟨⟨own1, hi.resize h0 f1 h1 h2, hact hp⟩, .grow hpos (.withProc hp h3)⟩
  · rw [wp_ite]
    refine ⟨fun hneg => ?_, fun hneg => ?_⟩
    · rw [wp_bind]
      apply wp_mono (uvmdealloc_spec hi.heap hr sh fun _ => UserPte.leaf)
      rintro res s1 ⟨own1, h1, f1, rfl, sh1, hI⟩
      rw [wp_bind, wp_setProc, wp_pure]
      exact ⟨⟨own1, hi.resize h0 f1 h1 sh1, hact f1.tables.proc⟩, .cut hneg (.withProc f1.tables.proc hI)⟩
    · rw [wp_pure]
      exact ⟨⟨own, hi, ha⟩, .none (by omega)⟩

lemma sysSbrk_spec {n : Int} (hi : Inv s own held extra) (ha : Active s i) :
    wp (sysSbrk i n) (fun _ s' => ∃ own', Inv s' own' held extra ∧ Active s' i) Never s := by
  unfold sysSbrk
  rw [wp_bind, wp_get, wp_bind]
  apply wp_mono (growproc_spec hi ha)
  rintro _ s1 h1
  rw [wp_pure]
  exact h1.1

omit [Layout] in
lemma descs_set {fd : Fin NOFILE} {v : Option (Fin NFILE)}
    (hp : p.ofile = update (s.proc j).ofile fd v) :
    descs (s.withProc j p) = update (descs s) (j, fd) v := by
  funext ⟨a, b⟩
  unfold descs
  dsimp only
  by_cases ha : a = j
  · subst ha
    rw [withProc_self, hp]
    by_cases hb : b = fd
    · subst hb
      rw [update_self, update_self]
    · rw [update_of_ne hb, update_of_ne]
      exact fun e => hb (Prod.mk.inj e).2
  · rw [withProc_of_ne ha, update_of_ne]
    exact fun e => ha (Prod.mk.inj e).1

lemma Inv.setDesc {fd : Fin NOFILE} {v : Option (Fin NFILE)} {extra'} {cnt : Fin NFILE → Nat}
    (hi : Inv s own held extra) (k : Keeps Owner.Rest s own s1 own1) (t : ProcTables s s1)
    (h : Heap s1 own1 fun r _ => Root s r) (hf : Files s1 own1 cnt)
    (hcnt : ∀ f, cnt f = refs (update (descs s) (j, fd) v) f + extra' f)
    (hstate : StateOk { s.proc j with ofile := update (s.proc j).ofile fd v }) :
    Inv (s1.withProc j { s1.proc j with ofile := update (s1.proc j).ofile fd v }) own1 held
      extra' := by
  have hp : s1.proc = s.proc := t.proc
  have ok := hi.proc j
  have kt : Keeps (fun _ => True) s1 own1
      (s1.withProc j { s1.proc j with ofile := update (s1.proc j).ofile fd v }) own1 :=
    Keeps.refl.withProc
  have hroot : ∀ r, Root s r ↔
      Root (s1.withProc j { s1.proc j with ofile := update (s1.proc j).ofile fd v }) r := by
    intro r
    unfold Root
    apply and_congr_right
    intro _
    apply exists_congr
    intro i
    by_cases hij : i = j
    · rw [hij, withProc_self, hp]
    · rw [withProc_of_ne hij, hp]
  have hok1 : ProcOk s1 own1 j := by
    refine k.procOk hi.heap h (fun h0 _ => ?_) ⟨nofun, nofun⟩ (fun _ _ => ⟨nofun, nofun⟩) (by rw [hp]) ok
    exact ⟨⟨h0, j, rfl⟩, h0, j, rfl⟩
  refine hi.one j k.withProc (h.withProc.relive fun r _ => hroot r) ?_ ?_ ⟨nofun, nofun⟩
    (fun _ _ => ⟨nofun, nofun⟩) (fun _ _ _ _ => ⟨nofun, nofun⟩) t.boot ?_ ⟨?_, ?_, ?_, ?_⟩ ?_
  · have hd : descs (s1.withProc j { s1.proc j with ofile := update (s1.proc j).ofile fd v }) =
        update (descs s1) (j, fd) v := descs_set rfl
    have hd' : descs s1 = descs s := by
      unfold descs
      rw [hp]
    have e : cnt = fun f => refs (descs (s1.withProc j
        { s1.proc j with ofile := update (s1.proc j).ofile fd v })) f + extra' f := by
      funext f
      rw [hcnt f, hd, hd']
    rw [← e]
    exact kt.files trivial rfl hf fun p hp => h.mod (by rw [hp]; nofun)
  · intro p
    rw [k.iff (o := .held) ⟨nofun, nofun⟩]
    exact hi.held p
  · intro i hij
    rw [withProc_of_ne hij, hp]
  · rw [withProc_self]
    exact hok1.trapframe
  · rw [withProc_self]
    exact hok1.shape
  · rw [withProc_self]
    exact hok1.empty
  · rw [withProc_self, hp]
    exact hstate
  · intro i hij h0 e
    rw [withProc_self, hp] at h0 e
    exact hij (hi.inj j i h0 e).symm

end Xv6n
