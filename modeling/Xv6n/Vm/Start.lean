import Xv6n.Vm.Boot
import Xv6n.Vm.Supply

/-!
# The first process

`userinit` keeps the invariant of the process table, unless it runs out of memory half way. With enough
free pages it does not, so the boot ends with the first process ready to run.
-/

namespace Xv6n
open Lib KernM Function

variable [Layout] {s s0 s' : Kernel} {own : Nat → Owner} {extra : Fin NFILE → Nat} {j : Fin NPROC}
  {c : Fin NCPU} {n : Nat}

lemma allocproc_supply {live : Nat → List Nat → Prop} (h : Heap s own live) (hi : ∃ i, (s.proc i).state = .unused)
    (S : Supply c (n + 6) s) : wp allocproc (fun o s' => o ≠ none ∧ Supply c n s') Any s := by
  unfold allocproc
  rw [wp_bind, wp_get]
  cases hfind : (List.finRange NPROC).find? fun i => decide ((s.proc i).state = .unused) with
  | none =>
    obtain ⟨i, hi⟩ := hi
    have := List.find?_eq_none.1 hfind i (List.mem_finRange i)
    rw [decide_eq_true_eq] at this
    exact absurd hi this
  | some j =>
    unfold allocpid
    dsimp only
    rw [wp_bind, wp_bind, wp_get, wp_bind, wp_modify, wp_pure, wp_bind, wp_setProc, wp_bind]
    generalize hs1 : Kernel.withProc { s with nextpid := Int.bmod (s.nextpid + 1) (2 ^ 32) } j
      { s.proc j with pid := s.nextpid, state := .used } = s1
    have h1 : Heap s1 own live := by
      rw [← hs1]
      exact h.of_eq rfl rfl
    have S1 : Supply c (n + 6) s1 := by
      rw [← hs1]
      exact S.congr rfl rfl rfl
    refine wp_conseq (wp_and (alloc_spec h1) (alloc_supply (n := n + 5) h1 S1)) ?_ fun _ _ _ => trivial
    rintro o s2 ⟨ho, hne, S2⟩
    cases o with
    | none => exact absurd rfl hne
    | some tf =>
      dsimp only
      rw [wp_bind, wp_setProc, wp_bind]
      refine wp_mono (procPagetable_supply (c := c) (n := n) ho.heap.withProc ?_) ?_
      · exact S2.congr rfl rfl rfl
      rintro o s3 ⟨hne, S3⟩
      cases o with
      | none => exact absurd rfl hne
      | some r =>
        dsimp only
        rw [wp_bind, wp_setProc, wp_pure]
        exact ⟨nofun, S3.congr rfl rfl rfl⟩

/-- The first program is in memory, and the rest of its page is empty. -/
def FirstPage (mem : Nat → UInt8) (r : Nat) : Prop :=
  ∃ p, image mem r 0 = some p ∧ p.flags &&& PTE_U ≠ 0 ∧ ∀ k : Fin PGSIZE, initcode.length ≤ k → p.byte k = 0

omit [Layout] in
lemma firstPage_mk {mem : Nat → UInt8} {r q : Nat} (hq : q % PGSIZE = 0)
    (h : pteAt mem r 0 = pa2pte q ||| (PTE_W ||| PTE_R ||| PTE_X ||| PTE_U ||| PTE_V))
    (hz : ∀ k, initcode.length ≤ k → k < PGSIZE → mem (q + k) = 0) : FirstPage mem r := by
  refine ⟨pageOf mem (pteAt mem r 0), ?_, ?_, fun k hk => ?_⟩
  · unfold image
    rw [if_pos ⟨by decide, by rw [h]; exact mk_flag (by decide) (by decide) (by decide)⟩]
  · unfold pageOf
    dsimp only
    rw [h, pteFlags_mk (by decide)]
    decide
  · unfold pageOf
    dsimp only
    rw [h, pte2pa_mk hq (by decide)]
    exact hz k hk k.2

/-- `uvmfirst` for a process without memory. If its page table has no room for the first page, the
    page is lost. -/
lemma uvmfirst_spec (hi : Inv s own [] extra) (h0 : (s.proc j).pagetable ≠ 0)
    (hsz : (s.proc j).sz = 0) :
    wp (uvmfirst (s.proc j).pagetable initcode) (fun _ s' => Tables s s' ∧ ∃ own',
      (Inv (s'.withProc j { s'.proc j with sz := PGSIZE }) own' [] extra ∧
        FirstPage s'.mem (s.proc j).pagetable ∧
        (Supply c (n + 3) s → Supply c n s')) ∨
      (¬ Supply c (n + 3) s ∧ ∃ q, Inv s' own' [q] extra)) (fun e _ => e = .null ∧ ¬ Supply c (n + 3) s) s := by
  have hr : ∀ path : List Nat, Root s (s.proc j).pagetable := fun _ => ⟨h0, j, rfl⟩
  obtain ⟨_, sh⟩ := (hi.proc j).shape h0
  rw [hsz] at sh
  unfold uvmfirst
  rw [if_neg (by decide)]
  dsimp only
  rw [wp_bind]
  apply wp_conseq (wp_and (alloc_spec hi.heap) (wp_imp fun h => alloc_supply (c := c) (n := n + 2) hi.heap h))
  rotate_left
  · exact fun _ _ h => h.1.elim
  rintro o s1 ⟨ho, hroom⟩
  cases o with
  | none =>
    dsimp only
    rw [wp_throw]
    exact ⟨rfl, fun h => (hroom h).1 rfl⟩
  | some q =>
    dsimp only
    rw [wp_bind, wp_memset, wp_bind]
    have hqm := Fresh.mod ho
    have f1 := Fresh.write ho fun p hp hne => same_fill (c := 0) hqm hp hne
    have hi1 := hi.fresh f1
    have fr1 := f1.frame (r := (s.proc j).pagetable)
    have hpte : ∀ a, pteAt (fill s1.mem q PGSIZE 0) (s.proc j).pagetable a =
        pteAt s.mem (s.proc j).pagetable a := fun a => f1.pteAt hi.heap hr
    have hroom1 : Supply c (n + 3) s → Supply c (n + 2) { s1 with mem := fill s1.mem q PGSIZE 0 } := by
      refine fun h => (hroom h).2.writePage (t := q) ho.heap ?_ fun p hp hne => same_fill hqm hp hne
      rw [update_self]
      nofun
    generalize hs1 : ({ s1 with mem := fill s1.mem q PGSIZE 0 } : Kernel) = s1' at f1 hi1 fr1 hroom1
    have hmem : s1'.mem = fill s1.mem q PGSIZE 0 := by rw [← hs1]
    have hp1 : s1'.proc = s.proc := f1.tables.proc
    rw [← hmem] at hpte
    have hmap := mapUser_spec f1.heap hr (v := 0)
      (by decide) (not_top_of_lt (by decide)) (by rw [hpte]; exact sh.empty (by decide))
      (update_self ..) (by decide : PTE_W ||| PTE_R ||| PTE_X ||| PTE_U < 1024)
    have hmap := wp_and hmap (wp_imp fun h => mappages_supply (n := n) f1.heap hr (by decide) (hroom1 h))
    rw [Nat.zero_mul] at hmap
    apply wp_conseq hmap
    rotate_left
    · exact fun _ _ h => h.1.elim
    rintro ok s2 ⟨⟨own2, h2, fr2, hsame2, hok, hfail⟩, hroom2⟩
    rw [wp_putBytes]
    have t2 : Tables s s2 := f1.tables.trans fr2.tables
    refine ⟨t2.mem, own2, ?_⟩
    cases ok with
    | true =>
      obtain ⟨hq, hu⟩ := hok rfl
      have fr : Frame (s.proc j).pagetable none s own s2 own2 :=
        (fr1.trans fr2).close f1.out (by rw [hq]; exact fun e => e rfl)
      have sh2 : Shape s2.mem (s.proc j).pagetable (npages PGSIZE) UserPte trampolinePte
          (trapframePte (s.proc j).trapframe) := by
        have hw : UserPte (pa2pte q ||| (PTE_W ||| PTE_R ||| PTE_X ||| PTE_U ||| PTE_V)) :=
          userPte_mk (by decide) (by decide) (by decide)
        refine sh.extend (by decide) hw fun a ha => ?_
        rw [hu a ha, hpte]
        rfl
      have hi2 := hi.resize h0 fr h2 sh2
      have hw : ∀ s2 : Kernel, Wrote (UserOf own2 (s.proc j).pagetable) s2
          { s2 with mem := Lib.putBytes s2.mem q initcode } := fun s2 =>
        wrote_putBytes (q := q) (o := 0) (l := initcode) hqm (by decide) ⟨0, hq⟩
      refine .inl ⟨hi2.writeUser (hw (s2.withProc j { s2.proc j with sz := PGSIZE })), firstPage_mk hqm ?_ ?_,
        fun h => ?_⟩
      · rw [(hw s2).pteAt h2 (fun p hp => hp.not_links) hr, hu 0 (by decide), if_pos rfl]
      · intro k h3 h4
        dsimp only
        rw [putBytes_of_out (by omega), hsame2 _ (by omega) (by omega), hmem, fill_of_in (by omega)]
      · refine (hroom2 h).2.writePage h2 (t := q) (by rw [hq]; nofun) fun p hp hne => ?_
        exact same_putBytes (o := 0) hqm hp hne (by decide)
    | false =>
      obtain ⟨hq, hsame⟩ := hfail rfl
      have fr : Frame (s.proc j).pagetable none s1' (update own q .held) s2 own2 := by
        refine ⟨fr2.tables, fun p _ ho => ?_, fun p _ hpm ho => ?_⟩
        · by_cases e : p = q
          · rw [e, hq, update_self]
          · exact fr2.owner p (by simpa using Ne.symm e) ho
        · by_cases e : p = q
          · rw [e]
            exact hsame2
          · exact fr2.same p (by simpa using Ne.symm e) hpm ho
      rw [← hp1] at h0 fr
      have hi2 := hi1.resize (n := (s1'.proc j).sz) h0 fr
        (h2.relive fun r _ => by unfold Root; rw [hp1]) (((hi1.proc j).shape h0).2.congr fun a => by
          rw [hp1]; exact hsame a)
      have e : s2.withProc j { s2.proc j with sz := (s1'.proc j).sz } = s2 := by
        rw [← fr2.tables.proc]
        exact withProc_eq
      rw [e] at hi2
      refine .inr ⟨fun h => absurd (hroom2 h).1 nofun, q, hi2.writeHeld (List.mem_cons_self ..) ?_⟩
      exact wrote_putBytes (q := q) (o := 0) (l := initcode) hqm (by decide) rfl

/-- There is an unused process, and `n` pages more than what the first one needs. -/
def Ready (c : Fin NCPU) (n : Nat) (s : Kernel) : Prop := Supply c (n + 9) s ∧ ∃ i, (s.proc i).state = .unused

/-- The first process is in place, with its code. -/
structure Started (s : Kernel) (j : Fin NPROC) (extra : Fin NFILE → Nat) : Prop where
  inv : ∃ own, Inv s own [] extra
  runnable : (s.proc j).state = .runnable
  sz : (s.proc j).sz = PGSIZE
  page : FirstPage s.mem (s.proc j).pagetable

lemma Started.code (h : Started s j extra) : userPage s.mem (s.proc j).pagetable 0 ≠ none := by
  obtain ⟨own, hi⟩ := h.inv
  obtain ⟨p, hp, huser, -⟩ := h.page
  have hm : UserMapped s.mem (s.proc j).pagetable 0 := mapped_of_flags (f := p.flags) (by rw [Nat.zero_div, hp]; rfl) huser
  have h0 := (hi.userTable (hi.pagetable_ne (.inr (.inl h.runnable)))).nonzero 0 hm
  unfold userPage
  rw [if_pos ⟨hm.1, hm.2.1, hm.2.2, h0⟩]
  nofun

omit [Layout] in
lemma wrote_trapframe {tf : Nat} (h : tf % PGSIZE = 0) : Wrote (· = tf) s
    { s with mem := putLe (putLe s.mem (tfEpc tf) 8 0) (tfSp tf) 8 PGSIZE } := by
  have w1 : Wrote (· = tf) s { s with mem := putLe s.mem (tfEpc tf) 8 0 } :=
    wrote_putLe (o := 24) h (by decide) rfl
  exact w1.trans (wrote_putLe (o := 48) (k := 8) (w := PGSIZE) h (by decide) rfl)

/-- `userinit` starts the first process; if memory runs out, perhaps without its code. -/
lemma userinit_spec (hi : Inv s own [] extra) :
    wp userinit (fun _ s' => ∃ j, s'.initproc = some j ∧ ((Started s' j extra ∧ (Ready c n s → Supply c n s')) ∨
      (¬ Ready c n s ∧ pteAt s'.mem (s'.proc j).pagetable 0 = 0))) (fun e _ => e = .null ∧ ¬ Ready c n s) s := by
  unfold userinit
  rw [wp_bind]
  apply wp_conseq (wp_and (allocproc_spec hi) (wp_imp (p := Ready c n s) fun h =>
    allocproc_supply (n := n + 3) hi.heap h.2 h.1))
  rotate_left
  · exact fun _ _ h => h.1.elim
  rintro o s1 ⟨⟨own1, hi1, _, _, ho⟩, hroom⟩
  cases o with
  | none =>
    dsimp only
    rw [wp_throw]
    exact ⟨rfl, fun h => (hroom h).1 rfl⟩
  | some j =>
    obtain ⟨_, hused, h0, hsz, _⟩ := ho j rfl
    obtain ⟨htf, _⟩ := (hi1.proc j).shape h0
    dsimp only
    rw [wp_bind, wp_modify, wp_bind, wp_get, wp_bind]
    have hi2 : Inv { s1 with initproc := some j } own1 [] extra :=
      hi1.restate rfl rfl rfl rfl (fun _ => ⟨rfl, rfl, rfl, rfl⟩) fun j => (hi1.proc j).state
    have hroom2 : Ready c n s → Supply c (n + 3) { s1 with initproc := some j } :=
      fun h => (hroom h).2.congr rfl rfl rfl
    generalize hs2 : ({ s1 with initproc := some j } : Kernel) = s2 at hi2 hroom2
    have hp2 : s1.proc = s2.proc := by rw [← hs2]
    rw [hp2] at h0 hsz hused htf
    apply wp_conseq (uvmfirst_spec hi2 h0 hsz)
    rotate_left
    · exact fun _ _ h => ⟨h.1, fun hr => h.2 (hroom2 hr)⟩
    rintro _ s3 ⟨t3, own3, h3⟩
    have hp3 : s3.proc = s2.proc := t3.proc
    rw [wp_bind, wp_setProc, wp_bind, wp_store64, wp_bind, wp_store64, wp_setProc, ← hp3]
    rw [← hp3] at h0 hsz hused htf h3
    refine ⟨j, ?_, ?_⟩
    · change s3.initproc = some j
      rw [t3.initproc, ← hs2]
    · obtain ⟨h3, hcode, hsup⟩ | ⟨hno, q, h3⟩ := h3
      · left
        generalize hs4 : s3.withProc j { s3.proc j with sz := PGSIZE } = s4 at h3
        have hp4 : s4.proc j = { s3.proc j with sz := PGSIZE } := by rw [← hs4, withProc_self]
        have hm4 : s3.mem = s4.mem := by rw [← hs4]; rfl
        have htf4 : (s3.proc j).trapframe = (s4.proc j).trapframe := by rw [hp4]
        have hpt4 : (s3.proc j).pagetable = (s4.proc j).pagetable := by rw [hp4]
        rw [htf4] at htf ⊢
        have w := wrote_trapframe (s := s4) (h3.trapframe_mod htf)
        have hi5 := h3.writeTrapframe htf w
        refine ⟨⟨⟨own3, hi5.restateProc ⟨rfl, rfl, rfl, rfl⟩ ?_⟩, ?_, ?_, ?_⟩, fun h => ?_⟩
        rotate_right
        · have S4 : Supply c n s4 := (hsup (hroom2 h)).congr (by rw [← hs4]; rfl) hm4.symm (by rw [← hs4]; rfl)
          refine (S4.write h3.heap fun p hp => w.same p (h3.heap.mod (by rw [hp]; nofun)) ?_).congr rfl rfl rfl
          rintro rfl
          rw [((h3.proc j).trapframe _).2 ⟨htf, rfl⟩] at hp
          cases hp
        · rw [hp4]
          exact ⟨nofun, fun _ _ => h0, nofun⟩
        · rw [withProc_self]
        · rw [withProc_self, hp4]
        · rw [hm4, hpt4] at hcode
          rw [hpt4] at h0
          have hown : own3 (s4.proc j).trapframe = .trapframe j := ((h3.proc j).trapframe _).2 ⟨htf, rfl⟩
          have hI := w.image h3.heap (r := (s4.proc j).pagetable) (fun _ => ⟨h0, j, rfl⟩) (by
            rintro p rfl
            rw [hown]
            exact ⟨id, nofun⟩)
          rw [withProc_self]
          obtain ⟨p, hp, h6⟩ := hcode
          exact ⟨p, (congrFun hI 0).trans hp, h6⟩
      · right
        have w := wrote_trapframe (s := s3) (h3.trapframe_mod htf)
        obtain ⟨_, sh⟩ := ((h3.writeTrapframe htf w).proc j).shape h0
        have hz : npages (s3.proc j).sz = 0 := by rw [hsz]; rfl
        have := sh.rest 0 (Nat.le_of_eq hz) (by decide)
        rw [withProc_self, withProc_self]
        exact ⟨fun h => hno (hroom2 h), this⟩

lemma bootEnd_spec (hi : Inv s own [] extra) :
    wp bootEnd (fun ok s' => (ok = true → ∃ j, Started s' j extra) ∧
      (Ready c n s → ok = true ∧ Supply c n s')) (fun e _ => e = .null ∧ ¬ Ready c n s) s := by
  unfold bootEnd
  rw [wp_bind]
  apply wp_mono (userinit_spec hi)
  rintro _ s1 ⟨j, hj, h1⟩
  rw [wp_bind, wp_get, hj]
  dsimp only
  rw [wp_bind, wp_walkaddr, wp_pure]
  obtain ⟨h1, hsup⟩ | ⟨h1, h2⟩ := h1
  · exact ⟨fun _ => ⟨j, h1⟩, fun h => ⟨Option.isSome_iff_ne_none.2 h1.code, hsup h⟩⟩
  · have hno : userPage s1.mem (s1.proc j).pagetable 0 = none := by
      unfold userPage
      rw [Nat.zero_div, h2, if_neg]
      exact fun e => e.2.1 rfl
    rw [hno]
    exact ⟨nofun, fun h => absurd h h1⟩

lemma Inv.supply (hi : Inv s own [] extra) (h : ∀ p i, Managed p → OfHart i p → own p = .free (some i))
    (he : ∀ m, s.env m = some c) : Supply c (PER_HART_ALLOC_SIZE / PGSIZE) s := by
  obtain ⟨l, hc, -, hl⟩ := hi.heap.free (some c)
  refine ⟨he, l, hc, ?_⟩
  have hsub : (List.range (PER_HART_ALLOC_SIZE / PGSIZE)).map
      (fun n => heapStart + (c * (PER_HART_ALLOC_SIZE / PGSIZE) + n) * PGSIZE) ⊆ l := by
    intro p hp
    obtain ⟨n, hn, rfl⟩ := List.mem_map.1 hp
    rw [List.mem_range] at hn
    obtain ⟨hm, ho⟩ := hart_page c hn
    exact (hl _).1 (h _ _ hm ho)
  have hnd : ((List.range (PER_HART_ALLOC_SIZE / PGSIZE)).map
      fun n => heapStart + (c * (PER_HART_ALLOC_SIZE / PGSIZE) + n) * PGSIZE).Nodup := by
    refine List.Nodup.map (fun a b e => ?_) List.nodup_range
    simp only [PER_HART_ALLOC_SIZE, PGSIZE] at e
    omega
  have := (List.subperm_of_subset hnd hsub).length_le
  rwa [List.length_map, List.length_range] at this

/-- The machine can boot: there is a reachable state in which the first process is ready to run, and most of the
    memory of a hart is free. -/
lemma exists_supplied : ∃ s : Kernel, s.Reachable ∧ Supply 0 247 s ∧ ∃ j, Started s j fun _ => 0 := by
  let s0 : Kernel :=
    { mem := fun _ => 0, freelist := fun _ => 0, boot := [], initproc := none, nextpid := 1
      proc := fun _ => { state := .unused, killed := false, xstate := 0, pid := 0, parent := none
                         sz := 0, pagetable := 0, trapframe := 0, ofile := fun _ => none, name := [] }
      file := fun _ => { type := .none, ref := 0, readable := false, writable := false, pipe := 0 }
      env := fun _ => some 0, clock := 0 }
  have hblank : s0.Blank :=
    ⟨fun _ => rfl, rfl, fun _ => ⟨rfl, rfl, rfl, rfl, fun _ => rfl⟩, fun _ => ⟨rfl, rfl⟩, rfl⟩
  obtain ⟨⟨⟩, s1, e, ⟨own, hi, hhart⟩, ht⟩ := (kinit_spec hblank).returns
  have hready : Ready 0 247 s1 :=
    ⟨hi.supply hhart fun m => by rw [ht.env], 0, by rw [ht.proc]⟩
  have hb := wp_def.1 (bootEnd_spec (c := 0) (n := 247) hi)
  cases e2 : bootEnd s1 with
  | error p s2 => exact absurd hready (hb.2 p s2 e2).2
  | ok ok s2 =>
    obtain ⟨h1, h2⟩ := hb.1 ok s2 e2
    obtain ⟨rfl, hsup⟩ := h2 hready
    refine ⟨s2, ⟨s0, s1, [.userinit], hblank, e, ?_⟩, hsup, h1 rfl⟩
    have hstep : s1.step .userinit = some s2 := by
      unfold Kernel.step
      rw [if_pos (ht.initproc.trans rfl), e2]
    exact exec_cons.2 ⟨s2, hstep, exec_nil⟩

lemma exists_started : ∃ s : Kernel, s.Reachable ∧ ∃ j, Started s j fun _ => 0 := by
  obtain ⟨s, hs, -, h⟩ := exists_supplied
  exact ⟨s, hs, h⟩

end Xv6n
