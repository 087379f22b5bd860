import Xv6n.Vm.ProcSpec

/-!
# `fork`, `exit` and `wait`
-/

namespace Xv6n
open Lib KernM Function
variable [Layout] {s s' s1 : Kernel} {own own' own1 : Nat → Owner} {held : List Nat} {i j : Fin NPROC}
  {extra : Fin NFILE → Nat} {f : Fin NFILE} {fd : Fin NOFILE}

omit [Layout] in
lemma stateOk_used {p : Proc} (h : p.state = .used) : StateOk p := by
  refine ⟨?_, fun _ e => absurd h e, ?_⟩
  all_goals
    intro e
    rw [h] at e
    cases e

lemma Inv.writeTrapframe (hi : Inv s own held extra) (h0 : (s.proc i).trapframe ≠ 0)
    (w : Wrote (· = (s.proc i).trapframe) s s') : Inv s' own held extra := by
  refine hi.write w ?_
  rintro p rfl
  rw [((hi.proc i).trapframe _).2 ⟨h0, rfl⟩]
  exact ⟨id, nofun⟩

lemma Inv.trapframe_mod (hi : Inv s own held extra) (h0 : (s.proc i).trapframe ≠ 0) :
    (s.proc i).trapframe % PGSIZE = 0 :=
  hi.heap.mod (by rw [((hi.proc i).trapframe _).2 ⟨h0, rfl⟩]; nofun)

lemma dupDesc_spec (hi : Inv s own held extra) (hj : (s.proc j).state = .used)
    (hfd : (s.proc j).ofile fd = none) (hf : 0 < refs (descs s) f) :
    wp (do filedup f; setOfile j fd (some f); pure (ForInStep.yield PUnit.unit)) (fun a s' =>
      a = .yield ⟨⟩ ∧ Inv s' own held extra ∧ ∃ fl, s' = Kernel.withProc { s with file := fl } j
        { s.proc j with ofile := update (s.proc j).ofile fd (some f) }) Never s := by
  rw [wp_bind]
  apply wp_mono (filedup_spec hi.files (by omega))
  rintro _ s1 ⟨e1, h1⟩
  have e1' : s1 = { s with file := s1.file } := by rw [e1]
  have hheap : Heap s1 own fun r _ => Root s r := hi.heap.of_eq (by rw [e1]) (by rw [e1])
  have hp : s1.proc = s.proc := by rw [e1]
  unfold setOfile
  rw [wp_bind, wp_setProc, wp_pure]
  refine ⟨rfl, hi.setDesc (Keeps.refl.to (by rw [e1])) (by rw [e1]; exact ⟨rfl, rfl, rfl, rfl⟩) hheap
    h1 ?_ (stateOk_used hj), s1.file, ?_⟩
  · intro g
    rw [refs_set (by exact hfd)]
    by_cases hg : g = f
    · subst hg
      rw [update_self, update_self]
      omega
    · rw [update_of_ne hg, update_of_ne hg]
  · rw [hp, ← e1']

omit [Layout] in
lemma UserPte.copy {w q : Nat} (h : UserPte w) : UserPte (pa2pte q ||| (pteFlags w ||| PTE_V)) := by
  refine userPte_mk (Nat.or_lt_two_pow (n := 10) ?_ (by decide)) (or_and_ne_zero (.inr (by decide)))
    (or_and_ne_zero (.inl ?_))
  · rw [pteFlags_eq]
    exact Nat.mod_lt _ (by decide)
  · rw [← and_of_flags (by decide)]
    exact h.read

/-- The state of `fork` after the first `k` descriptors. -/
structure ForkLoop (s0 : Kernel) (m : Nat → UInt8) (i j : Fin NPROC) (own : Nat → Owner) (held : List Nat)
    (extra : Fin NFILE → Nat) (k : Nat) (s : Kernel) : Prop where
  inv : Inv s own held extra
  parent : s.proc i = s0.proc i
  used : (s.proc j).state = .used
  table : (s.proc j).pagetable = (s0.proc j).pagetable
  left : ∀ fd : Fin NOFILE, k ≤ fd → (s.proc j).ofile fd = none
  mem : s.mem = m

/-- Process `j` has become a child of process `i`, with a copy of its memory. -/
structure Child (s : Kernel) (i j : Fin NPROC) (ret : Int) (s' : Kernel) : Prop where
  unused : (s.proc j).state = .unused
  runnable : (s'.proc j).state = .runnable
  parent : (s'.proc j).parent = some i
  pid : ret = s.nextpid
  table : (s'.proc i).pagetable = (s.proc i).pagetable
  space : image s'.mem (s'.proc i).pagetable = image s.mem (s.proc i).pagetable
  copy : image s'.mem (s'.proc j).pagetable = image s.mem (s.proc i).pagetable

/-- `fork` has failed and nothing has come into use, or there is a child. -/
def Forked (s : Kernel) (own : Nat → Owner) (i : Fin NPROC) (ret : Int) (s' : Kernel) (own' : Nat → Owner) : Prop :=
  ret = -1 ∧ Spares s own s' own' ∧ (∀ k, (s.proc k).state = .unused → (s'.proc k).state = .unused) ∨
    ∃ j, Child s i j ret s'

lemma fork_spec (hi : Inv s own held extra) (ha : Active s i) :
    wp (fork i) (fun ret s' => ∃ own', Inv s' own' held extra ∧ Active s' i ∧ Forked s own i ret s' own')
      Never s := by
  unfold fork
  rw [wp_bind]
  apply wp_mono (allocproc_spec hi)
  rintro o s1 ⟨own1, hi1, hsp1, hu1, hj1⟩
  have hpi1 : s1.proc i = s.proc i := hsp1.proc i ha.ne.1
  have ha1 : Active s1 i := by
    unfold Active
    rw [hpi1]
    exact ha
  cases o with
  | none =>
    dsimp only
    rw [wp_pure]
    exact ⟨own1, hi1, ha1, .inl ⟨rfl, hsp1, fun k hk => hu1 k hk nofun⟩⟩
  | some j =>
    obtain ⟨hun, hused, hpt, hsz, hofile, hpid⟩ := hj1 j rfl
    have hij : i ≠ j := by
      rintro rfl
      exact ha.ne.1 hun
    have hpi := hi1.pagetable_ne ha1
    have hne : (s1.proc i).pagetable ≠ (s1.proc j).pagetable := fun e => hij (hi1.inj i j hpi e)
    have hroot : ∀ path : List Nat, Root s (s1.proc i).pagetable := fun _ => ⟨hpi, i, by rw [hpi1]⟩
    have himg1 : image s1.mem (s1.proc i).pagetable = image s.mem (s.proc i).pagetable := by
      rw [← hpi1]
      exact hsp1.image hi.heap hi1.heap hroot fun _ => ⟨hpi, i, rfl⟩
    obtain ⟨_, shi⟩ := (hi1.proc i).shape hpi
    obtain ⟨htfj, shj⟩ := (hi1.proc j).shape hpt
    rw [hsz] at shj
    dsimp only
    rw [wp_bind, wp_get, wp_bind, wp_get, wp_bind]
    apply wp_mono (uvmcopy_spec hi1.heap (fun _ => ⟨hpt, j, rfl⟩) (fun _ => ⟨hpi, i, rfl⟩) hne shi shj
      (fun _ => UserPte.leaf) fun w q h => ?_)
    · rintro ok s2 ⟨own2, h2, f2, sh2, hI2⟩
      have hp2 : s2.proc = s1.proc := f2.tables.proc
      have ha2 : ∀ p, Active (s2.withProc j p) i := by
        intro p
        unfold Active
        rw [withProc_of_ne hij, hp2]
        exact ha1
      cases ok with
      | false =>
        have hi2 := hi1.resize (n := 0) hpt f2 h2 sh2
        have e : s2.withProc j { s2.proc j with sz := 0 } = s2 := by
          rw [← hsz, ← hp2]
          exact withProc_eq
        have ha2' := ha2 { s2.proc j with sz := 0 }
        rw [e] at hi2 ha2'
        rw [if_neg (by nofun), wp_bind]
        apply wp_mono (freeproc_spec hi2 (by rw [hp2]; exact hofile))
        rintro _ s3 ⟨own3, hi3, fr⟩
        rw [wp_pure]
        have hsp2 := hsp1.frame f2 (hsp1.not_slot hi hi1 hun)
        refine ⟨own3, hi3, ?_, .inl ⟨rfl, hsp2.reap hi hi2 hun fr, fun k hk => ?_⟩⟩
        · unfold Active
          rw [fr.proc i hij]
          exact ha2'
        · by_cases hkj : k = j
          · rw [hkj, fr.unused]
          · rw [fr.proc k hkj, hp2]
            exact hu1 k hk fun e => hkj (Option.some.inj e).symm
      | true =>
        have hi2 := hi1.resize hpt f2 h2 sh2
        rw [if_pos rfl, wp_bind, wp_setProc, wp_bind, wp_memmove, wp_bind, wp_store64, wp_bind]
        generalize hs3 : s2.withProc j { s2.proc j with sz := (s1.proc i).sz } = s3 at hi2
        have hj3 : s3.proc j = { s1.proc j with sz := (s1.proc i).sz } := by
          rw [← hs3, withProc_self, hp2]
        have hi3 : s3.proc i = s1.proc i := by
          rw [← hs3, withProc_of_ne hij, hp2]
        have htf : (s3.proc j).trapframe = (s1.proc j).trapframe := by rw [hj3]
        have hmod := hi2.trapframe_mod (i := j) (by rwa [htf])
        rw [htf] at hmod
        -- the child's trapframe
        have w1 : Wrote (· = (s3.proc j).trapframe) s3 { s3 with
            mem := copy s3.mem (s1.proc j).trapframe (s1.proc i).trapframe tfSize } :=
          wrote_copy hmod (by decide) htf.symm
        have w2 := w1.trans (wrote_putLe (o := 112) (k := 8) (w := 0) hmod (by decide) htf.symm)
        dsimp only at w2 ⊢
        change Wrote (· = (s3.proc j).trapframe) s3 { s3 with mem := putLe _ (tfA0 (s1.proc j).trapframe) 8 0 } at w2
        generalize putLe (copy s3.mem (s1.proc j).trapframe (s1.proc i).trapframe tfSize)
          (tfA0 (s1.proc j).trapframe) 8 0 = m4 at w2 ⊢
        generalize ({ s3 with mem := m4 } : Kernel) = s4 at w2 ⊢
        have hp4 : s4.proc = s3.proc := w2.tables.proc
        have hi4 := hi2.writeTrapframe (by rwa [htf]) w2
        -- the address spaces of both, which the trapframe is not a part of
        have htfo : ∀ {r} p, p = (s3.proc j).trapframe → ¬ (own2 p).Links ∧ ∀ path, own2 p ≠ .slot r path := by
          rintro r p rfl
          rw [((hi2.proc j).trapframe _).2 ⟨by rwa [htf], rfl⟩]
          exact ⟨id, nofun⟩
        have hm3 : s3.mem = s2.mem := by
          rw [← hs3]
          rfl
        have himgj := w2.image hi2.heap (r := (s1.proc j).pagetable) (fun _ => ⟨hpt, j, by rw [hj3]⟩) htfo
        have himgi := w2.image hi2.heap (r := (s1.proc i).pagetable) (fun _ => ⟨hpi, i, by rw [hi3]⟩) htfo
        rw [hm3, hI2, if_pos rfl, himg1] at himgj
        rw [hm3, f2.image hi1.heap h2 hne (fun _ => ⟨hpi, i, rfl⟩) (fun _ => ⟨hpi, i, rfl⟩) nofun, himg1] at himgi
        refine wp_mono (wp_forIn (I := ForkLoop s1 s4.mem i j own2 held extra) ?_ ?_) ?_
        · refine ⟨hi4, by rw [hp4, hi3], ?_, ?_, fun fd _ => ?_, rfl⟩
          · rw [hp4, hj3]
            exact hused
          · rw [hp4, hj3]
          · rw [hp4, hj3]
            exact hofile fd
        · intro k fd s5 hfd hl
          have hval := val_of_finRange hfd
          cases hf : (s1.proc i).ofile fd with
          | none =>
            dsimp only
            rw [wp_pure]
            exact ⟨rfl, hl.inv, hl.parent, hl.used, hl.table, fun fd h => hl.left fd (by omega), hl.mem⟩
          | some f =>
            have hpos : 0 < refs (descs s5) f := by
              apply refs_pos (i := (i, fd))
              unfold descs
              rw [hl.parent, hf]
            dsimp only
            apply wp_mono (dupDesc_spec hl.inv hl.used (hl.left fd (by omega)) hpos)
            rintro _ s6 ⟨rfl, hi6, fl, rfl⟩
            refine ⟨rfl, hi6, ?_, ?_, ?_, fun fd' h => ?_, hl.mem⟩
            · rw [withProc_of_ne hij]
              exact hl.parent
            · rw [withProc_self]
              exact hl.used
            · rw [withProc_self]
              exact hl.table
            · rw [withProc_self]
              dsimp only
              rw [update_of_ne]
              · exact hl.left fd' (by omega)
              · rintro rfl
                omega
        · rintro _ s5 hl
          rw [wp_bind, wp_setProc, wp_pure]
          have hpt5 : (s5.proc j).pagetable ≠ 0 := by rwa [hl.table]
          refine ⟨own2, hl.inv.restateProc ⟨rfl, rfl, rfl, rfl⟩ ⟨nofun, fun _ _ => hpt5, nofun⟩, ?_, .inr ⟨j, ?_⟩⟩
          · unfold Active
            rw [withProc_of_ne hij, hl.parent]
            exact ha1
          · refine ⟨hun, ?_, ?_, hpid, ?_, ?_, ?_⟩
            · rw [withProc_self]
            · rw [withProc_self]
            · rw [withProc_of_ne hij, hl.parent, hpi1]
            · rw [withProc_of_ne hij, hl.parent]
              exact (congrArg (fun m => image m _) hl.mem).trans himgi
            · rw [withProc_self]
              dsimp only
              rw [hl.table]
              exact (congrArg (fun m => image m _) hl.mem).trans himgj
    · exact h.copy

omit [Layout] in
lemma Active.stateOk (h : Active s i) (h0 : (s.proc i).pagetable ≠ 0) {o} :
    StateOk { s.proc i with ofile := o } :=
  ⟨fun e => absurd e h.ne.1, fun _ _ => h0, fun e => absurd e h.ne.2.2⟩

section
variable (hi : Inv s own held extra)
include hi

lemma closeDesc_spec (ha : Active s i)
    (hfd : (s.proc i).ofile fd = some f) :
    wp (do fileclose f; setOfile i fd none; pure (ForInStep.yield PUnit.unit)) (fun a s' =>
      a = .yield ⟨⟩ ∧ ∃ own', Inv s' own' held extra ∧ s'.proc i =
        { s.proc i with ofile := update (s.proc i).ofile fd none }) Never s := by
  have hpos : 0 < refs (descs s) f := refs_pos (i := (i, fd)) hfd
  rw [wp_bind]
  apply wp_mono (fileclose_spec hi.files hi.heap (f := f) (by omega))
  rintro _ s1 ⟨own1, h1, hf1, k1, t1⟩
  unfold setOfile
  rw [wp_bind, wp_setProc, wp_pure]
  refine ⟨rfl, own1, hi.setDesc k1 t1 h1 hf1 ?_ (ha.stateOk (hi.pagetable_ne ha)), ?_⟩
  · intro g
    rw [refs_clear (by exact hfd)]
    by_cases hg : g = f
    · subst hg
      rw [update_self, update_self]
      omega
    · rw [update_of_ne hg, update_of_ne hg]
  · rw [withProc_self, t1.proc]

lemma reparent_spec {E} :
    wp (reparent i) (fun _ s' => Inv s' own held extra ∧
      ∀ j, (s'.proc j).pagetable = (s.proc j).pagetable ∧ (s'.proc j).ofile = (s.proc j).ofile)
      E s := by
  unfold reparent
  rw [wp_modify]
  refine ⟨hi.restate rfl rfl rfl rfl (fun j => ?_) fun j => ?_, fun j => ?_⟩
  · dsimp only
    split
    · exact ⟨rfl, rfl, rfl, rfl⟩
    · exact ⟨rfl, rfl, rfl, rfl⟩
  · have h := (hi.proc j).state
    dsimp only
    split
    · exact ⟨h.unused, h.active, h.zombie⟩
    · exact h
  · dsimp only
    split
    · exact ⟨rfl, rfl⟩
    · exact ⟨rfl, rfl⟩

lemma exit_spec {status : Int} (ha : Active s i) :
    wp (exit i status) (fun _ s' => ∃ own', Inv s' own' held extra)
      (fun e _ => e = .initExiting) s := by
  unfold exit
  rw [wp_bind, wp_get, wp_ite]
  refine ⟨fun _ => by rw [wp_bind, wp_throw], fun _ => ?_⟩
  rw [wp_bind]
  refine wp_never (wp_forIn (I := fun k s' => (∃ own', Inv s' own' held extra) ∧ Active s' i ∧
    ∀ fd : Fin NOFILE, fd < k → (s'.proc i).ofile fd = none) ⟨⟨own, hi⟩, ha, nofun⟩ ?_) ?_
  · rintro k fd s1 hfd ⟨⟨own1, hi1⟩, ha1, hdone⟩
    have hval := val_of_finRange hfd
    rw [wp_bind, wp_get]
    cases hf : (s1.proc i).ofile fd with
    | none =>
      dsimp only
      rw [wp_pure]
      refine ⟨rfl, ⟨own1, hi1⟩, ha1, fun fd' h => ?_⟩
      by_cases e : fd' = fd
      · rw [e, hf]
      · exact hdone fd' (by omega)
    | some f =>
      dsimp only
      apply wp_mono (closeDesc_spec hi1 ha1 hf)
      rintro _ s2 ⟨rfl, ⟨own2, hi2, hp2⟩⟩
      refine ⟨rfl, ⟨own2, hi2⟩, ?_, fun fd' h => ?_⟩
      · unfold Active
        rw [hp2]
        exact ha1
      · rw [hp2]
        dsimp only
        by_cases e : fd' = fd
        · rw [e, update_self]
        · rw [update_of_ne e]
          exact hdone fd' (by omega)
  · rintro _ s1 ⟨⟨own1, hi1⟩, ha1, hdone⟩
    have hnone : ∀ fd, (s1.proc i).ofile fd = none := fun fd => hdone fd (by simp)
    rw [wp_bind]
    apply wp_mono (reparent_spec hi1)
    rintro _ s2 ⟨hi2, hp2⟩
    obtain ⟨hpt, hofile⟩ := hp2 i
    rw [wp_setProc]
    refine ⟨own1, hi2.restateProc ⟨rfl, rfl, rfl, rfl⟩ ⟨nofun, fun _ _ => ?_, fun _ fd => ?_⟩⟩
    · exact fun e => hi1.pagetable_ne ha1 (hpt.symm.trans e)
    · exact (congrFun hofile fd).trans (hnone fd)

lemma Inv.writeUser {r : Nat} (w : Wrote (UserOf own r) s s') :
    Inv s' own held extra := by
  refine hi.write w fun p hp => ⟨hp.not_links, ?_⟩
  obtain ⟨v, hv⟩ := hp
  rw [hv]
  nofun

lemma copyoutProc_spec {va : Nat} {src : List UInt8} (h0 : (s.proc i).pagetable ≠ 0) (hva : va < 2 ^ 64) :
    wp (copyout (s.proc i).pagetable va src) (fun _ s' => Inv s' own held extra ∧
      s'.proc = s.proc ∧ s'.file = s.file) Never s := by
  obtain ⟨_, sh⟩ := (hi.proc i).shape h0
  apply wp_mono (copyout_spec hi.heap (fun _ => ⟨h0, i, rfl⟩) sh.hidden hva)
  rintro _ s1 w
  exact ⟨hi.writeUser w, w.tables.proc, w.tables.file⟩

lemma wait_spec {addr : Nat} (ha : Active s i) (haddr : addr < 2 ^ 64) :
    wp (wait i addr) (fun _ s' => ∃ own', Inv s' own' held extra ∧ Active s' i)
      (fun e _ => e = .asleep) s := by
  unfold wait
  rw [wp_bind, wp_get]
  cases hfind : (List.finRange NPROC).find? fun j =>
      decide ((s.proc j).parent = some i ∧ (s.proc j).state = .zombie) with
  | some j =>
    have hz : (s.proc j).state = .zombie := by
      have := List.find?_some hfind
      rw [decide_eq_true_eq] at this
      exact this.2
    have hij : i ≠ j := by
      rintro rfl
      exact ha.ne.2.2 hz
    have hrest : ∀ ok s1, Inv s1 own held extra → s1.proc = s.proc →
        wp (if ok = true then do freeproc j; pure (s.proc j).pid else pure (-1))
          (fun _ s' => ∃ own', Inv s' own' held extra ∧ Active s' i) (fun e _ => e = .asleep) s1 := by
      intro ok s1 hi1 hp1
      have ha1 : Active s1 i := by
        unfold Active
        rw [hp1]
        exact ha
      rw [wp_ite]
      refine ⟨fun _ => ?_, fun _ => by rw [wp_pure]; exact ⟨own, hi1, ha1⟩⟩
      rw [wp_bind]
      refine wp_never (freeproc_spec hi1 (j := j) ((hi1.proc j).state.zombie (by rw [hp1, hz]))) ?_
      rintro _ s2 ⟨own2, hi2, fr⟩
      rw [wp_pure]
      refine ⟨own2, hi2, ?_⟩
      unfold Active
      rw [fr.proc i hij]
      exact ha1
    dsimp only
    rw [wp_ite]
    refine ⟨fun _ => ?_, fun _ => ?_⟩
    · rw [wp_bind]
      refine wp_never (copyoutProc_spec hi (hi.pagetable_ne ha) haddr) ?_
      rintro ok s1 ⟨hi1, hp1, _⟩
      exact hrest ok s1 hi1 hp1
    · rw [wp_bind, wp_pure]
      exact hrest true s hi rfl
  | none =>
    dsimp only
    rw [wp_ite]
    refine ⟨fun _ => ?_, fun _ => by rw [wp_throw]⟩
    rw [wp_pure]
    exact ⟨own, hi, ha⟩

lemma kill_spec {pid : Int} (ha : Active s i) :
    wp (kill pid) (fun _ s' => ∃ own', Inv s' own' held extra ∧ Active s' i) Never s := by
  unfold kill
  rw [wp_bind, wp_get]
  cases (List.finRange NPROC).find? fun j => decide ((s.proc j).pid = pid) with
  | none =>
    dsimp only
    rw [wp_pure]
    exact ⟨own, hi, ha⟩
  | some j =>
    dsimp only
    rw [wp_bind, wp_setProc, wp_pure]
    refine ⟨own, hi.restateProc ⟨rfl, rfl, rfl, rfl⟩ ?_, ?_⟩
    · have h := (hi.proc j).state
      by_cases hs : (s.proc j).state = .sleeping
      · rw [if_pos hs]
        exact ⟨nofun, fun _ _ => h.active (by rw [hs]; nofun) (by rw [hs]; nofun), nofun⟩
      · rw [if_neg hs]
        exact ⟨h.unused, h.active, h.zombie⟩
    · unfold Active
      by_cases hij : i = j
      · subst hij
        rw [withProc_self]
        dsimp only
        split
        · exact .inr (.inl rfl)
        · exact ha
      · rw [withProc_of_ne hij]
        exact ha

end

end Xv6n
