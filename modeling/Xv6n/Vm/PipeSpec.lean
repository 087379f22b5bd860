import Xv6n.Vm.Fork

/-!
# System calls on descriptors

`pipe`, `close` and `dup` keep the invariant. While a call holds a file that no descriptor refers to,
the reference is counted in `extra`.
-/

namespace Xv6n
open Lib KernM Function

/-- One reference to `f`. -/
def one (f g : Fin NFILE) : Nat := if g = f then 1 else 0

variable [Layout] {s s' s1 : Kernel} {own own' own1 : Nat → Owner} {held : List Nat} {i j : Fin NPROC}
  {extra extra' : Fin NFILE → Nat} {f f0 f1 : Fin NFILE} {fd fd0 fd1 : Fin NOFILE}

omit [Layout] in
lemma update_eq_one {c : Fin NFILE → Nat} {n : Nat} {g : Fin NFILE} (h : n = c f + 1) :
    update c f n g = c g + one f g := by
  unfold one
  by_cases hg : g = f
  · subst hg
    rw [update_self, if_pos rfl, h]
  · rw [update_of_ne hg, if_neg hg, Nat.add_zero]

omit [Layout] in
lemma update_sub_one {c : Fin NFILE → Nat} {g : Fin NFILE} (h : 0 < c f) :
    update c f (c f - 1) g + one f g = c g := by
  unfold one
  by_cases hg : g = f
  · subst hg
    rw [update_self, if_pos rfl]
    omega
  · rw [update_of_ne hg, if_neg hg, Nat.add_zero]

lemma fdalloc_spec (hi : Inv s own held fun g => extra g + one f g) (ha : Active s i) :
    wp (fdalloc i f) (fun o s' => match o with
      | none => s' = s
      | some fd => (s.proc i).ofile fd = none ∧ Inv s' own held extra ∧
          s' = s.withProc i { s.proc i with ofile := update (s.proc i).ofile fd (some f) })
      Never s := by
  unfold fdalloc
  rw [wp_bind, wp_get]
  cases hfind : (List.finRange NOFILE).find? fun fd => decide ((s.proc i).ofile fd = none) with
  | none =>
    dsimp only
    rw [wp_pure]
  | some fd =>
    have hfd : (s.proc i).ofile fd = none := by
      have := List.find?_some hfind
      rwa [decide_eq_true_eq] at this
    unfold setOfile
    dsimp only
    rw [wp_bind, wp_setProc, wp_pure]
    refine ⟨hfd, hi.setDesc .refl .refl hi.heap hi.files (fun g => ?_)
      (ha.stateOk (hi.pagetable_ne ha)), rfl⟩
    rw [refs_set (by exact hfd), update_eq_one rfl]
    omega

lemma clearFd_spec (hi : Inv s own held extra) (ha : Active s i)
    (hfd : (s.proc i).ofile fd = some f) :
    Inv (s.withProc i { s.proc i with ofile := update (s.proc i).ofile fd none }) own held
      fun g => extra g + one f g := by
  have hpos : 0 < refs (descs s) f := refs_pos (i := (i, fd)) hfd
  refine hi.setDesc .refl .refl hi.heap hi.files (fun g => ?_) (ha.stateOk (hi.pagetable_ne ha))
  rw [refs_clear (by exact hfd)]
  have := update_sub_one (g := g) hpos
  omega

lemma closeHeld_spec (hi : Inv s own held fun g => extra g + one f g) :
    wp (fileclose f) (fun _ s' => ∃ own', Inv s' own' held extra ∧ s'.proc = s.proc) Never s := by
  have hpos : 0 < refs (descs s) f + (extra f + one f f) := by
    unfold one
    rw [if_pos rfl]
    omega
  apply wp_mono (fileclose_spec hi.files hi.heap hpos)
  rintro _ s1 ⟨own1, h1, hf1, k1, t1⟩
  refine ⟨own1, hi.same k1 t1 h1 ?_ (fun p => ?_) ⟨nofun, nofun⟩ (fun _ => ⟨nofun, nofun⟩)
    (fun _ _ => ⟨nofun, nofun⟩), t1.proc⟩
  · have e : (update (fun g => refs (descs s) g + (extra g + one f g)) f
        (refs (descs s) f + (extra f + one f f) - 1)) = fun g => refs (descs s) g + extra g := by
      funext g
      have := update_sub_one (c := fun g => refs (descs s) g + (extra g + one f g)) (g := g) hpos
      omega
    rwa [e] at hf1
  · rw [k1.iff (o := .held) ⟨nofun, nofun⟩]
    exact hi.held p

omit [Layout] in
lemma Active.congr (h : Active s i) (hp : (s1.proc i).state = (s.proc i).state) : Active s1 i := by
  unfold Active
  rw [hp]
  exact h

lemma closeBoth_spec (hi : Inv s own held fun g => extra g + one f1 g + one f0 g) (ha : Active s i) :
    wp (do fileclose f0; fileclose f1; pure (-1 : Int)) (fun _ s' =>
      ∃ own', Inv s' own' held extra ∧ Active s' i) Never s := by
  rw [wp_bind]
  apply wp_mono (closeHeld_spec hi)
  rintro _ s1 ⟨own1, hi1, hp1⟩
  rw [wp_bind]
  apply wp_mono (closeHeld_spec hi1)
  rintro _ s2 ⟨own2, hi2, hp2⟩
  rw [wp_pure]
  exact ⟨own2, hi2, ha.congr (by rw [hp2, hp1])⟩

lemma pipeallocInv_spec (hi : Inv s own held extra) :
    wp pipealloc (fun o s' => s'.proc = s.proc ∧ match o with
      | none => ∃ own', Inv s' own' held extra
      | some (f0, f1) => ∃ own', Inv s' own' held fun g => extra g + one f1 g + one f0 g) Never s := by
  apply wp_mono (pipealloc_spec hi.files hi.heap)
  intro o s1 ho
  cases o with
  | none =>
    obtain ⟨own1, h1, hf1, k1, t1⟩ := ho
    refine ⟨t1.proc, own1, hi.same k1 t1 h1 hf1 (fun p => ?_) ⟨nofun, nofun⟩ (fun _ => ⟨nofun, nofun⟩)
      fun _ _ => ⟨nofun, nofun⟩⟩
    rw [k1.iff (o := .held) ⟨nofun, nofun⟩]
    exact hi.held p
  | some x =>
    obtain ⟨f0, f1⟩ := x
    obtain ⟨hc0, hc1, hne, own1, h1, hf1, k1, t1⟩ := ho
    refine ⟨t1.proc, own1, hi.same k1 t1 h1 ?_ (fun p => ?_) ⟨nofun, nofun⟩ (fun _ => ⟨nofun, nofun⟩)
      fun _ _ => ⟨nofun, nofun⟩⟩
    · have e : update (update (fun f => refs (descs s) f + extra f) f0 1) f1 1 =
          fun g => refs (descs s) g + (extra g + one f1 g + one f0 g) := by
        funext g
        rw [update_eq_one (by rw [update_of_ne hne.symm, hc1]), update_eq_one (by rw [hc0])]
        omega
      rwa [e] at hf1
    · rw [k1.iff (o := .held) ⟨nofun, nofun⟩]
      exact hi.held p

lemma sysPipe_spec {fdarray : Nat} (hi : Inv s own held extra) (ha : Active s i)
    (haddr : fdarray < 2 ^ 64) :
    wp (sysPipe i fdarray) (fun _ s' => ∃ own', Inv s' own' held extra ∧ Active s' i) Never s := by
  unfold sysPipe
  rw [wp_bind]
  apply wp_mono (pipeallocInv_spec hi)
  rintro o s1 ⟨hp1, ho⟩
  have ha1 : Active s1 i := ha.congr (by rw [hp1])
  cases o with
  | none =>
    obtain ⟨own1, hi1⟩ := ho
    dsimp only
    rw [wp_pure]
    exact ⟨own1, hi1, ha1⟩
  | some x =>
    obtain ⟨rf, wf⟩ := x
    obtain ⟨own1, hi1⟩ := ho
    dsimp only
    rw [wp_bind]
    apply wp_mono (fdalloc_spec hi1 ha1)
    intro o s2 ho
    cases o with
    | none =>
      obtain rfl : s2 = s1 := ho
      exact closeBoth_spec hi1 ha1
    | some fd0 =>
      obtain ⟨hfd0, hi2, e2⟩ := ho
      have hp2 : (s2.proc i).ofile = update (s1.proc i).ofile fd0 (some rf) := by
        rw [e2, withProc_self]
      have ha2 : Active s2 i := ha1.congr (by rw [e2, withProc_self])
      have h20 : (s2.proc i).ofile fd0 = some rf := by rw [hp2, update_self]
      dsimp only
      rw [wp_bind]
      apply wp_mono (fdalloc_spec hi2 ha2)
      intro o s3 ho
      cases o with
      | none =>
        obtain rfl : s3 = s2 := ho
        unfold setOfile
        dsimp only
        rw [wp_bind, wp_setProc]
        exact closeBoth_spec (clearFd_spec hi2 ha2 h20) (ha2.congr (by rw [withProc_self]))
      | some fd1 =>
        obtain ⟨hfd1, hi3, e3⟩ := ho
        have hne : fd0 ≠ fd1 := by
          rintro rfl
          rw [h20] at hfd1
          cases hfd1
        have hp3 : (s3.proc i).ofile = update (s2.proc i).ofile fd1 (some wf) := by
          rw [e3, withProc_self]
        have ha3 : Active s3 i := ha2.congr (by rw [e3, withProc_self])
        have h0 := hi3.pagetable_ne ha3
        -- giving everything back
        have hundo : ∀ s4, Inv s4 own1 held extra → s4.proc = s3.proc →
            wp (do setOfile i fd0 none; setOfile i fd1 none; fileclose rf; fileclose wf; pure (-1 : Int))
              (fun _ s' => ∃ own', Inv s' own' held extra ∧ Active s' i) Never s4 := by
          intro s4 hi4 hp4
          have ha4 : Active s4 i := ha3.congr (by rw [hp4])
          have h40 : (s4.proc i).ofile fd0 = some rf := by
            rw [hp4, hp3, update_of_ne hne, h20]
          have h41 : (s4.proc i).ofile fd1 = some wf := by
            rw [hp4, hp3, update_self]
          unfold setOfile
          rw [wp_bind, wp_setProc, wp_bind, wp_setProc]
          have hi5 := clearFd_spec hi4 ha4 h40
          have ha5 : Active (s4.withProc i { s4.proc i with
              ofile := update (s4.proc i).ofile fd0 none }) i := ha4.congr (by rw [withProc_self])
          have h51 : ((s4.withProc i { s4.proc i with
              ofile := update (s4.proc i).ofile fd0 none }).proc i).ofile fd1 = some wf := by
            rw [withProc_self]
            dsimp only
            rw [update_of_ne hne.symm, h41]
          have hi6 := clearFd_spec hi5 ha5 h51
          have e : (fun g => extra g + one rf g + one wf g) =
              fun g => extra g + one wf g + one rf g := by
            funext g
            omega
          rw [e] at hi6
          exact closeBoth_spec hi6 (ha5.congr (by rw [withProc_self]))
        have hend : ∀ (ok : Bool) s4, Inv s4 own1 held extra → s4.proc = s3.proc →
            wp (if ok = true then pure 0 else do
              setOfile i fd0 none; setOfile i fd1 none; fileclose rf; fileclose wf; pure (-1 : Int))
              (fun _ s' => ∃ own', Inv s' own' held extra ∧ Active s' i) Never s4 := by
          intro ok s4 hi4 hp4
          rw [wp_ite]
          refine ⟨fun _ => ?_, fun _ => hundo s4 hi4 hp4⟩
          rw [wp_pure]
          exact ⟨own1, hi4, ha3.congr (by rw [hp4])⟩
        dsimp only
        rw [wp_bind, wp_get, wp_bind]
        apply wp_mono (copyoutProc_spec hi3 h0 haddr)
        rintro ok0 s4 ⟨hi4, hp4, _⟩
        rw [wp_ite]
        refine ⟨fun _ => ?_, fun _ => ?_⟩
        · have hcopy : wp (copyout (s4.proc i).pagetable ((fdarray + 4) % 2 ^ 64) (int32 fd1)) _ Never
              s4 := copyoutProc_spec hi4 (by rwa [hp4]) (Nat.mod_lt _ (by decide))
          rw [hp4] at hcopy
          rw [wp_bind]
          apply wp_mono hcopy
          rintro ok s5 ⟨hi5, hp5, _⟩
          exact hend ok s5 hi5 hp5
        · rw [wp_bind, wp_pure]
          exact hend false s4 hi4 hp4

omit [Layout] in
lemma argfd_spec {n : Int} : wp (argfd i n) (fun o s' => s' = s ∧
    ∀ x, o = some x → (s.proc i).ofile x.1 = some x.2) Never s := by
  unfold argfd
  rw [wp_bind, wp_get]
  split
  · dsimp only
    rw [wp_pure]
    refine ⟨rfl, ?_⟩
    rintro ⟨k, f⟩ e
    obtain ⟨g, hg, e'⟩ := Option.map_eq_some_iff.1 e
    cases e'
    exact hg
  · rw [wp_pure]
    exact ⟨rfl, nofun⟩

lemma sysClose_spec {n : Int} (hi : Inv s own held extra) (ha : Active s i) :
    wp (sysClose i n) (fun _ s' => ∃ own', Inv s' own' held extra ∧ Active s' i) Never s := by
  unfold sysClose
  rw [wp_bind]
  apply wp_mono argfd_spec
  rintro o s1 ⟨rfl, ho⟩
  cases o with
  | none =>
    dsimp only
    rw [wp_pure]
    exact ⟨own, hi, ha⟩
  | some x =>
    obtain ⟨k, f⟩ := x
    have hfd := ho (k, f) rfl
    unfold setOfile
    dsimp only
    rw [wp_bind, wp_setProc, wp_bind]
    apply wp_mono (closeHeld_spec (clearFd_spec hi ha hfd))
    rintro _ s2 ⟨own2, hi2, hp2⟩
    rw [wp_pure]
    exact ⟨own2, hi2, ha.congr (by rw [hp2, withProc_self])⟩

lemma sysDup_spec {n : Int} (hi : Inv s own held extra) (ha : Active s i) :
    wp (sysDup i n) (fun _ s' => ∃ own', Inv s' own' held extra ∧ Active s' i) Never s := by
  unfold sysDup
  rw [wp_bind]
  apply wp_mono argfd_spec
  rintro o s1 ⟨rfl, ho⟩
  cases o with
  | none =>
    dsimp only
    rw [wp_pure]
    exact ⟨own, hi, ha⟩
  | some x =>
    obtain ⟨k, f⟩ := x
    have hfd := ho (k, f) rfl
    have hpos : 0 < refs (descs s1) f := refs_pos (i := (i, k)) hfd
    unfold fdalloc
    dsimp only
    rw [wp_bind, wp_bind, wp_get]
    cases hfind : (List.finRange NOFILE).find? fun fd => decide ((s1.proc i).ofile fd = none) with
    | none =>
      dsimp only
      rw [wp_pure, wp_pure]
      exact ⟨own, hi, ha⟩
    | some fd =>
      have hnone : (s1.proc i).ofile fd = none := by
        have := List.find?_some hfind
        rwa [decide_eq_true_eq] at this
      unfold setOfile
      dsimp only
      rw [wp_bind, wp_setProc, wp_pure]
      dsimp only
      rw [wp_bind]
      -- the file table does not depend on the descriptors
      have kt : Keeps (fun _ => True) s1 own (s1.withProc i { s1.proc i with
          ofile := update (s1.proc i).ofile fd (some f) }) own := Keeps.refl.withProc
      have hf2 := kt.files trivial rfl hi.files fun _ => hi.pipe_mod
      apply wp_mono (filedup_spec hf2 (f := f) (by omega))
      rintro _ s2 ⟨e2, hf3⟩
      rw [wp_pure]
      have e2' : s2 = Kernel.withProc { s1 with file := s2.file } i { s1.proc i with
          ofile := update (s1.proc i).ofile fd (some f) } := by
        rw [e2]
        rfl
      have kt3 : Keeps (fun _ => True) s2 own { s1 with file := s2.file } own :=
        Keeps.refl.to (by rw [e2]; rfl)
      have hf4 := kt3.files trivial rfl hf3 fun _ => hi.pipe_mod
      have hi2 : Inv (Kernel.withProc { s1 with file := s2.file } i { s1.proc i with
          ofile := update (s1.proc i).ofile fd (some f) }) own held extra := by
        refine hi.setDesc (Keeps.refl.to rfl) ⟨rfl, rfl, rfl, rfl⟩ (hi.heap.of_eq rfl rfl) hf4
          (fun g => ?_) (ha.stateOk (hi.pagetable_ne ha))
        rw [refs_set (by exact hnone), update_eq_one rfl, update_eq_one rfl]
        omega
      refine ⟨own, ?_, ha.congr (by rw [e2', withProc_self])⟩
      rw [e2']
      exact hi2

end Xv6n
