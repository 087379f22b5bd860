import Xv6n.Vm.Call
import Xv6n.Vm.Copy

/-!
# Open files and their pipes

`Files` relates the file table to the references to it, and the pages of pipes to the files that are
their two ends. The number of references is a parameter: while a system call runs it holds files that
no descriptor refers to yet.
-/

namespace Xv6n
open Lib KernM Function

/-- The pages whose owner has `K` keep their owner and their contents. -/
structure Keeps (K : Owner → Prop) (s : Kernel) (own : Nat → Owner) (s' : Kernel)
    (own' : Nat → Owner) : Prop where
  owner : ∀ p, K (own p) ∨ K (own' p) → own' p = own p
  same : ∀ p, p % PGSIZE = 0 → K (own p) → Same s.mem s'.mem p

def Owner.Rest (o : Owner) : Prop := o ≠ .pipe ∧ ∀ k, o ≠ .free k

/-- File `f` is an end of the pipe at `p`. -/
def IsPipe (s : Kernel) (f : Fin NFILE) (p : Nat) : Prop :=
  (s.file f).type = .pipe ∧ (s.file f).pipe = p

def pipeOpen (writable : Bool) (pi : Nat) : Nat :=
  if writable then pipeWriteopen pi else pipeReadopen pi

/-- The file table agrees with the number of references `cnt` and with the pages of pipes. -/
structure Files (s : Kernel) (own : Nat → Owner) (cnt : Fin NFILE → Nat) : Prop where
  ref : ∀ f, (s.file f).ref = cnt f
  closed : ∀ f, cnt f = 0 → (s.file f).type = .none
  pipe : ∀ p, own p = .pipe ↔ ∃ f, IsPipe s f p
  one : ∀ f g p, IsPipe s f p → IsPipe s g p → (s.file f).writable = (s.file g).writable → f = g
  word : ∀ p b, own p = .pipe → (le s.mem (pipeOpen b p) 4 ≠ 0 ↔
    ∃ f, IsPipe s f p ∧ (s.file f).writable = b)

section keeps
variable {K L : Owner → Prop} {s s' s1 s2 : Kernel} {own own' own1 own2 : Nat → Owner} {o : Owner}
  {A : Nat → Prop} {r q : Nat}

lemma Keeps.refl : Keeps K s own s own := ⟨fun _ _ => rfl, fun _ _ _ => .refl⟩

lemma Keeps.trans (h1 : Keeps K s own s1 own1) (h2 : Keeps K s1 own1 s2 own2) :
    Keeps K s own s2 own2 := by
  have hown : ∀ p, K (own p) ∨ K (own2 p) → own1 p = own p ∧ own2 p = own1 p := by
    rintro p (h | h)
    · have e := h1.owner p (.inl h)
      exact ⟨e, h2.owner p (.inl (by rwa [e]))⟩
    · have e := h2.owner p (.inr h)
      exact ⟨h1.owner p (.inr (by rwa [← e])), e⟩
  refine ⟨fun p h => ?_, fun p hp h => ?_⟩
  · obtain ⟨e1, e2⟩ := hown p h
    exact e2.trans e1
  · obtain ⟨e1, _⟩ := hown p (.inl h)
    exact (h1.same p hp h).trans (h2.same p hp (by rwa [e1]))

lemma Keeps.weaken (h : Keeps K s own s' own') (hl : ∀ o, L o → K o) : Keeps L s own s' own' :=
  ⟨fun p hp => h.owner p (hp.imp (hl _) (hl _)), fun p hp hk => h.same p hp (hl _ hk)⟩

lemma Keeps.to (h : Keeps K s own s1 own1) (hm : s2.mem = s1.mem) : Keeps K s own s2 own1 :=
  ⟨h.owner, fun p hp hk => by rw [hm]; exact h.same p hp hk⟩

lemma Keeps.from (h : Keeps K s own s1 own1) (hm : s2.mem = s.mem) : Keeps K s2 own s1 own1 :=
  ⟨h.owner, fun p hp hk => by rw [hm]; exact h.same p hp hk⟩

lemma Keeps.iff (h : Keeps K s own s' own') (ho : K o) {p} : own' p = o ↔ own p = o := by
  constructor
  · rintro rfl
    exact (h.owner p (.inr ho)).symm
  · rintro rfl
    exact h.owner p (.inl ho)

lemma Frame.keeps (f : Frame r none s own s' own') : Keeps (Owner.Out r) s own s' own' :=
  ⟨fun p => f.owner p nofun, fun p => f.same p nofun⟩

lemma Quiet.keeps (f : Quiet s own s' own') : Keeps (fun o => ∀ k, o ≠ .free k) s own s' own' := by
  refine ⟨?_, f.same⟩
  rintro p (h | h)
  · exact f.keep p h
  · apply f.keep p
    intro k hk
    obtain ⟨k', hk'⟩ := f.freed p k hk
    exact h k' hk'

lemma Dropped.keeps (f : Dropped r s own s' own') : Keeps (Owner.Out r) s own s' own' := by
  refine ⟨?_, f.same⟩
  rintro p (h | h)
  · exact f.keep p h
  · apply f.keep p
    by_contra hc
    obtain ⟨k, hk⟩ := f.freed p hc
    rw [hk] at h
    exact h

lemma Wrote.keeps (w : Wrote A s s') (hA : ∀ p, A p → ¬ K (own p)) : Keeps K s own s' own :=
  ⟨fun _ _ => rfl, fun p hp hk => w.same p hp fun ha => hA p ha hk⟩

lemma Keeps.files {cnt} (k : Keeps K s own s' own') (hK : K .pipe) (hf : s'.file = s.file)
    (h : Files s own cnt) (hmod : ∀ p, own p = .pipe → p % PGSIZE = 0) : Files s' own' cnt := by
  have hpipe : ∀ f p, IsPipe s' f p ↔ IsPipe s f p := by
    intro f p
    unfold IsPipe
    rw [hf]
  refine ⟨?_, ?_, ?_, ?_, ?_⟩
  · rw [hf]
    exact h.ref
  · rw [hf]
    exact h.closed
  · intro p
    rw [k.iff hK, h.pipe]
    simp only [hpipe]
  · intro f g p h1 h2
    rw [hf]
    exact h.one f g p ((hpipe f p).1 h1) ((hpipe g p).1 h2)
  · intro p b hp
    rw [k.iff hK] at hp
    have hsame := k.same p (hmod p hp) (by rwa [hp])
    have hle : le s'.mem (pipeOpen b p) 4 = le s.mem (pipeOpen b p) 4 := by
      apply le_congr
      intro a h1 h2
      apply hsame a
      · unfold pipeOpen pipeWriteopen pipeReadopen at h1
        split at h1
        · omega
        · omega
      · unfold pipeOpen pipeWriteopen pipeReadopen at h2
        simp only [PGSIZE]
        split at h2
        · omega
        · omega
    rw [hle, h.word p b hp]
    simp only [hpipe, hf]

end keeps

section wp
variable {s : Kernel} {E : Panic → Kernel → Prop} {Q : PUnit → Kernel → Prop}

@[simp] lemma wp_setFile {f : Fin NFILE} {g : File → File} :
    wp (setFile f g) Q E s ↔ Q ⟨⟩ { s with file := update s.file f (g (s.file f)) } := by
  unfold wp
  rfl

@[simp] lemma withProc_self {i : Fin NPROC} {p : Proc} : (s.withProc i p).proc i = p :=
  update_self ..

lemma withProc_of_ne {i j : Fin NPROC} {p : Proc} (h : j ≠ i) : (s.withProc i p).proc j = s.proc j :=
  update_of_ne h ..

@[simp] lemma wp_setProc {i : Fin NPROC} {g : Proc → Proc} :
    wp (setProc i g) Q E s ↔ Q ⟨⟩ (s.withProc i (g (s.proc i))) := by
  unfold wp
  rfl

@[simp] lemma wp_load32 {a : Nat} {Q : Nat → Kernel → Prop} :
    wp (load32 a) Q E s ↔ Q (le s.mem a 4) s := by
  unfold wp
  rfl

@[simp] lemma wp_store32 {a v : Nat} :
    wp (store32 a v) Q E s ↔ Q ⟨⟩ { s with mem := putLe s.mem a 4 v } := by
  unfold wp
  rfl

end wp

variable {s s' : Kernel} {own own' : Nat → Owner} {cnt : Fin NFILE → Nat} {f g : Fin NFILE} {p : Nat} {b : Bool}

lemma Files.setRef (h : Files s own cnt) {n : Nat} (hf : n ≠ 0 ∨ (s.file f).type = .none) :
    Files { s with file := update s.file f { s.file f with ref := n } } own
      (update cnt f n) := by
  have hfile : ∀ g, (update s.file f { s.file f with ref := n } g).type = (s.file g).type ∧
      (update s.file f { s.file f with ref := n } g).pipe = (s.file g).pipe ∧
      (update s.file f { s.file f with ref := n } g).writable = (s.file g).writable := by
    intro g
    by_cases hg : g = f
    · subst hg
      rw [update_self]
      exact ⟨rfl, rfl, rfl⟩
    · rw [update_of_ne hg]
      exact ⟨rfl, rfl, rfl⟩
  have hpipe : ∀ g p, IsPipe { s with file := update s.file f { s.file f with ref := n } } g p ↔
      IsPipe s g p := by
    intro g p
    unfold IsPipe
    dsimp only
    rw [(hfile g).1, (hfile g).2.1]
  refine ⟨?_, ?_, ?_, ?_, ?_⟩
  · intro g
    by_cases hg : g = f
    · subst hg
      rw [update_self]
      dsimp only
      rw [update_self]
    · rw [update_of_ne hg]
      dsimp only
      rw [update_of_ne hg]
      exact h.ref g
  · intro g hg0
    dsimp only
    rw [(hfile g).1]
    by_cases hg : g = f
    · subst hg
      rw [update_self] at hg0
      exact hf.resolve_left fun e => e hg0
    · rw [update_of_ne hg] at hg0
      exact h.closed g hg0
  · intro p
    rw [h.pipe]
    simp only [hpipe]
  · intro f' g p h1 h2
    dsimp only
    rw [(hfile f').2.2, (hfile g).2.2]
    exact h.one f' g p ((hpipe f' p).1 h1) ((hpipe g p).1 h2)
  · intro p b hp
    rw [h.word p b hp]
    simp only [hpipe, hfile]

lemma filealloc_spec (h : Files s own cnt) :
    wp filealloc (fun o s' => match o with
      | none => s' = s
      | some f => cnt f = 0 ∧
          s' = { s with file := update s.file f { s.file f with ref := 1 } } ∧
          Files s' own (update cnt f 1)) Never s := by
  unfold filealloc
  rw [wp_bind, wp_get]
  cases hfind : (List.finRange NFILE).find? fun f => decide ((s.file f).ref = 0) with
  | none =>
    dsimp only
    rw [wp_pure]
  | some f =>
    dsimp only
    rw [wp_bind, wp_setFile, wp_pure]
    have h0 : cnt f = 0 := by
      have := List.find?_some hfind
      rw [decide_eq_true_eq, h.ref] at this
      exact_mod_cast this
    exact ⟨h0, rfl, h.setRef (.inl Nat.one_ne_zero)⟩

lemma filedup_spec (h : Files s own cnt) (hf : 0 < cnt f) :
    wp (filedup f) (fun _ s' =>
      s' = { s with file := update s.file f { s.file f with ref := (cnt f + 1 : Nat) } } ∧
      Files s' own (update cnt f (cnt f + 1))) Never s := by
  have href := h.ref f
  unfold filedup
  rw [wp_bind, wp_get, if_neg (by omega), wp_setFile, href]
  exact ⟨rfl, h.setRef (.inl (Nat.succ_ne_zero _))⟩

/-- The tables of the kernel other than the file table are the same. -/
structure ProcTables (s s' : Kernel) : Prop where
  proc : s'.proc = s.proc
  boot : s'.boot = s.boot
  initproc : s'.initproc = s.initproc
  nextpid : s'.nextpid = s.nextpid

lemma ProcTables.refl : ProcTables s s := ⟨rfl, rfl, rfl, rfl⟩

lemma ProcTables.trans {s1 s2 s3 : Kernel} (h1 : ProcTables s1 s2) (h2 : ProcTables s2 s3) :
    ProcTables s1 s3 :=
  ⟨h2.proc.trans h1.proc, h2.boot.trans h1.boot, h2.initproc.trans h1.initproc,
    h2.nextpid.trans h1.nextpid⟩

lemma Tables.procs (h : Tables s s') : ProcTables s s' := ⟨h.proc, h.boot, h.initproc, h.nextpid⟩

/-- The file table after the last reference to `f` is gone. -/
def closeFile (s : Kernel) (f : Fin NFILE) : Fin NFILE → File :=
  update s.file f { s.file f with ref := 0, type := .none }

lemma isPipe_close {mem'} :
    IsPipe { s with file := closeFile s f, mem := mem' } g p ↔ g ≠ f ∧ IsPipe s g p := by
  unfold IsPipe closeFile
  dsimp only
  by_cases hg : g = f
  · subst hg
    rw [update_self]
    simp
  · rw [update_of_ne hg]
    simp [hg]

lemma writable_close : (closeFile s f g).writable = (s.file g).writable := by
  unfold closeFile
  by_cases hg : g = f
  · subst hg
    rw [update_self]
  · rw [update_of_ne hg]

lemma Files.close (h : Files s own cnt) {m}
    (hown : ∀ p, own' p = .pipe ↔ ∃ g, g ≠ f ∧ IsPipe s g p)
    (hmem : ∀ p b, own' p = .pipe → (le m (pipeOpen b p) 4 ≠ 0 ↔
      ∃ g, (g ≠ f ∧ IsPipe s g p) ∧ (s.file g).writable = b)) :
    Files { s with file := closeFile s f, mem := m } own' (update cnt f 0) := by
  refine ⟨?_, ?_, ?_, ?_, ?_⟩
  · intro g
    unfold closeFile
    dsimp only
    by_cases hg : g = f
    · subst hg
      rw [update_self, update_self]
      rfl
    · rw [update_of_ne hg, update_of_ne hg]
      exact h.ref g
  · intro g hg0
    unfold closeFile
    dsimp only
    by_cases hg : g = f
    · subst hg
      rw [update_self]
    · rw [update_of_ne hg] at hg0 ⊢
      exact h.closed g hg0
  · intro p
    rw [hown]
    simp only [isPipe_close]
  · intro f' g p h1 h2
    dsimp only
    rw [writable_close, writable_close]
    exact h.one f' g p (isPipe_close.1 h1).2 (isPipe_close.1 h2).2
  · intro p b hp
    dsimp only
    rw [hmem p b hp]
    simp only [isPipe_close, writable_close]

lemma wp_pipeclose [Layout] {E} {Q : PUnit → Kernel → Prop} :
    wp (pipeclose p b) Q E s ↔
      wp (if le s.mem (pipeOpen (!b) p) 4 = 0 then kfree p else pure ⟨⟩) Q E
        { s with mem := putLe s.mem (pipeOpen b p) 4 0 } := by
  unfold pipeclose
  cases b with
  | true =>
    rw [if_pos rfl, wp_bind, wp_store32, wp_bind, wp_load32, wp_bind, wp_load32]
    dsimp only
    have h1 : le (putLe s.mem (pipeWriteopen p) 4 0) (pipeReadopen p) 4 =
        le s.mem (pipeOpen (!true) p) 4 := le_putLe_of_disjoint (by left; exact Nat.le_refl _)
    have h2 : pipeOpen true p = pipeWriteopen p := rfl
    rw [h1, h2, le_putLe]
    simp only [Nat.zero_mod, and_true]
  | false =>
    rw [if_neg (by nofun), wp_bind, wp_store32, wp_bind, wp_load32, wp_bind, wp_load32]
    dsimp only
    have h1 : le (putLe s.mem (pipeReadopen p) 4 0) (pipeWriteopen p) 4 =
        le s.mem (pipeOpen (!false) p) 4 := le_putLe_of_disjoint (by right; exact Nat.le_refl _)
    have h2 : pipeOpen false p = pipeReadopen p := rfl
    rw [h1, h2, le_putLe]
    simp only [Nat.zero_mod, true_and]

lemma pipeOpen_eq : ∃ o, pipeOpen b p = p + o ∧ o + 4 ≤ PGSIZE := by
  cases b with
  | true => exact ⟨548, rfl, by decide⟩
  | false => exact ⟨544, rfl, by decide⟩

lemma Same.pipeOpen {mem mem' : Nat → UInt8} (h : Same mem mem' p) :
    le mem' (pipeOpen b p) 4 = le mem (pipeOpen b p) 4 := by
  obtain ⟨o, ho, hle⟩ := pipeOpen_eq (b := b) (p := p)
  rw [ho]
  apply le_congr
  intro a h1 h2
  exact h a (by omega) (by omega)

lemma pipeOpen_not {mem : Nat → UInt8} {p v : Nat} :
    le (putLe mem (pipeOpen b p) 4 v) (pipeOpen (!b) p) 4 = le mem (pipeOpen (!b) p) 4 := by
  cases b with
  | true => exact le_putLe_of_disjoint (.inl (Nat.le_refl _))
  | false => exact le_putLe_of_disjoint (.inr (Nat.le_refl _))

lemma Files.other (h : Files s own cnt) (hf : IsPipe s f p) :
    le s.mem (pipeOpen (!(s.file f).writable) p) 4 ≠ 0 ↔ ∃ g, g ≠ f ∧ IsPipe s g p := by
  rw [h.word p _ ((h.pipe p).2 ⟨f, hf⟩)]
  constructor
  · rintro ⟨g, hg, hw⟩
    refine ⟨g, ?_, hg⟩
    rintro rfl
    simp at hw
  · rintro ⟨g, hne, hg⟩
    refine ⟨g, hg, ?_⟩
    by_contra hw
    apply hne
    apply h.one g f p hg hf
    revert hw
    cases (s.file g).writable <;> cases (s.file f).writable <;> simp

section close
variable [Layout] {live : Nat → List Nat → Prop}

lemma closePipe_spec (h : Files s own cnt) (hh : Heap s own live) (hf : IsPipe s f p) :
    wp (pipeclose p (s.file f).writable) (fun _ s' => ∃ own', Heap s' own' live ∧
      Files s' own' (update cnt f 0) ∧ Keeps Owner.Rest s own s' own' ∧
      ProcTables s s') Never { s with file := closeFile s f } := by
  have hp : own p = .pipe := (h.pipe p).2 ⟨f, hf⟩
  have hpm : p % PGSIZE = 0 := hh.mod (by rw [hp]; nofun)
  have hother := h.other hf
  obtain ⟨o, ho, hle⟩ := pipeOpen_eq (b := (s.file f).writable) (p := p)
  -- clearing the word of this end
  have w1 : Wrote (· = p) { s with file := closeFile s f }
      { s with file := closeFile s f, mem := putLe s.mem (pipeOpen (s.file f).writable p) 4 0 } := by
    rw [ho]
    exact wrote_putLe hpm hle rfl
  have hh0 : Heap { s with file := closeFile s f } own live :=
    hh.congr rfl (fun _ _ _ => .refl) (fun _ _ _ _ _ _ _ => rfl) fun _ _ _ _ _ _ => rfl
  have hh1 := w1.heap hh0 (by rintro q rfl; rw [hp]; exact id)
  have k1 : Keeps Owner.Rest s own
      { s with file := closeFile s f, mem := putLe s.mem (pipeOpen (s.file f).writable p) 4 0 } own := by
    refine ⟨fun _ _ => rfl, fun q hq hk => w1.same q hq ?_⟩
    rintro rfl
    rw [hp] at hk
    exact hk.1 rfl
  -- other pipes keep both words
  have hword : ∀ q b mem', q ≠ p → own q = .pipe → (Same s.mem mem' q) →
      (le mem' (pipeOpen b q) 4 ≠ 0 ↔
        ∃ g, (g ≠ f ∧ IsPipe s g q) ∧ (s.file g).writable = b) := by
    intro q b mem' hq hpipe hsame
    rw [hsame.pipeOpen, h.word q b hpipe]
    apply exists_congr
    intro g
    have hg : IsPipe s g q → g ≠ f := by
      rintro hg rfl
      exact hq (hg.2.symm.trans hf.2)
    simp only [and_congr_left_iff]
    intro _
    exact ⟨fun e => ⟨hg e, e⟩, fun e => e.2⟩
  have hpipe : ∀ q, q ≠ p → (own q = .pipe ↔ ∃ g, g ≠ f ∧ IsPipe s g q) := by
    intro q hq
    rw [h.pipe]
    apply exists_congr
    intro g
    refine ⟨fun e => ⟨?_, e⟩, fun e => e.2⟩
    rintro rfl
    exact hq (e.2.symm.trans hf.2)
  rw [wp_pipeclose, wp_ite]
  refine ⟨fun h0 => ?_, fun h0 => ?_⟩
  · have hno : ¬ ∃ g, g ≠ f ∧ IsPipe s g p := fun e => hother.2 e h0
    apply wp_mono (kfreePlain_spec hh1 (by rw [hp]; nofun) (by rw [hp]; nofun) (by rw [hp]; nofun))
    rintro _ s1 ⟨k, rt⟩
    have hsame : ∀ q, q % PGSIZE = 0 → q ≠ p → Same s.mem s1.mem q :=
      fun q hq hne => (w1.same q hq hne).trans (rt.same q hq hne)
    refine ⟨_, rt.heap, ?_, ?_, rt.tables.proc, rt.tables.boot, rt.tables.initproc,
      rt.tables.nextpid⟩
    · have hs1 : Files { s with file := closeFile s f, mem := s1.mem }
          (update own p (.free k)) (update cnt f 0) := by
        apply h.close
        · intro q
          by_cases hq : q = p
          · subst hq
            rw [update_self]
            exact ⟨nofun, fun e => absurd e hno⟩
          · rw [update_of_ne hq]
            exact hpipe q hq
        · intro q b hq
          obtain ⟨hqp, hq⟩ := of_update hq nofun
          exact hword q b _ hqp hq (hsame q (hh.mod (by rw [hq]; nofun)) hqp)
      have k : Keeps (fun _ => True) { s with file := closeFile s f, mem := s1.mem }
          (update own p (.free k)) s1 (update own p (.free k)) :=
        Keeps.refl.to rfl
      exact k.files trivial rt.tables.file hs1 fun q hq => rt.heap.mod (by rw [hq]; nofun)
    · refine ⟨?_, ?_⟩
      · intro q hq
        by_cases hqp : q = p
        · subst hqp
          rw [update_self, hp] at hq
          obtain hq | hq := hq
          · exact absurd rfl hq.1
          · exact absurd rfl (hq.2 k)
        · rw [update_of_ne hqp]
      · intro q hqm hq
        apply hsame q hqm
        rintro rfl
        rw [hp] at hq
        exact hq.1 rfl
  · rw [wp_pure]
    refine ⟨own, hh1, ?_, k1, ⟨rfl, rfl, rfl, rfl⟩⟩
    have hex := hother.1 h0
    apply h.close
    · intro q
      by_cases hq : q = p
      · subst hq
        exact ⟨fun _ => hex, fun _ => hp⟩
      · exact hpipe q hq
    · intro q b hq
      by_cases hqp : q = p
      · subst hqp
        by_cases hb : b = (s.file f).writable
        · rw [hb, le_putLe]
          refine ⟨fun e => absurd rfl e, ?_⟩
          rintro ⟨g, ⟨hne, hg⟩, hw⟩
          exact absurd (h.one g f q hg hf hw) hne
        · have hb' : b = !(s.file f).writable := by
            revert hb
            cases b <;> cases (s.file f).writable <;> simp
          rw [hb', pipeOpen_not]
          refine ⟨fun _ => ?_, fun _ => h0⟩
          obtain ⟨g, hg, hw⟩ := (h.word q _ hp).1 h0
          refine ⟨g, ⟨?_, hg⟩, hw⟩
          rintro rfl
          simp at hw
      · exact hword q b _ hqp hq (w1.same q (hh.mod (by rw [hq]; nofun)) hqp)

lemma fileclose_spec (h : Files s own cnt) (hh : Heap s own live) (hf : 0 < cnt f) :
    wp (fileclose f) (fun _ s' => ∃ own', Heap s' own' live ∧
      Files s' own' (update cnt f (cnt f - 1)) ∧ Keeps Owner.Rest s own s' own' ∧
      ProcTables s s') Never s := by
  have href := h.ref f
  have hheap : ∀ fl, Heap { s with file := fl } own live := fun _ =>
    hh.congr rfl (fun _ _ _ => .refl) (fun _ _ _ _ _ _ _ => rfl) fun _ _ _ _ _ _ => rfl
  unfold fileclose
  rw [wp_bind, wp_get]
  dsimp only
  rw [if_neg (by omega), wp_ite]
  refine ⟨fun h1 => ?_, fun h1 => ?_⟩
  · rw [wp_setFile, href]
    have e : ((cnt f : Int) - 1) = ((cnt f - 1 : Nat) : Int) := by omega
    rw [e]
    refine ⟨own, hheap _, h.setRef (.inl (by omega)), Keeps.refl.to rfl, ⟨rfl, rfl, rfl, rfl⟩⟩
  · have h0 : cnt f - 1 = 0 := by omega
    rw [wp_bind, wp_setFile, h0, wp_ite]
    refine ⟨fun ht => closePipe_spec h hh ⟨ht, rfl⟩, fun ht => ?_⟩
    rw [wp_pure]
    refine ⟨own, hheap _, ?_, Keeps.refl.to rfl, ⟨rfl, rfl, rfl, rfl⟩⟩
    have hg : ∀ g p, IsPipe s g p → g ≠ f := by
      rintro g p hg rfl
      exact ht hg.1
    apply h.close (m := s.mem)
    · intro p
      rw [h.pipe]
      exact exists_congr fun g => ⟨fun e => ⟨hg g p e, e⟩, fun e => e.2⟩
    · intro p b hp
      rw [h.word p b hp]
      exact exists_congr fun g =>
        ⟨fun e => ⟨⟨hg g p e.1, e.1⟩, e.2⟩, fun e => ⟨e.1.2, e.2⟩⟩

omit [Layout] in
lemma Files.addPipe {f0 f1 : Fin NFILE} {pi : Nat} {x y : File} (h : Files s own cnt)
    (hne : f0 ≠ f1) (h0 : (s.file f0).type = .none) (h1 : (s.file f1).type = .none)
    (hc0 : cnt f0 ≠ 0) (hc1 : cnt f1 ≠ 0) (hpi : own pi ≠ .pipe)
    (e0 : x.type = .pipe ∧ x.pipe = pi ∧ x.writable = false ∧ x.ref = (s.file f0).ref)
    (e1 : y.type = .pipe ∧ y.pipe = pi ∧ y.writable = true ∧ y.ref = (s.file f1).ref)
    (hfile : s'.file = update (update s.file f0 x) f1 y)
    (hsame : ∀ p, own p = .pipe → Same s.mem s'.mem p)
    (hword : ∀ b, le s'.mem (pipeOpen b pi) 4 ≠ 0) :
    Files s' (update own pi .pipe) cnt := by
  have g0 : s'.file f0 = x := by
    rw [hfile, update_of_ne hne, update_self]
  have g1 : s'.file f1 = y := by
    rw [hfile, update_self]
  have gr : ∀ f, f ≠ f0 → f ≠ f1 → s'.file f = s.file f := by
    intro f hf0 hf1
    rw [hfile, update_of_ne hf1, update_of_ne hf0]
  have hpipe : ∀ f p, IsPipe s' f p ↔ (f = f0 ∨ f = f1) ∧ p = pi ∨ IsPipe s f p := by
    intro f p
    by_cases hf0 : f = f0
    · subst hf0
      unfold IsPipe
      rw [g0, h0, e0.1, e0.2.1]
      simp [eq_comm]
    · by_cases hf1 : f = f1
      · subst hf1
        unfold IsPipe
        rw [g1, h1, e1.1, e1.2.1]
        simp [eq_comm]
      · unfold IsPipe
        rw [gr f hf0 hf1]
        simp [hf0, hf1]
  have hold : ∀ f p, IsPipe s f p → f ≠ f0 ∧ f ≠ f1 ∧ p ≠ pi := by
    intro f p hf
    refine ⟨?_, ?_, ?_⟩
    · rintro rfl
      rw [IsPipe, h0] at hf
      cases hf.1
    · rintro rfl
      rw [IsPipe, h1] at hf
      cases hf.1
    · rintro rfl
      exact hpi ((h.pipe p).2 ⟨f, hf⟩)
  refine ⟨?_, ?_, ?_, ?_, ?_⟩
  · intro f
    by_cases hf0 : f = f0
    · rw [hf0, g0, e0.2.2.2]
      exact h.ref f0
    · by_cases hf1 : f = f1
      · rw [hf1, g1, e1.2.2.2]
        exact h.ref f1
      · rw [gr f hf0 hf1]
        exact h.ref f
  · intro f hf
    rw [gr f (by rintro rfl; exact hc0 hf) (by rintro rfl; exact hc1 hf)]
    exact h.closed f hf
  · intro p
    by_cases hp : p = pi
    · subst hp
      rw [update_self]
      exact ⟨fun _ => ⟨f0, (hpipe f0 p).2 (.inl ⟨.inl rfl, rfl⟩)⟩, fun _ => rfl⟩
    · rw [update_of_ne hp, h.pipe]
      simp only [hpipe, hp, and_false, false_or]
  · intro f g p hf hg hw
    rw [hpipe] at hf hg
    obtain ⟨hf, rfl⟩ | hf := hf
    · obtain ⟨hg, _⟩ | hg := hg
      · obtain rfl | rfl := hf
        · obtain rfl | rfl := hg
          · rfl
          · rw [g0, g1, e0.2.2.1, e1.2.2.1] at hw
            cases hw
        · obtain rfl | rfl := hg
          · rw [g0, g1, e0.2.2.1, e1.2.2.1] at hw
            cases hw
          · rfl
      · exact absurd rfl (hold g p hg).2.2
    · obtain ⟨_, rfl⟩ | hg := hg
      · exact absurd rfl (hold f p hf).2.2
      · have a := hold f p hf
        have b := hold g p hg
        rw [gr f a.1 a.2.1, gr g b.1 b.2.1] at hw
        exact h.one f g p hf hg hw
  · intro p b hp
    by_cases hpp : p = pi
    · subst hpp
      refine ⟨fun _ => ?_, fun _ => hword b⟩
      cases b with
      | false => exact ⟨f0, (hpipe f0 p).2 (.inl ⟨.inl rfl, rfl⟩), by rw [g0, e0.2.2.1]⟩
      | true => exact ⟨f1, (hpipe f1 p).2 (.inl ⟨.inr rfl, rfl⟩), by rw [g1, e1.2.2.1]⟩
    · rw [update_of_ne hpp] at hp
      rw [(hsame p hp).pipeOpen, h.word p b hp]
      apply exists_congr
      intro f
      simp only [hpipe, hpp, and_false, false_or]
      apply and_congr_right
      intro hf
      have a := hold f p hf
      rw [gr f a.1 a.2.1]

lemma closeNew_spec {s0 own0} (h : Files s own (update cnt f 1)) (hf : cnt f = 0)
    (hh : Heap s own live) (k : Keeps Owner.Rest s0 own0 s own) (t : ProcTables s0 s) :
    wp (fileclose f) (fun _ s' => ∃ own', Heap s' own' live ∧ Files s' own' cnt ∧
      Keeps Owner.Rest s0 own0 s' own' ∧ ProcTables s0 s') Never s := by
  apply wp_mono (fileclose_spec h hh (by rw [update_self]; exact Nat.one_pos))
  rintro _ s1 ⟨own1, hh1, h1, k1, t1⟩
  rw [update_self, update_idem, Nat.sub_self, ← hf, update_eq_self] at h1
  exact ⟨own1, hh1, h1, k.trans k1, t.trans t1⟩

/-- The stores of `pipealloc` into the page of a new pipe. -/
def newPipe (mem : Nat → UInt8) (pi : Nat) : Nat → UInt8 :=
  putLe (putLe (putLe (putLe mem (pipeReadopen pi) 4 1) (pipeWriteopen pi) 4 1)
    (pipeNwrite pi) 4 0) (pipeNread pi) 4 0

omit [Layout] in
lemma wrote_newPipe {pi : Nat} (hm : pi % PGSIZE = 0) :
    Wrote (· = pi) s { s with mem := newPipe s.mem pi } := by
  have h1 := wrote_putLe (A := (· = pi)) (s := s) (o := 544) (k := 4) (w := 1) hm (by decide) rfl
  have h2 := h1.trans (wrote_putLe (o := 548) (k := 4) (w := 1) hm (by decide) rfl)
  have h3 := h2.trans (wrote_putLe (o := 540) (k := 4) (w := 0) hm (by decide) rfl)
  exact h3.trans (wrote_putLe (o := 536) (k := 4) (w := 0) hm (by decide) rfl)

omit [Layout] in
lemma le_newPipe {mem : Nat → UInt8} {pi : Nat} : le (newPipe mem pi) (pipeOpen b pi) 4 = 1 := by
  unfold newPipe
  have h1 : pipeNread pi + 4 ≤ pipeOpen b pi ∧ pipeNwrite pi + 4 ≤ pipeOpen b pi := by
    cases b <;> simp [pipeOpen, pipeNread, pipeNwrite, pipeReadopen, pipeWriteopen]
  rw [le_putLe_of_disjoint (.inr h1.1), le_putLe_of_disjoint (.inr h1.2)]
  cases b with
  | true =>
    rw [pipeOpen, if_pos rfl, le_putLe]
    rfl
  | false =>
    have h2 : pipeReadopen pi + 4 ≤ pipeWriteopen pi := Nat.le_refl _
    rw [pipeOpen, if_neg (by nofun), le_putLe_of_disjoint (.inl h2), le_putLe]
    rfl

lemma pipealloc_spec (h : Files s own cnt) (hh : Heap s own live) :
    wp pipealloc (fun o s' => match o with
      | none => ∃ own', Heap s' own' live ∧ Files s' own' cnt ∧ Keeps Owner.Rest s own s' own' ∧
          ProcTables s s'
      | some (f0, f1) => cnt f0 = 0 ∧ cnt f1 = 0 ∧ f0 ≠ f1 ∧ ∃ own', Heap s' own' live ∧
          Files s' own' (update (update cnt f0 1) f1 1) ∧
          Keeps Owner.Rest s own s' own' ∧ ProcTables s s') Never s := by
  have hfile : ∀ fl, Heap { s with file := fl } own live ∧
      Keeps Owner.Rest s own { s with file := fl } own ∧ ProcTables s { s with file := fl } := fun _ =>
    ⟨hh.congr rfl (fun _ _ _ => .refl) (fun _ _ _ _ _ _ _ => rfl) fun _ _ _ _ _ _ => rfl,
      Keeps.refl.to rfl, ⟨rfl, rfl, rfl, rfl⟩⟩
  unfold pipealloc
  rw [wp_bind]
  apply wp_mono (filealloc_spec h)
  intro o s1 ho
  cases o with
  | none =>
    obtain rfl : s1 = s := ho
    dsimp only
    rw [wp_pure]
    exact ⟨own, hh, h, .refl, .refl⟩
  | some f0 =>
    obtain ⟨hc0, e1, h1⟩ := ho
    have hs1 := hfile s1.file
    have e1' : { s with file := s1.file } = s1 := by rw [e1]
    rw [e1'] at hs1
    obtain ⟨hh1, k1, t1⟩ := hs1
    dsimp only
    rw [wp_bind]
    apply wp_mono (filealloc_spec h1)
    intro o s2 ho
    cases o with
    | none =>
      obtain rfl : s2 = s1 := ho
      dsimp only
      rw [wp_bind]
      apply wp_mono (closeNew_spec h1 hc0 hh1 k1 t1)
      rintro _ s3 h3
      rw [wp_pure]
      exact h3
    | some f1 =>
      obtain ⟨hc1, e2, h2⟩ := ho
      obtain ⟨hne, hc1'⟩ := (of_update hc1 nofun).imp_left Ne.symm
      have hs2 := hfile s2.file
      have e2' : { s with file := s2.file } = s2 := by rw [e2, e1]
      rw [e2'] at hs2
      obtain ⟨hh2, k2, t2⟩ := hs2
      have hty0 : (s2.file f0).type = .none := by
        rw [e2, e1]
        dsimp only
        rw [update_of_ne hne, update_self]
        exact h.closed f0 hc0
      have hty1 : (s2.file f1).type = .none := by
        rw [e2, e1]
        dsimp only
        rw [update_self, update_of_ne hne.symm]
        exact h.closed f1 hc1'
      dsimp only
      rw [wp_bind]
      apply wp_mono (alloc_spec hh2)
      intro o s3 ho
      cases o with
      | none =>
        obtain ⟨hh3, t3, m3⟩ := ho
        dsimp only
        rw [wp_bind]
        have k3 : Keeps Owner.Rest s2 own s3 own := Keeps.refl.to m3
        have h3 : Files s3 own (update (update cnt f1 1) f0 1) := by
          rw [update_comm hne.symm]
          have kt : Keeps (fun _ => True) s2 own s3 own := Keeps.refl.to m3
          exact kt.files trivial t3.file h2 fun p hp => hh3.mod (by rw [hp]; nofun)
        apply wp_mono (closeNew_spec h3 (by rwa [update_of_ne hne]) hh3 (k2.trans k3)
          (t2.trans t3.procs))
        rintro _ s4 ⟨own4, hh4, h4, k4, t4⟩
        rw [wp_bind]
        apply wp_mono (closeNew_spec h4 hc1' hh4 k4 t4)
        rintro _ s5 h5
        rw [wp_pure]
        exact h5
      | some pi =>
        have hpm := Fresh.mod ho
        obtain ⟨j, hj⟩ := ho.free
        have w4 := wrote_newPipe (s := s3) hpm
        have f4 := Fresh.write ho w4.same
        have hh4 := f4.heap.retag (o := .pipe) (by rw [update_self]; trivial) trivial
        rw [update_idem] at hh4
        have hsame : ∀ p, own p = .pipe → Same s2.mem (newPipe s3.mem pi) p := by
          intro p hp
          apply f4.same p (hh2.mod (by rw [hp]; nofun))
          rintro rfl
          rw [hj] at hp
          cases hp
        dsimp only
        rw [wp_bind, wp_store32, wp_bind, wp_store32, wp_bind, wp_store32, wp_bind, wp_store32,
          wp_bind, wp_setFile, wp_bind, wp_setFile, wp_pure]
        refine ⟨hc0, hc1', hne, update own pi .pipe, ?_, ?_, ?_, ?_⟩
        · exact hh4.congr rfl (fun _ _ _ => .refl) (fun _ _ _ _ _ _ _ => rfl)
            fun _ _ _ _ _ _ => rfl
        · refine h2.addPipe (x := { s2.file f0 with
              type := .pipe, readable := true, writable := false, pipe := pi })
            (y := { s2.file f1 with type := .pipe, readable := false, writable := true, pipe := pi })
            hne hty0 hty1 ?_ ?_ (by rw [hj]; nofun) ⟨rfl, rfl, rfl, rfl⟩ ⟨rfl, rfl, rfl, rfl⟩ ?_
            hsame fun b => ne_of_eq_of_ne le_newPipe Nat.one_ne_zero
          · rw [update_of_ne hne, update_self]
            exact Nat.one_ne_zero
          · rw [update_self]
            exact Nat.one_ne_zero
          · dsimp only
            rw [f4.tables.file, update_of_ne hne.symm]
        · refine ⟨fun p hp => ?_, fun p hpm hp => ?_⟩
          · rw [update_of_ne]
            rintro rfl
            rw [update_self, hj] at hp
            obtain hp | hp := hp
            · exact hp.2 j rfl
            · exact hp.1 rfl
          · refine (k2.same p hpm hp).trans (f4.same p hpm ?_)
            rintro rfl
            rw [hj] at hp
            exact hp.2 j rfl
        · have t4 := t2.trans f4.tables.procs
          exact ⟨t4.proc, t4.boot, t4.initproc, t4.nextpid⟩

end close

end Xv6n
