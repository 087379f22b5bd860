import Xv6n.Vm.ExecStack
import Xv6n.Vm.PipeSpec

/-!
# `exec`

`exec` works on the address space that it builds alone, so that a failure at any point only has to free
it. At the end it puts this address space in the place of the old one, which it frees. `Execed` says what
the process then has: the segments of the file, the stack with the arguments, and the registers.
-/

namespace Xv6n
open Lib KernM Function

def elfHdr (file : List UInt8) : ElfHdr := .ofBytes (file.take ElfHdr.size)

/-- The program headers that `exec` reads. -/
def execHdrs (file : List UInt8) : List ProgHdr := progHdrs file (elfHdr file).phnum ((elfHdr file).phoff % 2 ^ 32)

def progImage (file : List UInt8) : Nat × Image := (execHdrs file).foldl (ProgHdr.load file) (0, fun _ => none)

variable [Layout] {s s1 s2 s' : Kernel} {own own1 own2 own' : Nat → Owner} {held : List Nat}
  {i : Fin NPROC} {extra : Fin NFILE → Nat} {r tf sz va n : Nat} {P : Nat → Prop}

/-- `exec` gets as far as the stack: it loads all segments and maps the stack. -/
def StackMapped (i : Fin NPROC) (file : List UInt8) (s : Kernel) : Prop :=
  ElfHdr.size ≤ file.length ∧ (elfHdr file).magic = ELF_MAGIC ∧ ∃ r s1 sz s2 sz1 s3,
    procPagetable (s.proc i).trapframe s = .ok (some r) s1 ∧
    loadLoop r file (elfHdr file).phnum ((elfHdr file).phoff % 2 ^ 32) 0 s1 = .ok (sz, true) s2 ∧
    uvmalloc r (pgRoundUp sz) (pgRoundUp sz + 2 * PGSIZE) PTE_W s2 = .ok sz1 s3 ∧ sz1 ≠ 0

/-- What a process has after `exec`. -/
structure Execed (s : Kernel) (own : Nat → Owner) (i : Fin NPROC) (file : List UInt8) (argv : List Nat)
    (s' : Kernel) : Prop where
  header : ElfHdr.size ≤ file.length
  loads : Loads file (elfHdr file).phnum ((elfHdr file).phoff % 2 ^ 32) (0, fun _ => none) (progImage file)
  size : (s'.proc i).sz = (npages (progImage file).1 + 2) * PGSIZE
  trapframe : (s'.proc i).trapframe = (s.proc i).trapframe
  image : Above (npages (progImage file).1 + 1) ((progImage file).2.stack (npages (progImage file).1))
    (image s'.mem (s'.proc i).pagetable)
  entry : le s'.mem (tfEpc (s'.proc i).trapframe) 8 = (elfHdr file).entry
  sp : le s'.mem (tfSp (s'.proc i).trapframe) 8 = le s'.mem (tfA1 (s'.proc i).trapframe) 8
  args : ∀ strs, Args s own argv strs → argSize strs ≤ PGSIZE ∧
    le s'.mem (tfA1 (s'.proc i).trapframe) 8 = (s'.proc i).sz - argSize strs ∧
    Xv6n.image s'.mem (s'.proc i).pagetable =
      ((progImage file).2.stack (npages (progImage file).1)).pushArgs (s'.proc i).sz strs

lemma Building.drop {k} (b : Building s own r tf sz P s1 own1) (hi : Inv s own held extra)
    (hr : own r = .free k) (hP : ∀ w, P w → IsLeaf w) :
    wp (procFreepagetable r sz) (fun _ s' => ∃ own', Inv s' own' held extra ∧ Quiet s own s' own')
      Never s1 := by
  apply wp_mono (procFreepagetable_spec b.heap with_self b.shape hP isLeaf_trampoline isLeaf_trapframe)
  rintro _ s2 ⟨own2, h2, d⟩
  have q : Quiet s own s2 own2 := by
    refine b.frame.quiet d fun p path hp => ?_
    exact hi.heap.not_live hr path (hi.heap.owned p r path hp).1
  exact ⟨own2, hi.quiet q (h2.without_with (hi.heap.not_live hr)), q⟩

lemma Building.commit {k} {s3 : Kernel} {name : List UInt8}
    (b : Building s own r (s.proc i).trapframe sz UserPte s2 own2)
    (hi : Inv s own held extra) (ha : Active s i) (hr : own r = .free k)
    (w : Wrote (· = (s.proc i).trapframe) s2 s3) :
    wp (procFreepagetable (s.proc i).pagetable (s.proc i).sz) (fun _ s' =>
      (∃ own', Inv s' own' held extra ∧ Active s' i ∧
        ∀ p path, own p = .slot (s.proc i).pagetable path → ∃ k, own' p = .free k) ∧
      s'.proc i = { s.proc i with name := name, pagetable := r, sz := sz } ∧
      image s'.mem r = image s2.mem r ∧ Same s3.mem s'.mem (s.proc i).trapframe) Never
      (s3.withProc i { s2.proc i with name := name, pagetable := r, sz := sz }) := by
  have h0 := hi.pagetable_ne ha
  have ok := hi.proc i
  obtain ⟨htf0, sh⟩ := ok.shape h0
  have htf : own (s.proc i).trapframe = .trapframe i := (ok.trapframe _).2 ⟨htf0, rfl⟩
  have htf2 : own2 (s.proc i).trapframe = .trapframe i :=
    (b.frame.keeps.iff (o := .trapframe i) trivial).2 htf
  have hr0 : r ≠ 0 := ((hi.heap.managed r).1 (by rw [hr]; nofun)).ne_zero
  have hnew : ∀ j, (s.proc j).pagetable ≠ r := fun j e => hi.heap.not_live hr [] ⟨hr0, j, e⟩
  have hold : ∀ path : List Nat, With (fun r _ => Root s r) r (s.proc i).pagetable path :=
    fun _ => .inl ⟨h0, i, rfl⟩
  have hlinks : ∀ p, p = (s.proc i).trapframe → ¬ (own2 p).Links := by
    rintro p rfl
    rw [htf2]
    exact id
  have hp2 : s2.proc = s.proc := b.frame.tables.proc
  have hp3 : s3.proc = s.proc := by rw [w.tables.proc, hp2]
  -- the old table is as it was
  have sh2 := b.frame.shape hi.heap b.heap (hnew i) (fun _ => ⟨h0, i, rfl⟩) hold sh
  have sh3 := sh2.congr fun v => w.pteAt b.heap hlinks hold
  have shr := b.shape.congr fun v => w.pteAt b.heap hlinks with_self
  have h3 := w.heap b.heap hlinks
  apply wp_mono (procFreepagetable_spec h3.withProc hold sh3 (fun _ => UserPte.leaf) isLeaf_trampoline
    isLeaf_trapframe)
  rintro _ s4 ⟨own4, h4, d⟩
  have hp4 : s4.proc = (s3.withProc i { s2.proc i with name := name, pagetable := r, sz := sz }).proc :=
    d.tables.proc
  have hself : s4.proc i = { s.proc i with name := name, pagetable := r, sz := sz } := by
    rw [hp4, withProc_self, hp2]
  have hother : ∀ j, j ≠ i → s4.proc j = s.proc j := by
    intro j hj
    rw [hp4, withProc_of_ne hj, hp3]
  have k3 : Keeps (fun o => o ≠ .trapframe i) s2 own2 s3 own2 := by
    apply w.keeps
    rintro p rfl e
    exact e htf2
  have k : Keeps (fun o => (o.Out r ∧ o.Out (s.proc i).pagetable) ∧ o ≠ .trapframe i) s own s4 own4 := by
    have k1 := (b.frame.keeps.weaken (L := fun o => (o.Out r ∧ o.Out (s.proc i).pagetable) ∧
      o ≠ .trapframe i) fun _ h => h.1.1).trans (k3.weaken fun _ h => h.2)
    have k4 : Keeps (Owner.Out (s.proc i).pagetable) s3 own2 s4 own4 := d.keeps.from rfl
    exact k1.trans (k4.weaken fun _ h => h.1.2)
  have htfiff : ∀ p, own4 p = .trapframe i ↔ own p = .trapframe i := by
    intro p
    rw [d.keeps.iff (o := .trapframe i) trivial, b.frame.keeps.iff (o := .trapframe i) trivial]
  have hdesc : descs s4 = descs s := by
    funext x
    unfold descs
    by_cases hx : x.1 = i
    · rw [hx, hself]
    · rw [hother _ hx]
  have hpte : ∀ v, pteAt s4.mem r v = pteAt s3.mem r v := by
    refine fun v => h3.pteAt_same h4 with_self (fun _ => ⟨with_self _, ?_⟩) ?_ ?_
    · rintro ⟨e, _⟩
      exact hnew i e.symm
    · intro p path
      exact d.keeps.iff (o := .slot r path) (hnew i).symm
    · intro p path hp _
      exact d.keeps.same p (h3.slot_mod hp) (by rw [hp]; exact (hnew i).symm)
  have hshape : Shape s4.mem r (npages sz) UserPte trampolinePte
      (trapframePte (s.proc i).trapframe) := shr.congr hpte
  have himage : image s4.mem r = image s2.mem r := by
    rw [← w.image b.heap with_self fun p hp => ⟨hlinks p hp, by rw [hp, htf2]; nofun⟩]
    funext v
    refine h3.image_congr with_self (fun _ => hpte v) fun p hp => ?_
    exact d.keeps.same p (h3.slot_mod hp) (by rw [hp]; exact (hnew i).symm)
  have hsame : Same s3.mem s4.mem (s.proc i).trapframe :=
    d.keeps.same _ (hi.trapframe_mod htf0) (by rw [htf2]; trivial)
  have hfreed : ∀ p path, own p = .slot (s.proc i).pagetable path → ∃ k, own4 p = .free k := by
    intro p path hp
    refine d.freed p fun ho => ?_
    rw [(b.frame.keeps.iff (o := .slot (s.proc i).pagetable path) (hnew i)).2 hp] at ho
    exact ho rfl
  refine ⟨⟨own4, hi.one i k (h4.relive fun r' path => ?_) ?_ ?_ ⟨⟨trivial, trivial⟩, nofun⟩ ?_ ?_ ?_ hother
    ⟨?_, ?_, ?_, ?_⟩ ?_, ha.congr (by rw [hself]), hfreed⟩, hself, himage, hsame⟩
  · constructor
    · rintro ⟨⟨h1, j, hj⟩ | h1, h2⟩
      · have hji : j ≠ i := by
          rintro rfl
          exact h2 ⟨hj.symm, List.nil_suffix⟩
        exact ⟨h1, j, by rw [hother j hji, hj]⟩
      · rw [h1]
        exact ⟨hr0, i, by rw [hself]⟩
    · rintro ⟨h1, j, hj⟩
      by_cases hji : j = i
      · subst hji
        rw [hself] at hj
        refine ⟨.inr hj.symm, ?_⟩
        rintro ⟨e, _⟩
        exact hnew j (e.symm.trans hj.symm)
      · rw [hother j hji] at hj
        refine ⟨.inl ⟨h1, j, hj⟩, ?_⟩
        rintro ⟨e, _⟩
        exact hji (hi.inj i j h0 (e.symm.trans hj.symm)).symm
  · rw [hdesc]
    have hf : s4.file = s.file :=
      (d.tables.file.trans w.tables.file).trans b.frame.tables.file
    exact k.files ⟨⟨trivial, trivial⟩, nofun⟩ hf hi.files fun _ => hi.pipe_mod
  · intro p
    rw [k.iff (o := .held) ⟨⟨trivial, trivial⟩, nofun⟩]
    exact hi.held p
  · intro j hj
    exact ⟨⟨trivial, trivial⟩, fun e => hj (Owner.trapframe.inj e)⟩
  · intro j hj h1 path
    exact ⟨⟨hnew j, fun e => hj (hi.inj j i h1 e)⟩, nofun⟩
  · exact (d.tables.boot.trans w.tables.boot).trans b.frame.tables.boot
  · intro p
    rw [htfiff, hself]
    exact ok.trapframe p
  · rw [hself]
    exact fun _ => ⟨htf0, hshape⟩
  · rw [hself]
    exact fun e => absurd e hr0
  · rw [hself]
    exact ⟨fun e => absurd e ha.ne.1, fun _ _ => hr0, fun e => absurd e ha.ne.2.2⟩
  · intro j hj _ e
    rw [hself] at e
    exact hnew j e.symm

omit [Layout] in
lemma wp_ilock {E} {Q : FileOp → Kernel → Prop} {m k : Nat} :
    wp (FileOp.ilock ⟨m, k + 1, false⟩) Q E s ↔ Q ⟨m, k + 1, true⟩ s := by
  unfold FileOp.ilock
  rw [if_neg (by simp)]
  exact wp_pure

omit [Layout] in
lemma wp_iunlockput {E} {Q : FileOp → Kernel → Prop} {m k : Nat} :
    wp (FileOp.iunlockput ⟨m, k + 1, true⟩) Q E s ↔ Q ⟨m, k, false⟩ s := by
  unfold FileOp.iunlockput
  rw [if_neg (by simp)]
  exact wp_pure

/-- How `exec` ends: it has changed free pages only, which are free again, or the old address space has been
    freed. -/
def ExecEnds (s : Kernel) (own : Nat → Owner) (i : Fin NPROC) (ret : Int) (s' : Kernel)
    (own' : Nat → Owner) : Prop :=
  ret = -1 ∧ Quiet s own s' own' ∨
    0 ≤ ret ∧ ∀ p path, own p = .slot (s.proc i).pagetable path → ∃ k, own' p = .free k

/-- How `exec` ends, seen from the process: it fails before the stack is mapped or because the arguments do not fit
    on it, or the process has a new program. -/
def ExecDone (s : Kernel) (own : Nat → Owner) (i : Fin NPROC) (ip : Option (List UInt8)) (argv : List Nat) (ret : Int)
    (s' : Kernel) : Prop :=
  (ret = -1 ∧ ∀ file, ip = some file → StackMapped i file s → ∀ strs, Args s own argv strs → PGSIZE < argSize strs) ∨
    ret = argv.length ∧ ∃ file, ip = some file ∧ Execed s own i file argv s'

omit [Layout] in
lemma trapframe_words {mem mem' : Nat → UInt8} {sp entry : Nat} (hsp : sp < 2 ^ 64) (he : entry < 2 ^ 64)
    (hm : Same (putLe (putLe (putLe mem (tfA1 tf) 8 sp) (tfEpc tf) 8 entry) (tfSp tf) 8 sp) mem' tf) :
    le mem' (tfA1 tf) 8 = sp ∧ le mem' (tfEpc tf) 8 = entry ∧ le mem' (tfSp tf) 8 = sp := by
  have hle : ∀ o, o + 8 ≤ PGSIZE → le mem' (tf + o) 8 =
      le (putLe (putLe (putLe mem (tfA1 tf) 8 sp) (tfEpc tf) 8 entry) (tfSp tf) 8 sp) (tf + o) 8 := by
    intro o ho
    exact le_congr fun a h1 h2 => hm a (by omega) (by omega)
  unfold tfA1 tfEpc tfSp at *
  rw [hle 120 (by decide), hle 24 (by decide), hle 48 (by decide), le_putLe, le_putLe_of_disjoint (by omega),
    le_putLe_of_disjoint (by omega), le_putLe, le_putLe_of_disjoint (by omega), le_putLe]
  exact ⟨Nat.mod_eq_of_lt hsp, Nat.mod_eq_of_lt he, Nat.mod_eq_of_lt hsp⟩

omit [Layout] in
lemma readi_header {file : List UInt8} : readi file 0 ElfHdr.size = file.take ElfHdr.size := by
  unfold readi
  rw [if_neg (by simp), List.drop_zero]

/-- `exec` replaces the memory of the process, or changes nothing. It leaves no transaction open, and no
    reference to the file. -/
lemma exec_spec {path : List UInt8} {ip : Option (List UInt8)} {argv : List Nat} {m c : Nat}
    (hi : Inv s own held extra) (ha : Active s i) :
    wp (KernM.exec i path ip argv ⟨m, c, false⟩) (fun a s' => (∃ own', Inv s' own' held extra ∧
      Active s' i ∧ a.2 = ⟨m, c, false⟩ ∧ ExecEnds s own i a.1 s' own') ∧ ExecDone s own i ip argv a.1 s') Never s := by
  have h0 := hi.pagetable_ne ha
  have htf0 := ((hi.proc i).shape h0).1
  have htf := ((hi.proc i).trapframe _).2 ⟨htf0, rfl⟩
  have htfm := hi.trapframe_mod htf0
  have hlt : (s.proc i).trapframe < 2 ^ 56 := by
    have := ((hi.heap.managed _).1 (by rw [htf]; nofun)).lt.2
    omega
  -- what is left to show when a failure has been undone
  have hbad : ∀ {s' own'}, Inv s' own' held extra → Quiet s own s' own' →
      (∀ file, ip = some file → StackMapped i file s → ∀ strs, Args s own argv strs → PGSIZE < argSize strs) →
      (∃ own', Inv s' own' held extra ∧ Active s' i ∧ ((-1 : Int), (⟨m, c, false⟩ : FileOp)).2 = ⟨m, c, false⟩ ∧
        ExecEnds s own i ((-1 : Int), (⟨m, c, false⟩ : FileOp)).1 s' own') ∧
      ExecDone s own i ip argv ((-1 : Int), (⟨m, c, false⟩ : FileOp)).1 s' :=
    fun hi' q h => ⟨⟨_, hi', ha.congr (by rw [q.tables.proc]), rfl, .inl ⟨rfl, q⟩⟩, .inl ⟨rfl, h⟩⟩
  have hrefl : Quiet s own s own := quiet_of_eq .refl rfl
  unfold KernM.exec
  cases ip with
  | none =>
    dsimp only
    rw [wp_pure]
    exact hbad hi hrefl nofun
  | some file =>
    -- a run that gets as far as the stack is the run of this file
    have hbad : ∀ {s' own'}, Inv s' own' held extra → Quiet s own s' own' →
        (StackMapped i file s → ∀ strs, Args s own argv strs → PGSIZE < argSize strs) → _ :=
      fun hi' q h => hbad hi' q fun file' e => by cases e; exact h
    dsimp only
    rw [wp_bind]
    refine wp_ilock.2 ?_
    rw [readi_header, wp_ite]
    refine ⟨fun hlen => ?_, fun hlen => ?_⟩
    · rw [wp_bind]
      refine wp_iunlockput.2 (wp_pure.2 (hbad hi hrefl fun hm => absurd ?_ hlen))
      rw [List.length_take, Nat.min_eq_left hm.1]
    rw [not_not, List.length_take] at hlen
    have helf : ElfHdr.ofBytes (file.take ElfHdr.size) = elfHdr file := rfl
    have hentry : (elfHdr file).entry < 2 ^ 64 := getLe_lt
    rw [helf, wp_ite]
    refine ⟨fun hmagic => ?_, fun hmagic => ?_⟩
    · rw [wp_bind]
      exact wp_iunlockput.2 (wp_pure.2 (hbad hi hrefl fun hm => absurd hm.2.1 hmagic))
    rw [wp_bind, wp_get, wp_bind]
    refine wp_conseq (wp_and (procPagetable_spec (P := LoadPte) hi.heap hlt fun _ h => h.toUserPte.leaf)
      (wp_self _ _)) ?_ fun _ _ h => h.1
    rintro o s1 ⟨ho, hrun1⟩
    cases o with
    | none =>
      obtain ⟨own1, h1, q1⟩ := ho
      dsimp only
      rw [wp_bind]
      refine wp_iunlockput.2 (wp_pure.2 (hbad (hi.quiet q1 h1) q1 ?_))
      rintro ⟨-, -, _, _, _, _, _, _, e, -⟩
      cases hrun1.symm.trans e
    | some r =>
      obtain ⟨⟨k, hk⟩, own1, h1, f1, sh1⟩ := ho
      have b1 : Building s own r (s.proc i).trapframe 0 LoadPte s1 own1 := ⟨h1, f1, sh1⟩
      have hI1 : image s1.mem r = fun _ => none := funext fun v => sh1.image_none (Nat.zero_le v)
      dsimp only
      rw [wp_bind]
      refine wp_conseq (wp_and (loadLoop_spec b1 (Nat.mod_lt _ (by decide))) (wp_self _ _)) ?_ fun _ _ h => h.1
      rintro ⟨sz, ok⟩ s2 ⟨⟨⟨own2, b2⟩, hload⟩, hrun2⟩
      dsimp only at b2 hload
      rw [hI1] at hload
      cases ok with
      | false =>
        dsimp only
        rw [if_neg (by nofun), wp_bind]
        apply wp_mono (b2.drop hi hk fun _ h => h.toUserPte.leaf)
        rintro _ s3 ⟨own3, hi3, q3⟩
        rw [wp_bind]
        refine wp_iunlockput.2 (wp_pure.2 (hbad hi3 q3 ?_))
        rintro ⟨-, -, _, _, _, _, _, _, e1, e2, -⟩
        cases hrun1.symm.trans e1
        cases hrun2.symm.trans e2
      | true =>
        have hload := hload rfl
        have hres : (sz, image s2.mem r) = progImage file := hload.result
        have hsz : sz = (progImage file).1 := congrArg Prod.fst hres
        have hI2 : image s2.mem r = (progImage file).2 := congrArg Prod.snd hres
        dsimp only
        rw [if_pos rfl, wp_bind]
        refine wp_iunlockput.2 ?_
        rw [wp_bind]
        apply wp_mono (execStack_spec b2 fun p _ hp => hi.heap.mod (by rw [hp]; nofun))
        rintro ⟨sz', o⟩ s3 ⟨⟨own3, b3⟩, st⟩
        dsimp only at b3
        cases o with
        | none =>
          dsimp only
          rw [wp_bind]
          apply wp_mono (b3.drop hi hk fun _ => UserPte.leaf)
          rintro _ s4 ⟨own4, hi4, q4⟩
          rw [wp_pure]
          refine hbad hi4 q4 ?_
          rintro ⟨-, -, _, _, _, _, _, _, e1, e2, e3, hne⟩
          cases hrun1.symm.trans e1
          cases hrun2.symm.trans e2
          rw [pgRoundUp_eq b2.shape.le] at e3
          exact st.full rfl _ _ e3 hne
        | some sp =>
          obtain ⟨rfl, hsp, habove⟩ := st.size sp rfl
          dsimp only
          rw [wp_bind, wp_store64, wp_bind, wp_setProc, wp_bind, wp_store64, wp_bind, wp_store64,
            wp_bind]
          have w1 := wrote_putLe (A := (· = (s.proc i).trapframe)) (s := s3) (o := 120) (k := 8)
            (w := sp) htfm (by decide) rfl
          have w2 := w1.trans (wrote_putLe (o := 24) (k := 8) (w := (elfHdr file).entry) htfm (by decide) rfl)
          have w3 := w2.trans (wrote_putLe (o := 48) (k := 8) (w := sp) htfm (by decide) rfl)
          apply wp_mono (b3.commit hi ha hk w3)
          rintro _ s5 ⟨⟨own5, hi5, ha5, hfree⟩, hself, himage, hsame⟩
          rw [wp_pure]
          refine ⟨⟨own5, hi5, ha5, rfl, .inr ⟨Int.natCast_nonneg _, hfree⟩⟩, .inr ⟨rfl, file, rfl, ?_⟩⟩
          obtain ⟨h6, h7, h8⟩ := trapframe_words hsp hentry hsame
          rw [hres] at hload
          refine ⟨by omega, hload, ?_, ?_, ?_, ?_, ?_, fun strs hargs => ?_⟩
          · rw [hself, ← hsz]
          · rw [hself]
          · rw [hself, ← hsz, ← hI2]
            dsimp only
            rw [himage]
            exact habove
          · rw [hself]
            exact h7
          · rw [hself]
            exact h8.trans h6.symm
          · obtain ⟨h9, h10, h11⟩ := st.args sp rfl strs hargs
            rw [hself, ← hsz, ← hI2]
            exact ⟨h9, h6.trans h10, himage.trans h11⟩

omit [Layout] in
lemma fetchaddr_spec {addr : Nat} : wp (fetchaddr i addr) (fun _ s' => s' = s) Never s := by
  unfold fetchaddr
  rw [wp_bind, wp_get, wp_ite]
  refine ⟨fun _ => by rw [wp_pure], fun _ => ?_⟩
  rw [wp_bind]
  apply wp_mono copyin_spec
  rintro ⟨l, ok⟩ s1 h1
  rw [wp_pure]
  exact h1

lemma Inv.perm {held' : List Nat} (hi : Inv s own held extra) (h : ∀ p, p ∈ held ↔ p ∈ held') :
    Inv s own held' extra :=
  ⟨hi.heap, hi.files, fun p => (hi.held p).trans (h p), hi.boot, hi.proc, hi.inj⟩

lemma Inv.writeHeld {q : Nat} (hi : Inv s own held extra) (hq : q ∈ held) (w : Wrote (· = q) s s') :
    Inv s' own held extra := by
  refine hi.write w ?_
  rintro p rfl
  rw [(hi.held p).2 hq]
  exact ⟨id, nofun⟩

lemma kfreeInv_spec {q : Nat} (hi : Inv s own (q :: held) extra) (hq : q ∉ held) :
    wp (kfree q) (fun _ s' => ∃ own', Inv s' own' held extra ∧ s'.proc = s.proc) Never s := by
  have hown : own q = .held := (hi.held q).2 (List.mem_cons_self ..)
  apply wp_mono (kfreeHeld_spec hi.heap hown)
  rintro _ s1 ⟨k, rt⟩
  refine ⟨_, hi.retag rt ?_ fun p => ?_, rt.tables.proc⟩
  · rintro o (h | h)
    · exact .inl (h.trans hown)
    · exact .inr ⟨k, h⟩
  · by_cases hp : p = q
    · subst hp
      rw [update_self]
      simp [hq]
    · rw [update_of_ne hp, hi.held, List.mem_cons]
      simp [hp]

lemma argvLoop_spec {uargv k : Nat} {argv : List Nat} (hi : Inv s own argv extra) (hn : argv.Nodup)
    (ha : Active s i) :
    wp (argvLoop i uargv n k argv) (fun a s' => ∃ own', Inv s' own' a.1 extra ∧ a.1.Nodup ∧
      Active s' i) Never s := by
  induction n generalizing s own k argv with
  | zero =>
    rw [argvLoop, wp_pure]
    exact ⟨own, hi, hn, ha⟩
  | succ n ih =>
    rw [argvLoop, wp_bind]
    apply wp_mono fetchaddr_spec
    rintro o s1 rfl
    cases o with
    | none =>
      dsimp only
      rw [wp_pure]
      exact ⟨own, hi, hn, ha⟩
    | some uarg =>
      dsimp only
      rw [wp_ite]
      refine ⟨fun _ => by rw [wp_pure]; exact ⟨own, hi, hn, ha⟩, fun _ => ?_⟩
      rw [wp_bind]
      apply wp_mono (alloc_spec hi.heap)
      intro o s2 ho
      cases o with
      | none =>
        obtain ⟨h2, t2, m2⟩ := ho
        dsimp only
        rw [wp_pure]
        exact ⟨own, hi.quiet (quiet_of_eq t2 m2) h2, hn, ha.congr (by rw [t2.proc])⟩
      | some page =>
        have hi2 := hi.fresh ho
        have ha2 : Active s2 i := ha.congr (by rw [ho.tables.proc])
        have hnot : page ∉ argv := by
          intro e
          obtain ⟨k, hk⟩ := ho.free
          rw [(hi.held page).2 e] at hk
          cases hk
        have hi3 : Inv s2 _ (argv ++ [page]) extra := hi2.perm fun p => by simp [or_comm]
        have hn3 : (argv ++ [page]).Nodup := by
          rw [List.nodup_append]
          refine ⟨hn, List.nodup_singleton _, fun a h1 b h2 => ?_⟩
          rw [List.mem_singleton] at h2
          rw [h2]
          rintro rfl
          exact hnot h1
        have hmod := Fresh.mod ho
        dsimp only
        rw [wp_bind, wp_get, wp_bind]
        apply wp_mono copyinstr_spec
        rintro ⟨str, ok⟩ s3 ⟨rfl, hlen⟩
        dsimp only at hlen ⊢
        rw [wp_bind, wp_putBytes]
        have w := wrote_putBytes (A := (· = page)) (s := s3) (o := 0) (l := str) hmod
          (by rw [Nat.zero_add]; exact hlen) rfl
        have hi4 := hi3.writeHeld (by simp) w
        rw [wp_ite]
        refine ⟨fun _ => ih hi4 hn3 ha2, fun _ => ?_⟩
        rw [wp_pure]
        exact ⟨_, hi4, hn3, ha2⟩

/-- `exec` with any arguments; the pages for the argument strings are freed again. -/
lemma sysExec_spec {upath uargv : Nat} {fs : List UInt8 → Option (List UInt8)}
    (hi : Inv s own [] extra) (ha : Active s i) :
    wp (sysExec i upath uargv fs) (fun _ s' => ∃ own', Inv s' own' [] extra ∧ Active s' i) Never s := by
  -- the loop that frees the argument pages
  have hfree : ∀ (argv : List Nat) (ret : Int) s1 own1, Inv s1 own1 argv extra → argv.Nodup →
      Active s1 i → wp (do
        for page in argv do
          kfree page
        pure ret) (fun _ s' => ∃ own', Inv s' own' [] extra ∧ Active s' i) Never s1 := by
    intro argv ret s1 own1 hi1 hn1 ha1
    rw [wp_bind]
    refine wp_mono (wp_forIn (I := fun k s' => (∃ own', Inv s' own' (argv.drop k) extra) ∧
      Active s' i) ⟨⟨own1, by rwa [List.drop_zero]⟩, ha1⟩ ?_) ?_
    · rintro k page s2 hk ⟨⟨own2, hi2⟩, ha2⟩
      obtain ⟨hlt, rfl⟩ := List.getElem?_eq_some_iff.1 hk
      have hdrop := List.drop_eq_getElem_cons hlt
      rw [hdrop] at hi2
      have hnot : argv[k] ∉ argv.drop (k + 1) := by
        have := hn1.sublist (List.drop_sublist k argv)
        rw [hdrop, List.nodup_cons] at this
        exact this.1
      rw [wp_bind]
      apply wp_mono (kfreeInv_spec hi2 hnot)
      rintro _ s3 ⟨own3, hi3, hp3⟩
      rw [wp_pure]
      exact ⟨rfl, ⟨own3, hi3⟩, ha2.congr (by rw [hp3])⟩
    · rintro _ s2 ⟨⟨own2, hi2⟩, ha2⟩
      rw [List.drop_length] at hi2
      rw [wp_pure]
      exact ⟨own2, hi2, ha2⟩
  unfold sysExec
  rw [wp_bind, wp_get, wp_bind]
  apply wp_mono copyinstr_spec
  rintro ⟨path, ok⟩ s1 ⟨rfl, _⟩
  cases ok with
  | false =>
    dsimp only
    rw [if_neg (by nofun), wp_pure]
    exact ⟨own, hi, ha⟩
  | true =>
    dsimp only
    rw [if_pos rfl, wp_bind]
    apply wp_mono (argvLoop_spec hi List.nodup_nil ha)
    rintro ⟨argv, ok⟩ s2 ⟨own2, hi2, hn2, ha2⟩
    dsimp only at hi2 hn2 ⊢
    rw [wp_ite]
    refine ⟨fun _ => ?_, fun _ => ?_⟩
    · rw [wp_bind]
      apply wp_mono (exec_spec hi2 ha2)
      rintro ⟨ret, op⟩ s3 ⟨⟨own3, hi3, ha3, -⟩, -⟩
      exact hfree argv ret s3 own3 hi3 hn2 ha3
    · rw [wp_bind, wp_pure]
      exact hfree argv (-1) s2 own2 hi2 hn2 ha2

end Xv6n
