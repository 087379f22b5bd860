import Xv6n.Vm.Atomic

/-!
# The program that exec loads

`exec` grows one region from address 0 on and copies each segment over it. If the segments come in
ascending order and share no page, then growing for one of them does not touch the ones before, so that in
the end each has its bytes of the file, zeroes behind them, and its own flags on every page. This is the
invariant of the fold over the program headers.

The offsets in the file are 64 bits wide but `exec` and `loadseg` pass on only 32 bits of them. A file that
names an offset past its end can be run if the low half is good.
-/

namespace Xv6n
open Lib KernM

def fileHdrs (file : List UInt8) : List ProgHdr := progHdrs file (elfHdr file).phnum (elfHdr file).phoff

def segments (file : List UInt8) : List ProgHdr := (fileHdrs file).filter fun ph => ph.type = ELF_PROG_LOAD

def loadEnd (file : List UInt8) : Nat := (segments file).foldl (fun n ph => max n (ph.vaddr + ph.memsz)) 0

namespace ProgHdr

/-- Page `v` has a byte of the segment. -/
def HasPage (ph : ProgHdr) (v : Nat) : Prop := ∃ a, ph.vaddr ≤ a ∧ a < ph.vaddr + ph.memsz ∧ a / PGSIZE = v

/-- One segment starts below the other, and they have no page in common. -/
def Before (a b : ProgHdr) : Prop := a.vaddr ≤ b.vaddr ∧ ∀ v, a.HasPage v → ¬ b.HasPage v

/-- The segment is in memory: its bytes of the file and then zeroes, on pages with the permissions that it asks
    for. -/
structure Placed (file : List UInt8) (I : Image) (ph : ProgHdr) : Prop where
  inside : ∀ k < ph.filesz, ph.off + k < file.length
  data : ∀ k < ph.filesz, I.byteAt (ph.vaddr + k) = file[ph.off + k]?
  zero : ∀ k, ph.filesz ≤ k → k < ph.memsz → I.byteAt (ph.vaddr + k) = some 0
  page : ∀ v, ph.HasPage v → ∃ p, I v = some p ∧ p.flags &&& PTE_R ≠ 0 ∧ p.flags &&& PTE_U ≠ 0 ∧
    (p.flags &&& PTE_W ≠ 0 ↔ ph.flags &&& 2 ≠ 0) ∧ (p.flags &&& PTE_X ≠ 0 ↔ ph.flags &&& 1 ≠ 0)

end ProgHdr

/-- What is asked of a program file: offsets below 2 GB, and segments in ascending order without a common page. -/
structure Ascending (file : List UInt8) : Prop where
  table : 0 < (elfHdr file).phnum → (elfHdr file).phoff + (elfHdr file).phnum * ProgHdr.size ≤ 2 ^ 31
  offset : ∀ ph ∈ segments file, 0 < ph.filesz → ph.off + ph.filesz ≤ 2 ^ 31
  order : (segments file).Pairwise ProgHdr.Before

section fold
variable {file : List UInt8} {ph : ProgHdr} {x : Nat × Image} {I J : Image} {l : List ProgHdr} {n v : Nat}

lemma ProgHdr.perm_flags (ph : ProgHdr) : ph.perm &&& PTE_R ≠ 0 ∧ ph.perm &&& PTE_U ≠ 0 ∧
    (ph.perm &&& PTE_W ≠ 0 ↔ ph.flags &&& 2 ≠ 0) ∧ (ph.perm &&& PTE_X ≠ 0 ↔ ph.flags &&& 1 ≠ 0) := by
  unfold ProgHdr.perm flags2perm
  by_cases h1 : ph.flags &&& 1 ≠ 0
  · by_cases h2 : ph.flags &&& 2 ≠ 0
    · rw [if_pos h1, if_pos h2]
      exact ⟨by decide, by decide, iff_of_true (by decide) h2, iff_of_true (by decide) h1⟩
    · rw [if_pos h1, if_neg h2]
      exact ⟨by decide, by decide, iff_of_false (by decide) h2, iff_of_true (by decide) h1⟩
  · by_cases h2 : ph.flags &&& 2 ≠ 0
    · rw [if_neg h1, if_pos h2]
      exact ⟨by decide, by decide, iff_of_true (by decide) h2, iff_of_false (by decide) h1⟩
    · rw [if_neg h1, if_neg h2]
      exact ⟨by decide, by decide, iff_of_false (by decide) h2, iff_of_false (by decide) h1⟩

lemma ProgHdr.HasPage.lt (h : ph.HasPage v) : v < npages (ph.vaddr + ph.memsz) := by
  obtain ⟨a, -, h2, rfl⟩ := h
  unfold npages
  simp only [PGSIZE]
  omega

lemma hasPage_of_lt {k : Nat} (h : k < ph.memsz) : ph.HasPage ((ph.vaddr + k) / PGSIZE) :=
  ⟨ph.vaddr + k, by omega, by omega, rfl⟩

lemma ProgHdr.Placed.congr (h : ph.Placed file I) (hfit : ph.filesz ≤ ph.memsz)
    (hn : npages (ph.vaddr + ph.memsz) ≤ n) (hJ : ∀ v < n, J v = I v) : ph.Placed file J := by
  have hb : ∀ k < ph.memsz, J.byteAt (ph.vaddr + k) = I.byteAt (ph.vaddr + k) := by
    intro k hk
    unfold Image.byteAt
    rw [hJ _ (Nat.lt_of_lt_of_le (hasPage_of_lt hk).lt hn)]
  refine ⟨h.inside, fun k hk => ?_, fun k h1 h2 => ?_, fun v hv => ?_⟩
  · rw [hb k (by omega)]
    exact h.data k hk
  · rw [hb k h2]
    exact h.zero k h1 h2
  · rw [hJ v (Nat.lt_of_lt_of_le hv.lt hn)]
    exact h.page v hv

lemma hasPage_new (hx : 0 < ph.memsz → npages x.1 * PGSIZE ≤ ph.vaddr) (hv : ph.HasPage v) :
    npages x.1 ≤ v ∧ v < npages (max x.1 (ph.vaddr + ph.memsz)) := by
  refine ⟨?_, Nat.lt_of_lt_of_le hv.lt (npages_mono (Nat.le_max_right ..))⟩
  obtain ⟨a, h1, h2, rfl⟩ := hv
  exact (Nat.le_div_iff_mul_le (by decide)).2 (Nat.le_trans (hx (by omega)) h1)

lemma ProgHdr.Loadable.placed (h : ph.Loadable file) (htype : ph.type = ELF_PROG_LOAD)
    (hoff : 0 < ph.filesz → ph.off + ph.filesz ≤ 2 ^ 31) (hx : 0 < ph.memsz → npages x.1 * PGSIZE ≤ ph.vaddr) :
    ph.Placed file (ph.load file x).2 := by
  have hmod : ∀ k < ph.filesz, ph.off % 2 ^ 32 = ph.off := fun k hk => Nat.mod_eq_of_lt (by have := hoff (by omega); omega)
  have hin : ∀ k < ph.filesz, ph.off + k < file.length := by
    intro k hk
    have := (h.inFile (by omega)).2
    rw [hmod k hk] at this
    omega
  have hlen : (ph.bytes file).length = ph.filesz := by
    unfold ProgHdr.bytes
    rw [List.length_take, List.length_drop]
    obtain h0 | h0 := Nat.eq_zero_or_pos ph.filesz
    · omega
    · have := (h.inFile h0).2
      omega
  -- growing gives the pages of the segment as zeroes
  have hgrow : ∀ v, ph.HasPage v →
      x.2.grow (npages x.1) (npages (max x.1 (ph.vaddr + ph.memsz))) ph.perm v = some (.zero ph.perm) :=
    fun v hv => if_pos (hasPage_new hx hv)
  have hzero : ∀ k < ph.memsz, Image.byteAt
      (x.2.grow (npages x.1) (npages (max x.1 (ph.vaddr + ph.memsz))) ph.perm) (ph.vaddr + k) = some 0 := by
    intro k hk
    unfold Image.byteAt
    rw [hgrow _ (hasPage_of_lt hk)]
    rfl
  unfold ProgHdr.load
  rw [if_pos htype]
  dsimp only
  have hfit := h.fits
  refine ⟨hin, fun k hk => ?_, fun k h1 h2 => ?_, fun v hv => ?_⟩
  · rw [Image.byteAt_write, hzero k (by omega), Option.map_some, if_pos (by omega), Nat.add_sub_cancel_left,
      List.getD_eq_getElem?_getD, List.getElem?_eq_getElem (by omega), Option.getD_some,
      List.getElem?_eq_getElem (hin k hk)]
    unfold ProgHdr.bytes
    rw [List.getElem_take, List.getElem_drop]
    simp only [hmod k hk]
  · rw [Image.byteAt_write, hzero k h2, Option.map_some, if_pos (by omega), Nat.add_sub_cancel_left,
      List.getD_eq_default _ _ (by omega)]
  · have hflags := congrArg (Option.map Page.flags) (hgrow v hv)
    rw [← Image.flags_write] at hflags
    obtain ⟨p, hp, hf⟩ := Option.map_eq_some_iff.1 hflags
    refine ⟨p, hp, ?_⟩
    rw [hf]
    exact ph.perm_flags

lemma ProgHdr.Loadable.below (h : ph.Loadable file) (hx : 0 < ph.memsz → npages x.1 * PGSIZE ≤ ph.vaddr)
    (hv : v < npages x.1) : (ph.load file x).2 v = x.2 v := by
  unfold ProgHdr.load
  split
  · dsimp only
    have hgrow : x.2.grow (npages x.1) (npages (max x.1 (ph.vaddr + ph.memsz))) ph.perm v = x.2 v := if_neg (by omega)
    obtain h0 | h0 := Nat.eq_zero_or_pos ph.memsz
    · have hfit := h.fits
      have hnil : ph.bytes file = [] := by
        unfold ProgHdr.bytes
        rw [show ph.filesz = 0 by omega, List.take_zero]
      rw [hnil, Image.write_nil, hgrow]
    · rw [Image.write_below (Nat.le_trans (Nat.mul_le_mul_right _ hv) (hx h0)), hgrow]
  · rfl

lemma ProgHdr.Before.above {a b : ProgHdr} (h : a.Before b) (ha : a.vaddr % PGSIZE = 0) (hb : b.vaddr % PGSIZE = 0)
    (h0 : 0 < b.memsz) (hn : npages n * PGSIZE ≤ b.vaddr) :
    npages (max n (a.vaddr + a.memsz)) * PGSIZE ≤ b.vaddr := by
  have hend : a.vaddr + a.memsz ≤ b.vaddr := by
    by_contra hlt
    refine h.2 (b.vaddr / PGSIZE) ⟨b.vaddr, h.1, by omega, rfl⟩ ⟨b.vaddr, Nat.le_refl _, by omega, rfl⟩
  rcases Nat.le_total n (a.vaddr + a.memsz) with hle | hle
  · rw [Nat.max_eq_right hle]
    clear hn
    unfold npages
    simp only [PGSIZE] at *
    omega
  · rwa [Nat.max_eq_left hle]

/-- The segments of a list are loaded one after the other, each above the ones before. -/
lemma foldl_placed (hload : ∀ ph ∈ l, ph.type = ELF_PROG_LOAD ∧ ph.Loadable file)
    (hoff : ∀ ph ∈ l, 0 < ph.filesz → ph.off + ph.filesz ≤ 2 ^ 31) (horder : l.Pairwise ProgHdr.Before)
    (hx : ∀ ph ∈ l, 0 < ph.memsz → npages x.1 * PGSIZE ≤ ph.vaddr) :
    (∀ v < npages x.1, (l.foldl (ProgHdr.load file) x).2 v = x.2 v) ∧
      ∀ ph ∈ l, ph.Placed file (l.foldl (ProgHdr.load file) x).2 := by
  induction l generalizing x with
  | nil => exact ⟨fun _ _ => rfl, nofun⟩
  | cons a l ih =>
    obtain ⟨htype, ha⟩ := hload a (List.mem_cons_self ..)
    have hxa := hx a (List.mem_cons_self ..)
    rw [List.pairwise_cons] at horder
    have hsize : (a.load file x).1 = max x.1 (a.vaddr + a.memsz) := by
      unfold ProgHdr.load
      rw [if_pos htype]
    obtain ⟨h1, h2⟩ := ih (x := a.load file x) (fun b hb => hload b (List.mem_cons_of_mem _ hb))
      (fun b hb => hoff b (List.mem_cons_of_mem _ hb)) horder.2 (fun b hb h0 => by
        rw [hsize]
        exact (horder.1 b hb).above ha.aligned (hload b (List.mem_cons_of_mem _ hb)).2.aligned h0
          (hx b (List.mem_cons_of_mem _ hb) h0))
    rw [hsize] at h1
    rw [List.foldl_cons]
    refine ⟨fun v hv => ?_, fun b hb => ?_⟩
    · rw [h1 v (Nat.lt_of_lt_of_le hv (npages_mono (Nat.le_max_left ..))), ha.below hxa hv]
    · obtain rfl | hb := List.mem_cons.1 hb
      · exact (ha.placed htype (hoff b (List.mem_cons_self ..)) hxa).congr ha.fits
          (npages_mono (Nat.le_max_right ..)) h1
      · exact h2 b hb

lemma foldl_load_filter : l.foldl (ProgHdr.load file) x =
    (l.filter fun ph => ph.type = ELF_PROG_LOAD).foldl (ProgHdr.load file) x := by
  induction l generalizing x with
  | nil => rfl
  | cons ph l ih =>
    rw [List.foldl_cons]
    by_cases h : ph.type = ELF_PROG_LOAD
    · rw [List.filter_cons_of_pos (by simpa using h), List.foldl_cons, ih]
    · rw [List.filter_cons_of_neg (by simpa using h), ← ih, ProgHdr.load, if_neg h]

lemma foldl_load_size (hload : ∀ ph ∈ l, ph.type = ELF_PROG_LOAD) :
    (l.foldl (ProgHdr.load file) x).1 = l.foldl (fun n ph => max n (ph.vaddr + ph.memsz)) x.1 := by
  induction l generalizing x with
  | nil => rfl
  | cons ph l ih =>
    rw [List.foldl_cons, List.foldl_cons, ih fun b hb => hload b (List.mem_cons_of_mem _ hb), ProgHdr.load,
      if_pos (hload ph (List.mem_cons_self ..))]

lemma le_foldl_end : n ≤ l.foldl (fun n ph => max n (ph.vaddr + ph.memsz)) n ∧
    ∀ ph ∈ l, ph.vaddr + ph.memsz ≤ l.foldl (fun n ph => max n (ph.vaddr + ph.memsz)) n := by
  induction l generalizing n with
  | nil => exact ⟨Nat.le_refl _, nofun⟩
  | cons a l ih =>
    obtain ⟨h1, h2⟩ := ih (n := max n (a.vaddr + a.memsz))
    rw [List.foldl_cons]
    refine ⟨Nat.le_trans (Nat.le_max_left ..) h1, fun b hb => ?_⟩
    obtain rfl | hb := List.mem_cons.1 hb
    · exact Nat.le_trans (Nat.le_max_right ..) h1
    · exact h2 b hb

lemma execHdrs_eq (h : 0 < (elfHdr file).phnum → (elfHdr file).phoff < 2 ^ 32) : execHdrs file = fileHdrs file := by
  unfold execHdrs fileHdrs
  obtain h0 | h0 := Nat.eq_zero_or_pos (elfHdr file).phnum
  · rw [h0, progHdrs, progHdrs]
  · rw [Nat.mod_eq_of_lt (h h0)]

end fold

variable [Layout] {s s' s0 : Kernel} {own : Nat → Owner} {i : Fin NPROC} {argv : List Nat} {file path : List UInt8}
  {ret : Int} {op : FileOp} {m c : Nat} {extra : Fin NFILE → Nat}

/-- The arguments of `exec` have been collected, in the way `sys_exec` does it. -/
def Collected (i : Fin NPROC) (argv : List Nat) (s : Kernel) : Prop :=
  ∃ (s0 : Kernel) (uargv : UInt64), s0.Reachable ∧ Active s0 i ∧
    argvLoop i uargv.toNat MAXARG 0 [] s0 = .ok (argv, true) s

omit [Layout] in
lemma argvLoop_length {uargv n k : Nat} :
    wp (argvLoop i uargv n k argv) (fun a _ => a.2 = true → a.1.length < argv.length + n) Any s := by
  induction n generalizing s k argv with
  | zero =>
    rw [argvLoop, wp_pure]
    rintro ⟨⟩
  | succ n ih =>
    rw [argvLoop, wp_bind]
    refine wp_mono (wp_trivial _ _) fun o s1 _ => ?_
    cases o with
    | none =>
      dsimp only
      rw [wp_pure]
      rintro ⟨⟩
    | some uarg =>
      dsimp only
      rw [wp_ite]
      refine ⟨fun _ => by rw [wp_pure]; exact fun _ => Nat.lt_add_of_pos_right (Nat.succ_pos n), fun _ => ?_⟩
      rw [wp_bind]
      refine wp_mono (wp_trivial _ _) fun o s2 _ => ?_
      cases o with
      | none =>
        dsimp only
        rw [wp_pure]
        rintro ⟨⟩
      | some page =>
        dsimp only
        rw [wp_bind, wp_get, wp_bind]
        refine wp_mono (wp_trivial _ _) fun x s3 _ => ?_
        rw [wp_bind]
        refine wp_mono (wp_trivial _ _) fun _ s4 _ => ?_
        rw [wp_ite]
        refine ⟨fun _ => wp_mono ih fun a _ h hok => ?_, fun _ => by rw [wp_pure]; rintro ⟨⟩⟩
        have := h hok
        rw [List.length_append, List.length_singleton] at this
        omega

lemma Collected.inv (h : Collected i argv s) :
    ∃ own, Inv s own argv (fun _ => 0) ∧ Active s i ∧ argv.length < MAXARG := by
  obtain ⟨s0, uargv, hs, ha, hrun⟩ := h
  obtain ⟨own0, hi0⟩ := hs.inv
  obtain ⟨own, hi, -, ha'⟩ := (wp_def.1 (argvLoop_spec hi0 List.nodup_nil ha)).1 _ _ hrun
  have hlen := (wp_def.1 argvLoop_length).1 _ _ hrun rfl
  rw [List.length_nil, Nat.zero_add] at hlen
  exact ⟨own, hi, ha', hlen⟩

lemma Inv.execed {held : List Nat} (hi : Inv s own held extra) (ha : Active s i)
    (hrun : KernM.exec i path (some file) argv ⟨m, c, false⟩ s = .ok (ret, op) s') (hret : 0 ≤ ret) :
    ret = argv.length ∧ Execed s own i file argv s' := by
  obtain ⟨-, hd⟩ := (wp_def.1 (exec_spec hi ha)).1 _ _ hrun
  obtain ⟨e, -⟩ | ⟨e, file', ⟨⟩, h⟩ := hd
  · dsimp only at e
    omega
  · exact ⟨e, h⟩

/-- The segments of the file are in memory. Behind the last one there are a page that the user cannot use and the
    stack page, and there the memory of the process ends. -/
structure HasProgram (file : List UInt8) (I : Image) (sz : Nat) : Prop where
  segment : ∀ ph ∈ segments file, ph.Placed file I
  guard : ∃ p, I (npages (loadEnd file)) = some p ∧ p.flags &&& PTE_U = 0
  stack : ∃ p, I (npages (loadEnd file) + 1) = some p ∧ p.flags &&& PTE_U ≠ 0 ∧ p.flags &&& PTE_R ≠ 0 ∧
    p.flags &&& PTE_W ≠ 0
  size : sz = (npages (loadEnd file) + 2) * PGSIZE

omit [Layout] in
lemma Execed.hasProgram (he : Execed s own i file argv s') (hf : Ascending file) :
    HasProgram file (Xv6n.image s'.mem (s'.proc i).pagetable) (s'.proc i).sz := by
  have hhdrs : execHdrs file = fileHdrs file := execHdrs_eq fun h0 => by
    have := hf.table h0
    omega
  have himg : progImage file = (segments file).foldl (ProgHdr.load file) (0, fun _ => none) := by
    unfold progImage segments
    rw [hhdrs, foldl_load_filter]
  have hload : ∀ ph ∈ segments file, ph.type = ELF_PROG_LOAD ∧ ph.Loadable file := by
    intro ph hp
    obtain ⟨h1, h2⟩ := List.mem_filter.1 hp
    rw [decide_eq_true_eq] at h2
    exact ⟨h2, he.loads.segment ph (by rw [← hhdrs] at h1; exact h1) h2⟩
  have hsize : (progImage file).1 = loadEnd file := by
    rw [himg]
    exact foldl_load_size fun ph hp => (hload ph hp).1
  obtain ⟨-, hplaced⟩ := foldl_placed (x := (0, fun _ => none)) hload hf.offset hf.order fun ph _ _ => Nat.zero_le _
  rw [← himg] at hplaced
  have hab := he.image
  rw [hsize] at hab
  refine ⟨fun ph hp => ?_, ?_, ?_, ?_⟩
  · -- the stack is above all segments
    refine (hplaced ph hp).congr (hload ph hp).2.fits (n := npages (loadEnd file)) ?_ fun v hv => ?_
    · exact npages_mono (le_foldl_end.2 ph hp)
    · rw [hab.below v (by omega), Image.stack_below hv]
  · rw [hab.below _ (Nat.lt_succ_self _), Image.stack_guard]
    exact ⟨_, rfl, by decide⟩
  · have hflags := hab.flags (npages (loadEnd file) + 1)
    rw [Image.stack_top] at hflags
    obtain ⟨p, hp, hf⟩ := Option.map_eq_some_iff.1 hflags
    refine ⟨p, hp, ?_⟩
    rw [hf]
    decide
  · rw [he.size, hsize]

/-- For every program file whose offsets are below 2 GB and whose segments are in ascending order without a common
    page: if `exec` succeeds then the program is in memory. -/
theorem exec_loads_image (hc : Collected i argv s) (hf : Ascending file)
    (hrun : KernM.exec i path (some file) argv ⟨m, c, false⟩ s = .ok (ret, op) s') (hret : 0 ≤ ret) :
    HasProgram file (image s'.mem (s'.proc i).pagetable) (s'.proc i).sz := by
  obtain ⟨own, hi, ha, -⟩ := hc.inv
  exact (hi.execed ha hrun hret).2.hasProgram hf

lemma Started.reads {j : Fin NPROC} {va : Nat} {l : List UInt8} (h : Started s j extra)
    (hl : ReadsAt s.mem (s.proc j).pagetable va l) (h1 : initcode.length ≤ va) (h2 : va + l.length ≤ PGSIZE) :
    ∀ b ∈ l, b = 0 := by
  intro b hb
  obtain ⟨k, hk, rfl⟩ := List.mem_iff_getElem.1 hb
  obtain ⟨a, ha, hmem⟩ := hl k hk
  obtain ⟨-, rfl⟩ := phys_mapped ha
  obtain ⟨p, hp, -, hz⟩ := h.page
  obtain ⟨-, -, rfl⟩ := image_eq_some hp
  have hlt : va + k < PGSIZE := by omega
  have hmod : (va + k) % 2 ^ 64 = va + k := Nat.mod_eq_of_lt (by simp only [PGSIZE] at hlt; omega)
  rw [← hmem, hmod, Nat.div_eq_of_lt hlt, Nat.mod_eq_of_lt hlt]
  exact hz ⟨va + k, hlt⟩ (by dsimp only; omega)

lemma Started.mapped {j : Fin NPROC} {va : Nat} (h : Started s j extra) (hva : va < PGSIZE) :
    UserMapped s.mem (s.proc j).pagetable va := by
  obtain ⟨p, hp, huser, -⟩ := h.page
  exact mapped_of_flags (f := p.flags) (by rw [Nat.div_eq_of_lt hva, hp]; rfl) huser

lemma Started.argvLoop {j : Fin NPROC} (h : Started s j extra) :
    KernM.argvLoop j 2048 MAXARG 0 [] s = .ok ([], true) s := by
  obtain ⟨own, hi⟩ := h.inv
  have ht := hi.userTable (hi.pagetable_ne (i := j) (.inr (.inl h.runnable)))
  have hwp : wp (KernM.argvLoop j 2048 MAXARG 0 []) (fun a s' => a = ([], true) ∧ s' = s) Never s := by
    rw [show MAXARG = 31 + 1 from rfl, KernM.argvLoop, wp_bind]
    unfold fetchaddr
    rw [wp_bind, wp_get]
    dsimp only
    rw [h.sz, if_neg (by decide), wp_bind]
    refine wp_mono (copyinLoop_spec ht (by decide) (Nat.le_refl _)) ?_
    rintro ⟨l, ok⟩ _ ⟨rfl, hread, he⟩
    dsimp only at hread he
    have hok : ok = true := (he.iff hread.mapped).2 fun k hk => by
      rw [Nat.mod_eq_of_lt (by omega)]
      exact h.mapped (by simp only [PGSIZE]; omega)
    have hlen := he.all hok
    have hzero : l = List.replicate 8 0 :=
      List.eq_replicate_iff.2 ⟨hlen, h.reads hread (by decide) (by rw [hlen]; decide)⟩
    rw [wp_pure, hok, hzero, if_pos rfl]
    dsimp only
    rw [if_pos (by decide), wp_pure]
    exact ⟨rfl, rfl⟩
  obtain ⟨_, _, hrun, rfl, rfl⟩ := hwp.returns
  exact hrun

lemma exists_collected : ∃ s i, Collected i [] s ∧ Supply 0 247 s := by
  obtain ⟨s, hs, hsup, j, hj⟩ := exists_supplied
  exact ⟨s, j, ⟨s, 2048, hs, .inr (.inl hj.runnable), hj.argvLoop⟩, hsup⟩

lemma Collected.succeeds {n : Nat} {h : Fin NCPU} (hc : Collected i [] s) (hr : Runs file n)
    (S : Supply h (5 + (elfHdr file).phnum * (3 * n) + 3 * (n + 2)) s) (hn : n ≤ 2 ^ 15) (path : List UInt8)
    (m c : Nat) : ∃ op s', KernM.exec i path (some file) [] ⟨m, c, false⟩ s = .ok (0, op) s' := by
  obtain ⟨own, hi, ha, -⟩ := hc.inv
  have hexec : wp (KernM.exec i path (some file) [] ⟨m, c, false⟩) _ _ s := exec_spec hi ha
  obtain ⟨⟨ret, op⟩, s', hrun, -, hd⟩ := hexec.returns
  obtain ⟨-, hfull⟩ | ⟨e, -⟩ := hd
  · have := hfull file rfl (hr.stackMapped hn hi ha S) [] ⟨nofun, .nil, by decide⟩
    exact absurd this (by decide)
  · dsimp only at e
    exact ⟨op, s', by rw [hrun, e]; rfl⟩

/-- A program that loads eight bytes of itself into the first page, which may be read and executed. -/
def sampleProgram : List UInt8 := words
  [ELF_MAGIC, 0, 0, 0, ElfHdr.size, 0, 0, 1, ELF_PROG_LOAD + 5 * 2 ^ 32, 120, 0, 0, 8, PGSIZE, 0, 65]

section
omit [Layout]

lemma elfHdr_sample : elfHdr sampleProgram = ⟨ELF_MAGIC, 0, ElfHdr.size, 1⟩ := rfl

lemma length_sample : sampleProgram.length = 128 := length_words _

lemma segments_sample : segments sampleProgram = [⟨ELF_PROG_LOAD, 5, 120, 0, 8, PGSIZE⟩] := rfl

lemma execHdrs_sample : execHdrs sampleProgram = [⟨ELF_PROG_LOAD, 5, 120, 0, 8, PGSIZE⟩] := rfl

lemma runs_sample : Runs sampleProgram 1 := by
  refine ⟨by rw [length_sample]; decide, by rw [elfHdr_sample], ?_, ?_⟩
  · rw [elfHdr_sample, InFile, length_sample]
    decide
  · rw [execHdrs_sample]
    intro ph hp _
    rw [List.mem_singleton.1 hp]
    refine ⟨⟨by decide, by decide, by decide, ?_⟩, by decide, by decide⟩
    rw [InFile, length_sample]
    decide

lemma ascending_sample : Ascending sampleProgram := by
  refine ⟨fun _ => ?_, ?_, ?_⟩
  · rw [elfHdr_sample]
    decide
  · rw [segments_sample]
    intro ph hp _
    rw [List.mem_singleton.1 hp]
    decide
  · rw [segments_sample]
    exact List.pairwise_singleton ..

/-- The first process runs the sample program, which is in memory then. -/
theorem exec_loads_image_sample : ∃ s i op s', @Collected sampleLayout i [] s ∧ Ascending sampleProgram ∧
    @KernM.exec sampleLayout i [] (some sampleProgram) [] ⟨0, 0, false⟩ s = .ok (0, op) s' ∧
    HasProgram sampleProgram (image s'.mem (s'.proc i).pagetable) (s'.proc i).sz := by
  let _layout := sampleLayout
  obtain ⟨s, i, hc, hsup⟩ := exists_collected
  obtain ⟨op, s', hrun⟩ := hc.succeeds runs_sample (hsup.less (by rw [elfHdr_sample]; decide)) (by decide) [] 0 0
  exact ⟨s, i, op, s', hc, ascending_sample, hrun, exec_loads_image hc ascending_sample hrun (Int.le_refl _)⟩

end

/-- What the program headers name is inside the file, and it is what `exec` loads. -/
structure Inside (file : List UInt8) : Prop where
  table : ∀ k < (elfHdr file).phnum * ProgHdr.size, (elfHdr file).phoff + k < file.length
  segment : ∀ ph ∈ segments file, ∀ k < ph.filesz, ph.off + k < file.length
  bytes : ∀ ph ∈ segments file, ph.bytes file = (file.drop ph.off).take ph.filesz

/-- For every file that `exec` runs: what its headers name is inside the file exactly if the offsets have 32 bits. -/
theorem exec_inside_iff (hc : Collected i argv s) (hlen : file.length < 2 ^ 32)
    (hrun : KernM.exec i path (some file) argv ⟨m, c, false⟩ s = .ok (ret, op) s') (hret : 0 ≤ ret) :
    Inside file ↔ (0 < (elfHdr file).phnum → (elfHdr file).phoff < 2 ^ 32) ∧
      ∀ ph ∈ segments file, 0 < ph.filesz → ph.off < 2 ^ 32 := by
  obtain ⟨own, hi, ha, -⟩ := hc.inv
  obtain ⟨-, he⟩ := hi.execed ha hrun hret
  constructor
  · intro h
    refine ⟨fun h0 => ?_, fun ph hp h0 => ?_⟩
    · have := h.table 0 (Nat.mul_pos h0 (by decide))
      omega
    · have := h.segment ph hp 0 h0
      omega
  · rintro ⟨h1, h2⟩
    have hseg : ∀ ph ∈ segments file, ph.Loadable file := by
      intro ph hp
      obtain ⟨h3, h4⟩ := List.mem_filter.1 hp
      rw [← execHdrs_eq h1] at h3
      rw [decide_eq_true_eq] at h4
      exact he.loads.segment ph h3 h4
    refine ⟨fun k hk => ?_, fun ph hp k hk => ?_, fun ph hp => ?_⟩
    · obtain ⟨-, h3⟩ := he.loads.table (by omega)
      rw [Nat.mod_eq_of_lt (h1 (Nat.pos_of_mul_pos_right (Nat.lt_of_le_of_lt (Nat.zero_le k) hk)))] at h3
      omega
    · obtain ⟨-, h3⟩ := (hseg ph hp).inFile (by omega)
      rw [Nat.mod_eq_of_lt (h2 ph hp (by omega))] at h3
      omega
    · unfold ProgHdr.bytes
      obtain h0 | h0 := Nat.eq_zero_or_pos ph.filesz
      · rw [h0, List.take_zero, List.take_zero]
      · rw [Nat.mod_eq_of_lt (h2 ph hp h0)]

omit [Layout] in
/-- The sample program stays inside its file. -/
theorem exec_inside_sample : ∃ s i op s', @Collected sampleLayout i [] s ∧ sampleProgram.length < 2 ^ 32 ∧
    @KernM.exec sampleLayout i [] (some sampleProgram) [] ⟨0, 0, false⟩ s = .ok (0, op) s' ∧ Inside sampleProgram := by
  let _layout := sampleLayout
  obtain ⟨s, i, hc, hsup⟩ := exists_collected
  obtain ⟨op, s', hrun⟩ := hc.succeeds runs_sample (hsup.less (by rw [elfHdr_sample]; decide)) (by decide) [] 0 0
  have hlen : sampleProgram.length < 2 ^ 32 := by rw [length_sample]; decide
  refine ⟨s, i, op, s', hc, hlen, hrun, (exec_inside_iff hc hlen hrun (Int.le_refl _)).2 ⟨fun _ => ?_, ?_⟩⟩
  · rw [elfHdr_sample]
    decide
  · rw [segments_sample]
    intro ph hp _
    rw [List.mem_singleton.1 hp]
    decide

/-- A file of 120 bytes with one program header, which is said to be 4 GB behind its place. -/
def farProgram : List UInt8 := words [ELF_MAGIC, 0, 0, 0, 2 ^ 32 + ElfHdr.size, 0, 0, 1, 0, 0, 0, 0, 0, 0, 0]

section
omit [Layout]

lemma elfHdr_far : elfHdr farProgram = ⟨ELF_MAGIC, 0, 2 ^ 32 + ElfHdr.size, 1⟩ := rfl

lemma length_far : farProgram.length = 120 := length_words _

lemma runs_far : Runs farProgram 0 := by
  refine ⟨by rw [length_far]; decide, by rw [elfHdr_far], ?_, ?_⟩
  · rw [elfHdr_far, InFile, length_far]
    decide
  · intro ph hp htype
    have : execHdrs farProgram = [⟨0, 0, 0, 0, 0, 0⟩] := rfl
    rw [this] at hp
    rw [List.mem_singleton.1 hp] at htype
    cases htype

/-- `exec` runs a file whose headers are not in it. -/
theorem exec_not_inside : ∃ s i op s', @Collected sampleLayout i [] s ∧
    @KernM.exec sampleLayout i [] (some farProgram) [] ⟨0, 0, false⟩ s = .ok (0, op) s' ∧ ¬ Inside farProgram := by
  let _layout := sampleLayout
  obtain ⟨s, i, hc, hsup⟩ := exists_collected
  obtain ⟨op, s', hrun⟩ := hc.succeeds runs_far (hsup.less (by rw [elfHdr_far]; decide)) (by decide) [] 0 0
  refine ⟨s, i, op, s', hc, hrun, fun h => ?_⟩
  have := h.table 0 (by rw [elfHdr_far]; decide)
  rw [elfHdr_far, length_far] at this
  revert this
  decide

end

end Xv6n
