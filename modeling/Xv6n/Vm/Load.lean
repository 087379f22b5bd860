import Xv6n.Vm.Moved
import Xv6n.Vm.ProcInv

/-!
# Loading the segments of a program

`exec` builds a second address space beside the one of the process. `Building` says that it has only
worked on this table so far. What the loop over the program headers puts there is a fold over the list
of headers: each segment makes the space grow with pages of zeroes, then the bytes of the file are
written over them.
-/

namespace Xv6n
open Lib KernM

/-- The `n` bytes from offset `off` on are in the file, at offsets of 32 bits. -/
def InFile (file : List UInt8) (off n : Nat) : Prop := 0 < n → off + n < 2 ^ 32 ∧ off + n ≤ file.length

namespace ProgHdr

def read (file : List UInt8) (off : Nat) : ProgHdr := .ofBytes ((file.drop off).take ProgHdr.size)

def perm (ph : ProgHdr) : Nat := PTE_R ||| PTE_U ||| flags2perm ph.flags ||| PTE_V

def bytes (file : List UInt8) (ph : ProgHdr) : List UInt8 := (file.drop (ph.off % 2 ^ 32)).take ph.filesz

/-- A segment is added to an address space, which has a size and pages. -/
def load (file : List UInt8) (x : Nat × Image) (ph : ProgHdr) : Nat × Image :=
  if ph.type = ELF_PROG_LOAD then
    (max x.1 (ph.vaddr + ph.memsz),
      (x.2.grow (npages x.1) (npages (max x.1 (ph.vaddr + ph.memsz))) ph.perm).write ph.vaddr (ph.bytes file))
  else
    x

/-- What `exec` has found out about a segment that it has loaded. -/
structure Loadable (file : List UInt8) (ph : ProgHdr) : Prop where
  fits : ph.filesz ≤ ph.memsz
  bound : ph.vaddr + ph.memsz ≤ 2 ^ 27
  aligned : ph.vaddr % PGSIZE = 0
  inFile : InFile file (ph.off % 2 ^ 32) ph.filesz

end ProgHdr

/-- The `n` program headers from an offset on. -/
def progHdrs (file : List UInt8) : Nat → Nat → List ProgHdr
  | 0, _ => []
  | n + 1, off => .read file off :: progHdrs file n (off + ProgHdr.size)

/-- The segments of `n` program headers have been added to an address space. -/
structure Loads (file : List UInt8) (n off : Nat) (x y : Nat × Image) : Prop where
  table : InFile file off (n * ProgHdr.size)
  segment : ∀ ph ∈ progHdrs file n off, ph.type = ELF_PROG_LOAD → ph.Loadable file
  result : y = (progHdrs file n off).foldl (ProgHdr.load file) x

section file
variable {file : List UInt8} {off n : Nat} {x y : Nat × Image}

lemma readi_length : (readi file off n).length ≤ n := by
  unfold readi
  split
  · exact Nat.zero_le _
  · rw [List.length_take]
    exact Nat.min_le_left ..

lemma readi_full (hoff : off < 2 ^ 32) (h0 : 0 < n) (hn : n < 2 ^ 32) (h : (readi file off n).length = n) :
    off + n < 2 ^ 32 ∧ off + n ≤ file.length ∧ readi file off n = (file.drop off).take n := by
  unfold readi at h ⊢
  split at h
  · rw [List.length_nil] at h
    omega
  · rename_i hc
    rw [List.length_take, List.length_drop] at h
    exact ⟨by omega, by omega, if_neg hc⟩

lemma InFile.readi (h : InFile file off n) : (readi file off n).length = n ∧ readi file off n = (file.drop off).take n := by
  obtain rfl | h0 := Nat.eq_zero_or_pos n
  · unfold Xv6n.readi
    simp
  · obtain ⟨h1, h2⟩ := h h0
    have hc : ¬ (file.length < off ∨ (off + n) % 2 ^ 32 < off) := by omega
    unfold Xv6n.readi
    rw [if_neg hc]
    refine ⟨?_, rfl⟩
    rw [List.length_take, List.length_drop]
    omega

lemma Image.write_take {I : Image} {va m : Nat} {l : List UInt8} (hl : l = (file.drop off).take m)
    (hlen : l.length = m) :
    (I.write va l).write (va + m) ((file.drop (off + m)).take n) = I.write va ((file.drop off).take (m + n)) := by
  rw [List.take_add, ← hl, List.drop_drop, ← hlen]
  exact Image.write_append

lemma InFile.append {m : Nat} (h1 : off + m < 2 ^ 32 ∧ off + m ≤ file.length) (h2 : InFile file (off + m) n) :
    InFile file off (m + n) := by
  intro _
  obtain rfl | h0 := Nat.eq_zero_or_pos n
  · exact h1
  · have := h2 h0
    omega

lemma InFile.part {m : Nat} (h : InFile file off n) (hm : m ≤ n) : InFile file off m := by
  intro h0
  have := h (by omega)
  omega

lemma InFile.rest {m : Nat} (h : InFile file off n) : InFile file (off + m) (n - m) := by
  intro h0
  have := h (by omega)
  omega

lemma segment_turn {I : Image} {va a m : Nat} {l : List UInt8}
    (h : off + a + min (m - a) PGSIZE < 2 ^ 32 ∧ off + a + min (m - a) PGSIZE ≤ file.length)
    (hl : l = (file.drop (off + a)).take (min (m - a) PGSIZE)) (hlen : l.length = min (m - a) PGSIZE)
    (hin : InFile file (off + a + PGSIZE) (m - (a + PGSIZE))) :
    InFile file (off + a) (m - a) ∧
      (I.write (va + a) l).write (va + a + PGSIZE) ((file.drop (off + a + PGSIZE)).take (m - (a + PGSIZE))) =
        I.write (va + a) ((file.drop (off + a)).take (m - a)) := by
  by_cases hm : m - a ≤ PGSIZE
  · -- the last page
    have h0 : m - (a + PGSIZE) = 0 := by omega
    rw [Nat.min_eq_left hm] at h hl
    rw [h0, List.take_zero, Image.write_nil, ← hl]
    exact ⟨fun _ => h, rfl⟩
  · have hsplit : m - a = PGSIZE + (m - (a + PGSIZE)) := by omega
    rw [Nat.min_eq_right (by omega)] at h hl hlen
    rw [hsplit]
    exact ⟨.append h hin, Image.write_take hl hlen⟩

lemma Loads.nil : Loads file 0 off x x := ⟨fun h => absurd h (by omega), nofun, rfl⟩

lemma Loads.cons (hoff : off + ProgHdr.size < 2 ^ 32 ∧ off + ProgHdr.size ≤ file.length)
    (hok : (ProgHdr.read file off).type = ELF_PROG_LOAD → (ProgHdr.read file off).Loadable file)
    (h : Loads file n (off + ProgHdr.size) ((ProgHdr.read file off).load file x) y) : Loads file (n + 1) off x y := by
  refine ⟨?_, fun ph hph => ?_, h.result⟩
  · rw [Nat.succ_mul, Nat.add_comm]
    exact .append hoff h.table
  · obtain rfl | hph := List.mem_cons.1 hph
    · exact hok
    · exact h.segment ph hph

end file

/-- The entry of a page that is being loaded. -/
structure LoadPte (w : Nat) : Prop extends UserPte w where
  user : w &&& PTE_U ≠ 0

variable [Layout] {s s1 s2 s' : Kernel} {own own1 own2 own' : Nat → Owner} {r tf sz va n : Nat} {P : Nat → Prop}

/-- The address space with root `r` and size `sz` that `exec` has built since the state `s`. -/
structure Building (s : Kernel) (own : Nat → Owner) (r tf sz : Nat) (P : Nat → Prop) (s1 : Kernel)
    (own1 : Nat → Owner) : Prop where
  heap : Heap s1 own1 (With (fun r _ => Root s r) r)
  frame : Frame r none s own s1 own1
  shape : Shape s1.mem r (npages sz) P trampolinePte (trapframePte tf)

lemma Inv.userTable {held : List Nat} {extra : Fin NFILE → Nat} {i : Fin NPROC} (hi : Inv s own held extra)
    (h0 : (s.proc i).pagetable ≠ 0) : UserTable s.mem (s.proc i).pagetable :=
  hi.heap.userTable (fun _ => ⟨h0, i, rfl⟩) ((hi.proc i).shape h0).2.hidden

omit [Layout] in
lemma with_self {live : Nat → List Nat → Prop} (path : List Nat) : With live r r path := .inr rfl

lemma Building.write (b : Building s own r tf sz P s1 own1) (w : Wrote (UserOf own1 r) s1 s2) :
    Building s own r tf sz P s2 own1 := by
  have hA : ∀ p, UserOf own1 r p → ¬ (own1 p).Links := fun p => UserOf.not_links
  refine ⟨w.heap b.heap hA, b.frame.trans ⟨w.tables, fun _ _ _ => rfl, fun p _ hpm hout => ?_⟩,
    b.shape.congr fun v => w.pteAt b.heap hA with_self⟩
  refine w.same p hpm ?_
  rintro ⟨v, hv⟩
  rw [hv] at hout
  exact hout rfl

lemma Building.le (b : Building s own r tf sz P s1 own1) (hP : ∀ w, P w → IsLeaf w) : sz ≤ 2 ^ 27 := by
  have h1 := (b.shape.lt b.heap with_self hP).1
  have h2 := le_npages sz
  simp only [PHYSTOP, KERNBASE, PGSIZE] at *
  omega

/-- `loadseg` finds every page of a segment below the size. It succeeds if the file has all the bytes, and they are in
    memory then. -/
lemma loadseg_spec {file : List UInt8} {offset filesz : Nat}
    (b : Building s own r tf sz LoadPte s1 own1) (hva : va % PGSIZE = 0) (hsz : va + filesz ≤ sz)
    (hoff : offset < 2 ^ 32) :
    wp (loadseg r va file offset filesz) (fun ok s' => Building s own r tf sz LoadPte s' own1 ∧
      Wrote (UserOf own1 r) s1 s' ∧ (InFile file offset filesz → ok = true) ∧ (ok = true → InFile file offset filesz ∧
        image s'.mem r = (image s1.mem r).write va ((file.drop offset).take filesz))) Never s1 := by
  have hle := b.shape.le
  have hbound := b.le fun _ h => h.toUserPte.leaf
  -- the pages from page `k` of the segment on
  have loop : ∀ n k s1, Building s own r tf sz LoadPte s1 own1 → k + n = npages filesz →
      (0 < n → offset + k * PGSIZE < 2 ^ 32) →
      wp (loadsegLoop r va file offset filesz n k) (fun ok s' => Building s own r tf sz LoadPte s' own1 ∧
        Wrote (UserOf own1 r) s1 s' ∧ (InFile file (offset + k * PGSIZE) (filesz - k * PGSIZE) → ok = true) ∧
        (ok = true → InFile file (offset + k * PGSIZE) (filesz - k * PGSIZE) ∧ image s'.mem r =
          (image s1.mem r).write (va + k * PGSIZE)
            ((file.drop (offset + k * PGSIZE)).take (filesz - k * PGSIZE)))) Never s1 := by
    intro n
    induction n with
    | zero =>
      intro k s1 b hk _
      have h0 : filesz - k * PGSIZE = 0 := by
        have := le_npages filesz
        rw [Nat.add_zero] at hk
        rw [← hk] at this
        omega
      rw [loadsegLoop, wp_pure, h0, List.take_zero, Image.write_nil]
      exact ⟨b, .refl, fun _ => rfl, fun _ => ⟨fun h => absurd h (by omega), rfl⟩⟩
    | succ n ih =>
      intro k s1 b hk hlt
      have hpage : (va + k * PGSIZE) / PGSIZE < npages sz ∧ va + k * PGSIZE < MAXVA ∧ k * PGSIZE < filesz ∧
          (n = 0 → filesz ≤ (k + 1) * PGSIZE) ∧ (0 < n → (k + 1) * PGSIZE < filesz) := by
        have h1 := le_npages sz
        unfold npages at hk hle h1 ⊢
        simp only [PGSIZE, NVPN, MAXVA] at *
        omega
      obtain ⟨hpn, hmax, hkf, hlast, hmore⟩ := hpage
      have hmod : (va + k * PGSIZE) % 2 ^ 64 = va + k * PGSIZE := by
        apply Nat.mod_eq_of_lt
        simp only [MAXVA] at hmax
        omega
      have hpte := b.shape.user _ hpn
      have hdiv : (va + k * PGSIZE) / PGSIZE * PGSIZE = va + k * PGSIZE := by
        simp only [PGSIZE] at *
        omega
      have hup : userPage s1.mem r (va + k * PGSIZE) =
          some (pte2pa (pteAt s1.mem r ((va + k * PGSIZE) / PGSIZE))) := by
        have h0 := b.heap.pte2pa_ne_zero with_self (lt_nleaf (Nat.lt_of_lt_of_le hpn hle))
          (not_top_of_lt (Nat.lt_of_lt_of_le hpn hle)) hpte.valid
        unfold userPage
        rw [if_pos ⟨hmax, hpte.valid, hpte.user, h0⟩]
      obtain ⟨hu, hum⟩ := b.heap.userPage_own with_self b.shape.hidden hup
      rw [loadsegLoop, hmod, wp_bind, wp_walkaddr, hup]
      dsimp only
      rw [Nat.mod_eq_of_lt (hlt (Nat.succ_pos n)), wp_bind, wp_putBytes, ← Nat.add_zero (pte2pa _)]
      generalize hl : readi file (offset + k * PGSIZE) (min (filesz - k * PGSIZE) PGSIZE) = l
      have hlen : l.length ≤ min (filesz - k * PGSIZE) PGSIZE := by
        rw [← hl]
        exact readi_length
      have w := wrote_putBytes (s := s1) (o := 0) (l := l) hum (by omega) hu
      have b2 := b.write w
      have hI := b.heap.image_put (o := 0) (l := l) with_self (Nat.lt_of_lt_of_le hpn hle) hpte.valid (by omega)
      rw [hdiv, Nat.add_zero (va + k * PGSIZE)] at hI
      rw [wp_ite]
      refine ⟨fun hfull => ?_, fun hshort => ?_⟩
      rotate_left
      · rw [wp_pure]
        refine ⟨b2, w, fun hin => absurd ?_ hshort, nofun⟩
        rw [← hl]
        exact (hin.part (Nat.min_le_left ..)).readi.1
      rw [← hl] at hfull
      obtain ⟨h1, h2, h3⟩ := readi_full (hlt (Nat.succ_pos n)) (Nat.lt_min.2 ⟨by omega, by decide⟩)
        (Nat.lt_of_le_of_lt (Nat.min_le_right ..) (by decide)) hfull
      rw [hl] at h3 hfull
      have hsucc : (k + 1) * PGSIZE = k * PGSIZE + PGSIZE := Nat.succ_mul ..
      rw [hsucc] at hlast hmore
      refine wp_mono (ih (k + 1) _ b2 (by omega) fun hn => ?_) ?_
      · have := hmore hn
        rw [Nat.min_eq_right (by omega)] at h1
        rw [hsucc, ← Nat.add_assoc]
        exact h1
      rintro ok s3 ⟨b3, w3, hcomplete, h4⟩
      refine ⟨b3, w.trans w3, fun hin => hcomplete ?_, fun hok => ?_⟩
      · rw [hsucc, ← Nat.add_assoc, Nat.sub_add_eq]
        exact hin.rest
      obtain ⟨hin, himg⟩ := h4 hok
      dsimp only at himg
      rw [hsucc, ← Nat.add_assoc] at hin
      rw [hsucc, ← Nat.add_assoc, ← Nat.add_assoc] at himg
      rw [himg, hI]
      exact segment_turn ⟨h1, h2⟩ h3 hfull hin
  have h := loop (npages filesz) 0 s1 b (Nat.zero_add _) fun _ => by omega
  rw [Nat.zero_mul, Nat.add_zero, Nat.sub_zero, Nat.add_zero] at h
  exact h

omit [Layout] in
lemma flags2perm_lt {flags : Nat} : flags2perm flags < 1024 := by
  unfold flags2perm
  refine Nat.or_lt_two_pow (n := 10) ?_ ?_
  · split
    · decide
    · decide
  · split
    · decide
    · decide

omit [Layout] in
lemma loadPte_mk {q perm : Nat} (h : perm < 1024) :
    LoadPte (pa2pte q ||| (PTE_R ||| PTE_U ||| perm ||| PTE_V)) := by
  have hf : PTE_R ||| PTE_U ||| perm ||| PTE_V < 1024 :=
    Nat.or_lt_two_pow (n := 10) (Nat.or_lt_two_pow (n := 10) (by decide) h) (by decide)
  refine ⟨userPte_mk hf (or_and_ne_zero (.inr (by decide))) ?_, mk_flag hf (by decide) ?_⟩
  · exact or_and_ne_zero (.inl (or_and_ne_zero (.inl (by decide))))
  · exact or_and_ne_zero (.inl (or_and_ne_zero (.inl (by decide))))

lemma Building.grow {newsz perm : Nat} (b : Building s own r tf sz LoadPte s1 own1) (hp : perm < 1024) :
    wp (uvmalloc r sz newsz perm) (fun res s' => ∃ own', (res = 0 ∧ Building s own r tf sz LoadPte s' own' ∨
      res = max sz newsz ∧ Building s own r tf res LoadPte s' own' ∧ image s'.mem r =
        (image s1.mem r).grow (npages sz) (npages res) (PTE_R ||| PTE_U ||| perm ||| PTE_V))) Never s1 := by
  apply wp_mono (uvmalloc_spec b.heap with_self b.shape (fun _ h => h.toUserPte.leaf) hp
    fun q => loadPte_mk hp)
  rintro res s2 ⟨own2, h2, f2, ⟨h3, sh, -⟩ | ⟨h3, sh, hI⟩⟩
  · exact ⟨own2, .inl ⟨h3, h2, b.frame.trans f2, sh⟩⟩
  · exact ⟨own2, .inr ⟨h3, ⟨h2, b.frame.trans f2, sh⟩, hI⟩⟩

omit [Layout] in
lemma getLe_lt {l : List UInt8} {o k : Nat} : getLe l o k < 256 ^ k := le_lt

/-- The loop over the program headers leaves an address space of the size it returns, with the segments in it. -/
lemma loadLoop_spec {file : List UInt8} {off : Nat} (b : Building s own r tf sz LoadPte s1 own1)
    (hoff : off < 2 ^ 32) :
    wp (loadLoop r file n off sz) (fun a s' => (∃ own', Building s own r tf a.1 LoadPte s' own') ∧
      (a.2 = true → Loads file n off (sz, image s1.mem r) (a.1, image s'.mem r))) Never s1 := by
  induction n generalizing off sz s1 own1 with
  | zero =>
    rw [loadLoop, wp_pure]
    exact ⟨⟨own1, b⟩, fun _ => .nil⟩
  | succ n ih =>
    have hbad : (∃ own', Building s own r tf (sz, false).1 LoadPte s1 own') ∧ ((sz, false).2 = true →
        Loads file (n + 1) off (sz, image s1.mem r) ((sz, false).1, image s1.mem r)) := ⟨⟨own1, b⟩, nofun⟩
    rw [loadLoop, wp_ite]
    refine ⟨fun _ => wp_pure.2 hbad, fun hlen => ?_⟩
    rw [not_not] at hlen
    obtain ⟨h1, h2, h3⟩ := readi_full hoff (by decide) (by decide) hlen
    have hph : ProgHdr.ofBytes (readi file off ProgHdr.size) = .read file off := by
      rw [h3]
      rfl
    rw [hph, Nat.mod_eq_of_lt h1]
    rw [wp_ite]
    refine ⟨fun htype => ?_, fun htype => ?_⟩
    · refine wp_mono (ih b h1) ?_
      rintro a s2 ⟨b2, h4⟩
      refine ⟨b2, fun hok => .cons ⟨h1, h2⟩ (fun e => absurd e htype) ?_⟩
      rw [ProgHdr.load, if_neg htype]
      exact h4 hok
    rw [not_not] at htype
    rw [wp_ite]
    refine ⟨fun _ => wp_pure.2 hbad, fun hfile => ?_⟩
    rw [wp_ite]
    refine ⟨fun _ => wp_pure.2 hbad, fun hwrap => ?_⟩
    rw [wp_ite]
    refine ⟨fun _ => wp_pure.2 hbad, fun hmod => ?_⟩
    rw [not_not] at hmod
    have hv : (ProgHdr.read file off).vaddr < 2 ^ 64 := getLe_lt
    have hm : (ProgHdr.read file off).memsz < 2 ^ 64 := getLe_lt
    have hcons := fun y => Loads.cons (n := n) (x := (sz, image s1.mem r)) (y := y) ⟨h1, h2⟩
    simp only [ProgHdr.load, if_pos htype] at hcons
    generalize ProgHdr.read file off = ph at *
    have hend : (ph.vaddr + ph.memsz) % 2 ^ 64 = ph.vaddr + ph.memsz := by omega
    rw [hend, wp_bind]
    apply wp_mono (b.grow flags2perm_lt)
    rintro res s2 ⟨own2, h4⟩
    rw [wp_ite]
    refine ⟨fun hz => ?_, fun hz => ?_⟩
    · rw [wp_pure]
      obtain ⟨_, b2⟩ | ⟨hmax, b2, -⟩ := h4
      · exact ⟨⟨own2, b2⟩, nofun⟩
      · have : sz = res := by omega
        exact ⟨⟨own2, by rwa [this]⟩, nofun⟩
    · obtain ⟨h5, _⟩ | ⟨hmax, b2, hI2⟩ := h4
      · exact absurd h5 hz
      · have hle := b2.le fun _ h => h.toUserPte.leaf
        have hsz : ph.filesz % 2 ^ 32 = ph.filesz := by omega
        rw [hsz, wp_bind]
        apply wp_mono (loadseg_spec b2 hmod (by omega) (Nat.mod_lt _ (by decide)))
        rintro ok s3 ⟨b3, -, -, h5⟩
        cases ok with
        | true =>
          obtain ⟨hin, hI3⟩ := h5 rfl
          rw [if_pos rfl]
          refine wp_mono (ih b3 h1) ?_
          rintro a s4 ⟨b4, h6⟩
          refine ⟨b4, fun hok => hcons _ (fun _ => ⟨by omega, by omega, hmod, hin⟩) ?_⟩
          have h7 := h6 hok
          rw [hI3, hI2, hmax] at h7
          exact h7
        | false =>
          rw [if_neg (by nofun), wp_pure]
          exact ⟨⟨own2, b3⟩, nofun⟩

end Xv6n
