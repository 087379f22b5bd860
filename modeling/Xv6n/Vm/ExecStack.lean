import Xv6n.Vm.Load

/-!
# The stack of a new program

After the segments `exec` maps two pages, takes the first from the user, and pushes the argument
strings and then the array of pointers to them onto the second. Each string starts at a multiple of 16
below the one before, so what the block needs is the sum of the rounded lengths; `argSize` is this sum,
and `Image.push` the memory that results.
-/

namespace Xv6n
open Lib KernM Function

def align16 (n : Nat) : Nat := (n + 15) / 16 * 16

def strsSize : List (List UInt8) → Nat
  | [] => 0
  | str :: strs => align16 (str.length + 1) + strsSize strs

def argSize (strs : List (List UInt8)) : Nat := strsSize strs + align16 ((strs.length + 1) * 8)

/-- Where strings go that are pushed from `sp` down. -/
def argPtrs : Nat → List (List UInt8) → List Nat
  | _, [] => []
  | sp, str :: strs => (sp - align16 (str.length + 1)) :: argPtrs (sp - align16 (str.length + 1)) strs

/-- Strings are pushed from `sp` down. -/
def Image.push (I : Image) : Nat → List (List UInt8) → Image
  | _, [] => I
  | sp, str :: strs =>
    (I.write (sp - align16 (str.length + 1)) (str ++ [0])).push (sp - align16 (str.length + 1)) strs

/-- The argument block is pushed from `sp` down. -/
def Image.pushArgs (I : Image) (sp : Nat) (strs : List (List UInt8)) : Image :=
  (I.push sp strs).write (sp - argSize strs) (words (argPtrs sp strs ++ [0]))

def stackPerm : Nat := PTE_R ||| PTE_U ||| PTE_W ||| PTE_V

/-- A guard page and a stack page behind the first `n` pages. -/
def Image.stack (I : Image) (n : Nat) : Image := (I.grow n (n + 2) stackPerm).clear n

/-- Only the bytes from page `t` on may differ. -/
structure Above (t : Nat) (I J : Image) : Prop where
  below : ∀ v < t, J v = I v
  flags : ∀ v, (J v).map Page.flags = (I v).map Page.flags

/-- The page at `p` holds a string. -/
structure StrAt (mem : Nat → UInt8) (p : Nat) (str : List UInt8) : Prop where
  nonzero : 0 ∉ str
  length : str.length < PGSIZE
  byte : ∀ k (h : k < (str ++ [0]).length), mem (p + k) = (str ++ [0])[k]

/-- The strings are in pages that the call holds. -/
structure Args (s : Kernel) (own : Nat → Owner) (argv : List Nat) (strs : List (List UInt8)) : Prop where
  held : ∀ p ∈ argv, own p = .held
  str : List.Forall₂ (StrAt s.mem) argv strs
  few : argv.length < MAXARG

section
variable {I J K : Image} {t a b n sp va : Nat} {l str : List UInt8} {strs : List (List UInt8)} {mem : Nat → UInt8}

lemma Above.refl : Above t I I := ⟨fun _ _ => rfl, fun _ => rfl⟩

lemma Above.trans (h1 : Above t I J) (h2 : Above t J K) : Above t I K :=
  ⟨fun v hv => (h2.below v hv).trans (h1.below v hv), fun v => (h2.flags v).trans (h1.flags v)⟩

lemma Above.write (h : t * PGSIZE ≤ va) : Above t I (I.write va l) := by
  refine ⟨fun v hv => Image.write_below ?_, fun v => Image.flags_write⟩
  exact Nat.le_trans (Nat.mul_le_mul_right _ hv) h

lemma Image.stack_top : I.stack n (n + 1) = some (.zero stackPerm) := by
  unfold Image.stack Image.clear Image.grow
  rw [update_of_ne (by omega), if_pos (by omega)]

lemma Image.stack_guard : I.stack n n = some (.zero (stackPerm &&& (2 ^ 64 - 1 - PTE_U))) := by
  unfold Image.stack Image.clear Image.grow
  rw [update_self, if_pos (by omega)]
  rfl

lemma Image.stack_below {v : Nat} (h : v < n) : I.stack n v = I v := by
  unfold Image.stack Image.clear Image.grow
  rw [update_of_ne (by omega), if_neg (by omega)]

lemma stack_pages : (n + 2) * PGSIZE - 2 * PGSIZE = n * PGSIZE ∧ (n + 2) * PGSIZE - PGSIZE = (n + 1) * PGSIZE := by
  simp only [PGSIZE]
  omega

lemma sub64_lt : sub64 a b < 2 ^ 64 := Nat.mod_lt _ (by decide)

lemma sub64_eq (h : b ≤ a) (ha : a < 2 ^ 64) : sub64 a b = a - b := by
  unfold sub64
  omega

lemma sub64_align (hsp : sp % 16 = 0) (hlt : sp < 2 ^ 64) (h : n ≤ sp) :
    sub64 (sub64 sp n) (sub64 sp n % 16) = sp - align16 n ∧ align16 n ≤ sp ∧ (sp - align16 n) % 16 = 0 := by
  rw [sub64_eq h hlt, sub64_eq (Nat.mod_le ..) (by omega)]
  unfold align16
  omega

lemma le_align16 : n ≤ align16 n := by
  unfold align16
  omega

lemma StrAt.getStr (h : StrAt mem a str) :
    ((List.range PGSIZE).map fun k => mem (a + k)).takeWhile (· ≠ 0) ++ [0] = str ++ [0] := by
  have hlen := h.length
  have htake : ((List.range PGSIZE).map fun k => mem (a + k)).take (str.length + 1) = str ++ [0] := by
    refine List.ext_getElem ?_ fun k h1 h2 => ?_
    · rw [List.length_take, List.length_map, List.length_range, List.length_append, List.length_singleton]
      omega
    · rw [List.getElem_take, List.getElem_map, List.getElem_range]
      exact h.byte k h2
  have hpos : ∀ b ∈ str, decide (b ≠ 0) = true := fun b hb => decide_eq_true fun e => h.nonzero (e ▸ hb)
  rw [← List.take_append_drop (str.length + 1) ((List.range PGSIZE).map fun k => mem (a + k)), htake,
    List.append_assoc, List.takeWhile_append_of_pos hpos, List.singleton_append,
    List.takeWhile_cons_of_neg (by simp), List.append_nil]

lemma strsSize_mod (strs : List (List UInt8)) : strsSize strs % 16 = 0 := by
  induction strs with
  | nil => rfl
  | cons str strs ih =>
    unfold strsSize align16
    omega

lemma length_argPtrs : (argPtrs sp strs).length = strs.length := by
  induction strs generalizing sp with
  | nil => rfl
  | cons str strs ih => exact congrArg (· + 1) ih

lemma length_words (l : List Nat) : (words l).length = l.length * 8 := by
  induction l with
  | nil => rfl
  | cons n l ih =>
    rw [words, List.flatMap_cons, List.length_append, ← words, ih, List.length_map, List.length_range,
      List.length_cons, Nat.succ_mul, Nat.add_comm]

end

section
variable {mem : Nat → UInt8} {r va : Nat} {p : Page}

lemma image_eq_some {v : Nat} (h : image mem r v = some p) :
    v < NVPN - 2 ∧ pteAt mem r v &&& PTE_V ≠ 0 ∧ p = pageOf mem (pteAt mem r v) := by
  unfold image at h
  split at h
  · rename_i hc
    cases h
    exact ⟨hc.1, hc.2, rfl⟩
  · cases h

lemma mapped_of_flags {f : Nat} (h : (image mem r (va / PGSIZE)).map Page.flags = some f)
    (hf : f &&& PTE_U ≠ 0) : UserMapped mem r va := by
  obtain ⟨p, hp, rfl⟩ := Option.map_eq_some_iff.1 h
  obtain ⟨hv, hval, rfl⟩ := image_eq_some hp
  refine ⟨?_, hval, ?_⟩
  · simp only [NVPN, PGSIZE, MAXVA] at *
    omega
  · rwa [and_of_flags (by decide)]

lemma byteAt_phys {b : UInt8} {a : Nat} (h : (image mem r).byteAt va = some b) (ha : phys mem r va = some a) :
    mem a = b := by
  obtain ⟨-, rfl⟩ := phys_mapped ha
  obtain ⟨p, hp, rfl⟩ := Option.map_eq_some_iff.1 h
  obtain ⟨-, -, rfl⟩ := image_eq_some hp
  rfl

end

variable [Layout] {s s1 s2 s' : Kernel} {own own1 own2 own' : Nat → Owner} {r tf sz va t sp : Nat} {P : Nat → Prop}
  {argv ustack : List Nat} {strs : List (List UInt8)}

section
variable (b : Building s own r tf sz P s1 own1)
include b

lemma Building.copyout {src : List UInt8} (hva : va < 2 ^ 64)
    (hl : src.length < 2 ^ 64) :
    wp (KernM.copyout r va src) (fun ok s' => Building s own r tf sz P s' own1 ∧
      (ok = true ↔ ∀ k < src.length, UserMapped s1.mem r ((va + k) % 2 ^ 64)) ∧
      (ok = true → image s'.mem r = (image s1.mem r).write va src)) Never s1 := by
  have ht := b.heap.userTable with_self b.shape.hidden
  refine wp_conseq (wp_and (copyout_spec b.heap with_self b.shape.hidden hva)
    (copyoutLoop_spec ht hva (Nat.le_refl src.length) hl)) ?_ fun _ _ h => h.1
  rintro ok s2 ⟨w, n, m, he⟩
  have hn : (src.take n).length = n := by
    rw [List.length_take, Nat.min_eq_left he.le]
  have hmap : ∀ k < n, UserMapped s1.mem r ((va + k) % 2 ^ 64) := by
    intro k hk
    obtain ⟨a, ha, -⟩ := m.byte k (by omega)
    exact (phys_mapped ha).1
  refine ⟨b.write w, he.iff hmap, fun hok => ?_⟩
  rw [he.all hok, List.take_length] at m
  refine m.image b.heap with_self b.shape.hidden ?_
  -- the last address of all is not mapped
  by_contra hlt
  have hlast := (hmap (2 ^ 64 - 1 - va) (by rw [he.all hok]; omega)).1
  rw [show va + (2 ^ 64 - 1 - va) = 2 ^ 64 - 1 by omega] at hlast
  revert hlast
  decide

/-- Pushing the argument strings writes to the new address space, to its stack page if all goes well. -/
lemma pushLoop_spec (hu : ustack.length ≤ MAXARG) :
    wp (pushLoop r (t * PGSIZE) argv sp ustack) (fun o s' => Building s own r tf sz P s' own1 ∧
      ∀ x, o = some x → x.2.length ≤ MAXARG ∧ Above t (image s1.mem r) (image s'.mem r)) Never s1 := by
  induction argv generalizing sp ustack s1 with
  | nil =>
    rw [pushLoop, wp_pure]
    refine ⟨b, ?_⟩
    rintro _ ⟨⟩
    exact ⟨hu, .refl⟩
  | cons arg argv ih =>
    rw [pushLoop, wp_ite]
    refine ⟨fun _ => by rw [wp_pure]; exact ⟨b, nofun⟩, fun hfew => ?_⟩
    unfold getStr
    rw [wp_bind, wp_bind, wp_getBytes, wp_pure]
    dsimp only
    rw [wp_ite]
    refine ⟨fun _ => by rw [wp_pure]; exact ⟨b, nofun⟩, fun hbase => ?_⟩
    rw [wp_bind]
    refine wp_mono (b.copyout sub64_lt ?_) ?_
    · rw [List.length_append, List.length_singleton]
      have h1 := (List.takeWhile_sublist (l := (List.range PGSIZE).map fun k => s1.mem (arg + k))
        fun x => decide (x ≠ 0)).length_le
      rw [List.length_map, List.length_range] at h1
      simp only [PGSIZE] at h1 ⊢
      omega
    rintro ok s2 ⟨b2, -, h2⟩
    cases ok with
    | true =>
      rw [if_pos rfl]
      refine wp_mono (ih b2 ?_) ?_
      · rw [List.length_append, List.length_singleton]
        omega
      rintro o s3 ⟨b3, h3⟩
      refine ⟨b3, fun x hx => ⟨(h3 x hx).1, .trans ?_ (h3 x hx).2⟩⟩
      rw [h2 rfl]
      exact .write (by omega)
    | false =>
      rw [if_neg (by nofun), wp_pure]
      exact ⟨b2, nofun⟩

lemma Building.strAt {p : Nat} {str : List UInt8} (hi : p % PGSIZE = 0)
    (hp : own p = .held) (h : StrAt s.mem p str) : StrAt s1.mem p str := by
  refine ⟨h.nonzero, h.length, fun k hk => ?_⟩
  have hlen := h.length
  rw [← h.byte k hk]
  rw [List.length_append, List.length_singleton] at hk
  exact b.frame.same p nofun hi (by rw [hp]; trivial) _ (Nat.le_add_right ..) (by omega)

/-- The strings are pushed if they fit between the stack pointer and the start of the page. -/
lemma pushLoop_args (hsp : sp % 16 = 0) (h1 : t * PGSIZE ≤ sp)
    (h2 : sp ≤ (t + 1) * PGSIZE) (ht : 0 < t)
    (hflags : (image s1.mem r t).map Page.flags = some stackPerm) (hheld : ∀ p ∈ argv, p % PGSIZE = 0 ∧ own p = .held)
    (hstr : List.Forall₂ (StrAt s.mem) argv strs) (hfew : ustack.length + argv.length < MAXARG) :
    wp (pushLoop r (t * PGSIZE) argv sp ustack) (fun o s' =>
      (t * PGSIZE + strsSize strs ≤ sp → o = some (sp - strsSize strs, ustack ++ argPtrs sp strs) ∧
        image s'.mem r = (image s1.mem r).push sp strs) ∧
      (sp < t * PGSIZE + strsSize strs → o = none)) Never s1 := by
  have htop : (t + 1) * PGSIZE < 2 ^ 64 := by
    obtain ⟨p, hp, -⟩ := Option.map_eq_some_iff.1 hflags
    have := (image_eq_some hp).1
    simp only [NVPN, PGSIZE] at *
    omega
  induction hstr generalizing sp ustack s1 with
  | nil =>
    rw [pushLoop, wp_pure]
    refine ⟨fun _ => ⟨by rw [argPtrs, List.append_nil]; rfl, rfl⟩, fun h => ?_⟩
    rw [strsSize] at h
    omega
  | @cons p str argv strs hp hstrs ih =>
    rw [List.length_cons] at hfew
    obtain ⟨hpm, hpo⟩ := hheld p (List.mem_cons_self ..)
    have hp1 := b.strAt hpm hpo hp
    have hlen : str.length + 1 ≤ sp := by
      have := hp.length
      simp only [PGSIZE] at *
      omega
    obtain ⟨hsub, hle, hmod⟩ := sub64_align hsp (by omega) hlen
    rw [pushLoop, if_neg (by omega)]
    unfold getStr
    dsimp only
    rw [wp_bind, wp_bind, wp_getBytes, wp_pure, hp1.getStr]
    have hlen' : (str ++ [0]).length = str.length + 1 := by rw [List.length_append, List.length_singleton]
    rw [hlen', hsub, strsSize, wp_ite]
    refine ⟨fun hlt => by rw [wp_pure]; exact ⟨fun h => by omega, fun _ => rfl⟩, fun hge => ?_⟩
    rw [wp_bind]
    have hin : ∀ k < (str ++ [0]).length, (sp - align16 (str.length + 1) + k) % 2 ^ 64 < (t + 1) * PGSIZE ∧
        t * PGSIZE ≤ (sp - align16 (str.length + 1) + k) % 2 ^ 64 := by
      intro k hk
      have := le_align16 (n := str.length + 1)
      rw [Nat.mod_eq_of_lt (by omega)]
      omega
    refine wp_mono (b.copyout (by omega) (by omega)) ?_
    rintro ok s2 ⟨b2, hok, hI⟩
    have hok := hok.2 fun k hk => by
      have hdiv : (sp - align16 (str.length + 1) + k) % 2 ^ 64 / PGSIZE = t :=
        Nat.div_eq_of_lt_le (hin k hk).2 (hin k hk).1
      exact mapped_of_flags (f := stackPerm) (by rw [hdiv, hflags]) (by decide)
    subst hok
    rw [if_pos rfl]
    have hI := hI rfl
    have hlo : t * PGSIZE ≤ sp - align16 (str.length + 1) := Nat.le_of_not_lt hge
    have hhi : sp - align16 (str.length + 1) ≤ (t + 1) * PGSIZE := Nat.le_trans (Nat.sub_le ..) h2
    refine wp_mono (ih b2 hmod hlo hhi ?_ (fun q hq => hheld q (List.mem_cons_of_mem _ hq)) ?_) ?_
    · rw [hI, Image.flags_write, hflags]
    · rw [List.length_append, List.length_singleton]
      omega
    rintro o s3 ⟨h3, h4⟩
    refine ⟨fun h => ?_, fun h => h4 (by omega)⟩
    obtain ⟨h5, h6⟩ := h3 (Nat.le_sub_of_add_le (by rwa [Nat.add_assoc, Nat.add_comm (strsSize strs)]))
    rw [hI] at h6
    refine ⟨?_, h6⟩
    rw [h5, argPtrs, Nat.sub_sub, List.append_assoc, List.singleton_append]

end

/-- What has become of the stack and the arguments since the state `s1`. -/
structure Stacked (s : Kernel) (own : Nat → Owner) (r sz : Nat) (argv : List Nat) (s1 : Kernel) (a : Nat × Option Nat)
    (s' : Kernel) : Prop where
  size : ∀ sp, a.2 = some sp → a.1 = (npages sz + 2) * PGSIZE ∧ sp < 2 ^ 64 ∧
    Above (npages sz + 1) ((image s1.mem r).stack (npages sz)) (image s'.mem r)
  args : ∀ sp, a.2 = some sp → ∀ strs, Args s own argv strs → argSize strs ≤ PGSIZE ∧
    sp = (npages sz + 2) * PGSIZE - argSize strs ∧
    image s'.mem r = ((image s1.mem r).stack (npages sz)).pushArgs ((npages sz + 2) * PGSIZE) strs
  full : a.2 = none → ∀ sz1 s2, uvmalloc r (npages sz * PGSIZE) (npages sz * PGSIZE + 2 * PGSIZE) PTE_W s1 =
    .ok sz1 s2 → sz1 ≠ 0 → ∀ strs, Args s own argv strs → PGSIZE < argSize strs

lemma pushArray_spec (b : Building s own r tf sz P s1 own1) (hu : ustack.length ≤ MAXARG) (hva : va < 2 ^ 64) :
    wp (KernM.copyout r va (words (ustack ++ [0]))) (fun ok s' => Building s own r tf sz P s' own1 ∧
      (ok = true → image s'.mem r = (image s1.mem r).write va (words (ustack ++ [0]))) ∧
      ((image s1.mem r t).map Page.flags = some stackPerm → t * PGSIZE ≤ va →
        va + (ustack.length + 1) * 8 ≤ (t + 1) * PGSIZE → ok = true)) Never s1 := by
  have hlen : (words (ustack ++ [0])).length = (ustack.length + 1) * 8 := by
    rw [length_words, List.length_append, List.length_singleton]
  refine wp_mono (b.copyout hva (by rw [hlen]; simp only [MAXARG] at hu; omega)) ?_
  rintro ok s2 ⟨b2, hok, hI⟩
  refine ⟨b2, hI, fun hflags h1 h2 => hok.2 fun k hk => ?_⟩
  rw [hlen] at hk
  have htop : (t + 1) * PGSIZE < 2 ^ 64 := by
    obtain ⟨p, hp, -⟩ := Option.map_eq_some_iff.1 hflags
    have := (image_eq_some hp).1
    simp only [NVPN, PGSIZE] at *
    omega
  have hmod : (va + k) % 2 ^ 64 = va + k := Nat.mod_eq_of_lt (by omega)
  have hdiv : (va + k) / PGSIZE = t := Nat.div_eq_of_lt_le (by omega) (by omega)
  rw [hmod]
  exact mapped_of_flags (f := stackPerm) (by rw [hdiv, hflags]) (by decide)

lemma pushAll_spec (b : Building s own r tf sz P s1 own1) (hsz : sz = (t + 1) * PGSIZE) (ht : 0 < t)
    (hflags : (image s1.mem r t).map Page.flags = some stackPerm)
    (hheld : ∀ p ∈ argv, own p = .held → p % PGSIZE = 0) :
    wp (do
      match ← pushLoop r (t * PGSIZE) argv sz [] with
      | none => return (sz, none)
      | some (sp, ustack) =>
        let sp := sub64 sp ((ustack.length + 1) * 8)
        let sp := sub64 sp (sp % 16)
        if sp < t * PGSIZE then
          return (sz, none)
        let ok ← KernM.copyout r sp (words (ustack ++ [0]))
        return (sz, if ok then some sp else none)) (fun a s' => Building s own r tf sz P s' own1 ∧ a.1 = sz ∧
      (∀ sp, a.2 = some sp → sp < 2 ^ 64 ∧ Above t (image s1.mem r) (image s'.mem r)) ∧
      ∀ strs, Args s own argv strs → (argSize strs ≤ PGSIZE → a.2 = some (sz - argSize strs) ∧
        image s'.mem r = (image s1.mem r).pushArgs sz strs) ∧ (PGSIZE < argSize strs → a.2 = none)) Never s1 := by
  have hlow : t * PGSIZE ≤ sz ∧ sz - t * PGSIZE = PGSIZE ∧ PGSIZE ≤ t * PGSIZE ∧ sz % 16 = 0 := by
    rw [hsz]
    simp only [PGSIZE]
    omega
  have hmax : sz < 2 ^ 64 := by
    obtain ⟨p, hp, -⟩ := Option.map_eq_some_iff.1 hflags
    have := (image_eq_some hp).1
    rw [hsz]
    simp only [NVPN, PGSIZE] at *
    omega
  obtain ⟨hle, hsub, hpos, hmod⟩ := hlow
  have hargs : wp (pushLoop r (t * PGSIZE) argv sz []) (fun o s' => ∀ strs, Args s own argv strs →
      (t * PGSIZE + strsSize strs ≤ sz → o = some (sz - strsSize strs, argPtrs sz strs) ∧
        image s'.mem r = (image s1.mem r).push sz strs) ∧
      (sz < t * PGSIZE + strsSize strs → o = none)) (fun _ _ => True) s1 := by
    refine wp_forall fun strs => wp_imp fun ha => wp_never (pushLoop_args b hmod hle (Nat.le_of_eq hsz) ht hflags
      (fun p hp => ⟨hheld p hp (ha.held p hp), ha.held p hp⟩) ha.str ?_) ?_
    · rw [List.length_nil, Nat.zero_add]
      exact ha.few
    · intro o s2 h
      rwa [List.nil_append] at h
  rw [wp_bind]
  refine wp_conseq (wp_and (pushLoop_spec b (Nat.zero_le _)) hargs) ?_ fun _ _ h => h.1
  rintro o s2 ⟨⟨b2, h2⟩, h3⟩
  cases o with
  | none =>
    dsimp only
    rw [wp_pure]
    refine ⟨b2, rfl, nofun, fun strs ha => ⟨fun hfit => ?_, fun _ => rfl⟩⟩
    unfold argSize at hfit
    have hstrs : t * PGSIZE + strsSize strs ≤ sz := by
      rw [Nat.add_comm, ← Nat.le_sub_iff_add_le hle, hsub]
      exact Nat.le_trans (Nat.le_add_right ..) hfit
    exact absurd ((h3 strs ha).1 hstrs).1 nofun
  | some x =>
    obtain ⟨sp, ustack⟩ := x
    obtain ⟨hu, hab⟩ := h2 _ rfl
    dsimp only at hu ⊢
    -- what the array needs, when the strings have been pushed
    have hptr : ∀ strs, Args s own argv strs → t * PGSIZE + strsSize strs ≤ sz ∧ ustack = argPtrs sz strs ∧
        sub64 (sub64 sp ((ustack.length + 1) * 8)) (sub64 sp ((ustack.length + 1) * 8) % 16) = sz - argSize strs ∧
        argSize strs ≤ sz ∧ (ustack.length + 1) * 8 ≤ argSize strs ∧
        image s2.mem r = (image s1.mem r).push sz strs := by
      intro strs ha
      have hfit : t * PGSIZE + strsSize strs ≤ sz := by
        by_contra hn
        exact absurd ((h3 strs ha).2 (by omega)) nofun
      obtain ⟨e, hI⟩ := (h3 strs ha).1 hfit
      cases e
      have hroom : (argPtrs sz strs).length + 1 ≤ 33 := by
        simp only [MAXARG] at hu
        omega
      have hmul := strsSize_mod strs
      have hsp : (sz - strsSize strs) % 16 = 0 := by omega
      obtain ⟨h4, h5, -⟩ := sub64_align (n := ((argPtrs sz strs).length + 1) * 8) hsp (by omega)
        (by simp only [PGSIZE] at *; omega)
      have h6 := le_align16 (n := ((argPtrs sz strs).length + 1) * 8)
      rw [length_argPtrs] at h4 h5 h6 ⊢
      unfold argSize
      exact ⟨hfit, rfl, by rw [h4, Nat.sub_sub], by omega, by omega, hI⟩
    rw [wp_ite]
    refine ⟨fun hlt => ?_, fun hge => ?_⟩
    · rw [wp_pure]
      refine ⟨b2, rfl, nofun, fun strs ha => ⟨fun hfit => ?_, fun _ => rfl⟩⟩
      obtain ⟨-, -, e, hle', -⟩ := hptr strs ha
      rw [e] at hlt
      omega
    rw [wp_bind]
    refine wp_mono (pushArray_spec (t := t) b2 hu sub64_lt) ?_
    rintro ok s3 ⟨b3, hI3, hok⟩
    rw [wp_pure]
    refine ⟨b3, rfl, fun sp' hsp => ?_, fun strs ha => ?_⟩
    · cases ok with
      | false => cases hsp
      | true =>
        cases hsp
        rw [hI3 rfl]
        exact ⟨sub64_lt, hab.trans (.write (by omega))⟩
    · obtain ⟨hfit, hus, e, hle', h8, hI2⟩ := hptr strs ha
      rw [e] at hI3 hok hge ⊢
      have hok := hok (by rw [hab.flags, hflags]) (Nat.le_of_not_lt hge) (by rw [← hsz]; omega)
      subst hok
      refine ⟨fun _ => ⟨rfl, ?_⟩, fun h => ?_⟩
      rotate_left
      · simp only [PGSIZE] at *
        omega
      rw [hI3 rfl, hI2, hus]
      rfl

lemma execStack_spec (b : Building s own r tf sz LoadPte s1 own1)
    (hheld : ∀ p ∈ argv, own p = .held → p % PGSIZE = 0) :
    wp (execStack r sz argv) (fun a s' => (∃ own', Building s own r tf a.1 UserPte s' own') ∧
      Stacked s own r sz argv s1 a s') Never s1 := by
  have b0 : Building s own r tf (npages sz * PGSIZE) LoadPte s1 own1 :=
    ⟨b.heap, b.frame, by rw [npages_mul]; exact b.shape⟩
  unfold execStack
  rw [pgRoundUp_eq b.shape.le]
  dsimp only
  rw [wp_bind]
  refine wp_conseq (wp_and (b0.grow (by decide)) (wp_self _ _)) ?_ fun _ _ h => h.1
  rintro res s2 ⟨⟨own2, h2⟩, hrun⟩
  rw [wp_ite]
  refine ⟨fun hz => ?_, fun hz => ?_⟩
  · rw [wp_pure]
    refine ⟨?_, nofun, nofun, fun _ sz1 s3 e hne => ?_⟩
    · obtain ⟨_, b2⟩ | ⟨hmax, _⟩ := h2
      · exact ⟨own2, b2.heap, b2.frame, b2.shape.mono fun _ h => h.toUserPte⟩
      · simp only [PGSIZE] at hmax
        omega
    · cases hrun.symm.trans e
      exact absurd hz hne
  · obtain ⟨h3, _⟩ | ⟨hmax, b2, hI2⟩ := h2
    · exact absurd h3 hz
    have hres : res = (npages sz + 2) * PGSIZE := by
      simp only [PGSIZE] at hmax ⊢
      omega
    obtain ⟨hguard, hbase⟩ := stack_pages (n := npages sz)
    rw [← hres] at hguard hbase
    have hnres : npages res = npages sz + 2 := by rw [hres, npages_mul]
    rw [hnres, npages_mul] at hI2
    rw [hguard, hbase, wp_bind]
    apply wp_mono (uvmclear_spec b2.heap with_self b2.shape (by rw [hnres]; omega) (fun _ h => h.toUserPte.leaf)
      (fun _ h => h.toUserPte) fun w h => ⟨by rw [clear_and rfl]; exact h.valid,
        by rw [clear_and rfl]; exact h.read⟩)
    rintro _ s3 ⟨h3, f3, sh3, hI3⟩
    have b3 : Building s own r tf res UserPte s3 own2 := ⟨h3, b2.frame.trans f3, sh3⟩
    rw [hI2] at hI3
    have hflags : (image s3.mem r (npages sz + 1)).map Page.flags = some stackPerm := by
      rw [hI3]
      exact congrArg (Option.map Page.flags) Image.stack_top
    refine wp_mono (pushAll_spec b3 hres (Nat.succ_pos _) hflags hheld) ?_
    rintro ⟨sz', o⟩ s4 ⟨b4, rfl, hab, hargs⟩
    rw [hI3] at hab hargs
    refine ⟨⟨own2, b4⟩, fun sp hsp => ⟨hres, hab sp hsp⟩, fun sp hsp strs ha => ?_, fun ho _ _ _ _ strs ha => ?_⟩
    · have hfit : argSize strs ≤ PGSIZE := by
        by_contra hn
        have := (hargs strs ha).2 (by omega)
        rw [this] at hsp
        cases hsp
      obtain ⟨e, hI⟩ := (hargs strs ha).1 hfit
      rw [hsp] at e
      cases e
      rw [← hres]
      exact ⟨hfit, rfl, hI⟩
    · by_contra hn
      have := ((hargs strs ha).1 (by omega)).1
      rw [this] at ho
      cases ho

end Xv6n
