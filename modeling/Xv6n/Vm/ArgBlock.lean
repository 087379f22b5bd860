import Xv6n.Vm.Program

/-!
# The argument block of a new program

`exec` pushes the argument strings one below the other, each aligned to 16 bytes, and below them the array
of pointers. The stack pointer only moves down, so that no string is written over; what fits is decided by
the sum of the rounded lengths.
-/

namespace Xv6n
open Lib KernM

section push
variable {I : Image} {sp x : Nat} {strs : List (List UInt8)}

lemma Image.byteAt_push (hsp : strsSize strs ≤ sp) (hx : x < sp - strsSize strs ∨ sp ≤ x) :
    (I.push sp strs).byteAt x = I.byteAt x := by
  induction strs generalizing I sp with
  | nil => rfl
  | cons str strs ih =>
    rw [strsSize] at hsp hx
    have hal := le_align16 (n := str.length + 1)
    have hlen : (str ++ [0]).length = str.length + 1 := by rw [List.length_append, List.length_singleton]
    rw [Image.push, ih (by omega) (by omega), Image.byteAt_write]
    obtain h | h : x < sp - align16 (str.length + 1) ∨ sp - align16 (str.length + 1) + (str ++ [0]).length ≤ x := by
      omega
    · simp only [if_neg (Nat.not_le.2 h), Option.map_id']
    · have hdef : ∀ b, (str ++ [0]).getD (x - (sp - align16 (str.length + 1))) b = b :=
        fun b => List.getD_eq_default _ _ (by omega)
      simp only [hdef, ite_self, Option.map_id']

lemma Image.flags_push {v : Nat} : ((I.push sp strs) v).map Page.flags = (I v).map Page.flags := by
  induction strs generalizing I sp with
  | nil => rfl
  | cons str strs ih => rw [Image.push, ih, Image.flags_write]

lemma Image.push_strings (hsp : strsSize strs ≤ sp)
    (hmap : ∀ x, sp - strsSize strs ≤ x → x < sp → I.byteAt x ≠ none) :
    List.Forall₂ (fun (p : Nat) (str : List UInt8) => ∀ k (h : k < (str ++ [0]).length),
      (I.push sp strs).byteAt (p + k) = some (str ++ [0])[k]) (argPtrs sp strs) strs := by
  induction strs generalizing I sp with
  | nil => exact .nil
  | cons str strs ih =>
    rw [strsSize] at hsp hmap
    have hal := le_align16 (n := str.length + 1)
    have hlen : (str ++ [0]).length = str.length + 1 := by rw [List.length_append, List.length_singleton]
    rw [argPtrs, Image.push]
    refine .cons (fun k hk => ?_) (ih (by omega) fun x h1 h2 => ?_)
    · obtain ⟨b, hb⟩ := Option.ne_none_iff_exists'.1
        (hmap (sp - align16 (str.length + 1) + k) (by omega) (by omega))
      rw [Image.byteAt_push (by omega) (by omega), Image.byteAt_write, hb, Option.map_some, if_pos (by omega),
        Nat.add_sub_cancel_left, List.getD_eq_getElem _ _ hk]
    · rw [Image.byteAt_write, Ne, Option.map_eq_none_iff]
      exact hmap x (by omega) (by omega)

lemma argPtrs_between (hsp : strsSize strs ≤ sp) :
    List.Forall₂ (fun p str => sp - strsSize strs ≤ p ∧ p + str.length + 1 ≤ sp) (argPtrs sp strs) strs := by
  induction strs generalizing sp with
  | nil => exact .nil
  | cons str strs ih =>
    rw [strsSize] at hsp
    have hal := le_align16 (n := str.length + 1)
    rw [argPtrs, strsSize]
    refine .cons (by omega) ((ih (by omega)).imp fun p str' h => ?_)
    omega

lemma argPtrs_apart (hsp : strsSize strs ≤ sp) :
    ((argPtrs sp strs).zip strs).Pairwise fun a b => b.1 + b.2.length + 1 ≤ a.1 := by
  induction strs generalizing sp with
  | nil => exact List.Pairwise.nil
  | cons str strs ih =>
    rw [strsSize] at hsp
    rw [argPtrs, List.zip_cons_cons, List.pairwise_cons]
    have hrest : strsSize strs ≤ sp - align16 (str.length + 1) := by omega
    exact ⟨fun b hb => ((List.forall₂_iff_zip.1 (argPtrs_between hrest)).2 hb).2, ih hrest⟩

end push

/-- The arguments of a program in its memory: an array of pointers with a null pointer behind them, and the strings
    that they point to. All of it is in the last page below `sz`, and nothing overlaps. -/
structure ArgBlock (mem : Nat → UInt8) (r sz a1 : Nat) (ptrs : List Nat) (strs : List (List UInt8)) : Prop where
  aligned : a1 % 16 = 0
  page : sz - PGSIZE ≤ a1
  array : ReadsAt mem r a1 (words (ptrs ++ [0]))
  string : List.Forall₂ (fun p str => ReadsAt mem r p (str ++ [0])) ptrs strs
  inside : List.Forall₂ (fun p str => a1 + (words (ptrs ++ [0])).length ≤ p ∧ p + str.length + 1 ≤ sz) ptrs strs
  apart : (ptrs.zip strs).Pairwise fun a b => b.1 + b.2.length + 1 ≤ a.1

lemma readsAt_of_image {mem : Nat → UInt8} {r va t : Nat} {l : List UInt8} (ht : UserTable mem r)
    (hf : (image mem r t).map Page.flags = some stackPerm) (h1 : t * PGSIZE ≤ va)
    (h2 : va + l.length ≤ (t + 1) * PGSIZE)
    (hb : ∀ k (h : k < l.length), (image mem r).byteAt (va + k) = some l[k]) : ReadsAt mem r va l := by
  intro k hk
  have hdiv : (va + k) / PGSIZE = t := Nat.div_eq_of_lt_le (by omega) (by omega)
  obtain ⟨p, hp, -⟩ := Option.map_eq_some_iff.1 hf
  have hmod : (va + k) % 2 ^ 64 = va + k := by
    refine Nat.mod_eq_of_lt ?_
    have hv := (image_eq_some hp).1
    have : (t + 1) * PGSIZE < 2 ^ 64 := by
      simp only [NVPN, PGSIZE] at *
      omega
    omega
  have hm : UserMapped mem r (va + k) := mapped_of_flags (f := stackPerm) (by rw [hdiv]; exact hf) (by decide)
  rw [hmod]
  exact ⟨_, ht.phys_eq hm, byteAt_phys (hb k hk) (ht.phys_eq hm)⟩

lemma argBlock_push {mem : Nat → UInt8} {r base sz : Nat} {J : Image} {strs : List (List UInt8)}
    (hI : image mem r = J.pushArgs sz strs) (hsz : sz = base + PGSIZE) (hmul : sz % 16 = 0)
    (hmap : ∀ x, base ≤ x → x < sz → J.byteAt x ≠ none)
    (hread : ∀ va l, base ≤ va → va + l.length ≤ sz →
      (∀ k (h : k < l.length), (image mem r).byteAt (va + k) = some l[k]) → ReadsAt mem r va l)
    (hfit : argSize strs ≤ PGSIZE) : ArgBlock mem r sz (sz - argSize strs) (argPtrs sz strs) strs := by
  unfold Image.pushArgs at hI
  unfold argSize at *
  have hlen : (words (argPtrs sz strs ++ [0])).length = (strs.length + 1) * 8 := by
    rw [length_words, List.length_append, List.length_singleton, length_argPtrs]
  have hal := le_align16 (n := (strs.length + 1) * 8)
  have hmod := strsSize_mod strs
  have halign : align16 ((strs.length + 1) * 8) % 16 = 0 := Nat.mul_mod_left ..
  have hstrs : strsSize strs ≤ sz := by omega
  have hbetween := List.forall₂_iff_zip.1 (argPtrs_between hstrs)
  have hstring := List.forall₂_iff_zip.1 (Image.push_strings (I := J) hstrs fun x h1 h2 => hmap x (by omega) h2)
  refine ⟨by omega, by omega, hread _ _ (by omega) (by omega) fun k hk => ?_, ?_, ?_, argPtrs_apart hstrs⟩
  · obtain ⟨b, hb⟩ := Option.ne_none_iff_exists'.1
      (hmap (sz - (strsSize strs + align16 ((strs.length + 1) * 8)) + k) (by omega) (by omega))
    rw [hI, Image.byteAt_write, Image.byteAt_push hstrs (by omega), hb, Option.map_some, if_pos (by omega),
      Nat.add_sub_cancel_left, List.getD_eq_getElem _ _ hk]
  · refine List.forall₂_iff_zip.2 ⟨length_argPtrs, fun {p str} hp => ?_⟩
    obtain ⟨h1, h2⟩ := hbetween.2 hp
    have hl : (str ++ [0]).length = str.length + 1 := by rw [List.length_append, List.length_singleton]
    refine hread _ _ (by omega) (by omega) fun k hk => ?_
    -- the array ends below the string
    rw [hI, Image.byteAt_write, hstring.2 hp k hk, Option.map_some, if_pos (by omega),
      List.getD_eq_default _ _ (by omega)]
  · refine List.forall₂_iff_zip.2 ⟨length_argPtrs, fun {p str} hp => ?_⟩
    obtain ⟨h1, h2⟩ := hbetween.2 hp
    omega

lemma argBlock_stack {mem : Nat → UInt8} {r n : Nat} {I : Image} {strs : List (List UInt8)} (ht : UserTable mem r)
    (hI : image mem r = (I.stack n).pushArgs ((n + 2) * PGSIZE) strs) (hfit : argSize strs ≤ PGSIZE) :
    ArgBlock mem r ((n + 2) * PGSIZE) ((n + 2) * PGSIZE - argSize strs) (argPtrs ((n + 2) * PGSIZE) strs) strs := by
  have hflags : (image mem r (n + 1)).map Page.flags = some stackPerm := by
    rw [hI, Image.pushArgs, Image.flags_write, Image.flags_push, Image.stack_top]
    rfl
  refine argBlock_push hI (Nat.succ_mul (n + 1) PGSIZE) ?_ (fun x h1 h2 => ?_)
    (fun va l => readsAt_of_image ht hflags) hfit
  · simp only [PGSIZE]
    omega
  · unfold Image.byteAt
    rw [Nat.div_eq_of_lt_le h1 h2, Image.stack_top]
    nofun

variable [Layout] {s s' : Kernel} {i : Fin NPROC} {argv : List Nat} {strs : List (List UInt8)} {file : List UInt8}

end Xv6n
