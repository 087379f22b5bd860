import Mathlib.Algebra.Order.BigOperators.Group.Finset
import Mathlib.Data.Fintype.Prod
import Xv6n.Ftable.Basic
import Xv6n.Lib.Refs

/-!
# Who holds a reference

A reference to a file is in a descriptor table or in the hands of a process that is in a call. `dup` sets a
descriptor before it takes the reference, and `exit` drops the reference before it clears the descriptor: in
between, the process has a descriptor `out` that does not count. In the same way an end of a pipe belongs to a file, or
to a process that has just made the pipe or has yet to call `pipeclose`, or has been closed; and a pipe whose ends
are both closed has been freed or is about to be.

The three components below are about the descriptor tables, the counts, and the pipes. Each has one lemma for
each thing that an action or a change of hands does to it.
-/

namespace Xv6n.Ftable
open Lib Function

abbrev Table : Type := Fd → Option FileId

/-- A process in a call knows its own table, and which entry does not count. -/
structure Own where
  tab : Table
  out : Option Fd

/-- What a process in a call knows and holds: its table and the table of its new child, references, files that
    have no type yet, ends of pipes, and pages to free. -/
structure Local (ι : Type) where
  know : Option Own
  child : Option (ι × Table)
  refs : FileId → Nat
  fresh : Set FileId
  ends : Nat × Bool → Nat
  due : Nat → Nat

def Local.rest {ι : Type} : Local ι := ⟨none, none, fun _ => 0, ∅, fun _ => 0, fun _ => 0⟩

def outOf (k : Option Own) : Option Fd := k.bind Own.out

def counted {ι : Type} (know : ι → Option Own) (ofile : ι → Table) (x : ι × Fd) : Option FileId :=
  if outOf (know x.1) = some x.2 then none else ofile x.1 x.2

def endOf (x : File) : Option (Nat × Bool) := if x.type = .pipe then some (x.pipe, x.writable) else none

section
variable {ι : Type}

/-- The tables are as the processes know them, and a process that cannot run has an empty table. -/
structure Tables (know : ι → Option Own) (child : ι → Option (ι × Table)) (ofile : ι → Table) (life : ι → Life) :
    Prop where
  own : ∀ i k, know i = some k → life i = .live ∧ ofile i = k.tab
  made : ∀ i j t, child i = some (j, t) → life j = .used ∧ ofile j = t
  one : ∀ i i' j t t', child i = some (j, t) → child i' = some (j, t') → i = i'
  empty : ∀ i, life i = .unused ∨ life i = .zombie → ofile i = fun _ => none

variable [Fintype ι]

structure Counts (know : ι → Option Own) (held : ι → FileId → Nat) (fresh : ι → Set FileId) (file : FileId → File)
    (ofile : ι → Table) : Prop where
  count : ∀ f, (file f).ref = ((∑ i, held i f + refs (counted know ofile) f : Nat) : Int)
  new : ∀ i f, f ∈ fresh i → held i f = 1 ∧ (file f).ref = 1 ∧ (file f).type = .none
  free : ∀ f, (file f).ref = 0 → (file f).type = .none

structure Pipes (ends : ι → Nat × Bool → Nat) (due : ι → Nat → Nat) (file : FileId → File) (pipe : Nat → Pipe)
    (npipe : Nat) : Prop where
  one : ∀ p w, p < npipe → refs (fun f => endOf (file f)) (p, w) + ∑ i, ends i (p, w) + (pipe p).closes w = 1
  later : ∀ p w, npipe ≤ p → refs (fun f => endOf (file f)) (p, w) + ∑ i, ends i (p, w) + ∑ i, due i p = 0
  opened : ∀ p, p < npipe → ((pipe p).readopen = false ↔ (pipe p).closes false = 1) ∧
    ((pipe p).writeopen = false ↔ (pipe p).closes true = 1)
  freed : ∀ p, p < npipe → (pipe p).frees + ∑ i, due i p =
    if (pipe p).closes false = 1 ∧ (pipe p).closes true = 1 then 1 else 0

structure Inv (g : ι → Local ι) (s : State ι) : Prop where
  tables : Tables (fun i => (g i).know) (fun i => (g i).child) s.ofile s.life
  counts : Counts (fun i => (g i).know) (fun i => (g i).refs) (fun i => (g i).fresh) s.file s.ofile
  pipes : Pipes (fun i => (g i).ends) (fun i => (g i).due) s.file s.pipe s.npipe

end

variable {ι : Type} [DecidableEq ι] {know : ι → Option Own} {child : ι → Option (ι × Table)} {ofile : ι → Table}
  {life : ι → Life} {held : ι → FileId → Nat} {fresh : ι → Set FileId} {file : FileId → File}
  {ends : ι → Nat × Bool → Nat} {due : ι → Nat → Nat} {pipe : Nat → Pipe} {npipe : Nat} {i j : ι} {f : FileId}
  {fd : Fd} {x : Option FileId} {k : Own} {t : Table} {o : Option Own}

/-! ## Tables -/

namespace Tables

section
variable (h : Tables know child ofile life)
include h

omit [DecidableEq ι] in
lemma know_none (hj : life j ≠ .live) : know j = none := by
  cases hk : know j with
  | none => rfl
  | some k => exact absurd (h.own j k hk).1 hj

omit [DecidableEq ι] in
lemma child_ne (hj : life j ≠ .used) : child i ≠ some (j, t) :=
  fun hc => hj (h.made i j t hc).1

lemma enter (hi : life i = .live) (o : Option Fd) :
    Tables (update know i (some ⟨ofile i, o⟩)) child ofile life := by
  refine ⟨?_, h.made, h.one, h.empty⟩
  refine (forall_update_iff know fun j k' => ∀ k, k' = some k → life j = .live ∧ ofile j = k.tab).2
    ⟨?_, fun j _ => h.own j⟩
  intro k e
  cases e
  exact ⟨hi, rfl⟩

lemma leave : Tables (update know i none) child ofile life := by
  refine ⟨?_, h.made, h.one, h.empty⟩
  exact (forall_update_iff know fun j k' => ∀ k, k' = some k → life j = .live ∧ ofile j = k.tab).2
    ⟨nofun, fun j _ => h.own j⟩

lemma setFd (hi : know i = some k) (o : Option Fd) :
    Tables (update know i (some ⟨update k.tab fd x, o⟩)) child
      (update ofile i (update (ofile i) fd x)) life := by
  obtain ⟨hlive, htab⟩ := h.own i k hi
  have hother : ∀ j, j ≠ i → update ofile i (update (ofile i) fd x) j = ofile j :=
    fun j hj => update_of_ne hj ..
  refine ⟨?_, ?_, h.one, ?_⟩
  · refine (forall_update_iff know fun j k' => ∀ k, k' = some k → life j = .live ∧ _ = k.tab).2
      ⟨?_, fun j hj k hk => ?_⟩
    · intro k e
      cases e
      rw [update_self, htab]
      exact ⟨hlive, rfl⟩
    · rw [hother j hj]
      exact h.own j k hk
  · intro j j' t hj
    obtain ⟨h1, h2⟩ := h.made j j' t hj
    rw [hother j' (by rintro rfl; rw [hlive] at h1; cases h1)]
    exact ⟨h1, h2⟩
  · intro j hj
    rw [hother j (by rintro rfl; rw [hlive] at hj; simp at hj)]
    exact h.empty j hj

lemma one_update (hold : ∀ i' j' t', i' ≠ i → child i' = some (j', t') → j' ≠ j) :
    ∀ i1 i2 j' t1 t2, update child i (some (j, t)) i1 = some (j', t1) →
      update child i (some (j, t)) i2 = some (j', t2) → i1 = i2 := by
  intro i1 i2 j' t1 t2 h1 h2
  by_cases e1 : i1 = i
  · subst e1
    by_cases e2 : i2 = i1
    · exact e2.symm
    · rw [update_self] at h1
      rw [update_of_ne e2] at h2
      cases h1
      exact absurd rfl (hold i2 _ _ e2 h2)
  · rw [update_of_ne e1] at h1
    by_cases e2 : i2 = i
    · subst e2
      rw [update_self] at h2
      cases h2
      exact absurd rfl (hold i1 _ _ e1 h1)
    · rw [update_of_ne e2] at h2
      exact h.one i1 i2 j' t1 t2 h1 h2

lemma setChild (hi : child i = some (j, t)) :
    Tables know (update child i (some (j, update t fd x)))
      (update ofile j (update (ofile j) fd x)) life := by
  obtain ⟨hused, htab⟩ := h.made i j t hi
  have hother : ∀ j', j' ≠ j → update ofile j (update (ofile j) fd x) j' = ofile j' :=
    fun j' hj => update_of_ne hj ..
  have hold : ∀ i' j' t', i' ≠ i → child i' = some (j', t') → j' ≠ j := by
    rintro i' j' t' hne hc rfl
    exact hne (h.one i' i j' t' t hc hi)
  refine ⟨?_, ?_, ?_, ?_⟩
  · intro i' k hk
    obtain ⟨h1, h2⟩ := h.own i' k hk
    rw [hother i' (by rintro rfl; rw [hused] at h1; cases h1)]
    exact ⟨h1, h2⟩
  · refine (forall_update_iff child fun _ c => ∀ j' t', c = some (j', t') →
      life j' = .used ∧ update ofile j (update (ofile j) fd x) j' = t').2 ⟨?_, ?_⟩
    · intro j' t' e
      cases e
      rw [update_self, htab]
      exact ⟨hused, rfl⟩
    · intro i' hne j' t' hc
      rw [hother j' (hold i' j' t' hne hc)]
      exact h.made i' j' t' hc
  · exact h.one_update hold
  · intro j' hj'
    rw [hother j' (by rintro rfl; rw [hused] at hj'; simp at hj')]
    exact h.empty j' hj'

lemma allocproc (hj : life j = .unused) :
    Tables know (update child i (some (j, fun _ => none))) ofile (update life j .used) := by
  have hlife : ∀ j', life j' ≠ .unused → update life j .used j' = life j' := by
    intro j' hne
    exact update_of_ne (by rintro rfl; exact hne hj) ..
  have hold : ∀ i' j' t', child i' = some (j', t') → j' ≠ j := by
    rintro i' j' t' hc rfl
    have := (h.made i' j' t' hc).1
    rw [hj] at this
    cases this
  refine ⟨?_, ?_, ?_, ?_⟩
  · intro i' k hk
    obtain ⟨h1, h2⟩ := h.own i' k hk
    rw [hlife i' (by rw [h1]; nofun)]
    exact ⟨h1, h2⟩
  · refine (forall_update_iff child fun _ c => ∀ j' t', c = some (j', t') →
      update life j .used j' = .used ∧ ofile j' = t').2 ⟨?_, ?_⟩
    · intro j' t' e
      cases e
      rw [update_self]
      exact ⟨rfl, h.empty j (.inl hj)⟩
    · intro i' hne j' t' hc
      rw [update_of_ne (hold i' j' t' hc)]
      exact h.made i' j' t' hc
  · exact h.one_update fun i' j' t' _ => hold i' j' t'
  · intro j' hj'
    by_cases e : j' = j
    · subst e
      rw [update_self] at hj'
      simp at hj'
    · rw [update_of_ne e] at hj'
      exact h.empty j' hj'

lemma setLife {v : Life} (hk : know j = none)
    (hc : ∀ i' t', child i' ≠ some (j, t')) (hv : v = .unused ∨ v = .zombie → ofile j = fun _ => none) :
    Tables know child ofile (update life j v) := by
  refine ⟨?_, ?_, h.one, ?_⟩
  · intro i' k hk'
    rw [update_of_ne (by rintro rfl; rw [hk] at hk'; cases hk')]
    exact h.own i' k hk'
  · intro i' j' t' hc'
    rw [update_of_ne (by rintro rfl; exact hc i' t' hc')]
    exact h.made i' j' t' hc'
  · exact (forall_update_iff life fun j' v => v = .unused ∨ v = .zombie → ofile j' = fun _ => none).2
      ⟨hv, fun j' _ => h.empty j'⟩

lemma dropChild : Tables know (update child i none) ofile life := by
  have hsub : ∀ i' c, update child i none i' = some c → child i' = some c := by
    intro i' c e
    by_cases e' : i' = i
    · subst e'
      rw [update_self] at e
      cases e
    · rwa [update_of_ne e'] at e
  exact ⟨h.own, fun i' j' t' e => h.made i' j' t' (hsub i' _ e),
    fun i1 i2 j' t1 t2 h1 h2 => h.one i1 i2 j' t1 t2 (hsub _ _ h1) (hsub _ _ h2), h.empty⟩

end

end Tables

/-! ## Counts -/

lemma counted_congr (h : outOf o = outOf (know i)) :
    counted (update know i o) ofile = counted know ofile := by
  funext y
  unfold counted
  by_cases e : y.1 = i
  · rw [e, update_self, h]
  · rw [update_of_ne e]

lemma counted_setFd (h : outOf (know i) = some fd ∨ outOf (know i) = none ∧ ofile i fd = none)
    (ho : outOf o = some fd ∨ outOf o = none ∧ x = none) :
    counted (update know i o) (update ofile i (update (ofile i) fd x)) =
      counted know ofile := by
  funext y
  obtain ⟨j, e⟩ := y
  by_cases hj : j = i
  · subst hj
    simp only [counted, update_self]
    by_cases he : e = fd
    · subst he
      rw [update_self]
      rcases h with h | ⟨h1, h2⟩
      · rcases ho with ho | ⟨h3, rfl⟩
        · rw [if_pos ho, if_pos h]
        · rw [h3, if_neg nofun, if_pos h]
      · rcases ho with ho | ⟨h3, rfl⟩
        · rw [if_pos ho, h1, if_neg nofun, h2]
        · rw [h3, if_neg nofun, h1, if_neg nofun, h2]
    · rw [update_of_ne he]
      have hn : ∀ o, o = some fd ∨ o = none → o ≠ some e := by
        rintro _ (rfl | rfl)
        · exact fun e' => he (Option.some.inj e').symm
        · nofun
      rw [if_neg (hn _ (ho.imp_right And.left)), if_neg (hn _ (h.imp_right And.left))]
  · simp only [counted, update_of_ne hj]

lemma counted_out (h : outOf (know i) = some fd ∧ outOf o = none ∨
    outOf (know i) = none ∧ outOf o = some fd) :
    counted (update know i o) ofile =
      update (counted know ofile) (i, fd) (if outOf o = none then ofile i fd else none) := by
  funext y
  obtain ⟨j, e⟩ := y
  by_cases hj : j = i
  · subst hj
    simp only [counted, update_self]
    by_cases he : e = fd
    · subst he
      rw [update_self]
      rcases h with ⟨_, h2⟩ | ⟨_, h2⟩
      · rw [h2, if_neg nofun, if_pos rfl]
      · rw [h2, if_pos rfl, if_neg nofun]
    · rw [update_of_ne (by simp [he])]
      have hn : ∀ o, o = some fd ∨ o = none → o ≠ some e := by
        rintro _ (rfl | rfl)
        · exact fun e' => he (Option.some.inj e').symm
        · nofun
      unfold counted
      rcases h with ⟨h1, h2⟩ | ⟨h1, h2⟩
      · rw [if_neg (hn _ (.inr h2)), if_neg (hn _ (.inl h1))]
      · rw [if_neg (hn _ (.inl h2)), if_neg (hn _ (.inr h1))]
  · rw [update_of_ne (by simp [hj])]
    simp only [counted, update_of_ne hj]

lemma counted_setChild (h : know j = none) :
    counted know (update ofile j (update (ofile j) fd x)) =
      update (counted know ofile) (j, fd) x := by
  funext y
  obtain ⟨j', e⟩ := y
  have hn : outOf (know j) = none := by rw [h]; rfl
  by_cases hj : j' = j
  · subst hj
    simp only [counted, update_self, hn]
    by_cases he : e = fd
    · subst he
      rw [update_self, update_self, if_neg nofun]
    · rw [update_of_ne he, update_of_ne (by simp [he]), if_neg nofun]
      unfold counted
      rw [hn, if_neg nofun]
  · rw [update_of_ne (by simp [hj])]
    simp only [counted, update_of_ne hj]

variable [Fintype ι]

namespace Counts

section
variable (h : Counts know held fresh file ofile)
include h

lemma held_le : (held i f : Int) ≤ (file f).ref := by
  have h1 : held i f ≤ ∑ j, held j f := le_sum (f := fun j => held j f)
  rw [h.count f]
  omega

lemma ref_pos (hf : counted know ofile (i, fd) = some f) :
    (held j f : Int) + 1 ≤ (file f).ref := by
  have h1 : held j f ≤ ∑ i, held i f := le_sum (f := fun i => held i f)
  have h2 := refs_pos hf
  rw [h.count f]
  omega

lemma held_add (hij : i ≠ j) : (held i f + held j f : Int) ≤ (file f).ref := by
  have h1 : held i f + held j f ≤ ∑ k, held k f := by
    rw [← Finset.add_sum_erase _ (fun k => held k f) (Finset.mem_univ i)]
    refine Nat.add_le_add_left (Finset.single_le_sum (f := fun k => held k f) (fun _ _ => Nat.zero_le _) ?_) _
    exact Finset.mem_erase.2 ⟨hij.symm, Finset.mem_univ j⟩
  rw [h.count f]
  omega

lemma setRef {m : FileId → Nat} {v : File} {b : Set FileId}
    (hm : ∀ f', f' ≠ f → m f' = held i f') (hv : v.ref = (file f).ref + m f - held i f)
    (hb : ∀ f' ∈ b, f' ≠ f → f' ∈ fresh i) (hbf : f ∈ b → m f = 1 ∧ v.ref = 1 ∧ v.type = .none)
    (hothers : ∀ j, j ≠ i → f ∉ fresh j) (hfree : v.ref = 0 → v.type = .none) :
    Counts know (update held i m) (update fresh i b) (update file f v) ofile := by
  refine ⟨fun f' => ?_, fun j f' hf' => ?_, ?_⟩
  · have hsum := sum_update (i := i) (x := held) (l := m) fun l => l f'
    have hc := h.count f'
    by_cases e : f' = f
    · subst e
      rw [update_self, hv, hc]
      omega
    · rw [update_of_ne e, hc]
      have := hm f' e
      omega
  · by_cases e : f' = f
    · subst e
      by_cases ej : j = i
      · subst ej
        rw [update_self] at hf' ⊢
        rw [update_self]
        exact hbf hf'
      · rw [update_of_ne ej] at hf'
        exact absurd hf' (hothers j ej)
    · rw [update_of_ne e]
      by_cases ej : j = i
      · subst ej
        rw [update_self] at hf' ⊢
        rw [hm f' e]
        exact h.new j f' (hb f' hf' e)
      · rw [update_of_ne ej] at hf' ⊢
        exact h.new j f' hf'
  · exact (forall_update_iff file fun f' v => v.ref = 0 → v.type = .none).2 ⟨hfree, fun f' _ => h.free f'⟩

end

omit [DecidableEq ι] in
lemma recount (h : Counts know held fresh file ofile) {know' : ι → Option Own} {ofile' : ι → Table}
    (hc : counted know' ofile' = counted know ofile) : Counts know' held fresh file ofile' := by
  refine ⟨?_, h.new, h.free⟩
  rw [hc]
  exact h.count

lemma exchange (h : Counts know held fresh file ofile) {ofile' : ι → Table} {m : FileId → Nat}
    {y : Option FileId} {z : ι × Fd} (hc : counted (update know i o) ofile' = update (counted know ofile) z y)
    (hm : ∀ f', (m f' : Int) + ptr y f' = held i f' + ptr (counted know ofile z) f')
    (hf : ∀ f' ∈ fresh i, m f' = held i f') :
    Counts (update know i o) (update held i m) fresh file ofile' := by
  refine ⟨fun f' => ?_, fun j f' hf' => ?_, h.free⟩
  · have hsum := sum_update (i := i) (x := held) (l := m) fun l => l f'
    have hr := refs_update (o := counted know ofile) (i := z) (a := f') y
    have := hm f'
    rw [hc, h.count f']
    omega
  · by_cases e : j = i
    · subst e
      rw [update_self, hf f' hf']
      exact h.new j f' hf'
    · rw [update_of_ne e]
      exact h.new j f' hf'

end Counts

/-! ## Pipes -/

namespace Pipes

omit [DecidableEq ι] in
lemma setFile (h : Pipes ends due file pipe npipe) {v : File} (hv : endOf v = endOf (file f)) :
    Pipes ends due (update file f v) pipe npipe := by
  have e : (fun f' => endOf (update file f v f')) = fun f' => endOf (file f') :=
    update_proj hv
  refine ⟨?_, ?_, h.opened, h.freed⟩
  · rw [e]
    exact h.one
  · rw [e]
    exact h.later

lemma exchange (h : Pipes ends due file pipe npipe) {v : File} {m : Nat × Bool → Nat}
    (hm : ∀ y, (m y : Int) + ptr (endOf v) y = ends i y + ptr (endOf (file f)) y) :
    Pipes (update ends i m) due (update file f v) pipe npipe := by
  have e : (fun f' => endOf (update file f v f')) =
      update (fun f' => endOf (file f')) f (endOf v) := update_field
  have hkeep : ∀ y, refs (fun f' => endOf (update file f v f')) y +
      ∑ j, update ends i m j y = refs (fun f' => endOf (file f')) y + ∑ j, ends j y := by
    intro y
    have hsum := sum_update (i := i) (x := ends) (l := m) fun l => l y
    have hr := refs_update (o := fun f' => endOf (file f')) (i := f) (a := y) (endOf v)
    have := hm y
    rw [e]
    omega
  refine ⟨?_, ?_, h.opened, h.freed⟩
  · intro p w hp
    rw [hkeep]
    exact h.one p w hp
  · intro p w hp
    rw [hkeep]
    exact h.later p w hp

lemma alloc (h : Pipes ends due file pipe npipe) {m : Nat × Bool → Nat}
    (hm : ∀ y, m y = ends i y + if y.1 = npipe then 1 else 0) :
    Pipes (update ends i m) due file
      (update pipe npipe ⟨true, true, fun _ => 0, 0⟩) (npipe + 1) := by
  have hsum : ∀ y, ∑ j, update ends i m j y = ∑ j, ends j y + if y.1 = npipe then 1 else 0 := by
    intro y
    have hs := sum_update (i := i) (x := ends) (l := m) fun l => l y
    have := hm y
    omega
  have hcase : ∀ p, p < npipe + 1 → p = npipe ∨ p < npipe ∧ p ≠ npipe := by
    intro p hp
    omega
  refine ⟨fun p w hp => ?_, fun p w hp => ?_, fun p hp => ?_, fun p hp => ?_⟩
  · rw [hsum]
    rcases hcase p hp with rfl | ⟨hp, hne⟩
    · have := h.later p w (Nat.le_refl _)
      rw [update_self, if_pos rfl]
      show _ + 0 = 1
      omega
    · rw [update_of_ne hne, if_neg hne]
      exact h.one p w hp
  · have hne : p ≠ npipe := by omega
    rw [hsum, if_neg hne]
    exact h.later p w (by omega)
  · rcases hcase p hp with rfl | ⟨hp, hne⟩
    · rw [update_self]
      exact ⟨⟨nofun, nofun⟩, nofun, nofun⟩
    · rw [update_of_ne hne]
      exact h.opened p hp
  · rcases hcase p hp with rfl | ⟨hp, hne⟩
    · have := h.later p false (Nat.le_refl _)
      rw [update_self, if_neg nofun]
      show 0 + _ = 0
      omega
    · rw [update_of_ne hne]
      exact h.freed p hp

lemma ends_open (h : Pipes ends due file pipe npipe) {p : Nat} {w : Bool} (he : 0 < ends i (p, w)) :
    p < npipe ∧ (pipe p).closes w = 0 := by
  have h1 : ends i (p, w) ≤ ∑ j, ends j (p, w) := le_sum (f := fun j => ends j (p, w))
  have hp : p < npipe := by
    by_contra hp
    have := h.later p w (by omega)
    omega
  have := h.one p w hp
  exact ⟨hp, by omega⟩

omit [DecidableEq ι] in
lemma closes_le (h : Pipes ends due file pipe npipe) {p : Nat} {w : Bool} (hp : p < npipe) :
    (pipe p).closes w ≤ 1 := by
  have := h.one p w hp
  omega

/-- A process closes an end that it has in hand; if it is the second one, it has to free the page. -/
lemma close (h : Pipes ends due file pipe npipe) {p : Nat} {w : Bool} (he : 0 < ends i (p, w))
    {m : Nat × Bool → Nat} {d : Nat → Nat} (hm : ∀ y, m y + (if y = (p, w) then 1 else 0) = ends i y)
    (hd : ∀ q, d q = due i q + if q = p ∧ (pipe p).closes (!w) = 1 then 1 else 0) :
    Pipes (update ends i m) (update due i d) file
      (update pipe p ((pipe p).close w)) npipe := by
  obtain ⟨hp, h0⟩ := h.ends_open he
  have hsum : ∀ y, ∑ j, update ends i m j y + (if y = (p, w) then 1 else 0) = ∑ j, ends j y := by
    intro y
    have hs := sum_update (i := i) (x := ends) (l := m) fun l => l y
    have := hm y
    omega
  have hdue : ∀ q, ∑ j, update due i d j q =
      ∑ j, due j q + if q = p ∧ (pipe p).closes (!w) = 1 then 1 else 0 := by
    intro q
    have hs := sum_update (i := i) (x := due) (l := d) fun l => l q
    have := hd q
    omega
  refine ⟨fun q v hq => ?_, fun q v hq => ?_, fun q hq => ?_, fun q hq => ?_⟩
  · have h1 := hsum (q, v)
    have h2 := h.one q v hq
    by_cases e : q = p
    · subst e
      rw [update_self]
      by_cases ev : v = w
      · subst ev
        rw [if_pos rfl] at h1
        have hc : ((pipe q).close v).closes v = (pipe q).closes v + 1 := update_self ..
        omega
      · rw [if_neg (by simp [ev])] at h1
        have hc : ((pipe q).close w).closes v = (pipe q).closes v := update_of_ne ev ..
        omega
    · rw [if_neg (by simp [e])] at h1
      rw [update_of_ne e]
      omega
  · have hne : q ≠ p := by omega
    have h1 := hsum (q, v)
    rw [if_neg (by simp [hne])] at h1
    rw [hdue, if_neg (by simp [hne])]
    have := h.later q v hq
    omega
  · by_cases e : q = p
    · subst e
      rw [update_self]
      obtain ⟨h1, h2⟩ := h.opened q hq
      cases w <;> simp [Pipe.close, h0, h1, h2]
    · rw [update_of_ne e]
      exact h.opened q hq
  · rw [hdue]
    have h1 := h.freed q hq
    by_cases e : q = p
    · subst e
      rw [update_self]
      cases w <;> simp_all [Pipe.close]
    · rw [update_of_ne e, if_neg (by simp [e])]
      exact h1

lemma free (h : Pipes ends due file pipe npipe) {p : Nat} {d : Nat → Nat}
    (hd : ∀ q, d q + (if q = p then 1 else 0) = due i q) :
    Pipes ends (update due i d) file
      (update pipe p { pipe p with frees := (pipe p).frees + 1 }) npipe := by
  have hdue : ∀ q, ∑ j, update due i d j q + (if q = p then 1 else 0) = ∑ j, due j q := by
    intro q
    have hs := sum_update (i := i) (x := due) (l := d) fun l => l q
    have := hd q
    omega
  have hkeep : ∀ q, (update pipe p { pipe p with frees := (pipe p).frees + 1 } q).closes = (pipe q).closes ∧
      (update pipe p { pipe p with frees := (pipe p).frees + 1 } q).readopen = (pipe q).readopen ∧
      (update pipe p { pipe p with frees := (pipe p).frees + 1 } q).writeopen = (pipe q).writeopen := by
    intro q
    by_cases e : q = p
    · subst e
      rw [update_self]
      exact ⟨rfl, rfl, rfl⟩
    · rw [update_of_ne e]
      exact ⟨rfl, rfl, rfl⟩
  refine ⟨fun q v hq => ?_, fun q v hq => ?_, fun q hq => ?_, fun q hq => ?_⟩
  · rw [(hkeep q).1]
    exact h.one q v hq
  · have h1 := hdue q
    have := h.later q v hq
    omega
  · rw [(hkeep q).1, (hkeep q).2.1, (hkeep q).2.2]
    exact h.opened q hq
  · rw [(hkeep q).1, ← h.freed q hq, ← hdue q]
    by_cases e : q = p
    · subst e
      rw [update_self, if_pos rfl]
      show _ + 1 + _ = _
      omega
    · rw [update_of_ne e, if_neg e]
      rfl

end Pipes

end Xv6n.Ftable
