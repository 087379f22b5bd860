import Xv6n.Ftable.Inv

/-!
# The system calls keep the counts

Each action does to the record of its process what it does to the tables, so each call can be run whatever the
other processes do, and ends with nothing in hand.
-/

namespace Xv6n.Ftable
open Lib Prog Function

variable {ι : Type} [DecidableEq ι] [Fintype ι] {g : ι → Local ι} {s : State ι} {i j : ι} {l : Local ι} {f : FileId}
  {d : Fd} {t : Table} {k : Own} {f' : FileId} {p : Nat}

lemma ptr_add {α : Type} [DecidableEq α] {m : α → Nat} {y z : α} :
    (update m y (m y + 1) z : Int) + ptr (none : Option α) z = m z + ptr (some y) z := by
  unfold ptr
  by_cases e : z = y
  · subst e
    simp
  · rw [update_of_ne e, if_neg nofun, if_neg fun e' => e (Option.some.inj e').symm]

lemma ptr_sub {α : Type} [DecidableEq α] {m : α → Nat} {y z : α} (h : 0 < m y) :
    (update m y (m y - 1) z : Int) + ptr (some y) z = m z + ptr (none : Option α) z := by
  unfold ptr
  by_cases e : z = y
  · subst e
    simp
    omega
  · rw [update_of_ne e, if_neg fun e' => e (Option.some.inj e').symm, if_neg nofun]

abbrev Runs {α : Type} (i : ι) (x : FileM ι α) (l : Local ι) (Q : α → Local ι → Prop) : Prop :=
  Safe (fun i => act i) Inv (fun _ _ => True) (fun _ => False) i x l Q

namespace Local

def add (l : Local ι) (f : FileId) : Local ι := { l with refs := update l.refs f (l.refs f + 1) }

def sub (l : Local ι) (f : FileId) : Local ι := { l with refs := update l.refs f (l.refs f - 1) }

def drop (l : Local ι) (f : FileId) : Local ι := { l.sub f with fresh := l.fresh \ {f} }

def new (l : Local ι) (f : FileId) : Local ι := { l.add f with fresh := insert f l.fresh }

def opened (l : Local ι) (f : FileId) : Local ι := { l with fresh := l.fresh \ {f} }

def addEnd (l : Local ι) (y : Nat × Bool) : Local ι := { l with ends := update l.ends y (l.ends y + 1) }

def subEnd (l : Local ι) (y : Nat × Bool) : Local ι := { l with ends := update l.ends y (l.ends y - 1) }

def addDue (l : Local ι) (p : Nat) : Local ι := { l with due := update l.due p (l.due p + 1) }

def subDue (l : Local ι) (p : Nat) : Local ι := { l with due := update l.due p (l.due p - 1) }

section
omit [DecidableEq ι] [Fintype ι]

lemma subEnd_addEnd {y : Nat × Bool} : (l.addEnd y).subEnd y = l := by
  simp [addEnd, subEnd]

lemma subDue_addDue : (l.addDue p).subDue p = l := by
  simp [addDue, subDue]

lemma addEnd_pos {y : Nat × Bool} : 0 < (l.addEnd y).ends y := by
  simp [addEnd]

lemma addDue_pos : 0 < (l.addDue p).due p := by
  simp [addDue]

end

def setTab (l : Local ι) (t : Table) (o : Option Fd) : Local ι := { l with know := some ⟨t, o⟩ }

def setChild (l : Local ι) (j : ι) (t : Table) : Local ι := { l with child := some (j, t) }

/-- The record of a process that has nothing in hand and knows its table. -/
def idle (t : Table) : Local ι := rest.setTab t none

section
omit [DecidableEq ι] [Fintype ι]

lemma add_pos : 0 < (l.add f).refs f := by
  simp [add]

lemma sub_add : (l.add f).sub f = l := by
  simp [add, sub]

lemma drop_add_idle : ((idle t).add f).drop f = (idle t : Local ι) := by
  simp [add, drop, sub, idle, rest, setTab]

lemma opened_new (h : f ∉ l.fresh) : (l.new f).opened f = l.add f := by
  simp [new, opened, add, Set.insert_sdiff_of_mem, Set.sdiff_singleton_eq_self h]

lemma opened_new_ne (h : f ≠ f') : (l.new f).opened f' = (l.opened f').new f := by
  simp [new, opened, add, Set.insert_sdiff_of_notMem, h]

lemma drop_new_ne (h : f ≠ f') : (l.new f).drop f' = (l.drop f').new f := by
  simp [new, drop, sub, add, Set.insert_sdiff_of_notMem, h, h.symm, update_comm h]

lemma drop_add_ne (h : f ≠ f') : (l.add f).drop f' = (l.drop f').add f := by
  simp [drop, sub, add, h, h.symm, update_comm h]

lemma sub_add_ne (h : f ≠ f') : (l.add f).sub f' = (l.sub f').add f := by
  simp [sub, add, h, h.symm, update_comm h]

lemma add_comm (h : f ≠ f') : (l.add f).add f' = (l.add f').add f := by
  simp [add, h, h.symm, update_comm h]

lemma subEnd_addEnd_ne {y z : Nat × Bool} (h : y ≠ z) : (l.addEnd y).subEnd z = (l.subEnd z).addEnd y := by
  simp [addEnd, subEnd, h, h.symm, update_comm h]

lemma drop_new (h : f ∉ l.fresh) : (l.new f).drop f = l := by
  simp [new, drop, sub, add, Set.insert_sdiff_of_mem, Set.sdiff_singleton_eq_self h]

end

end Local

section same
variable {file : FileId → File} {ofile : ι → Table} {life : ι → Life} {pipe : Nat → Pipe} {npipe : Nat}

omit [Fintype ι] in
lemma Tables.same (h : Tables (fun j => (g j).know) (fun j => (g j).child) ofile life) (hk : l.know = (g i).know)
    (hc : l.child = (g i).child) :
    Tables (fun j => (update g i l j).know) (fun j => (update g i l j).child) ofile life := by
  rw [update_proj hk, update_proj hc]
  exact h

lemma Counts.same (h : Counts (fun j => (g j).know) (fun j => (g j).refs) (fun j => (g j).fresh) file ofile)
    (hk : l.know = (g i).know) (hr : l.refs = (g i).refs) (hf : l.fresh = (g i).fresh) :
    Counts (fun j => (update g i l j).know) (fun j => (update g i l j).refs)
      (fun j => (update g i l j).fresh) file ofile := by
  rw [update_proj hk, update_proj hr, update_proj hf]
  exact h

lemma Pipes.same (h : Pipes (fun j => (g j).ends) (fun j => (g j).due) file pipe npipe) (he : l.ends = (g i).ends)
    (hd : l.due = (g i).due) :
    Pipes (fun j => (update g i l j).ends) (fun j => (update g i l j).due) file pipe npipe := by
  rw [update_proj he, update_proj hd]
  exact h

omit [Fintype ι] in
lemma Tables.knows (h : Tables (update (fun j => (g j).know) i l.know) (fun j => (g j).child) ofile life)
    (hc : l.child = (g i).child) :
    Tables (fun j => (update g i l j).know) (fun j => (update g i l j).child) ofile life := by
  rw [update_field, update_proj hc]
  exact h

omit [Fintype ι] in
lemma Tables.children (h : Tables (fun j => (g j).know) (update (fun j => (g j).child) i l.child) ofile life)
    (hk : l.know = (g i).know) :
    Tables (fun j => (update g i l j).know) (fun j => (update g i l j).child) ofile life := by
  rw [update_proj hk, update_field]
  exact h

lemma Counts.knows (h : Counts (update (fun j => (g j).know) i l.know) (fun j => (g j).refs)
    (fun j => (g j).fresh) file ofile) (hr : l.refs = (g i).refs) (hf : l.fresh = (g i).fresh) :
    Counts (fun j => (update g i l j).know) (fun j => (update g i l j).refs)
      (fun j => (update g i l j).fresh) file ofile := by
  rw [update_field, update_proj hr, update_proj hf]
  exact h

lemma Counts.hands (h : Counts (fun j => (g j).know) (update (fun j => (g j).refs) i l.refs)
    (update (fun j => (g j).fresh) i l.fresh) file ofile) (hk : l.know = (g i).know) :
    Counts (fun j => (update g i l j).know) (fun j => (update g i l j).refs)
      (fun j => (update g i l j).fresh) file ofile := by
  rw [update_proj hk, update_field, update_field]
  exact h

lemma Counts.trades (h : Counts (update (fun j => (g j).know) i l.know)
    (update (fun j => (g j).refs) i l.refs) (fun j => (g j).fresh) file ofile) (hf : l.fresh = (g i).fresh) :
    Counts (fun j => (update g i l j).know) (fun j => (update g i l j).refs)
      (fun j => (update g i l j).fresh) file ofile := by
  rw [update_field, update_field, update_proj hf]
  exact h

lemma Pipes.dues (h : Pipes (fun j => (g j).ends) (update (fun j => (g j).due) i l.due) file pipe npipe)
    (he : l.ends = (g i).ends) :
    Pipes (fun j => (update g i l j).ends) (fun j => (update g i l j).due) file pipe npipe := by
  rw [update_proj he, update_field]
  exact h

lemma Pipes.hands (h : Pipes (update (fun j => (g j).ends) i l.ends) (fun j => (g j).due) file pipe npipe)
    (hd : l.due = (g i).due) :
    Pipes (fun j => (update g i l j).ends) (fun j => (update g i l j).due) file pipe npipe := by
  rw [update_field, update_proj hd]
  exact h

end same

namespace Inv

lemma fresh_other (h : Inv g s) (hf : 0 < (g i).refs f) (hj : j ≠ i) : f ∉ (g j).fresh := by
  intro hn
  obtain ⟨h1, h2, _⟩ := h.counts.new j f hn
  have h3 := h.counts.held_add (f := f) hj
  omega

lemma fresh_counted (h : Inv g s) (hf : counted (fun j => (g j).know) s.ofile (i, d) = some f) : f ∉ (g j).fresh := by
  intro hn
  obtain ⟨h1, h2, _⟩ := h.counts.new j f hn
  have h3 := h.counts.ref_pos (j := j) hf
  omega

omit [DecidableEq ι] in
lemma counted_own (h : Inv g s) (hk : (g i).know = some k) (hf : k.tab d = some f) (ho : k.out ≠ some d) :
    counted (fun j => (g j).know) s.ofile (i, d) = some f := by
  obtain ⟨_, ht⟩ := h.tables.own i k hk
  show (if outOf (g i).know = some d then none else s.ofile i d) = some f
  rw [hk, ht, hf]
  exact if_neg ho

end Inv

/-! ## Files -/

lemma runs_filealloc : Runs i (perform .filealloc) l fun r l' =>
    r = none ∧ l' = l ∨ ∃ f, r = some f ∧ l.refs f = 0 ∧ l' = l.new f := by
  refine .perform ?_
  rintro g s hg rfl
  refine wp_bind.2 (wp_get.2 ?_)
  cases e : freeFile s.file with
  | none =>
    refine wp_pure.2 ⟨trivial, g i, ?_, .inl ⟨rfl, rfl⟩⟩
    rwa [update_eq_self]
  | some f =>
    have h0 : (s.file f).ref = 0 := by simpa using List.find?_some e
    have hheld : ∀ j, (g j).refs f = 0 := by
      intro j
      have := hg.counts.held_le (i := j) (f := f)
      omega
    refine wp_bind.2 (wp_set.2 (wp_pure.2 ⟨trivial, _, ?_, .inr ⟨f, rfl, hheld i, rfl⟩⟩))
    refine ⟨hg.tables.same rfl rfl, ?_, (?_ : Pipes _ _ _ _ _)⟩
    · refine Counts.hands ?_ rfl
      refine hg.counts.setRef (fun f' hf' => update_of_ne hf' ..) ?_ (fun f' hf' hne => hf'.resolve_left hne)
        (fun _ => ⟨?_, rfl, hg.counts.free f h0⟩) (fun j hj hn => ?_) nofun
      · show (1 : Int) = _ + (update (g i).refs f _ f : Nat) - _
        rw [update_self, h0]
        omega
      · show update (g i).refs f _ f = 1
        rw [update_self, hheld i]
      · have h1 : (g j).refs f = 1 := (hg.counts.new j f hn).1
        rw [hheld j] at h1
        cases h1
    · exact (hg.pipes.setFile (v := { s.file f with ref := 1 }) rfl).same rfl rfl

lemma runs_filedup (hk : l.know = some k) (hf : k.tab d = some f) (ho : k.out ≠ some d) :
    Runs i (perform (.filedup f)) l fun _ l' => l' = l.add f := by
  refine .perform ?_
  rintro g s hg rfl
  have hcount := hg.counted_own hk hf ho
  have hpos := hg.counts.ref_pos (j := i) hcount
  refine wp_bind.2 (wp_get.2 ?_)
  rw [if_neg (by omega)]
  refine wp_set.2 ⟨trivial, _, ?_, rfl⟩
  refine ⟨hg.tables.same rfl rfl, ?_, (?_ : Pipes _ _ _ _ _)⟩
  · refine Counts.hands ?_ rfl
    refine hg.counts.setRef (fun f' hf' => update_of_ne hf' ..) ?_ (fun f' hf' hne => hf') (fun hn => ?_)
      (fun j _ => hg.fresh_counted hcount) fun h0 => ?_
    · show (s.file f).ref + 1 = _ + (update (g i).refs f _ f : Nat) - _
      rw [update_self]
      omega
    · exact absurd hn (hg.fresh_counted hcount)
    · change (s.file f).ref + 1 = 0 at h0
      omega
  · exact (hg.pipes.setFile (v := { s.file f with ref := (s.file f).ref + 1 }) rfl).same rfl rfl

/-- The locked part of `fileclose`; the last one to close a pipe's file has the end in hand. -/
lemma runs_closeLocked (hf : 0 < l.refs f) : Runs i (perform (.fileclose f)) l fun r l' =>
    r = none ∧ l' = l.drop f ∨
      ∃ ff, r = some ff ∧ l' = match endOf ff with
        | none => l.drop f
        | some y => (l.drop f).addEnd y := by
  refine .perform ?_
  rintro g s hg rfl
  have hpos := hg.counts.held_le (i := i) (f := f)
  have hm : ∀ f', f' ≠ f → ((g i).drop f).refs f' = (g i).refs f' := fun f' hf' => update_of_ne hf' ..
  have hmf : ((g i).drop f).refs f = (g i).refs f - 1 := update_self ..
  refine wp_bind.2 (wp_get.2 ?_)
  rw [if_neg (by omega)]
  refine wp_ite.2 ⟨fun hlt => ?_, fun hlt => ?_⟩
  · refine wp_bind.2 (wp_set.2 (wp_pure.2 ⟨trivial, _, ?_, .inl ⟨rfl, rfl⟩⟩))
    refine ⟨hg.tables.same rfl rfl, ?_, (?_ : Pipes _ _ _ _ _)⟩
    · refine Counts.hands ?_ rfl
      refine hg.counts.setRef hm ?_ (fun f' hf' _ => hf'.1) (fun hn => absurd rfl hn.2)
        (fun j hj => hg.fresh_other hf hj) fun h0 => ?_
      · rw [hmf]
        show (s.file f).ref - 1 = _
        omega
      · change (s.file f).ref - 1 = 0 at h0
        omega
    · exact (hg.pipes.setFile (v := { s.file f with ref := (s.file f).ref - 1 }) rfl).same rfl rfl
  · have hone : (s.file f).ref = 1 := by omega
    have hc : Counts (fun j => (g j).know) (update (fun j => (g j).refs) i ((g i).drop f).refs)
        (update (fun j => (g j).fresh) i ((g i).drop f).fresh)
        (update s.file f { s.file f with ref := 0, type := .none }) s.ofile := by
      refine hg.counts.setRef hm ?_ (fun f' hf' _ => hf'.1) (fun hn => absurd rfl hn.2)
        (fun j hj => hg.fresh_other hf hj) fun _ => rfl
      show (0 : Int) = _ + (((g i).drop f).refs f : Nat) - _
      rw [hmf, hone]
      omega
    refine wp_bind.2 (wp_set.2 (wp_pure.2 ⟨trivial, _, ?_, .inr ⟨_, rfl, rfl⟩⟩))
    cases e : endOf (s.file f) with
    | none => exact ⟨hg.tables.same rfl rfl, .hands hc rfl, (hg.pipes.setFile (v := { s.file f with ref := 0, type := .none }) e.symm).same rfl rfl⟩
    | some y =>
      refine ⟨hg.tables.same rfl rfl, .hands hc rfl, .hands ?_ rfl⟩
      refine hg.pipes.exchange fun z => ?_
      rw [e]
      exact ptr_add

lemma Inv.counts_opened (hg : Inv g s) (hf : f ∈ (g i).fresh) {v : File} (hv : v.ref = (s.file f).ref) :
    Counts (fun j => (g j).know) (update (fun j => (g j).refs) i (g i).refs)
      (update (fun j => (g j).fresh) i ((g i).fresh \ {f})) (update s.file f v) s.ofile := by
  obtain ⟨h1, h2, -⟩ := hg.counts.new i f hf
  refine hg.counts.setRef (fun _ _ => rfl) ?_ (fun f' hf' _ => hf'.1) (fun hn => absurd rfl hn.2)
    (fun j hj => hg.fresh_other (by omega) hj) fun h0 => ?_
  · rw [hv]
    omega
  · rw [hv] at h0
    omega

lemma runs_setFile {type : FileType} {readable writable : Bool} (ht : type ≠ .pipe) (hf : f ∈ l.fresh) :
    Runs i (perform (.setFile f type readable writable)) l fun _ l' => l' = l.opened f := by
  refine .perform ?_
  rintro g s hg rfl
  obtain ⟨-, -, h3⟩ := hg.counts.new i f hf
  refine wp_modify.2 ⟨trivial, _, ?_, rfl⟩
  refine ⟨hg.tables.same rfl rfl, .hands (hg.counts_opened hf rfl) rfl, (?_ : Pipes _ _ _ _ _)⟩
  · refine (hg.pipes.setFile ?_).same rfl rfl
    unfold endOf
    rw [h3, if_neg ht, if_neg nofun]

lemma runs_setPipe {readable writable : Bool} (hf : f ∈ l.fresh) (he : 0 < l.ends (p, writable)) :
    Runs i (perform (.setPipe f readable writable p)) l fun _ l' =>
      l' = (l.subEnd (p, writable)).opened f := by
  refine .perform ?_
  rintro g s hg rfl
  obtain ⟨-, -, h3⟩ := hg.counts.new i f hf
  refine wp_modify.2 ⟨trivial, _, ?_, rfl⟩
  refine ⟨hg.tables.same rfl rfl, .hands (hg.counts_opened hf rfl) rfl, (?_ : Pipes _ _ _ _ _)⟩
  · refine Pipes.hands ?_ rfl
    refine hg.pipes.exchange fun y => ?_
    have hold : endOf (s.file f) = none := by
      unfold endOf
      rw [h3, if_neg nofun]
    rw [hold]
    exact ptr_sub he

/-! ## Pipes -/

lemma runs_kalloc {ok : Bool} : Runs i (perform (.kalloc ok)) l fun r l' =>
    r = none ∧ l' = l ∨ ∃ p, r = some p ∧ l' = (l.addEnd (p, false)).addEnd (p, true) := by
  refine .perform ?_
  rintro g s hg rfl
  refine wp_bind.2 (wp_get.2 (wp_ite.2 ⟨fun _ => wp_pure.2 ⟨trivial, g i, ?_, .inl ⟨rfl, rfl⟩⟩, fun _ => ?_⟩))
  · rwa [update_eq_self]
  · refine wp_bind.2 (wp_set.2 (wp_pure.2 ⟨trivial, _, ?_, .inr ⟨_, rfl, rfl⟩⟩))
    refine ⟨hg.tables.same rfl rfl, hg.counts.same rfl rfl rfl, ?_⟩
    refine .hands (hg.pipes.alloc fun y => ?_) rfl
    obtain ⟨p, w⟩ := y
    by_cases e : p = s.npipe
    · subst e
      cases w <;> simp [Local.addEnd]
    · simp [Local.addEnd, e]

/-- The locked part of `pipeclose`; whoever closes the second end has to free the page. -/
lemma runs_pipeclose {w : Bool} (he : 0 < l.ends (p, w)) :
    Runs i (perform (.pipeclose p w)) l fun last l' =>
      l' = if last = true then (l.subEnd (p, w)).addDue p else l.subEnd (p, w) := by
  refine .perform ?_
  rintro g s hg rfl
  obtain ⟨hp, h0⟩ := hg.pipes.ends_open he
  obtain ⟨h1, h2⟩ := hg.pipes.opened p hp
  have hlast : ((decide (((s.pipe p).close w).readopen = false) && decide (((s.pipe p).close w).writeopen = false)) =
      true) = ((s.pipe p).closes (!w) = 1) := by
    cases w <;> simp [Pipe.close, ← h1, ← h2]
  have hends : ∀ y, update (g i).ends (p, w) ((g i).ends (p, w) - 1) y + (if y = (p, w) then 1 else 0) =
      (g i).ends y := by
    intro y
    by_cases e : y = (p, w)
    · subst e
      rw [update_self, if_pos rfl]
      omega
    · rw [update_of_ne e, if_neg e]
      rfl
  refine wp_bind.2 (wp_get.2 (wp_bind.2 (wp_set.2 (wp_pure.2 ⟨trivial, _, ?_, rfl⟩))))
  split
  · rename_i hl
    rw [hlast] at hl
    refine ⟨hg.tables.same rfl rfl, hg.counts.same rfl rfl rfl, ?_⟩
    rw [update_field, update_field]
    refine hg.pipes.close he hends fun q => ?_
    show update (g i).due p _ q = _
    by_cases e : q = p
    · subst e
      rw [update_self, if_pos ⟨rfl, hl⟩]
      rfl
    · rw [update_of_ne e, if_neg (by simp [e])]
      rfl
  · rename_i hl
    rw [hlast] at hl
    refine ⟨hg.tables.same rfl rfl, hg.counts.same rfl rfl rfl, ?_⟩
    rw [update_field, update_field]
    refine hg.pipes.close he hends fun q => ?_
    rw [if_neg (by simp [hl])]
    rfl

lemma runs_kfree (hd : 0 < l.due p) : Runs i (perform (.kfree p)) l fun _ l' => l' = l.subDue p := by
  refine .perform ?_
  rintro g s hg rfl
  refine wp_modify.2 ⟨trivial, _, ?_, rfl⟩
  refine ⟨hg.tables.same rfl rfl, hg.counts.same rfl rfl rfl, .dues (hg.pipes.free fun q => ?_) rfl⟩
  show update (g i).due p _ q + _ = _
  by_cases e : q = p
  · subst e
    rw [update_self, if_pos rfl]
    omega
  · rw [update_of_ne e, if_neg e]
    rfl

lemma runs_fileclose (hf : 0 < l.refs f) : Runs i (fileclose f) l fun _ l' => l' = l.drop f := by
  unfold fileclose
  refine .bind (runs_closeLocked hf) ?_
  rintro _ _ (⟨rfl, rfl⟩ | ⟨ff, rfl, rfl⟩)
  · exact .ret rfl
  · refine .ite (fun ht => ?_) fun ht => ?_
    · have he : endOf ff = some (ff.pipe, ff.writable) := if_pos ht
      rw [he]
      refine .next (runs_pipeclose ?_) fun last => ?_
      · exact Local.addEnd_pos
      rw [Local.subEnd_addEnd]
      cases last with
      | true =>
        refine .mono (runs_kfree ?_) ?_
        · exact Local.addDue_pos
        · rintro _ _ rfl
          exact Local.subDue_addDue
      | false => exact .ret rfl
    · have he : endOf ff = none := if_neg ht
      rw [he]
      exact .ret rfl

/-! ## Descriptors -/

lemma runs_getFd {o : Option Fd} (hk : l.know = some ⟨t, o⟩) :
    Runs i (perform (.getFd d)) l fun r l' => r = t d ∧ l' = l := by
  refine .perform ?_
  rintro g s hg rfl
  refine wp_bind.2 (wp_get.2 (wp_pure.2 ⟨trivial, g i, ?_, ?_, rfl⟩))
  · rwa [update_eq_self]
  · rw [(hg.tables.own i _ hk).2]

lemma runs_setFd {x : Option FileId} (hk : l.know = some k) (ho : k.out = some d ∨ k.out = none ∧ k.tab d = none) :
    Runs i (perform (.setFd d x)) l fun _ l' =>
      l' = l.setTab (update k.tab d x) (if x = none then none else some d) := by
  refine .perform ?_
  rintro g s hg rfl
  have ht := (hg.tables.own i k hk).2
  refine wp_modify.2 ⟨trivial, _, ?_, rfl⟩
  refine ⟨?_, ?_, hg.pipes.same rfl rfl⟩
  · exact .knows (hg.tables.setFd hk _) rfl
  · refine .knows (hg.counts.recount (counted_setFd ?_ ?_)) rfl rfl
    · show outOf (g i).know = _ ∨ outOf (g i).know = _ ∧ s.ofile i d = none
      rw [hk, ht]
      exact ho
    · cases x with
      | none => exact .inr ⟨rfl, rfl⟩
      | some f => exact .inl rfl

lemma Inv.settle (hg : Inv g s) (hk : (g i).know = some k) (ho : k.out = some d) (hf : k.tab d = some f)
    (hr : 0 < (g i).refs f) (hn : f ∉ (g i).fresh) :
    Inv (update g i (((g i).sub f).setTab k.tab none)) s := by
  obtain ⟨hlive, ht⟩ := hg.tables.own i k hk
  have hout : outOf (g i).know = some d := by rw [hk]; exact ho
  have hnone : counted (fun j => (g j).know) s.ofile (i, d) = none := if_pos hout
  have hsome : s.ofile i d = some f := by rw [ht, hf]
  refine ⟨.knows ?_ rfl, .trades (hg.counts.exchange (counted_out (.inl ⟨hout, rfl⟩)) (fun f' => ?_) fun f' hf' => ?_) rfl,
    hg.pipes.same rfl rfl⟩
  · have := hg.tables.enter hlive none
    rwa [ht] at this
  · rw [hnone]
    show _ + ptr (s.ofile i d) f' = _
    rw [hsome]
    exact ptr_sub hr
  · exact update_of_ne (by rintro rfl; exact hn hf') ..

lemma Runs.settle {α : Type} {x : FileM ι α} {Q : α → Local ι → Prop} (hk : l.know = some k) (ho : k.out = some d)
    (hf : k.tab d = some f) (hr : 0 < l.refs f) (hn : f ∉ l.fresh)
    (h : Runs i x ((l.sub f).setTab k.tab none) Q) : Runs i x l Q := by
  refine .ghost ?_
  rintro g s hg rfl
  exact ⟨_, hg.settle hk ho hf hr hn, h⟩

lemma Runs.lift {α : Type} {x : FileM ι α} {Q : α → Local ι → Prop} (hk : l.know = some k) (ho : k.out = none)
    (hf : k.tab d = some f) (h : Runs i x ((l.add f).setTab k.tab (some d)) Q) : Runs i x l Q := by
  refine .ghost ?_
  rintro g s hg rfl
  obtain ⟨hlive, ht⟩ := hg.tables.own i k hk
  have hout : outOf (g i).know = none := by rw [hk]; exact ho
  have hsome := hg.counted_own (d := d) hk hf (by rw [ho]; nofun)
  refine ⟨_, ?_, h⟩
  refine ⟨.knows ?_ rfl, .trades (hg.counts.exchange (counted_out (.inr ⟨hout, rfl⟩)) (fun f' => ?_) fun f' hf' => ?_) rfl,
    hg.pipes.same rfl rfl⟩
  · have := hg.tables.enter hlive (some d)
    rwa [ht] at this
  · rw [hsome]
    exact ptr_add
  · exact update_of_ne (by rintro rfl; exact hg.fresh_counted hsome hf') ..

/-! ## Processes -/

lemma runs_allocproc (hc : l.child = none) : Runs i (perform (.allocproc j)) l fun r l' =>
    r = false ∧ l' = l ∨ r = true ∧ l' = l.setChild j fun _ => none := by
  refine .perform ?_
  rintro g s hg rfl
  refine wp_bind.2 (wp_get.2 (wp_ite.2 ⟨fun _ => wp_pure.2 ⟨trivial, g i, ?_, .inl ⟨rfl, rfl⟩⟩, fun hj => ?_⟩))
  · rwa [update_eq_self]
  · rw [not_not] at hj
    refine wp_bind.2 (wp_set.2 (wp_pure.2 ⟨trivial, _, ?_, .inr ⟨rfl, rfl⟩⟩))
    exact ⟨.children (hg.tables.allocproc hj) rfl, hg.counts.same rfl rfl rfl, hg.pipes.same rfl rfl⟩

lemma runs_letGo {v : Life} {e : Act ι PUnit} (he : ∀ i, act i e = modify fun s => s.setLife j v)
    (hc : l.child = some (j, t)) (hv : v = .unused ∨ v = .zombie → t = fun _ => none) :
    Runs i (perform e) l fun _ l' => l' = { l with child := none } := by
  refine .perform ?_
  rintro g s hg rfl
  rw [he]
  obtain ⟨hused, ht⟩ := hg.tables.made i j t hc
  refine wp_modify.2 ⟨trivial, _, ?_, rfl⟩
  have hk : (g j).know = none := hg.tables.know_none (by rw [hused]; nofun)
  refine ⟨.children (hg.tables.dropChild.setLife hk ?_ ?_) rfl, hg.counts.same rfl rfl rfl, hg.pipes.same rfl rfl⟩
  · intro i' t' e'
    by_cases hi : i' = i
    · subst hi
      rw [update_self] at e'
      cases e'
    · rw [update_of_ne hi] at e'
      exact hi (hg.tables.one i' i j t' t e' hc)
  · intro h
    rw [ht, hv h]

lemma runs_setChild (hc : l.child = some (j, t)) (ht : t d = none) (hr : 0 < l.refs f) (hn : f ∉ l.fresh) :
    Runs i (perform (.setChild j d f)) l fun _ l' =>
      l' = (l.sub f).setChild j (update t d (some f)) := by
  refine .perform ?_
  rintro g s hg rfl
  obtain ⟨hused, htab⟩ := hg.tables.made i j t hc
  have hk : (g j).know = none := hg.tables.know_none (by rw [hused]; nofun)
  have hnone : counted (fun j => (g j).know) s.ofile (j, d) = none := by
    show (if outOf (g j).know = some d then none else s.ofile j d) = none
    rw [hk, htab, ht, ite_self]
  refine wp_modify.2 ⟨trivial, _, ?_, rfl⟩
  refine ⟨.children (hg.tables.setChild hc) rfl, ?_, hg.pipes.same rfl rfl⟩
  have hcount : counted (update (fun j => (g j).know) i (g i).know) (s.setFd j d (some f)).ofile =
      update (counted (fun j => (g j).know) s.ofile) (j, d) (some f) := by
    rw [counted_congr rfl]
    exact counted_setChild hk
  refine .trades (hg.counts.exchange hcount (fun f' => ?_) fun f' hf' => ?_) rfl
  · rw [hnone]
    exact ptr_sub hr
  · exact update_of_ne (by rintro rfl; exact hn hf') ..

lemma runs_zombie (hk : l.know = some ⟨fun _ => none, none⟩) :
    Runs i (perform .zombie) l fun _ l' => l' = { l with know := none } := by
  refine .perform ?_
  rintro g s hg rfl
  obtain ⟨hlive, ht⟩ := hg.tables.own i _ hk
  refine wp_modify.2 ⟨trivial, _, ?_, rfl⟩
  refine ⟨.knows (hg.tables.leave.setLife (update_self ..) ?_ fun _ => ht) rfl,
    .knows (hg.counts.recount (counted_congr ?_)) rfl rfl, hg.pipes.same rfl rfl⟩
  · exact fun i' t' => hg.tables.child_ne (by rw [hlive]; nofun)
  · rw [hk]
    rfl

lemma runs_reap : Runs i (perform (.reap j)) l fun _ l' => l' = l := by
  refine .perform ?_
  rintro g s hg rfl
  refine wp_modify.2 ⟨trivial, g i, ?_, rfl⟩
  rw [update_eq_self]
  split
  · rename_i hz
    refine ⟨hg.tables.setLife ?_ ?_ fun _ => hg.tables.empty j (.inr hz), hg.counts, hg.pipes⟩
    · exact hg.tables.know_none (by rw [hz]; nofun)
    · exact fun i' t' => hg.tables.child_ne (by rw [hz]; nofun)
  · exact hg

/-! ## The calls -/

lemma runs_fdallocLoop {fds : List Fd} (hk : l.know = some ⟨t, none⟩) : Runs i (fdallocLoop f fds) l fun r l' =>
    r = none ∧ l' = l ∨ ∃ d, r = some d ∧ t d = none ∧ l' = l.setTab (update t d (some f)) (some d) := by
  induction fds with
  | nil => exact .ret (.inl ⟨rfl, rfl⟩)
  | cons d fds ih =>
    refine .bind (runs_getFd hk) ?_
    rintro _ _ ⟨rfl, rfl⟩
    cases e : t d with
    | none =>
      refine .next (runs_setFd hk (.inr ⟨rfl, e⟩)) fun _ => ?_
      exact .ret (.inr ⟨d, rfl, e, rfl⟩)
    | some f' => exact ih

lemma runs_fdalloc (hk : l.know = some ⟨t, none⟩) : Runs i (fdalloc f) l fun r l' =>
    r = none ∧ l' = l ∨ ∃ d, r = some d ∧ t d = none ∧ l' = l.setTab (update t d (some f)) (some d) :=
  runs_fdallocLoop hk

lemma runs_argfd {n : Nat} (hk : l.know = some ⟨t, none⟩) : Runs i (argfd n) l fun r l' =>
    (r = none ∨ ∃ d f, r = some (d, f) ∧ t d = some f) ∧ l' = l := by
  unfold argfd
  by_cases h : n < NOFILE
  · rw [dif_pos h]
    refine .bind (runs_getFd hk) ?_
    rintro _ _ ⟨rfl, rfl⟩
    cases e : t ⟨n, h⟩ with
    | none => exact .ret ⟨.inl rfl, rfl⟩
    | some f => exact .ret ⟨.inr ⟨_, f, rfl, e⟩, rfl⟩
  · rw [dif_neg h]
    exact .ret ⟨.inl rfl, rfl⟩

def Idle (l : Local ι) : Prop := ∃ t, l = .idle t

lemma runs_sysDup {n : Nat} : Runs i (sysDup n) (.idle t) fun _ l => Idle l := by
  unfold sysDup
  refine .bind (runs_argfd rfl) ?_
  rintro _ _ ⟨rfl | ⟨d, f, rfl, hf⟩, rfl⟩
  · exact .ret ⟨t, rfl⟩
  refine .bind (runs_fdalloc rfl) ?_
  rintro _ _ (⟨rfl, rfl⟩ | ⟨d', rfl, hn, rfl⟩)
  · exact .ret ⟨t, rfl⟩
  have hne : d ≠ d' := by
    rintro rfl
    rw [hf] at hn
    cases hn
  refine .finish (runs_filedup (d := d) rfl ((update_of_ne hne ..).trans hf) ?_) ?_
  · exact fun e => hne (Option.some.inj e).symm
  rintro _ _ g s rfl hg hi
  refine ⟨_, hg.settle (d := d') (f := f) (by rw [hi]; rfl) rfl (update_self ..) ?_ ?_,
    update t d' (some f), ?_⟩
  · rw [hi]
    exact Local.add_pos
  · rw [hi]
    exact Set.notMem_empty f
  · rw [hi, Local.sub_add]
    rfl

lemma runs_sysClose {n : Nat} : Runs i (sysClose n) (.idle t) fun _ l => Idle l := by
  unfold sysClose
  refine .bind (runs_argfd rfl) ?_
  rintro _ _ ⟨rfl | ⟨d, f, rfl, hf⟩, rfl⟩
  · exact .ret ⟨t, rfl⟩
  refine Runs.lift (d := d) (f := f) rfl rfl hf ?_
  refine .next (runs_setFd rfl (.inl rfl)) fun _ => ?_
  refine .mono (runs_fileclose Local.add_pos) ?_
  rintro _ _ rfl
  exact ⟨update t d none, Local.drop_add_idle⟩

lemma runs_sysOpen {type : FileType} {readable writable : Bool} (ht : type ≠ .pipe) :
    Runs i (sysOpen type readable writable) (.idle t) fun _ l => Idle l := by
  unfold sysOpen
  refine .bind runs_filealloc ?_
  rintro _ _ (⟨rfl, rfl⟩ | ⟨f, rfl, _, rfl⟩)
  · exact .ret ⟨t, rfl⟩
  refine .bind (runs_fdalloc rfl) ?_
  rintro _ _ (⟨rfl, rfl⟩ | ⟨d, rfl, hn, rfl⟩)
  · refine .mono (runs_fileclose Local.add_pos) ?_
    rintro _ _ rfl
    exact ⟨t, Local.drop_new (Set.notMem_empty f)⟩
  refine .finish (runs_setFile ht (.inl rfl)) ?_
  rintro _ _ g s rfl hg hi
  refine ⟨_, hg.settle (d := d) (f := f) (by rw [hi]; rfl) rfl (update_self ..) ?_ ?_,
    update t d (some f), ?_⟩
  · rw [hi]
    exact Local.add_pos
  · rw [hi]
    exact fun e => e.2 rfl
  · rw [hi]
    have e : (Local.idle t : Local ι).add f = ((Local.idle t).new f).opened f :=
      (Local.opened_new (Set.notMem_empty f)).symm
    show ((((Local.idle t).new f).opened f).sub f).setTab _ none = _
    rw [← e, Local.sub_add]
    rfl

lemma runs_exitLoop {fds : List Fd} : Runs i (exitLoop fds) (.idle t) fun _ l =>
    ∃ t', l = .idle t' ∧ (∀ d ∈ fds, t' d = none) ∧ ∀ d, t d = none → t' d = none := by
  induction fds generalizing t with
  | nil => exact .ret ⟨t, rfl, nofun, fun _ => id⟩
  | cons d fds ih =>
    refine .bind (runs_getFd rfl) ?_
    rintro _ _ ⟨rfl, rfl⟩
    cases e : t d with
    | none =>
      refine .mono ih ?_
      rintro _ _ ⟨t', rfl, h1, h2⟩
      exact ⟨t', rfl, List.forall_mem_cons.2 ⟨h2 d e, h1⟩, h2⟩
    | some f =>
      refine Runs.lift (d := d) (f := f) rfl rfl e ?_
      refine .next (runs_fileclose Local.add_pos) fun _ => ?_
      refine .next (runs_setFd rfl (.inl rfl)) fun _ => ?_
      have hidle : (((((Local.idle t).add f).setTab t (some d)).drop f).setTab (update t d none) none :
          Local ι) = .idle (update t d none) := Local.drop_add_idle
      refine .mono (hidle ▸ ih) ?_
      rintro _ _ ⟨t', rfl, h1, h2⟩
      refine ⟨t', rfl, List.forall_mem_cons.2 ⟨h2 d (update_self ..), h1⟩, fun d' h' => h2 d' ?_⟩
      by_cases e' : d' = d
      · subst e'
        exact update_self ..
      · rwa [update_of_ne e']

lemma runs_exit : Runs i exit (.idle t) fun _ l => l = .rest := by
  unfold exit
  refine .bind runs_exitLoop ?_
  rintro _ _ ⟨t', rfl, h1, _⟩
  have ht : t' = fun _ => none := funext fun d => h1 d (List.mem_finRange d)
  refine .mono (runs_zombie (by rw [ht]; rfl)) ?_
  rintro _ _ rfl
  rfl

lemma runs_forkLoop {fds : List Fd} {u : Table} (hnd : fds.Nodup) (ht : ∀ d ∈ fds, u d = none) :
    Runs i (forkLoop j fds) ((Local.idle t).setChild j u) fun _ l => ∃ t', l = (Local.idle t).setChild j t' := by
  induction fds generalizing u with
  | nil => exact .ret ⟨u, rfl⟩
  | cons d fds ih =>
    obtain ⟨hfd, hnd⟩ := List.nodup_cons.1 hnd
    obtain ⟨h0, ht⟩ := List.forall_mem_cons.1 ht
    refine .bind (runs_getFd rfl) ?_
    rintro _ _ ⟨rfl, rfl⟩
    cases e : t d with
    | none => exact ih hnd ht
    | some f =>
      refine .next (runs_filedup (d := d) rfl e nofun) fun _ => ?_
      refine .next (runs_setChild rfl h0 Local.add_pos (Set.notMem_empty f)) fun _ => ?_
      rw [Local.sub_add]
      refine ih (u := update u d (some f)) hnd fun d' hfd' => ?_
      rw [update_of_ne (by rintro rfl; exact hfd hfd')]
      exact ht d' hfd'

lemma runs_fork {mem : Bool} : Runs i (fork j mem) (.idle t) fun _ l => Idle l := by
  unfold fork
  refine .bind (runs_allocproc rfl) ?_
  rintro _ _ (⟨rfl, rfl⟩ | ⟨rfl, rfl⟩)
  · exact .ret ⟨t, rfl⟩
  refine .ite (fun _ => Safe.ite (fun _ => ?_) fun _ => ?_) fun h => absurd rfl h
  · refine .mono (runs_letGo (v := .unused) (fun _ => rfl) rfl fun _ => rfl) ?_
    rintro _ _ rfl
    exact ⟨t, rfl⟩
  · refine .bind (runs_forkLoop (List.nodup_finRange _) fun _ _ => rfl) ?_
    rintro _ _ ⟨t', rfl⟩
    refine .mono (runs_letGo (v := .live) (fun _ => rfl) rfl nofun) ?_
    rintro _ _ rfl
    exact ⟨t, rfl⟩

lemma runs_pipealloc {mem : Bool} : Runs i (pipealloc mem) (.idle t) fun r l =>
    r = none ∧ l = .idle t ∨ ∃ f0 f1, r = some (f0, f1) ∧ f1 ≠ f0 ∧ l = ((Local.idle t).add f0).add f1 := by
  unfold pipealloc
  refine .bind runs_filealloc ?_
  rintro _ _ (⟨rfl, rfl⟩ | ⟨f0, rfl, _, rfl⟩)
  · exact .ret (.inl ⟨rfl, rfl⟩)
  refine .bind runs_filealloc ?_
  rintro _ _ (⟨rfl, rfl⟩ | ⟨f1, rfl, h1, rfl⟩)
  · refine .next (runs_fileclose Local.add_pos) fun _ => Safe.ret (.inl ⟨rfl, ?_⟩)
    exact Local.drop_new (Set.notMem_empty f0)
  have hne : f1 ≠ f0 := by
    rintro rfl
    have := Local.add_pos (l := (Local.idle t : Local ι)) (f := f1)
    exact absurd h1 (Nat.ne_of_gt this)
  refine .bind runs_kalloc ?_
  rintro _ _ (⟨rfl, rfl⟩ | ⟨p, rfl, rfl⟩)
  · have hdrop : (((Local.idle t : Local ι).new f0).new f1).drop f0 = (Local.idle t).new f1 := by
      rw [Local.drop_new_ne hne, Local.drop_new (Set.notMem_empty f0)]
    refine .next (runs_fileclose ?_) fun _ => ?_
    · simp [Local.new, Local.add, hne.symm]
    rw [hdrop]
    refine .next (runs_fileclose Local.add_pos) fun _ => Safe.ret (.inl ⟨rfl, ?_⟩)
    exact Local.drop_new (Set.notMem_empty f1)
  · have hy : (p, true) ≠ (p, false) := by simp
    refine .next (runs_setPipe (.inr (.inl rfl)) ?_) fun _ => ?_
    · simp [Local.addEnd]
    refine .next (runs_setPipe ⟨.inl rfl, hne⟩ ?_) fun _ => Safe.ret (.inr ⟨f0, f1, rfl, hne, ?_⟩)
    · simp [Local.addEnd, Local.subEnd, Local.opened]
    · rw [Local.subEnd_addEnd_ne hy, Local.subEnd_addEnd]
      show ((((((Local.idle t).new f0).new f1).opened f0).addEnd (p, true)).subEnd (p, true)).opened f1 = _
      have e0 : ((Local.idle t : Local ι).new f0).opened f0 = (Local.idle t).add f0 :=
        Local.opened_new (Set.notMem_empty f0)
      rw [Local.subEnd_addEnd, Local.opened_new_ne hne, e0]
      exact Local.opened_new (Set.notMem_empty f1)

lemma runs_closeBoth {f0 f1 : FileId} (hne : f1 ≠ f0) :
    Runs i (do fileclose f0; fileclose f1) (((Local.idle t).add f0).add f1) fun _ l => Idle l := by
  refine .next (runs_fileclose ?_) fun _ => ?_
  · simp [Local.add, hne.symm]
  rw [Local.drop_add_ne hne, Local.drop_add_idle]
  refine .mono (runs_fileclose Local.add_pos) ?_
  rintro _ _ rfl
  exact ⟨t, Local.drop_add_idle⟩

lemma runs_sysPipe {mem copyout : Bool} : Runs i (sysPipe mem copyout) (.idle t) fun _ l => Idle l := by
  unfold sysPipe
  refine .bind runs_pipealloc ?_
  rintro _ _ (⟨rfl, rfl⟩ | ⟨f0, f1, rfl, hne, rfl⟩)
  · exact .ret ⟨t, rfl⟩
  refine .bind (runs_fdalloc rfl) ?_
  rintro _ _ (⟨rfl, rfl⟩ | ⟨fd0, rfl, h0, rfl⟩)
  · exact runs_closeBoth hne
  refine Runs.settle (f := f0) rfl rfl (update_self ..) ?_ (Set.notMem_empty f0) ?_
  · simp [Local.setTab, Local.add, hne.symm]
  have e1 : (((((Local.idle t).add f0).add f1).sub f0).setTab (update t fd0 (some f0)) none : Local ι) =
      (Local.idle (update t fd0 (some f0))).add f1 := by
    rw [Local.sub_add_ne hne, Local.sub_add]
    rfl
  refine e1 ▸ ?_
  refine .bind (runs_fdalloc rfl) ?_
  rintro _ _ (⟨rfl, rfl⟩ | ⟨fd1, rfl, h1, rfl⟩)
  · refine Runs.lift (d := fd0) (f := f0) rfl rfl (update_self ..) ?_
    refine .next (runs_setFd rfl (.inl rfl)) fun _ => ?_
    rw [Local.add_comm hne]
    exact runs_closeBoth hne
  have hfd : fd0 ≠ fd1 := (of_update h1 nofun).1.symm
  refine Runs.settle (f := f1) rfl rfl (update_self ..) Local.add_pos (Set.notMem_empty f1) ?_
  generalize ht1 : update t fd0 (some f0) = t1 at *
  have e2 : ((((Local.idle t1).add f1).sub f1).setTab (update t1 fd1 (some f1)) none : Local ι) =
      Local.idle (update t1 fd1 (some f1)) := by
    rw [Local.sub_add]
    rfl
  refine e2 ▸ ?_
  refine .ite (fun _ => ?_) fun _ => Safe.ret ⟨_, rfl⟩
  refine Runs.lift (d := fd0) (f := f0) rfl rfl ?_ ?_
  · rw [← ht1]
    exact (update_of_ne hfd ..).trans (update_self ..)
  refine .next (runs_setFd rfl (.inl rfl)) fun _ => ?_
  refine Runs.lift (d := fd1) (f := f1) rfl rfl ?_ ?_
  · exact (update_of_ne hfd.symm ..).trans (update_self ..)
  refine .next (runs_setFd rfl (.inl rfl)) fun _ => ?_
  exact runs_closeBoth hne

lemma runs_call {c : Call ι} : Runs i (call c) (.idle t) fun _ l => l = .rest := by
  have hidle : ∀ {x : FileM ι PUnit}, Runs i x (.idle t) (fun _ l => Idle l) → Runs i x (.idle t) fun _ l => l = .rest := by
    intro x hx
    refine .finish hx ?_
    rintro _ _ g s ⟨t', rfl⟩ hg hi
    refine ⟨.rest, ⟨?_, ?_, ?_⟩, rfl⟩
    · exact .knows hg.tables.leave (by rw [hi]; rfl)
    · exact .knows (hg.counts.recount (counted_congr (by rw [hi]; rfl))) (by rw [hi]; rfl) (by rw [hi]; rfl)
    · exact hg.pipes.same (by rw [hi]; rfl) (by rw [hi]; rfl)
  cases c with
  | «open» device readable writable => exact hidle (runs_sysOpen (by split <;> nofun))
  | openFails => exact hidle (Safe.ret ⟨t, rfl⟩)
  | dup d => exact hidle runs_sysDup
  | close d => exact hidle runs_sysClose
  | pipe mem copyout => exact hidle runs_sysPipe
  | fork np mem => exact hidle runs_fork
  | exit => exact runs_exit
  | wait pp =>
    refine hidle (Safe.mono runs_reap ?_)
    rintro _ _ rfl
    exact ⟨t, rfl⟩

/-! ## The theorem -/

def Refers (s : State ι) (p : Nat) (w : Bool) : Prop :=
  ∃ i d f, s.ofile i d = some f ∧ (s.file f).type = .pipe ∧ (s.file f).pipe = p ∧ (s.file f).writable = w

/-- What holds between system calls: the counts are the numbers of descriptors, each end of a pipe has been closed
    once if and only if no descriptor refers to it, and the page has been freed once if and only if no descriptor refers
    to either end. -/
structure Settled (s : State ι) : Prop where
  count : ∀ f, (s.file f).ref = (refs (fun x : ι × Fd => s.ofile x.1 x.2) f : Nat)
  closes : ∀ p w, p < s.npipe → (Refers s p w → (s.pipe p).closes w = 0) ∧ (¬ Refers s p w → (s.pipe p).closes w = 1)
  frees : ∀ p, p < s.npipe → (Refers s p false ∨ Refers s p true → (s.pipe p).frees = 0) ∧
    (¬ Refers s p false → ¬ Refers s p true → (s.pipe p).frees = 1)

omit [DecidableEq ι] in
lemma Inv.settled (h : Inv g s) (hr : ∀ i, g i = .rest) : Settled s := by
  have hcount : ∀ f, (s.file f).ref = (refs (fun x : ι × Fd => s.ofile x.1 x.2) f : Nat) := by
    intro f
    have hc : counted (fun j => (g j).know) s.ofile = fun x => s.ofile x.1 x.2 := by
      funext x
      show (if outOf (g x.1).know = some x.2 then none else s.ofile x.1 x.2) = s.ofile x.1 x.2
      rw [hr]
      exact if_neg nofun
    rw [h.counts.count f, hc, Finset.sum_eq_zero fun i _ => by rw [hr]; rfl, Nat.zero_add]
  have hends : ∀ p w, p < s.npipe → refs (fun f => endOf (s.file f)) (p, w) + (s.pipe p).closes w = 1 := by
    intro p w hp
    rw [← h.pipes.one p w hp, Finset.sum_eq_zero fun i _ => by rw [hr]; rfl, Nat.add_zero]
  have hrefers : ∀ p w, Refers s p w ↔ refs (fun f => endOf (s.file f)) (p, w) ≠ 0 := by
    intro p w
    constructor
    · rintro ⟨i, d, f, _, ht, rfl, rfl⟩
      exact Nat.ne_of_gt (refs_pos (i := f) (if_pos ht))
    · intro hne
      obtain ⟨f, hf⟩ := exists_of_refs hne
      have ht : (s.file f).type = .pipe := by
        by_contra hn
        rw [show endOf (s.file f) = none from if_neg hn] at hf
        cases hf
      rw [show endOf (s.file f) = _ from if_pos ht] at hf
      cases hf
      have h0 : refs (fun x : ι × Fd => s.ofile x.1 x.2) f ≠ 0 := by
        intro e
        have := h.counts.free f (by rw [hcount, e]; rfl)
        rw [ht] at this
        cases this
      obtain ⟨x, hx⟩ := exists_of_refs h0
      exact ⟨x.1, x.2, f, hx, ht, rfl, rfl⟩
  have hcloses : ∀ p w, p < s.npipe →
      (Refers s p w → (s.pipe p).closes w = 0) ∧ (¬ Refers s p w → (s.pipe p).closes w = 1) := by
    intro p w hp
    have := hends p w hp
    rw [hrefers]
    exact ⟨fun _ => by omega, fun _ => by omega⟩
  refine ⟨hcount, hcloses, fun p hp => ?_⟩
  have hfreed := h.pipes.freed p hp
  rw [Finset.sum_eq_zero fun i _ => by rw [hr]; rfl, Nat.add_zero] at hfreed
  refine ⟨fun hor => ?_, fun h0 h1 => ?_⟩
  · rw [hfreed, if_neg]
    rintro ⟨e0, e1⟩
    rcases hor with hor | hor
    · rw [(hcloses p false hp).1 hor] at e0
      cases e0
    · rw [(hcloses p true hp).1 hor] at e1
      cases e1
  · rw [hfreed, if_pos ⟨(hcloses p false hp).2 h0, (hcloses p true hp).2 h1⟩]

lemma inv_start {file : FileId → File} {init : ι} {pipe : Nat → Pipe} :
    Inv (fun _ => .rest) (start file init pipe) := by
  have hno : ∀ f : FileId, endOf ((start file init pipe).file f) = none := fun _ => if_neg (by rintro ⟨⟩)
  refine ⟨⟨fun _ _ h => (by cases h), fun _ _ _ h => (by cases h), fun _ _ _ _ _ h => (by cases h), fun _ _ => rfl⟩,
    ⟨fun f => ?_, fun _ _ h => (by cases h), fun _ _ => rfl⟩,
    ⟨fun _ _ h => absurd h (Nat.not_lt_zero _), fun p w _ => ?_, fun _ h => absurd h (Nat.not_lt_zero _),
      fun _ h => absurd h (Nat.not_lt_zero _)⟩⟩
  · have hc : refs (counted (fun _ : ι => (Local.rest : Local ι).know) fun _ _ => none) f = 0 :=
      refs_zero fun x => by rw [counted, ite_self]; rintro ⟨⟩
    show (0 : Int) = ((∑ _ : ι, 0 + refs (counted _ fun _ _ => none) f : Nat) : Int)
    rw [hc, Finset.sum_const_zero]
    rfl
  · have he : refs (fun f => endOf ((start file init pipe).file f)) (p, w) = 0 :=
      refs_zero fun f => by rw [hno]; rintro ⟨⟩
    show _ + ∑ _ : ι, 0 + ∑ _ : ι, 0 = 0
    rw [he, Finset.sum_const_zero]
    rfl

/-- In every run of the system calls, no `filedup` or `fileclose` panics, a file without references has no type, each
    end of a pipe is closed at most once and its page freed at most once, after both ends; and between system calls
    the tables are settled. -/
theorem file_references {file : FileId → File} {init : ι} {pipe : Nat → Pipe} {ms : List (Turn ι (Call ι))}
    {s : Pool ι (Act ι) Stop (State ι) PUnit} (h : exec step (Pool.rest (start file init pipe)) ms = some s) :
    s.stopped = none ∧ (∀ f, (s.st.file f).ref = 0 → (s.st.file f).type = .none) ∧
    (∀ p w, p < s.st.npipe → (s.st.pipe p).closes w ≤ 1) ∧
    (∀ p, p < s.st.npipe → (s.st.pipe p).frees ≤ 1 ∧
      ((s.st.pipe p).frees = 1 → (s.st.pipe p).closes false = 1 ∧ (s.st.pipe p).closes true = 1)) ∧
    ((∀ i, s.thr i = none) → Settled s.st) := by
  have hs : Pool.Sound (fun i => act i) Inv (fun _ _ => True) (fun _ => False) (· = .rest) s ∧ s.stopped = none := by
    refine Pool.Sound.run_on (fun x e => e.elim) (fun g st i c p hg hr hp => ?_)
      (Pool.sound_rest inv_start fun _ => rfl) rfl h
    split at hp
    · rename_i hlive
      cases hp
      refine ⟨.idle (st.ofile i), ⟨?_, ?_, ?_⟩, runs_call⟩
      · exact .knows (hg.tables.enter hlive none) (by rw [hr]; rfl)
      · exact .knows (hg.counts.recount (counted_congr (by rw [hr]; rfl))) (by rw [hr]; rfl) (by rw [hr]; rfl)
      · exact hg.pipes.same (by rw [hr]; rfl) (by rw [hr]; rfl)
    · cases hp
  obtain ⟨⟨⟨g, hg, hr⟩, _⟩, hs⟩ := hs
  refine ⟨hs, hg.counts.free, fun p w hp => hg.pipes.closes_le hp, fun p hp => ?_, fun hi => hg.settled fun i => ?_⟩
  · have := hg.pipes.freed p hp
    split at this
    · rename_i hc
      exact ⟨by omega, fun _ => hc⟩
    · exact ⟨by omega, fun e => by omega⟩
  · have hl := hr i
    rw [hi i] at hl
    exact hl

/-- A process makes a pipe and a child; each closes one end, the child exits, and the parent closes the other end. -/
def pipeRun : List (Turn (Fin 2) (Call (Fin 2))) :=
  .call 0 (.pipe true true) :: List.replicate 11 (.act 0) ++
  .call 0 (.fork 1 true) :: List.replicate 23 (.act 0) ++
  .call 1 (.close 0) :: .call 0 (.close 1) :: List.replicate 4 (.act 1) ++ List.replicate 4 (.act 0) ++
  .call 1 .exit :: List.replicate 21 (.act 1) ++
  .call 0 (.close 0) :: List.replicate 6 (.act 0)

/-- The machine that `pipeRun` starts from. -/
def pipeStart : State (Fin 2) := start (fun _ => ⟨.none, 0, false, false, 0⟩) 0 fun _ => ⟨false, false, fun _ => 0, 0⟩

theorem file_references_pipe : ∃ s, exec step (Pool.rest pipeStart) pipeRun = some s ∧
    s.stopped = none ∧ (∀ f, (s.st.file f).ref = 0 → (s.st.file f).type = .none) ∧
    (∀ p w, p < s.st.npipe → (s.st.pipe p).closes w ≤ 1) ∧
    (∀ p, p < s.st.npipe → (s.st.pipe p).frees ≤ 1 ∧
      ((s.st.pipe p).frees = 1 → (s.st.pipe p).closes false = 1 ∧ (s.st.pipe p).closes true = 1)) ∧
    ((∀ i, s.thr i = none) → Settled s.st) := by
  obtain ⟨s, hs⟩ := Option.isSome_iff_exists.1
    (show (exec step (Pool.rest pipeStart) pipeRun).isSome by decide +kernel)
  exact ⟨s, hs, file_references hs⟩

end Xv6n.Ftable
