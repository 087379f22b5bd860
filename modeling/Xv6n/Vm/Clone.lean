import Xv6n.Fs.Read
import Xv6n.Vm.PageMap

/-!
# What `fork` copies

`uvmcopy` gives the child a page of its own for every page of the parent, with the same flags and the same
bytes, or takes back all that it has taken so far. When `fork` fails, here or before, everything is as it was:
`Spares` says that what is in use stays, and since the invariant knows the user of every page that is not
free, no page has got lost (`Spares.free`).
-/

namespace Xv6n
open Lib KernM Function

variable [Layout] {s s' : Kernel} {own own' : Nat → Owner} {held : List Nat} {extra : Fin NFILE → Nat}
  {i j : Fin NPROC} {r p x y : Nat} {live : Nat → List Nat → Prop} {P : Nat → Prop}

/-- What `uvmcopy` from process `i` to process `j` has done: every page of the parent has a copy, which the child
    alone owns, or the child has no pages and all that has been taken for them is free again. -/
structure Copied (s : Kernel) (own : Nat → Owner) (i j : Fin NPROC) (ok : Bool) (s' : Kernel)
    (own' : Nat → Owner) : Prop where
  heap : Heap s' own' fun r _ => Root s r
  tables : Tables s s'
  same : ∀ p, p % PGSIZE = 0 → (own p).Out (s.proc j).pagetable → own' p = own p ∧ Same s.mem s'.mem p
  parent : image s'.mem (s.proc i).pagetable = image s.mem (s.proc i).pagetable
  copy : ok = true → ∀ v < npages (s.proc i).sz, image s.mem (s.proc i).pagetable v ≠ none ∧
    image s'.mem (s.proc j).pagetable v = image s.mem (s.proc i).pagetable v ∧
    own' (pte2pa (pteAt s'.mem (s.proc j).pagetable v)) = .slot (s.proc j).pagetable (leafPath v)
  undone : ok = false → (∀ v, image s'.mem (s.proc j).pagetable v = none) ∧ ∀ p k, own p = .free k →
    (∃ k', own' p = .free k') ∨ ∃ path, IsTable path ∧ own' p = .slot (s.proc j).pagetable path

lemma Shape.isTable (sh : Shape s.mem r 0 P x y) (h : Heap s own live) (hr : ∀ path, live r path) {path : List Nat}
    (hp : own p = .slot r path) : IsTable path := by
  obtain ⟨hl, hs⟩ := h.owned p r path hp
  refine ⟨?_, hs.lt⟩
  by_contra hlen
  cases path with
  | nil => exact hlen (Nat.zero_le _)
  | cons k path =>
    obtain ⟨v, hv, rfl, rfl⟩ := exists_lowPath hs.table
      (by have := hs.length; rw [List.length_cons] at this hlen; omega) hs.head
    rw [← leafPath_eq] at hp hs
    have htop : ¬ Top v := fun ht => hs.low v ht rfl
    have hval := ((h.leaf_iff (hr _) hv htop).1 hp).1
    rw [sh.rest v (Nat.zero_le v) hv, topPte_of_not_top htop] at hval
    exact hval rfl

lemma uvmcopy_copied (hi : Inv s own held extra) (hij : i ≠ j) (hpi : (s.proc i).pagetable ≠ 0)
    (hpj : (s.proc j).pagetable ≠ 0) (hsz : (s.proc j).sz = 0) :
    ∃ ok s' own', uvmcopy (s.proc i).pagetable (s.proc j).pagetable (s.proc i).sz s = .ok ok s' ∧
      Copied s own i j ok s' own' := by
  have hne : (s.proc i).pagetable ≠ (s.proc j).pagetable := fun e => hij (hi.inj i j hpi e)
  have hri : ∀ path : List Nat, Root s (s.proc i).pagetable := fun _ => ⟨hpi, i, rfl⟩
  have hrj : ∀ path : List Nat, Root s (s.proc j).pagetable := fun _ => ⟨hpj, j, rfl⟩
  obtain ⟨-, shi⟩ := (hi.proc i).shape hpi
  obtain ⟨-, shj⟩ := (hi.proc j).shape hpj
  rw [hsz] at shj
  obtain ⟨ok, s', hrun, own', h', f, sh, himg⟩ := (uvmcopy_spec hi.heap hrj hri hne shi shj
    (fun _ => UserPte.leaf) fun w q h => h.copy).returns
  refine ⟨ok, s', own', hrun, h', f.tables, fun p hm ho => ⟨f.owner p nofun (.inl ho), f.same p nofun hm ho⟩,
    f.image hi.heap h' hne hri hri nofun, fun hok v hv => ?_, fun hok => ?_⟩
  · have hlt := hv.trans_le shi.le
    subst hok
    refine ⟨?_, congrFun himg v, h'.own_leaf hrj hlt (sh.user v hv).valid⟩
    rw [image_some hlt (shi.user v hv).valid]
    nofun
  · subst hok
    refine ⟨congrFun himg, fun p k hp => ?_⟩
    obtain ⟨path, hb, -⟩ | hk := not_out (r := (s.proc j).pagetable) (o := own' p) fun ho => by
        rw [f.owner p nofun (.inr ho), hp] at ho
        exact ho
    · exact .inr ⟨path, sh.isTable h' hrj hb, hb⟩
    · exact .inl hk

/-- Nothing has come into use: not a process, not a page, not a file. -/
structure Untouched (s s' : Kernel) : Prop where
  proc : ∀ i, (s.proc i).state ≠ .unused → s'.proc i = s.proc i
  unused : ∀ i, (s.proc i).state = .unused → (s'.proc i).state = .unused
  file : s'.file = s.file
  free : ∀ p, (∃ k, OnFreelist s' k p) ↔ ∃ k, OnFreelist s k p
  same : ∀ p, p % PGSIZE = 0 → (∀ k, ¬ OnFreelist s k p) → Same s.mem s'.mem p

lemma Spares.untouched (h : Spares s own s' own') (hi : Inv s own held extra) (hi' : Inv s' own' held extra)
    (hu : ∀ k, (s.proc k).state = .unused → (s'.proc k).state = .unused) : Untouched s s' := by
  refine ⟨h.proc, hu, h.file, fun p => ?_, fun p hm hp => ?_⟩
  · simp only [hi.heap.freePage_iff, hi'.heap.freePage_iff]
    refine ⟨fun ⟨k, hk⟩ => ?_, fun ⟨k, hk⟩ => h.free hi hi' hu hk⟩
    by_contra hn
    rw [not_exists] at hn
    exact hn k (by rw [← h.owner p hn, hk])
  · simp only [hi.heap.freePage_iff] at hp
    exact h.same p hm hp

omit [Layout] in
lemma allocproc_finds {i : Fs.Pid} {s : Fs.State} :
    wp ((Fs.perform .allocproc).run (Fs.Act.run i)) (fun o s' => match o with
      | none => s' = s
      | some j => (s.proc j).state = .unused ∧ s' = s.setProc j { s.proc j with state := .used })
      (fun _ _ => True) s := by
  unfold Fs.perform
  rw [Prog.run_perform]
  show wp Fs.Act.runAllocproc _ _ _
  unfold Fs.Act.runAllocproc
  rw [wp_bind, wp_get]
  cases hfind : (List.finRange NPROC).find? fun j => decide ((s.proc j).state = .unused) with
  | none => exact wp_pure.2 rfl
  | some j =>
    have hj := List.find?_some hfind
    rw [decide_eq_true_eq] at hj
    dsimp only
    rw [wp_bind, wp_set, wp_pure]
    exact ⟨hj, rfl⟩

omit [Layout] in
lemma setProc_back {s : Fs.State} {j : Fs.Pid} (hj : (s.proc j).state = .unused) :
    (s.setProc j { s.proc j with state := .used }).setProc j
      { (s.setProc j { s.proc j with state := .used }).proc j with state := .unused } = s := by
  unfold Fs.State.setProc
  have hs : ({ s.proc j with state := .unused } : Fs.Proc) = s.proc j := by rw [← hj]
  dsimp only
  rw [update_idem, update_self, hs, update_eq_self]

omit [Layout] in
lemma fsFork_fails {i : Fs.Pid} {ok : Bool} {s s' : Fs.State}
    (hrun : (Fs.fork ok).run (Fs.Act.run i) s = .ok (-1) s') : s' = s := by
  have hwp : wp ((Fs.fork ok).run (Fs.Act.run i)) (fun ret s' => ret = -1 → s' = s) (fun _ _ => True) s := by
    unfold Fs.fork
    rw [Prog.wp_run_bind]
    refine wp_mono (allocproc_finds (i := i)) ?_
    intro o s1 ho
    cases o with
    | none =>
      rw [ho]
      exact wp_pure.2 fun _ => rfl
    | some j =>
      obtain ⟨hj, rfl⟩ := ho
      cases ok with
      | true =>
        -- the child's place in the table is no negative number
        dsimp only
        rw [if_pos rfl, Prog.wp_run_bind]
        refine wp_mono (wp_trivial _ _) fun _ _ _ => ?_
        rw [Prog.wp_run_bind]
        refine wp_mono (wp_trivial _ _) fun _ _ _ => ?_
        rw [Prog.wp_run_bind]
        refine wp_mono (wp_trivial _ _) fun _ _ _ => wp_pure.2 fun e => ?_
        omega
      | false =>
        show wp (modify _ >>= fun _ => pure (-1)) _ _ _
        rw [wp_bind, wp_modify, wp_pure]
        intro _
        exact setProc_back hj
  exact (wp_def.1 hwp).1 _ _ hrun rfl

end Xv6n
