import Xv6n.Kalloc.Shared

/-!
# When kalloc fails

`kalloc` looks at the list of its own hart and at `kmem`, and at no other list, while `kfree` gives a page of
the harts' memory back to the hart that it belongs to. A hart can use up its own list and `kmem`; from then on
`kalloc` fails there, however much memory the other harts have.

The proofs run a call alone, in a state in which no thread is in a call.
-/

namespace Xv6n.Kalloc
open Lib Prog Function

variable {ι : Type} [DecidableEq ι] [End] {t : ι} {s s' : State ι} {k : ListId} {id : Fin NCPU} {l : ListId → List Nat}

structure Quiet (s : State ι) (l : ListId → List Nat) : Prop where
  lists : Lists s l
  unlocked : ∀ k, s.lock k = none

section
omit [DecidableEq ι]

lemma Lists.nil_iff (h : Lists s l) : l k = [] ↔ s.head k = 0 := by
  have hc := h.chain k
  constructor
  · intro e
    rw [e] at hc
    exact hc
  · intro e
    cases hl : l k with
    | nil => rfl
    | cons p l' =>
      rw [hl] at hc
      exact absurd (hc.1.symm.trans e) hc.2.1

lemma Lists.relock {x : ListId → Option ι} (h : Lists s l) : Lists { s with lock := x } l :=
  ⟨h.chain, h.nodup, h.mem, h.page⟩

lemma Quiet.fill {r : Nat} {c : UInt8} (h : Quiet s l) (hr : s.use r = .busy) :
    Quiet { s with mem := Lib.fill s.mem r PGSIZE c } l := by
  have hp : IsPage r := h.lists.page r (by rw [hr]; nofun)
  exact ⟨h.lists.write (by rw [hr]; nofun) hp (fun a ha => fill_of_out (.inl ha))
    fun p hm hne => same_fill hp.1 hm hne, h.unlocked⟩

lemma pop_quiet (h : Quiet s l) : wp ((pop k).run (act t)) (fun r s' => r = s.head k ∧
    (r = 0 → s' = s) ∧ (r ≠ 0 → s'.use r = .busy ∧ Quiet s' (update l k (l k).tail))) (fun _ _ => False) s := by
  unfold pop
  rw [wp_run_bind, run_perform]
  refine wp_bind.2 (wp_get.2 ?_)
  rw [if_neg (not_not.2 (h.unlocked k))]
  refine wp_set.2 ?_
  rw [wp_run_bind, run_perform]
  refine wp_bind.2 (wp_get.2 (wp_pure.2 ?_))
  have hlock : update (update s.lock k (some t)) k none = s.lock := by
    rw [update_idem, ← h.unlocked k, update_eq_self]
  have hhead : State.head { s with lock := update s.lock k (some t) } k = s.head k := by cases k <;> rfl
  rw [hhead]
  by_cases h0 : s.head k = 0
  · rw [if_neg (not_not.2 h0), wp_run_bind, run_perform]
    refine wp_modify.2 (wp_pure.2 ⟨rfl, fun _ => ?_, fun hne => absurd h0 hne⟩)
    dsimp only
    rw [hlock]
  · have hun := (h.lists.relock (x := update s.lock k (some t))).unlink (k := k) (by rwa [hhead])
    rw [hhead] at hun
    rw [if_pos h0, wp_run_bind, run_perform]
    refine wp_bind.2 (wp_get.2 (wp_pure.2 ?_))
    rw [wp_run_bind, run_perform]
    refine wp_modify.2 ?_
    rw [wp_run_bind, run_perform]
    refine wp_modify.2 (wp_pure.2 ⟨rfl, fun e => absurd e h0, fun _ => ⟨update_self .., hun.relock, fun j => ?_⟩⟩)
    show update (State.lock (State.setHead _ k _)) k none j = none
    rw [setHead_lock, hlock]
    exact h.unlocked j

end

/-- The list that `kalloc` takes a page of. -/
def source (s : State ι) (id : Fin NCPU) : ListId := if s.head (some id) = 0 then none else some id

omit [DecidableEq ι] in
lemma kalloc_quiet (t : ι) (id : Fin NCPU) (h : Quiet s l) : wp ((kalloc id).run (act t)) (fun r s' => r = s.head (source s id) ∧
    (r = 0 → s' = s) ∧ (r ≠ 0 → s'.use r = .busy ∧
      Quiet s' (update l (source s id) (l (source s id)).tail))) (fun _ _ => False) s := by
  unfold kalloc pkalloc source
  rw [wp_run_bind]
  refine wp_mono (pop_quiet h) ?_
  rintro r s1 ⟨rfl, h1, h2⟩
  by_cases h0 : s.head (some id) = 0
  · cases h1 h0
    rw [if_neg (not_not.2 h0), if_pos h0, wp_run_bind]
    refine wp_mono (pop_quiet h) ?_
    rintro r s2 ⟨rfl, h3, h4⟩
    by_cases hk : s.head none = 0
    · rw [if_neg (not_not.2 hk)]
      exact wp_pure.2 ⟨rfl, h3, fun hne => absurd hk hne⟩
    · rw [if_pos hk, wp_run_bind, run_perform]
      refine wp_modify.2 (wp_pure.2 ⟨rfl, fun e => absurd e hk, fun _ => ⟨(h4 hk).1, ?_⟩⟩)
      exact (h4 hk).2.fill (h4 hk).1
  · rw [if_pos h0, if_neg h0, wp_run_bind, run_perform]
    refine wp_modify.2 (wp_pure.2 ⟨rfl, fun e => absurd e h0, fun _ => ⟨(h2 h0).1, ?_⟩⟩)
    exact (h2 h0).2.fill (h2 h0).1

omit [DecidableEq ι] in
lemma call_quiet (h : Quiet s l) (h0 : s.head (source s id) ≠ 0) : wp ((call (.kalloc id)).run (act t))
    (fun _ s' => Quiet s' (update l (source s id) (l (source s id)).tail)) (fun _ _ => False) s := by
  unfold call
  rw [wp_run_bind]
  refine wp_mono (kalloc_quiet t id h) ?_
  rintro r s1 ⟨rfl, -, h1⟩
  obtain ⟨hb, hq⟩ := h1 h0
  rw [if_pos h0, run_perform]
  refine wp_modify.2 ⟨hq.lists.mark (hq.lists.page _ (by rw [hb]; nofun)) (by rw [hb]; nofun) nofun, hq.unlocked⟩

lemma exists_drained (t : ι) (id : Fin NCPU) (h : Quiet s l) : ∃ ms s' l', exec step (Pool.rest s) ms = some (Pool.rest s') ∧
    Quiet s' l' ∧ l' (some id) = [] ∧ l' none = [] ∧ ∀ k, k ≠ none → k ≠ some id → l' k = l k := by
  generalize hn : (l (some id)).length + (l none).length = n
  induction n generalizing s l with
  | zero =>
    refine ⟨[], s, l, exec_nil, h, List.eq_nil_of_length_eq_zero ?_, List.eq_nil_of_length_eq_zero ?_, fun _ _ _ => rfl⟩
    · omega
    · omega
  | succ n ih =>
    have hsrc : source s id = none ∨ source s id = some id := by
      unfold source
      split
      · exact .inl rfl
      · exact .inr rfl
    have h0 : s.head (source s id) ≠ 0 := by
      unfold source
      split
      · rename_i he
        intro hk
        rw [h.lists.nil_iff.2 he, h.lists.nil_iff.2 hk] at hn
        exact absurd hn nofun
      · assumption
    have hpos := List.length_pos_iff.2 (mt h.lists.nil_iff.1 h0)
    obtain ⟨_, s1, hrun, h1⟩ := (call_quiet (t := t) h h0).returns
    have he : ∃ ms, exec step (Pool.rest s) ms = some (Pool.rest s1) := Pool.exec_call (c := .kalloc id) rfl hrun
    obtain ⟨ms1, he1⟩ := he
    generalize source s id = k at *
    -- one page less, on one of the two lists
    have hlen : (update l k (l k).tail (some id)).length + (update l k (l k).tail none).length = n := by
      obtain rfl | rfl := hsrc
      · rw [update_of_ne (by nofun), update_self, List.length_tail]
        omega
      · rw [update_self, update_of_ne (by nofun), List.length_tail]
        omega
    obtain ⟨ms2, s2, l2, he2, hq, h2, h3, h4⟩ := ih h1 hlen
    refine ⟨ms1 ++ ms2, s2, l2, exec_append.2 ⟨_, he1, he2⟩, hq, h2, h3, fun j hj1 hj2 => ?_⟩
    rw [h4 j hj1 hj2, update_of_ne]
    rintro rfl
    exact hsrc.elim hj1 hj2

/-- In every state that the harts can come to, whatever they have allocated and freed: that `kalloc` fails on a hart
    only if all lists are empty holds exactly if there is a page on the hart's own list or on `kmem`, or none at all. -/
theorem kalloc_exhausts_iff (boot i : ι) (mem : Nat → UInt8) (lock : ListId → Option ι) :
    ∃ s0, kinit.run (act boot) (start mem lock) = .ok ⟨⟩ s0 ∧
      ∀ ms (s : Pool ι Act Stop (State ι) PUnit), exec step (Pool.rest s0) ms = some s → (∀ j, s.thr j = none) →
        ∀ id, ∃ r s', (kalloc id).run (act i) s.st = .ok r s' ∧
          ((r = 0 → ∀ k, s.st.head k = 0) ↔
            s.st.head (some id) ≠ 0 ∨ s.st.head none ≠ 0 ∨ ∀ k, s.st.head k = 0) := by
  obtain ⟨s0, h0, -, -, hrun⟩ := exists_inv boot mem lock
  refine ⟨s0, h0, fun ms s h hidle id => ?_⟩
  obtain ⟨-, g, hg, hgi⟩ := hrun ms s h
  obtain ⟨l, hl⟩ := hg.lists
  have hq : Quiet s.st l := by
    refine ⟨hl, fun k => ?_⟩
    cases e : s.st.lock k with
    | none => rfl
    | some j =>
      have := (hg.lock j k).1 e
      rw [hgi j (hidle j)] at this
      cases this
  obtain ⟨r, s', he, hr, -⟩ := (kalloc_quiet i id hq).returns
  refine ⟨r, s', he, ?_⟩
  rw [hr]
  unfold source
  by_cases h1 : s.st.head (some id) = 0
  · rw [if_pos h1]
    by_cases h2 : s.st.head none = 0
    · simp [h1, h2]
    · simp [h2]
  · rw [if_neg h1]
    simp [h1]

omit [End] in
/-- Two threads on the machine with the small kernel. -/
theorem kalloc_exhausts_two :
    ∃ s0, (@kinit smallKernel).run (@act (Fin 2) smallKernel 0) (start (fun _ => 0) fun _ => none) = .ok ⟨⟩ s0 ∧
      ∃ r s', (kalloc 0).run (@act (Fin 2) smallKernel 1) s0 = .ok r s' ∧
        ((r = 0 → ∀ k, @State.head (Fin 2) smallKernel s0 k = 0) ↔ @State.head (Fin 2) smallKernel s0 (some 0) ≠ 0 ∨
          @State.head (Fin 2) smallKernel s0 none ≠ 0 ∨ ∀ k, @State.head (Fin 2) smallKernel s0 k = 0) := by
  let _end := smallKernel
  obtain ⟨s0, h0, h⟩ := kalloc_exhausts_iff (0 : Fin 2) 1 (fun _ => 0) fun _ => none
  exact ⟨s0, h0, h [] (Pool.rest s0) exec_nil (fun _ => rfl) 0⟩

omit [End] in
/-- After enough calls on hart 0 there `kalloc` fails, while hart 1 has pages. -/
theorem kalloc_starves :
    ∃ s0, (@kinit smallKernel).run (@act (Fin 2) smallKernel 0) (start (fun _ => 0) fun _ => none) = .ok ⟨⟩ s0 ∧
      ∃ ms s, exec (@step (Fin 2) _ smallKernel) (Pool.rest s0) ms = some (Pool.rest s) ∧
        (∃ s', (kalloc 0).run (@act (Fin 2) smallKernel 0) s = .ok 0 s') ∧
        ∃ r s', (kalloc 1).run (@act (Fin 2) smallKernel 1) s = .ok r s' ∧ r ≠ 0 := by
  let _end := smallKernel
  obtain ⟨s0, h0, hc, hlock, -⟩ := exists_inv (0 : Fin 2) (fun _ => 0) fun _ => none
  obtain ⟨l, hl⟩ := hc.lists
  obtain ⟨ms, s, l', he, hq, h1, h2, h3⟩ := exists_drained 0 0 ⟨hl, hlock⟩
  have hp : IsPage (heapStart + PER_HART_ALLOC_SIZE) := ⟨by decide, by decide, by decide⟩
  have hfree : s0.use (heapStart + PER_HART_ALLOC_SIZE) = .free := hc.free _ ((hc.done _).2 ⟨hp, by decide⟩)
  have hmem := (hl.mem (some 1) _).2 ⟨hfree, (by decide : heapStart + 1 * PER_HART_ALLOC_SIZE ≤
    heapStart + PER_HART_ALLOC_SIZE ∧ heapStart + PER_HART_ALLOC_SIZE < heapStart + (1 + 1) * PER_HART_ALLOC_SIZE)⟩
  have hone : s.head (some 1) ≠ 0 := by
    rw [Ne, ← hq.lists.nil_iff, h3 _ (by nofun) (by decide)]
    exact List.ne_nil_of_mem hmem
  obtain ⟨r, s1, he1, hr, -⟩ := (kalloc_quiet 0 0 hq).returns
  obtain ⟨r', s2, he2, hr', -⟩ := (kalloc_quiet 1 1 hq).returns
  unfold source at hr hr'
  rw [if_pos (hq.lists.nil_iff.1 h1), hq.lists.nil_iff.1 h2] at hr
  rw [if_neg hone] at hr'
  exact ⟨s0, h0, ms, s, he, ⟨s1, by rw [he1, hr]⟩, r', s2, he2, by rw [hr']; exact hone⟩

end Xv6n.Kalloc
