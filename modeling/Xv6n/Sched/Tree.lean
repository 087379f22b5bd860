import Xv6n.Sched.Locks

/-!
# The process tree

Every process other than the first has a parent that has not exited: `exit` gives the children away
before it makes a zombie, and both a new parent and a new zombie are made under `wait_lock`.
-/

namespace Xv6n.Sched
open Lib State Function
variable {p : Slot}

/-- The process is in `exit`. -/
def Pc.exits : Pc → Bool
  | .acquire _ next | .wakeup _ _ next => next.exits
  | .exitReparent _ _ | .exitZombie _ => true
  | _ => false

/-- How many slots a process in `exit` has searched for children. -/
def Pc.cleared : Pc → Nat
  | .wakeup _ _ next => next.cleared
  | .exitReparent _ k => k
  | .exitZombie _ => NPROC
  | _ => 0

structure Tree (s : State) : Prop where
  parent : ∀ j q, (s.slot j).parent = some q → q ≠ j ∧ (s.slot q).Alive
  orphan : ∀ j, j ≠ initproc → (s.slot j).Alive ∨ (s.slot j).state = .zombie → (s.slot j).parent ≠ none
  init : (s.slot initproc).Alive ∧ (s.slot initproc).parent = none
  exits : ∀ e, (s.pc e).exits = true → e ≠ initproc
  cleared : ∀ e (j : Fin NPROC), j < (s.pc e).cleared → (s.slot j).parent ≠ some e
  child : ∀ i j, s.pc i = .forkRun j → (s.slot j).parent = some i

section
variable {s s' : State} {i j q : Fin NPROC} {x : Pc} {f : Slot → Slot}

lemma Pc.exits_of_cleared (h : x.cleared ≠ 0) : x.exits = true := by
  induction x with
  | wakeup c k next ih => exact ih h
  | exitReparent st k => rfl
  | exitZombie st => rfl
  | _ => exact absurd rfl h

lemma Tree.congr (h : Tree s) (h1 : s'.slot = s.slot) (h2 : s'.pc = s.pc) : Tree s' :=
  ⟨by rw [h1]; exact h.parent, by rw [h1]; exact h.orphan, by rw [h1]; exact h.init,
    by rw [h2]; exact h.exits, by rw [h1, h2]; exact h.cleared, by rw [h1, h2]; exact h.child⟩

lemma Tree.move (h : Tree s) (h1 : s'.slot = s.slot) (h2 : s'.pc = update s.pc i x)
    (hx : x.exits = true → i ≠ initproc)
    (hc : ∀ j : Fin NPROC, j < x.cleared → (s.slot j).parent ≠ some i)
    (hf : ∀ j, x = .forkRun j → (s.slot j).parent = some i) : Tree s' := by
  refine ⟨by rw [h1]; exact h.parent, by rw [h1]; exact h.orphan, by rw [h1]; exact h.init,
    fun e he => ?_, fun e j hj => ?_, fun k j hk => ?_⟩
  · rw [h2, update_apply] at he
    split at he
    · rename_i e
      rw [e]
      exact hx he
    · exact h.exits e he
  · rw [h2, update_apply] at hj
    rw [h1]
    split at hj
    · rename_i e
      rw [e]
      exact hc j hj
    · exact h.cleared e j hj
  · rw [h2, update_apply] at hk
    rw [h1]
    split at hk
    · rename_i e
      rw [e]
      exact hf j hk
    · exact h.child k j hk

lemma Tree.plain (h : Tree s) (h1 : s'.slot = s.slot) (h2 : s'.pc = update s.pc i x)
    (hx : x.exits = false) (hf : ∀ j, x ≠ .forkRun j) : Tree s' := by
  refine h.move h1 h2 (by rw [hx]; nofun) (fun j hj => ?_) fun j e => absurd e (hf j)
  rw [Pc.exits_of_cleared (x := x) (by omega)] at hx
  cases hx

lemma Tree.slot (h : Tree s) (hp : (f (s.slot j)).parent = (s.slot j).parent)
    (ha : (s.slot j).Alive →
      (f (s.slot j)).Alive ∨ j ≠ initproc ∧ ∀ k, (s.slot k).parent ≠ some j)
    (hn : (f (s.slot j)).Alive ∨ (f (s.slot j)).state = .zombie → j ≠ initproc →
      (s.slot j).parent ≠ none) :
    Tree (s.setSlot j f) := by
  have hpar : ∀ k, ((s.setSlot j f).slot k).parent = (s.slot k).parent := by
    intro k
    rw [setSlot_slot, update_apply]
    split
    · rename_i e
      rw [e, hp]
    · rfl
  have hali : ∀ k, (s.slot k).Alive →
      ((s.setSlot j f).slot k).Alive ∨ k ≠ initproc ∧ ∀ l, (s.slot l).parent ≠ some k := by
    intro k hk
    rw [setSlot_slot, update_apply]
    split
    · rename_i e
      rw [e] at hk ⊢
      exact ha hk
    · exact .inl hk
  refine ⟨fun k q hk => ?_, fun k hne hk => ?_, ⟨?_, ?_⟩, h.exits, fun e k hk => ?_, fun i k hk => ?_⟩
  · rw [hpar] at hk
    obtain ⟨h1, h2⟩ := h.parent k q hk
    refine ⟨h1, ?_⟩
    cases hali q h2 with
    | inl h3 => exact h3
    | inr h3 => exact absurd hk (h3.2 k)
  · rw [hpar]
    rw [setSlot_slot, update_apply] at hk
    split at hk
    · rename_i e
      rw [e] at hne ⊢
      exact hn hk hne
    · exact h.orphan k hne hk
  · cases hali initproc h.init.1 with
    | inl h3 => exact h3
    | inr h3 => exact absurd rfl h3.1
  · rw [hpar]
    exact h.init.2
  · rw [hpar]
    exact h.cleared e k hk
  · rw [hpar]
    exact h.child i k hk

lemma Tree.slotSame (h : Tree s) (hp : (f (s.slot j)).parent = (s.slot j).parent)
    (ha : (f (s.slot j)).Alive ↔ (s.slot j).Alive)
    (hz : (f (s.slot j)).state = .zombie → (s.slot j).state = .zombie) : Tree (s.setSlot j f) :=
  h.slot hp (fun e => .inl (ha.2 e)) fun e hne => h.orphan j hne (e.imp ha.1 hz)

lemma Tree.childless (h : Tree s) (hj : ¬ (s.slot j).Alive) :
    j ≠ initproc ∧ ∀ k, (s.slot k).parent ≠ some j := by
  refine ⟨?_, fun k hk => hj (h.parent k j hk).2⟩
  rintro rfl
  exact hj h.init.1

lemma Tree.adopt (h : Tree s) (hq : q ≠ j) (hqa : (s.slot q).Alive) (hj : j ≠ initproc)
    (hc : ∀ e, j < (s.pc e).cleared → q ≠ e) (hf : ∀ i, s.pc i = .forkRun j → q = i) :
    Tree (s.setSlot j fun p => { p with parent := some q }) := by
  have hpar : ∀ k, ((s.setSlot j fun p => { p with parent := some q }).slot k).parent =
      if k = j then some q else (s.slot k).parent := by
    intro k
    rw [setSlot_slot, update_apply]
    split
    · rfl
    · rfl
  have hali : ∀ k, ((s.setSlot j fun p => { p with parent := some q }).slot k).state =
      (s.slot k).state := by
    intro k
    rw [setSlot_slot, update_apply]
    split
    · rename_i e
      rw [e]
    · rfl
  refine ⟨fun k r hk => ?_, fun k hne hk => ?_, ⟨?_, ?_⟩, h.exits, fun e k hk => ?_, fun i k hk => ?_⟩
  · rw [Slot.Alive, hali]
    rw [hpar] at hk
    split at hk
    · rename_i e
      cases hk
      rw [e]
      exact ⟨hq, hqa⟩
    · exact h.parent k r hk
  · rw [Slot.Alive, hali] at hk
    rw [hpar]
    split
    · rintro ⟨⟩
    · exact h.orphan k hne hk
  · rw [Slot.Alive, hali]
    exact h.init.1
  · rw [hpar, if_neg (Ne.symm hj)]
    exact h.init.2
  · rw [hpar]
    split
    · rename_i e'
      rw [e'] at hk
      intro e''
      exact hc e hk (Option.some_inj.1 e'')
    · exact h.cleared e k hk
  · rw [hpar]
    split
    · rename_i e
      rw [e] at hk
      rw [hf i hk]
    · exact h.child i k hk

lemma Tree.free (h : Tree s) (hf : Forks s) (hj : ¬ (s.slot j).Alive) (hu : (s.slot j).state ≠ .used) :
    Tree (s.setSlot j freeproc) := by
  obtain ⟨hj1, hj2⟩ := h.childless hj
  have hne : ∀ {k}, k ≠ j → (s.setSlot j freeproc).slot k = s.slot k := by
    intro k hk
    rw [setSlot_slot, update_of_ne hk]
  have heq : (s.setSlot j freeproc).slot j = freeproc (s.slot j) := by
    rw [setSlot_slot, update_self]
  refine ⟨fun k q hk => ?_, fun k hne' hk => ?_, ?_, h.exits, fun e k hk => ?_, fun i k hk => ?_⟩
  · by_cases e : k = j
    · rw [e, heq] at hk
      cases hk
    · rw [hne e] at hk
      have hq : q ≠ j := by
        rintro rfl
        exact hj2 k hk
      rw [hne hq]
      exact h.parent k q hk
  · by_cases e : k = j
    · rw [e, heq] at hk
      rcases hk with (hk | hk | hk) | hk <;> cases hk
    · rw [hne e] at hk ⊢
      exact h.orphan k hne' hk
  · rw [hne (Ne.symm hj1)]
    exact h.init
  · by_cases e' : k = j
    · rw [e', heq]
      nofun
    · rw [hne e']
      exact h.cleared e k hk
  · by_cases e : k = j
    · rw [e, setSlot_pc] at hk
      exact absurd (hf.used i j (by rw [hk]; rfl)) hu
    · rw [hne e]
      exact h.child i k hk

lemma Slot.not_alive (h : p.state = .unused ∨ p.state = .used ∨ p.state = .zombie) :
    ¬ p.Alive := by
  rintro (h1 | h1 | h1) <;> rw [h1] at h <;> simp at h

lemma Pc.exits_of_life (h : x.life = false) : x.exits = false := by
  induction x with
  | acquire l next ih => exact ih h
  | wakeup c k next ih => exact ih h
  | exitReparent st k => cases h
  | exitZombie st => cases h
  | _ => rfl

lemma Tree.other (h : Tree s) (h1 : s'.slot = s.slot)
    (h2 : ∃ x, s'.pc = update s.pc i x ∧ x.life = false ∧ (s.pc i).life = false) : Tree s' := by
  obtain ⟨x, h2, h3, -⟩ := h2
  refine h.plain h1 h2 (Pc.exits_of_life h3) ?_
  rintro j rfl
  cases h3

lemma Slot.kill_alive_iff : p.kill.Alive ↔ p.Alive := by
  refine ⟨fun h => ?_, Slot.kill_alive⟩
  unfold Slot.kill Slot.Alive at h
  dsimp only at h
  split at h
  · rename_i e
    exact .inr (.inr e)
  · exact h

lemma Slot.kill_zombie (h : p.kill.state = .zombie) : p.state = .zombie := by
  unfold Slot.kill at h
  dsimp only at h
  split at h
  · cases h
  · exact h

lemma Slot.wake_alive_iff {c} : (p.wake c).Alive ↔ p.Alive := by
  refine ⟨fun h => ?_, Slot.wake_alive⟩
  unfold Slot.wake at h
  split at h
  · rename_i e
    exact .inr (.inr e.1)
  · exact h

lemma Tree.wake {c} (h : Tree s) : Tree (s.setSlot j (Slot.wake c)) := by
  refine h.slotSame ?_ Slot.wake_alive_iff fun e => ?_
  · unfold Slot.wake
    split
    · rfl
    · rfl
  · unfold Slot.wake at e
    split at e
    · cases e
    · exact e

lemma LifeStep.tree {o} (h : Tree s) (hs : Sane s) (hrun : (s.slot i).state = .running)
    (st : LifeStep s i o s') : Tree s' := by
  have hi : (s.slot i).Alive := .inr (.inl hrun)
  cases st with
  | forkNext _ _ | waitNext _ _ | waitLive _ _ _ | waitSleep _ _ _ | killNext _ _ => exact h.plain rfl rfl rfl nofun
  | forkNone _ _ | waitFault _ _ _ _ | waitNone _ _ _ | killNone _ _ =>
    exact h.plain (i := i) (x := .user) rfl rfl rfl nofun
  | @forkFail j _ hj _ =>
    have h1 := h.free hs.forks (Slot.not_alive (.inl hj)) (by rw [hj]; nofun)
    exact h1.plain (i := i) (x := .user) rfl rfl rfl nofun
  | @forkBuild j _ hj _ =>
    have hna := Slot.not_alive (p := s.slot j) (.inl hj)
    have h1 := h.slot (j := j) (f := s.buildSlot i o) rfl (fun e => absurd e hna)
      (by rintro ((e | e | e) | e) <;> cases e)
    exact h1.plain (i := i) (x := .forkParent j) rfl rfl rfl nofun
  | @forkParent j hpc _ =>
    have hj : (s.slot j).state = .used := hs.forks.used i j (by rw [hpc]; rfl)
    have hna := Slot.not_alive (p := s.slot j) (.inr (.inl hj))
    have hij : i ≠ j := by
      rintro rfl
      exact hna hi
    have h1 : Tree (s.setSlot j fun p => { p with parent := some i }) := by
      refine h.adopt hij hi (h.childless hna).1 (fun e he => ?_) fun k hk => ?_
      · rintro rfl
        rw [hpc] at he
        exact absurd he (Nat.not_lt_zero _)
      · exact hs.forks.once i k j (by rw [hpc]; rfl) (by rw [hk]; rfl)
    refine h1.move (i := i) (x := .forkRun j) rfl rfl nofun nofun fun k hk => ?_
    cases hk
    rw [setSlot_slot, update_self]
  | @forkRun j hpc =>
    have h1 : Tree (s.goto j .user) := h.plain (i := j) (x := .user) rfl rfl rfl nofun
    have h2 : Tree ((s.goto j .user).goto i .user) := h1.plain (i := i) (x := .user) rfl rfl rfl nofun
    refine (h2.slot (j := j) (f := fun p => { p with state := .runnable }) rfl
      (fun _ => .inl (.inl rfl)) fun _ _ => ?_).congr rfl rfl
    rw [goto_slot, goto_slot, h.child i j hpc]
    nofun
  | @reparent st j hpc hj =>
    have hne : i ≠ initproc := h.exits i (by rw [hpc]; rfl)
    have hji : j ≠ initproc := by
      rintro rfl
      rw [h.init.2] at hj
      cases hj
    have h1 : Tree (s.setSlot j fun p => { p with parent := some initproc }) := by
      refine h.adopt (Ne.symm hji) h.init.1 hji (fun e he => ?_) fun k hk => ?_
      · exact Ne.symm (h.exits e (Pc.exits_of_cleared (by omega)))
      · have hk' := h.child k j hk
        rw [hj, Option.some_inj] at hk'
        rw [← hk', hpc] at hk
        cases hk
    refine h1.move (i := i) (x := .wakeup _ _ (.exitReparent st (j + 1))) rfl rfl (fun _ => hne)
      (fun k hk => ?_) nofun
    rw [setSlot_slot, update_apply]
    split
    · intro e
      exact hne (Option.some_inj.1 e).symm
    · rename_i hkj
      refine h.cleared i k ?_
      rw [hpc]
      exact lt_of_le_of_ne (Nat.lt_succ_iff.1 hk) fun e => hkj (Fin.ext e)
  | @reparentNext st j hpc hj =>
    have hne : i ≠ initproc := h.exits i (by rw [hpc]; rfl)
    refine h.move (x := .exitReparent st (j + 1)) rfl rfl (fun _ => hne) (fun k hk => ?_) nofun
    by_cases hkj : k = j
    · rw [hkj]
      exact hj
    · refine h.cleared i k ?_
      rw [hpc]
      exact lt_of_le_of_ne (Nat.lt_succ_iff.1 hk) fun e => hkj (Fin.ext e)
  | @reparentDone st k hpc hk =>
    have hne : i ≠ initproc := h.exits i (by rw [hpc]; rfl)
    refine h.move (x := .wakeup _ _ (.exitZombie st)) rfl rfl (fun _ => hne) (fun j _ => ?_) nofun
    refine h.cleared i j ?_
    rw [hpc]
    exact lt_of_lt_of_le j.isLt hk
  | @zombie st hpc =>
    have hne : i ≠ initproc := h.exits i (by rw [hpc]; rfl)
    have hch : ∀ k, (s.slot k).parent ≠ some i := by
      intro k
      refine h.cleared i k ?_
      rw [hpc]
      exact k.isLt
    have h1 := h.slot (j := i) (f := fun p => { p with xstate := st, state := .zombie }) rfl
      (fun _ => .inr ⟨hne, hch⟩) fun _ _ => h.orphan i hne (.inl hi)
    exact h1.plain (i := i) (x := .dead) rfl rfl rfl nofun
  | @waitReap _ _ j _ _ hz =>
    have h1 := h.free hs.forks (Slot.not_alive (.inr (.inr hz))) (by rw [hz]; nofun)
    exact h1.plain (i := i) (x := .user) rfl rfl rfl nofun
  | @killHit _ j _ _ =>
    have h1 := h.slotSame (j := j) (f := Slot.kill) rfl Slot.kill_alive_iff Slot.kill_zombie
    exact h1.plain (i := i) (x := .user) rfl rfl rfl nofun

lemma Dozes.exits {c l next} (h : Dozes i c l next) : next.exits = false := by
  unfold Dozes at h
  split at h
  all_goals first | rfl | cases h

lemma Step.tree {a} (h : Tree s) (hs : Sane s) (st : Step s a s') : Tree s' := by
  cases st with
  | @call i c _ _ hm =>
    cases c with
    | exit st =>
      refine h.move (x := .acquire .wait (.exitReparent st 0)) rfl rfl (fun _ => ?_) nofun nofun
      simpa [mayCall] using hm
    | _ => exact h.plain rfl rfl rfl nofun
  | @acquire i o l next _ hpc _ =>
    have hw := hs.locks.wf i
    rw [hpc] at hw
    have hc : next.cleared = 0 := by
      cases next with
      | exitReparent st k => exact hw.2
      | exitZombie st => cases hw
      | wakeup c k next => cases hw
      | _ => rfl
    refine h.move (i := i) (x := next) rfl rfl (fun e => h.exits i (by rw [hpc]; exact e))
      (by rw [hc]; nofun) ?_
    rintro j rfl
    cases hw
  | @wakeSelf i o c next _ hpc =>
    refine h.move rfl rfl (fun e => h.exits i (by rw [hpc]; exact e)) (fun j hj => ?_) nofun
    exact h.cleared i j (by rw [hpc]; exact hj)
  | @wake i o c next j _ hpc _ =>
    have h1 : Tree (s.goto i (.wakeup c (j + 1) next)) := by
      refine h.move rfl rfl (fun e => h.exits i (by rw [hpc]; exact e)) (fun j hj => ?_) nofun
      exact h.cleared i j (by rw [hpc]; exact hj)
    exact h1.wake
  | @wakeDone i o c k next _ hpc _ =>
    have hw := hs.locks.wf i
    rw [hpc] at hw
    refine h.move rfl rfl (fun e => h.exits i (by rw [hpc]; exact e)) (fun j hj => ?_) ?_
    · exact h.cleared i j (by rw [hpc]; exact hj)
    · rintro j rfl
      cases hw
  | @sleep i o c l next hrun hpc =>
    have hw := hs.locks.wf i
    rw [hpc] at hw
    have hx : next.exits = false := Dozes.exits hw
    have h1 : Tree (s.goto i (.acquire l next)) := h.plain rfl rfl hx nofun
    have hi : (s.slot i).Alive := .inr (.inl hrun)
    exact (h1.slotSame (j := i) (f := Slot.doze c) rfl ⟨fun _ => hi, fun _ => .inr (.inr rfl)⟩
      nofun).congr rfl rfl
  | life hrun st => exact st.tree h hs hrun
  | pipe _ st | device _ st => exact h.other st.slot st.pc
  | @sched i hr =>
    exact h.slotSame rfl ⟨fun _ => .inl hr, fun _ => .inr (.inl rfl)⟩ nofun
  | @yield i hr _ => exact h.slotSame rfl ⟨fun _ => .inr (.inl hr), fun _ => .inl rfl⟩ nofun
  | intr _ => exact h.wake
  | _ => exact h.congr rfl rfl

lemma Tree.start {data buf o} : Tree (State.start data buf o) := by
  have hpar : ∀ j, ((State.start data buf o).slot j).parent = none := by
    intro j
    unfold State.start
    dsimp only
    split
    · rfl
    · rfl
  refine ⟨fun j q hq => ?_, fun j hne hj => ?_, ⟨.inl rfl, rfl⟩, nofun, fun e j hj => ?_, nofun⟩
  · rw [hpar] at hq
    cases hq
  · unfold State.start at hj
    dsimp only at hj
    rw [if_neg hne] at hj
    rcases hj with (hj | hj | hj) | hj <;> cases hj
  · exact absurd hj (Nat.not_lt_zero _)

end

end Xv6n.Sched
