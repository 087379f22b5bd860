import Xv6n.Sched.Tree

/-!
# Waiting for children

A process that sleeps in `wait` has no zombie among its children. `exit` wakes the parent before it makes
a zombie, but it keeps `wait_lock` in between, and `wait` looks at all children and goes to sleep under the
same lock. When a child moves to the first process, the first process is woken.

The trace of exits and waits shows that every zombie is returned by one `wait`, with the pid and the status
it exited with.
-/

namespace Xv6n.Sched
open Lib State Function

/-- The process sleeps in `wait`. -/
def State.Naps (s : State) (p : Fin NPROC) : Prop :=
  (s.slot p).state = .sleeping ∧ (s.slot p).chan = some (.proc p)

/-- How many slots a process in `wait` has searched for zombies. -/
def Pc.scanned : Pc → Nat
  | .waitScan _ k _ => k
  | .sleep _ _ (.waitScan _ _ _) => NPROC
  | _ => 0

/-- How many slots a process in `exit` has searched for its parent, to wake it. -/
def Pc.woke : Pc → Nat
  | .wakeup _ k (.exitZombie _) => k
  | .exitZombie _ => NPROC
  | _ => 0

/-- The last `wakeup` of `exit`. -/
def Pc.last : Pc → Option (Option Chan)
  | .wakeup c _ (.exitZombie _) => some c
  | _ => none

/-- The process has moved a child to `p` and has not come to `p` in its `wakeup`. -/
def Pc.calls (p : Fin NPROC) (x : Pc) : Prop :=
  ∃ k st k', x = .wakeup (some (.proc p)) k (.exitReparent st k') ∧ k ≤ p

/-- Zombies, and the parents that wait for them. -/
structure Waits (s : State) : Prop where
  childless : ∀ i a k, s.pc i = .waitScan a k false →
    ∀ j : Fin NPROC, j < k → (s.slot j).parent ≠ some i
  live : ∀ i (j : Fin NPROC), j < (s.pc i).scanned → (s.slot j).parent = some i →
    (s.slot j).state ≠ .zombie
  aim : ∀ e c, (s.pc e).last = some c → c = (s.slot e).parent.map .proc
  woken : ∀ e (p : Fin NPROC), (s.slot e).parent = some p → p < (s.pc e).woke → ¬ s.Naps p
  asleep : ∀ p j, s.Naps p → (s.slot j).parent = some p → (s.slot j).state = .zombie →
    ∃ e, (s.pc e).calls p

section
variable {s s' : State} {i j q : Fin NPROC} {x : Pc} {f : Slot → Slot}

section
variable (h : Waits s)
include h

lemma Waits.congr (h1 : s'.slot = s.slot) (h2 : s'.pc = s.pc) : Waits s' :=
  ⟨by rw [h1, h2]; exact h.childless, by rw [h1, h2]; exact h.live, by rw [h1, h2]; exact h.aim,
    by unfold State.Naps; rw [h1, h2]; exact h.woken, by unfold State.Naps; rw [h1, h2]; exact h.asleep⟩

lemma Waits.move (h1 : s'.slot = s.slot) (h2 : s'.pc = update s.pc i x)
    (hc : ∀ a k, x = .waitScan a k false → ∀ j : Fin NPROC, j < k → (s.slot j).parent ≠ some i)
    (hl : ∀ j : Fin NPROC, j < x.scanned → (s.slot j).parent = some i → (s.slot j).state ≠ .zombie)
    (ha : ∀ c, x.last = some c → c = (s.slot i).parent.map .proc)
    (hw : ∀ p : Fin NPROC, (s.slot i).parent = some p → p < x.woke → ¬ s.Naps p)
    (he : ∀ p, (s.pc i).calls p → s.Naps p → x.calls p) : Waits s' := by
  have hnap : ∀ {p}, s'.Naps p ↔ s.Naps p := by
    intro p
    unfold State.Naps
    rw [h1]
  refine ⟨fun k a n hk => ?_, fun k j hj => ?_, fun k c hk => ?_, fun k p hp hk => ?_,
    fun p j hp hj hz => ?_⟩
  · rw [h2, update_apply] at hk
    rw [h1]
    split at hk
    · rename_i e
      rw [e]
      exact hc a n hk
    · exact h.childless k a n hk
  · rw [h2, update_apply] at hj
    rw [h1]
    split at hj
    · rename_i e
      rw [e]
      exact hl j hj
    · exact h.live k j hj
  · rw [h2, update_apply] at hk
    rw [h1]
    split at hk
    · rename_i e
      rw [e]
      exact ha c hk
    · exact h.aim k c hk
  · rw [h2, update_apply] at hk
    rw [h1] at hp
    rw [hnap]
    split at hk
    · rename_i e
      rw [e] at hp
      exact hw p hp hk
    · exact h.woken k p hp hk
  · rw [h1] at hj hz
    rw [hnap] at hp
    obtain ⟨e, hcall⟩ := h.asleep p j hp hj hz
    refine ⟨e, ?_⟩
    rw [h2, update_apply]
    split
    · rename_i e'
      rw [e'] at hcall
      exact he p hcall hp
    · exact hcall

lemma Waits.plain (h1 : s'.slot = s.slot) (h2 : s'.pc = update s.pc i x)
    (hl : x.scanned = 0) (ha : x.last = none) (hw : x.woke = 0) (he : ∀ p, ¬ (s.pc i).calls p) :
    Waits s' := by
  refine h.move h1 h2 ?_ ?_ ?_ ?_ fun p hp => absurd hp (he p)
  · rintro a k rfl j hj
    rw [Pc.scanned] at hl
    omega
  · rw [hl]
    nofun
  · rw [ha]
    nofun
  · rw [hw]
    nofun

lemma Waits.slot (hp : (f (s.slot j)).parent = (s.slot j).parent)
    (hz : (f (s.slot j)).state = .zombie → (s.slot j).state = .zombie ∨
      (∀ e, j < (s.pc e).scanned → (s.slot j).parent ≠ some e) ∧
      ∀ p, (s.slot j).parent = some p → ¬ s.Naps p ∧ p ≠ j)
    (hn : (s.setSlot j f).Naps j → s.Naps j ∨
      (∀ e, (s.slot e).parent = some j → (s.pc e).woke = 0) ∧
      ∀ k, (s.slot k).parent = some j → (s.slot k).state ≠ .zombie ∧ k ≠ j) :
    Waits (s.setSlot j f) := by
  have hpar : ∀ k, ((s.setSlot j f).slot k).parent = (s.slot k).parent := by
    intro k
    rw [setSlot_slot, update_apply]
    split
    · rename_i e
      rw [e, hp]
    · rfl
  have hnap : ∀ {p}, p ≠ j → ((s.setSlot j f).Naps p ↔ s.Naps p) := by
    intro p hpj
    unfold State.Naps
    rw [setSlot_slot, update_of_ne hpj]
  have hzom : ∀ {k}, k ≠ j → ((s.setSlot j f).slot k).state = (s.slot k).state := by
    intro k hkj
    rw [setSlot_slot, update_of_ne hkj]
  have hself : (s.setSlot j f).slot j = f (s.slot j) := by
    rw [setSlot_slot, update_self]
  refine ⟨fun k a n hk l hl => ?_, fun k l hl hk => ?_, fun k c hk => ?_, fun k p hkp hk => ?_,
    fun p k hpn hk hkz => ?_⟩
  · rw [hpar]
    exact h.childless k a n hk l hl
  · rw [hpar] at hk
    by_cases e : l = j
    · subst e
      rw [hself]
      intro e'
      cases hz e' with
      | inl h1 => exact h.live k l hl hk h1
      | inr h1 => exact h1.1 k hl hk
    · rw [hzom e]
      exact h.live k l hl hk
  · rw [hpar]
    exact h.aim k c hk
  · rw [hpar] at hkp
    by_cases e : p = j
    · subst e
      intro e'
      cases hn e' with
      | inl h1 => exact h.woken k p hkp hk h1
      | inr h1 =>
        rw [setSlot_pc, h1.1 k hkp] at hk
        exact absurd hk (Nat.not_lt_zero _)
    · rw [hnap e]
      exact h.woken k p hkp hk
  · rw [hpar] at hk
    rw [setSlot_pc]
    by_cases e : p = j
    · subst e
      cases hn hpn with
      | inl h1 =>
        by_cases e' : k = p
        · subst e'
          rw [hself] at hkz
          cases hz hkz with
          | inl h2 => exact h.asleep k k h1 hk h2
          | inr h2 => exact absurd rfl (h2.2 k hk).2
        · rw [hzom e'] at hkz
          exact h.asleep p k h1 hk hkz
      | inr h1 =>
        obtain ⟨h2, h3⟩ := h1.2 k hk
        rw [hzom h3] at hkz
        exact absurd hkz h2
    · rw [hnap e] at hpn
      by_cases e' : k = j
      · subst e'
        rw [hself] at hkz
        cases hz hkz with
        | inl h2 => exact h.asleep p k hpn hk h2
        | inr h2 => exact absurd hpn (h2.2 p hk).1
      · rw [hzom e'] at hkz
        exact h.asleep p k hpn hk hkz

lemma Waits.slotSame (hp : (f (s.slot j)).parent = (s.slot j).parent)
    (hz : (f (s.slot j)).state = .zombie → (s.slot j).state = .zombie)
    (hn : (f (s.slot j)).state = .sleeping →
      (s.slot j).state = .sleeping ∧ (f (s.slot j)).chan = (s.slot j).chan) :
    Waits (s.setSlot j f) := by
  refine h.slot hp (fun e => .inl (hz e)) fun e => .inl ?_
  unfold State.Naps at e ⊢
  rw [setSlot_slot, update_self] at e
  obtain ⟨h1, h2⟩ := hn e.1
  exact ⟨h1, h2.symm.trans e.2⟩

lemma Waits.adopt (hq : ∀ e, (s.pc e).scanned = 0 ∧ (s.pc e).last = none ∧ (s.pc e).woke = 0)
    (hj : (s.slot j).state ≠ .zombie ∨ ∃ e, (s.pc e).calls q) :
    Waits (s.setSlot j fun p => { p with parent := some q }) := by
  have hsame : ∀ k, ((s.setSlot j fun p => { p with parent := some q }).slot k).state =
      (s.slot k).state ∧
      ((s.setSlot j fun p => { p with parent := some q }).slot k).chan = (s.slot k).chan := by
    intro k
    rw [setSlot_slot, update_apply]
    split
    · rename_i e
      rw [e]
      exact ⟨rfl, rfl⟩
    · exact ⟨rfl, rfl⟩
  refine ⟨fun k a n hk l hl => ?_, fun k l hl => ?_, fun k c hk => ?_, fun k p _ hk => ?_,
    fun p k hp hk hz => ?_⟩
  · have := (hq k).1
    rw [setSlot_pc] at hk
    rw [hk, Pc.scanned] at this
    omega
  · rw [setSlot_pc, (hq k).1] at hl
    exact absurd hl (Nat.not_lt_zero _)
  · rw [setSlot_pc, (hq k).2.1] at hk
    cases hk
  · rw [setSlot_pc, (hq k).2.2] at hk
    exact absurd hk (Nat.not_lt_zero _)
  · unfold State.Naps at hp
    rw [(hsame p).1, (hsame p).2] at hp
    rw [(hsame k).1] at hz
    rw [setSlot_slot, update_apply] at hk
    rw [setSlot_pc]
    split at hk
    · rename_i e
      rw [e] at hz
      cases hk
      exact hj.resolve_left fun hne => hne hz
    · exact h.asleep p k hp hk hz

lemma Waits.free (hj : (s.pc j).last = none) : Waits (s.setSlot j freeproc) := by
  have hpar : ∀ {k p}, ((s.setSlot j freeproc).slot k).parent = some p →
      k ≠ j ∧ (s.slot k).parent = some p := by
    intro k p hk
    rw [setSlot_slot, update_apply] at hk
    split at hk
    · cases hk
    · exact ⟨‹_›, hk⟩
  have hslot : ∀ {k}, k ≠ j → (s.setSlot j freeproc).slot k = s.slot k := by
    intro k hk
    rw [setSlot_slot, update_of_ne hk]
  have hnap : ∀ {p}, (s.setSlot j freeproc).Naps p → s.Naps p := by
    intro p hp
    unfold State.Naps at hp ⊢
    rw [setSlot_slot, update_apply] at hp
    split at hp
    · cases hp.1
    · exact hp
  refine ⟨fun k a n hk l hl e => ?_, fun k l hl hk => ?_, fun k c hk => ?_, fun k p hkp hk => ?_,
    fun p k hp hk hz => ?_⟩
  · exact h.childless k a n hk l hl (hpar e).2
  · obtain ⟨h1, h2⟩ := hpar hk
    rw [hslot h1]
    exact h.live k l hl h2
  · rw [setSlot_pc] at hk
    rw [hslot]
    · exact h.aim k c hk
    · rintro rfl
      rw [hj] at hk
      cases hk
  · exact fun hp => h.woken k p (hpar hkp).2 hk (hnap hp)
  · obtain ⟨h1, h2⟩ := hpar hk
    rw [hslot h1] at hz
    exact h.asleep p k (hnap hp) h2 hz

lemma Waits.wake {c} : Waits (s.setSlot j (Slot.wake c)) := by
  refine h.slotSame ?_ (fun e => ?_) fun e => ?_
  · unfold Slot.wake
    split
    · rfl
    · rfl
  · unfold Slot.wake at e
    split at e
    · cases e
    · exact e
  · obtain ⟨h1, h2, -⟩ := Slot.wake_sleeping e
    exact ⟨h2, by rw [h1]⟩

end

lemma Locks.window (h : Locks s) (hl : (s.pc i).lock ≠ some .wait) :
    (s.pc i).scanned = 0 ∧ (s.pc i).last = none ∧ (s.pc i).woke = 0 := by
  have hw := h.wf i
  generalize s.pc i = x at hl hw
  cases x with
  | waitScan a k b => exact absurd rfl hl
  | exitZombie st => exact absurd rfl hl
  | sleep c l next =>
    cases next with
    | waitScan a k b =>
      rw [Pc.Wf] at hw
      unfold Dozes at hw
      split at hw
      case h_1 => exact absurd rfl hl
      all_goals first | cases hw; done | simp_all
    | _ => exact ⟨rfl, rfl, rfl⟩
  | wakeup c k next =>
    cases next with
    | exitZombie st => exact absurd rfl hl
    | _ => exact ⟨rfl, rfl, rfl⟩
  | _ => exact ⟨rfl, rfl, rfl⟩

lemma Pc.not_calls (h : x.exits = false) (p : Fin NPROC) : ¬ x.calls p := by
  rintro ⟨k, st, k', rfl, -⟩
  cases h

lemma Pc.window_of_life (h : x.life = false) : x.scanned = 0 ∧ x.last = none ∧ x.woke = 0 := by
  cases x with
  | waitScan a k b => cases h
  | exitZombie st => cases h
  | sleep c l next =>
    cases next with
    | waitScan a k b => cases h
    | _ => exact ⟨rfl, rfl, rfl⟩
  | wakeup c k next =>
    cases next with
    | exitZombie st => cases h
    | _ => exact ⟨rfl, rfl, rfl⟩
  | _ => exact ⟨rfl, rfl, rfl⟩

lemma Waits.other (h : Waits s) (h1 : s'.slot = s.slot)
    (h2 : ∃ x, s'.pc = update s.pc i x ∧ x.life = false ∧ (s.pc i).life = false) :
    Waits s' := by
  obtain ⟨x, h2, h3, h4⟩ := h2
  obtain ⟨h5, h6, h7⟩ := Pc.window_of_life h3
  exact h.plain h1 h2 h5 h6 h7 (Pc.not_calls (Pc.exits_of_life h4))

lemma lt_of_ne {k : Fin NPROC} (hk : (k : ℕ) < j + 1) (h : k ≠ j) : (k : ℕ) < j :=
  lt_of_le_of_ne (Nat.lt_succ_iff.1 hk) fun e => h (Fin.ext e)

/-- `fork`, `exit`, `wait` and `kill` keep zombies and waiting parents apart. -/
lemma LifeStep.waits {o} (h : Waits s) (hs : Sane s) (ht : Tree s) (hrun : (s.slot i).state = .running)
    (st : LifeStep s i o s') : Waits s' := by
  have hout : ∀ {x}, s.pc i = x → x.exits = false → ∀ p, ¬ (s.pc i).calls p := by
    intro x e hx
    rw [e]
    exact Pc.not_calls hx
  -- A process that is freed is at its start or its end.
  have hidle : ∀ {j}, ¬ (s.slot j).Alive → (s.pc j).last = none := by
    intro j hj
    cases hs.idle j hj with
    | inl e => rw [e]; rfl
    | inr e => rw [e]; rfl
  cases st with
  | forkNext hpc _ | killNext hpc _ => exact h.plain rfl rfl rfl rfl rfl (hout hpc rfl)
  | forkNone hpc _ | waitFault hpc _ _ _ | waitNone hpc _ _ | killNone hpc _ =>
    exact h.plain (i := i) (x := .user) rfl rfl rfl rfl rfl (hout hpc rfl)
  | @forkFail j hpc hj _ =>
    have h1 := h.free (hidle (Slot.not_alive (.inl hj)))
    exact h1.plain (i := i) (x := .user) rfl rfl rfl rfl rfl (hout hpc rfl)
  | @forkBuild j hpc hj _ =>
    have h1 := h.slotSame (j := j) (f := s.buildSlot i o) rfl nofun nofun
    exact h1.plain (i := i) (x := .forkParent j) rfl rfl rfl rfl rfl (hout hpc rfl)
  | @forkParent j hpc hfree =>
    have hj : (s.slot j).state = .used := hs.forks.used i j (by rw [hpc]; rfl)
    have h1 := h.adopt (j := j) (q := i) (fun e => hs.locks.window (hs.locks.free hfree))
      (.inl (by rw [hj]; nofun))
    exact h1.plain (i := i) (x := .forkRun j) rfl rfl rfl rfl rfl (hout hpc rfl)
  | @forkRun j hpc =>
    have hj : (s.slot j).state = .used := hs.forks.used i j (by rw [hpc]; rfl)
    have hu := hs.forks.pc_child hs.idle (j := j) (i := i) (by rw [hpc]; rfl)
    have hjc : ∀ p, ¬ (s.pc j).calls p := by
      cases hu with
      | inl e | inr e => rw [e]; exact Pc.not_calls rfl
    have h1 : Waits (s.goto j .user) := h.plain (i := j) (x := .user) rfl rfl rfl rfl rfl hjc
    have h2 : Waits ((s.goto j .user).goto i .user) := by
      refine h1.plain (i := i) (x := .user) rfl rfl rfl rfl rfl ?_
      rw [goto_pc, update_of_ne]
      · exact hout hpc rfl
      · rintro rfl
        rw [hrun] at hj
        cases hj
    exact (h2.slotSame (j := j) (f := fun p => { p with state := .runnable }) rfl nofun nofun).congr
      rfl rfl
  | @reparent st j hpc _ =>
    have hl : (s.pc i).lock = some .wait := by rw [hpc]; rfl
    have h1 : Waits (s.goto i (.wakeup (some (.proc initproc)) 0 (.exitReparent st (j + 1)))) := by
      refine h.plain rfl rfl rfl rfl rfl ?_
      rw [hpc]
      rintro p ⟨k, st, k', e, -⟩
      cases e
    refine h1.adopt (j := j) (q := initproc) (fun e => ?_) (.inr ⟨i, ?_⟩)
    · rw [goto_pc, update_apply]
      split
      · exact ⟨rfl, rfl, rfl⟩
      · rename_i hne
        exact hs.locks.window fun hle => hne (hs.locks.unique hle hl)
    · rw [goto_pc, update_self]
      exact ⟨0, st, j + 1, rfl, Nat.zero_le _⟩
  | @reparentNext st j hpc _ =>
    refine h.plain rfl rfl rfl rfl rfl ?_
    rw [hpc]
    rintro p ⟨k, st, k', e, -⟩
    cases e
  | @reparentDone st k hpc _ =>
    refine h.move (x := .wakeup _ 0 (.exitZombie st)) rfl rfl nofun nofun (fun c e => ?_) nofun ?_
    · exact (Option.some_inj.1 e).symm
    · rw [hpc]
      rintro p ⟨k, st, k', e, -⟩
      cases e
  | @zombie st hpc =>
    have hl : (s.pc i).lock = some .wait := by rw [hpc]; rfl
    have h1 : Waits (s.setSlot i fun p => { p with xstate := st, state := .zombie }) := by
      refine h.slot rfl (fun _ => .inr ⟨fun e he => ?_, fun p hp => ⟨?_, (ht.parent i p hp).1⟩⟩)
        fun hn => ?_
      · have hle : (s.pc e).lock = some .wait := by
          by_contra hne
          rw [(hs.locks.window hne).1] at he
          exact absurd he (Nat.not_lt_zero _)
        rw [hs.locks.unique hle hl, hpc] at he
        exact absurd he (Nat.not_lt_zero _)
      · refine h.woken i p hp ?_
        rw [hpc]
        exact p.isLt
      · unfold State.Naps at hn
        rw [setSlot_slot, update_self] at hn
        cases hn.1
    refine h1.plain (i := i) (x := .dead) rfl rfl rfl rfl rfl ?_
    rw [setSlot_pc, hpc]
    rintro p ⟨k, st, k', e, -⟩
    cases e
  | @waitNext a b j hpc hj =>
    refine h.move rfl rfl (fun a' k e l hl => ?_) (fun l hl hp => ?_) nofun nofun
      fun p hp => absurd hp (hout hpc rfl p)
    · cases e
      by_cases hlj : l = j
      · rw [hlj]
        exact hj
      · exact h.childless i _ j hpc l (lt_of_ne hl hlj)
    · refine h.live i l ?_ hp
      rw [hpc]
      refine lt_of_ne hl ?_
      rintro rfl
      exact hj hp
  | @waitLive a b j hpc hj hz =>
    refine h.move rfl rfl nofun (fun l hl hp => ?_) nofun nofun fun p hp => absurd hp (hout hpc rfl p)
    by_cases hlj : l = j
    · rw [hlj]
      exact hz
    · refine h.live i l ?_ hp
      rw [hpc]
      exact lt_of_ne hl hlj
  | @waitReap _ _ j hpc _ hz =>
    have h1 := h.free (hidle (Slot.not_alive (.inr (.inr hz))))
    exact h1.plain (i := i) (x := .user) rfl rfl rfl rfl rfl (hout hpc rfl)
  | @waitSleep a k hpc hk _ =>
    refine h.move rfl rfl nofun (fun l _ hp => ?_) nofun nofun fun p hp => absurd hp (hout hpc rfl p)
    refine h.live i l ?_ hp
    rw [hpc]
    exact lt_of_lt_of_le l.isLt hk
  | @killHit _ j hpc _ =>
    have h1 := h.slotSame (j := j) (f := Slot.kill) rfl Slot.kill_zombie fun e => by
      unfold Slot.kill at e
      dsimp only at e
      split at e
      · cases e
      · exact absurd e ‹_›
    exact h1.plain (i := i) (x := .user) rfl rfl rfl rfl rfl (hout hpc rfl)

lemma Waits.turn {c k next} (h : Waits s) (hpc : s.pc i = .wakeup c k next) (hw : Wakes c next)
    (hk : ∀ p : Fin NPROC, p = k → c = some (.proc p) → ¬ s.Naps p) (h1 : s'.slot = s.slot)
    (h2 : s'.pc = update s.pc i (.wakeup c (k + 1) next)) : Waits s' := by
  refine h.move h1 h2 nofun nofun (fun d hd => ?_) (fun p hp hlt => ?_) fun p hcall hn => ?_
  · cases next with
    | exitZombie st => exact h.aim i d (by rw [hpc]; exact hd)
    | _ => cases hd
  · cases next with
    | exitZombie st =>
      have hc := h.aim i c (by rw [hpc]; rfl)
      rw [hp] at hc
      by_cases e : (p : ℕ) = k
      · exact hk p e hc
      · refine h.woken i p hp ?_
        rw [hpc]
        exact lt_of_le_of_ne (Nat.lt_succ_iff.1 hlt) e
    | _ => exact absurd hlt (Nat.not_lt_zero _)
  · rw [hpc] at hcall
    obtain ⟨k1, st, k', e, hle⟩ := hcall
    cases e
    refine ⟨k + 1, st, k', rfl, Nat.succ_le_of_lt (lt_of_le_of_ne hle ?_)⟩
    intro e
    exact hk p e.symm rfl hn

lemma Dozes.wait {l next} (h : Dozes i (.proc j) l next) : l = .wait ∧ ∃ a, next = .waitScan a 0 false := by
  cases l with
  | wait =>
    cases next with
    | waitScan a k b =>
      obtain ⟨-, rfl, rfl⟩ := h
      exact ⟨rfl, a, rfl⟩
    | _ => cases h
  | _ => cases h

lemma Step.waits {a} (h : Waits s) (hs : Sane s) (ht : Tree s) (st : Step s a s') : Waits s' := by
  cases st with
  | @call i c _ hpc _ =>
    have hx : c.start.scanned = 0 ∧ c.start.last = none ∧ c.start.woke = 0 := by
      cases c <;> exact ⟨rfl, rfl, rfl⟩
    exact h.plain rfl rfl hx.1 hx.2.1 hx.2.2 (by rw [hpc]; exact Pc.not_calls rfl)
  | @acquire i o l next _ hpc _ =>
    have hw := hs.locks.wf i
    rw [hpc] at hw
    have hx : next.scanned = 0 ∧ next.last = none ∧ next.woke = 0 := by
      cases next with
      | waitScan a k b => exact ⟨hw.2.1, rfl, rfl⟩
      | exitZombie st => cases hw
      | sleep c l next => cases hw
      | wakeup c k next => cases hw
      | _ => exact ⟨rfl, rfl, rfl⟩
    refine h.plain (i := i) (x := next) rfl rfl hx.1 hx.2.1 hx.2.2 ?_
    rw [hpc]
    rintro p ⟨k, st, k', e, -⟩
    cases e
  | @wakeSelf i o c next hrun hpc =>
    have hw := hs.locks.wf i
    rw [hpc] at hw
    refine h.turn hpc hw (fun p e _ hn => ?_) rfl rfl
    rw [Fin.ext e] at hn
    rw [hn.1] at hrun
    cases hrun
  | @wake i o c next j hrun hpc hne =>
    have hw := hs.locks.wf i
    rw [hpc] at hw
    refine (h.wake (j := j) (c := c)).turn (by rw [setSlot_pc]; exact hpc) hw (fun p e hc hn => ?_) rfl rfl
    have hpj : p = j := Fin.ext e
    subst hpj
    unfold State.Naps at hn
    rw [setSlot_slot, update_self] at hn
    obtain ⟨h1, -, h3⟩ := Slot.wake_sleeping hn.1
    rw [h1, ← hc] at hn
    exact h3 hn.2
  | @wakeDone i o c k next _ hpc hk =>
    have hw := hs.locks.wf i
    rw [hpc] at hw
    have hx : next.scanned = 0 ∧ next.last = none := by
      cases next with
      | waitScan a k b => cases hw
      | sleep c l next =>
        cases next with
        | waitScan a k b => cases hw
        | _ => exact ⟨rfl, rfl⟩
      | wakeup c k next => cases hw
      | _ => exact ⟨rfl, rfl⟩
    refine h.move rfl rfl ?_ (by rw [hx.1]; nofun) (by rw [hx.2]; nofun) (fun p hp hlt => ?_)
      fun p hcall => ?_
    · rintro a k rfl
      cases hw
    · cases next with
      | exitZombie st =>
        refine h.woken i p hp ?_
        rw [hpc]
        exact lt_of_lt_of_le p.isLt hk
      | wakeup c k next => cases hw
      | _ => exact absurd hlt (Nat.not_lt_zero _)
    · rw [hpc] at hcall
      obtain ⟨k1, st, k', e, hle⟩ := hcall
      cases e
      exact absurd (lt_of_le_of_lt hle p.isLt) (Nat.not_lt.2 hk)
  | @sleep i o c l next hrun hpc =>
    have hw := hs.locks.wf i
    rw [hpc] at hw
    have hcalls : ∀ p, ¬ (s.pc i).calls p := by
      rw [hpc]
      rintro p ⟨k, st, k', e, -⟩
      cases e
    have h1 : Waits (s.goto i (.acquire l next)) := h.plain rfl rfl rfl rfl rfl hcalls
    refine (h1.slot (j := i) (f := Slot.doze c) rfl nofun fun hn => ?_).congr rfl rfl
    unfold State.Naps at hn
    rw [setSlot_slot, update_self] at hn
    have hc : c = .proc i := Option.some_inj.1 hn.2
    subst hc
    obtain ⟨rfl, a, rfl⟩ := Dozes.wait hw
    have hl : (s.pc i).lock = some .wait := by rw [hpc]; rfl
    refine .inr ⟨fun e he => ?_, fun k hk => ⟨?_, Ne.symm (ht.parent k i hk).1⟩⟩
    · have hei : e ≠ i := Ne.symm (ht.parent e i he).1
      rw [goto_pc, update_of_ne hei]
      exact (hs.locks.window fun hle => hei (hs.locks.unique hle hl)).2.2
    · refine h.live i k ?_ hk
      rw [hpc]
      exact k.isLt
  | life hrun st => exact st.waits h hs ht hrun
  | pipe _ st | device _ st => exact h.other st.slot st.pc
  | sched _ | yield _ _ => exact h.slotSame rfl nofun nofun
  | intr _ => exact h.wake
  | _ => exact h.congr rfl rfl

def Slot.corpse (p : Slot) : Option (Int × Int) :=
  if p.state = .zombie then some (p.pid, p.xstate) else none

/-- In a trace, newest event first, the exits of slot `j` and the waits that return it alternate, every wait
    returns the pid and the status of the exit before it, and `z` is the exit that no wait has returned. -/
def Reaps (j : Fin NPROC) : List Event → Option (Int × Int) → Prop
  | [], z => z = none
  | .exited k pid st :: t, z => if k = j then z = some (pid, st) ∧ Reaps j t none else Reaps j t z
  | .reaped _ k pid st :: t, z => if k = j then z = none ∧ Reaps j t (some (pid, st)) else Reaps j t z

def Logged (s : State) : Prop := ∀ j, Reaps j s.trace (s.slot j).corpse

lemma Slot.corpse_none {p : Slot} (h : p.state ≠ .zombie) : p.corpse = none := if_neg h

lemma Slot.corpse_wake {c} {p : Slot} : (p.wake c).corpse = p.corpse := by
  unfold Slot.wake
  split
  · rename_i e
    exact (Slot.corpse_none (p := p) (by rw [e.1]; nofun)).symm
  · rfl

lemma Slot.corpse_kill {p : Slot} : p.kill.corpse = p.corpse := by
  unfold Slot.kill
  split
  · rename_i e
    exact (Slot.corpse_none (p := p) (by rw [e]; nofun)).symm
  · rfl

lemma Logged.congr (h : Logged s) (h1 : s'.slot = s.slot) (h2 : s'.trace = s.trace) : Logged s' := by
  unfold Logged
  rw [h1, h2]
  exact h

lemma Logged.slot (h : Logged s) (hf : (f (s.slot j)).corpse = (s.slot j).corpse) :
    Logged (s.setSlot j f) := by
  intro k
  rw [setSlot_slot, update_apply]
  split
  · rename_i e
    rw [hf, e]
    exact h j
  · exact h k

lemma Logged.slotNone (h : Logged s) (h1 : (s.slot j).state ≠ .zombie)
    (h2 : (f (s.slot j)).state ≠ .zombie) : Logged (s.setSlot j f) :=
  h.slot (by rw [Slot.corpse_none h1, Slot.corpse_none h2])

lemma LifeStep.logged {o} (h : Logged s) (hs : Sane s) (hrun : (s.slot i).state = .running)
    (st : LifeStep s i o s') : Logged s' := by
  cases st with
  | @forkFail j _ hj _ =>
    exact (h.slotNone (j := j) (f := freeproc) (by rw [hj]; nofun) nofun).congr rfl rfl
  | @forkBuild j _ hj _ =>
    exact (h.slotNone (j := j) (f := s.buildSlot i o) (by rw [hj]; nofun) nofun).congr rfl rfl
  | @forkParent j _ _ =>
    exact (h.slot (j := j) (f := fun p => { p with parent := some i }) rfl).congr rfl rfl
  | @forkRun j hpc =>
    have hj : (s.slot j).state = .used := hs.forks.used i j (by rw [hpc]; rfl)
    exact (h.slotNone (j := j) (f := fun p => { p with state := .runnable }) (by rw [hj]; nofun)
      nofun).congr rfl rfl
  | @reparent _ j _ _ =>
    exact (h.slot (j := j) (f := fun p => { p with parent := some initproc }) rfl).congr rfl rfl
  | @zombie st _ =>
    intro k
    rw [emit_trace, goto_trace, setHeld_trace, setSlot_trace, emit_slot, goto_slot, setHeld_slot,
      setSlot_slot, update_apply, Reaps]
    split
    · rename_i e
      rw [if_pos e.symm]
      refine ⟨rfl, ?_⟩
      have hk := h i
      rw [Slot.corpse_none (by rw [hrun]; nofun)] at hk
      rw [← e]
      exact hk
    · rename_i e
      rw [if_neg (Ne.symm e)]
      exact h k
  | @waitReap _ _ j _ _ hz =>
    intro k
    rw [emit_trace, leave_trace, setHeld_trace, setSlot_trace, emit_slot, leave_slot, setHeld_slot,
      setSlot_slot, update_apply, Reaps]
    split
    · rename_i e
      rw [if_pos e.symm]
      refine ⟨rfl, ?_⟩
      have hk := h j
      rw [Slot.corpse, if_pos hz] at hk
      rw [← e]
      exact hk
    · rename_i e
      rw [if_neg (Ne.symm e)]
      exact h k
  | @killHit _ j _ _ => exact (h.slot (j := j) (f := Slot.kill) Slot.corpse_kill).congr rfl rfl
  | _ => exact h.congr rfl rfl

lemma PipeStep.trace {o} (st : PipeStep s i o s') : s'.trace = s.trace := by
  cases st <;> rfl

lemma DeviceStep.trace {o} (st : DeviceStep s i o s') : s'.trace = s.trace := by
  cases st <;> rfl

lemma Step.logged {a} (h : Logged s) (hs : Sane s) (st : Step s a s') : Logged s' := by
  cases st with
  | wake _ _ _ => exact (h.slot Slot.corpse_wake).congr rfl rfl
  | @sleep i o c l next hrun _ =>
    exact (h.slotNone (j := i) (f := Slot.doze c) (by rw [hrun]; nofun) nofun).congr rfl rfl
  | life hrun st => exact st.logged h hs hrun
  | pipe _ st | device _ st => exact h.congr st.slot st.trace
  | sched hr | yield hr _ => exact h.slotNone (by rw [hr]; nofun) nofun
  | intr _ => exact h.slot Slot.corpse_wake
  | _ => exact h.congr rfl rfl

/-- What a step adds to the trace: a process that ends its `exit`, or a `wait` that returns a zombie to its
    parent. -/
def Traced (s s' : State) : Prop :=
  s'.trace = s.trace ∨
  (∃ e st, s.pc e = .exitZombie st ∧ s'.trace = .exited e (s.slot e).pid st :: s.trace) ∨
  ∃ i j a k b, s.pc i = .waitScan a k b ∧ (s.slot j).parent = some i ∧ (s.slot j).state = .zombie ∧
    s'.trace = .reaped i j (s.slot j).pid (s.slot j).xstate :: s.trace ∧ s'.ret i = (s.slot j).pid

lemma Step.traced {a} (st : Step s a s') : Traced s s' := by
  cases st with
  | @life i o _ _ st =>
    cases st with
    | @zombie st hpc => exact .inr (.inl ⟨i, st, hpc, rfl⟩)
    | @waitReap a b j hpc hj hz =>
      refine .inr (.inr ⟨i, j, a, j, b, hpc, hj, hz, rfl, ?_⟩)
      rw [emit_ret, leave_ret, update_self]
    | _ => exact .inl rfl
  | pipe _ st => exact .inl st.trace
  | device _ st => exact .inl st.trace
  | _ => exact .inl rfl

/-- How process `i` returns from `wait(addr)`: with a zombie child that is freed, or with -1 and nothing
    changed, because the status could not be copied out, the caller was killed, or there is no child. -/
def WaitReturns (s s' : State) (i : Fin NPROC) (o : Outcome) (addr : Nat) : Prop :=
  (∃ j, (s.slot j).parent = some i ∧ (s.slot j).state = .zombie ∧ s'.ret i = (s.slot j).pid ∧
    s'.trace = .reaped i j (s.slot j).pid (s.slot j).xstate :: s.trace ∧ s'.slot j = freeproc (s.slot j)) ∨
  s'.ret i = -1 ∧ s'.slot = s.slot ∧ s'.trace = s.trace ∧
    ((∃ j, (s.slot j).parent = some i ∧ (s.slot j).state = .zombie ∧ addr ≠ 0 ∧ o.ok = false) ∨
      (s.slot i).killed = true ∨ ∀ j, (s.slot j).parent ≠ some i)

lemma Step.waitReturns {o addr k b} (h : Waits s) (hpc : s.pc i = .waitScan addr k b)
    (st : Step s (.run i o) s') (hu : s'.pc i = .user) : WaitReturns s s' i o addr := by
  cases st.life_of (by rw [hpc]; rfl) (by rw [hpc]; rfl) with
  | @waitFault _ _ j e hj hz hf =>
    rw [hpc] at e
    cases e
    refine .inr ⟨?_, rfl, rfl, .inl ⟨j, hj, hz, hf⟩⟩
    rw [leave_ret, update_self]
  | @waitReap _ _ j e hj hz =>
    refine .inl ⟨j, hj, hz, ?_, rfl, ?_⟩
    · rw [emit_ret, leave_ret, update_self]
    · rw [emit_slot, leave_slot, setHeld_slot, setSlot_slot, update_self]
  | @waitNone _ n b' e hn hc =>
    refine .inr ⟨?_, rfl, rfl, .inr ?_⟩
    · rw [leave_ret, update_self]
    · cases hc with
      | inl hb =>
        subst hb
        exact .inr fun j => h.childless i _ n e j (lt_of_lt_of_le j.isLt hn)
      | inr hk => exact .inl hk
  | waitNext _ _ | waitLive _ _ _ | waitSleep _ _ _ =>
    rw [goto_pc, update_self] at hu
    cases hu
  | _ => simp_all

lemma Waits.start {data buf o} : Waits (State.start data buf o) := by
  have hnap : ∀ p, ¬ (State.start data buf o).Naps p := by
    intro p hp
    have hst := hp.1
    unfold State.start at hst
    dsimp only at hst
    split at hst
    · cases hst
    · cases hst
  exact ⟨nofun, fun i j hj => absurd hj (Nat.not_lt_zero _), nofun,
    fun e p _ hp => absurd hp (Nat.not_lt_zero _), fun p _ hp => absurd hp (hnap p)⟩

lemma Logged.start {data buf o} : Logged (State.start data buf o) := by
  intro j
  refine Slot.corpse_none ?_
  unfold State.start
  dsimp only
  split
  · nofun
  · nofun

/-- In every run: every process other than the first that runs, sleeps or is a zombie has a parent that is
    neither free nor a zombie; the exits of every slot and the waits that return them match one to one, a
    wait returning only a child of its caller; `wait` fails without changing a slot, for want of children
    only if there are none; and while `wait_lock` is free no process sleeps in `wait` with a zombie
    child. -/
theorem process_tree {data buf o as s} (h : exec State.step (State.start data buf o) as = some s) :
    (∀ j, j ≠ initproc → (s.slot j).Alive ∨ (s.slot j).state = .zombie →
      ∃ q, (s.slot j).parent = some q ∧
        (q = initproc ∨ (s.slot q).state ≠ .unused ∧ (s.slot q).state ≠ .zombie)) ∧
    (∀ j, Reaps j s.trace (s.slot j).corpse) ∧
    (∀ a s', s.step a = some s' → Traced s s') ∧
    (∀ i o s' addr k b, s.pc i = .waitScan addr k b → s.step (.run i o) = some s' → s'.pc i = .user →
      WaitReturns s s' i o addr) ∧
    (s.held .wait = none → ∀ p j, s.Naps p → (s.slot j).parent = some p →
      (s.slot j).state ≠ .zombie) := by
  have hinv : Sane s ∧ Tree s ∧ Waits s ∧ Logged s := by
    refine exec_invariant (I := fun s => Sane s ∧ Tree s ∧ Waits s ∧ Logged s) (fun hI hst => ?_)
      ⟨.start, .start, .start, .start⟩ h
    obtain ⟨h1, h2, h3, h4⟩ := hI
    have st := step_inv hst
    exact ⟨st.sane h1, st.tree h2 h1, st.waits h3 h1 h2, st.logged h4 h1⟩
  obtain ⟨hs, ht, hw, hl⟩ := hinv
  refine ⟨fun j hne hj => ?_, hl, fun a s' hst => (step_inv hst).traced,
    fun i o s' addr k b hpc hst hu => (step_inv hst).waitReturns hw hpc hu, fun hfree p j hp hj hz => ?_⟩
  · obtain ⟨q, hq⟩ := Option.ne_none_iff_exists'.1 (ht.orphan j hne hj)
    have hqa := (ht.parent j q hq).2
    refine ⟨q, hq, .inr ⟨fun e => Slot.not_alive (.inl e) hqa, fun e => ?_⟩⟩
    exact Slot.not_alive (.inr (.inr e)) hqa
  · obtain ⟨e, k, st, k', hpc, -⟩ := hw.asleep p j hp hj hz
    exact hs.locks.free hfree (i := e) (by rw [hpc]; rfl)

/-- The first process forks, and the child calls `exit(7)`. -/
theorem process_tree_child :
    ∃ s, exec State.step (State.start (fun _ => 0) (fun _ => 0) ⟨true, 0, 1, 2⟩)
        ([.sched 0, .call 0 .fork, .run 0 ⟨true, 0, 0, 0⟩, .run 0 ⟨true, 0, 3, 4⟩, .run 0 ⟨true, 0, 0, 0⟩,
          .run 0 ⟨true, 0, 0, 0⟩, .sched 1, .call 1 (.exit 7)]) = some s ∧
      ∀ j, Reaps j s.trace (s.slot j).corpse :=
  ⟨_, rfl, (@process_tree (fun _ => 0) (fun _ => 0) ⟨true, 0, 1, 2⟩
    [.sched 0, .call 0 .fork, .run 0 ⟨true, 0, 0, 0⟩, .run 0 ⟨true, 0, 3, 4⟩, .run 0 ⟨true, 0, 0, 0⟩,
      .run 0 ⟨true, 0, 0, 0⟩, .sched 1, .call 1 (.exit 7)] _ rfl).2.1⟩

end

end Xv6n.Sched
