import Xv6n.Sched.Locks

/-!
# Free slots and kills

`allocproc` takes a slot as the last `freeproc` left it, and `kill` looks at every slot. A free slot has
pid 0, so a `kill(0)` marks it, and the next process that is put there starts out killed. Without
`kill(0)` free slots stay clean.

A process tests its mark before it calls `sleep`, and `kill` wakes a process that sleeps. A kill between
the test and the sleep is lost until the process is woken for another reason; no other kill is.
-/

namespace Xv6n.Sched
open Lib State Function

/-- The fields of a slot that `allocproc` relies on are clear. -/
structure Slot.Clean (p : Slot) : Prop where
  killed : p.killed = false
  pid : p.pid = 0
  sz : p.sz = 0
  chan : p.chan = none
  trapframe : p.trapframe = 0
  pagetable : p.pagetable = 0

def Clean (s : State) : Prop := ∀ j, (s.slot j).state = .unused → (s.slot j).Clean

/-- The pid that a process in `kill` looks for. -/
def Pc.target : Pc → Option Int
  | .killScan pid _ => some pid
  | _ => none

def Aimed (s : State) : Prop := ∀ i, (s.pc i).target ≠ some 0

section
variable {s s' : State} {i j : Fin NPROC} {x : Pc} {f : Slot → Slot}

lemma freeproc_clean {p : Slot} : (freeproc p).Clean := ⟨rfl, rfl, rfl, rfl, rfl, rfl⟩

lemma Clean.slot (h : Clean s) (hf : (f (s.slot j)).state = .unused → (f (s.slot j)).Clean) :
    Clean (s.setSlot j f) := by
  intro k hk
  rw [setSlot_slot, update_apply] at hk ⊢
  split at hk
  · rename_i e
    rw [if_pos e]
    exact hf hk
  · rename_i e
    rw [if_neg e]
    exact h k hk

lemma Clean.congr (h : Clean s) (h1 : s'.slot = s.slot) : Clean s' := by
  unfold Clean
  rw [h1]
  exact h

lemma Clean.wake {c} (h : Clean s) : Clean (s.setSlot j (Slot.wake c)) := by
  refine h.slot fun hu => ?_
  unfold Slot.wake at hu ⊢
  split at hu
  · cases hu
  · rename_i hn
    rw [if_neg hn]
    exact h j hu

lemma Aimed.move (h : Aimed s) (h1 : s'.pc = update s.pc i x) (hx : x.target ≠ some 0) :
    Aimed s' := by
  intro k
  rw [h1, update_apply]
  split
  · exact hx
  · exact h k

lemma Aimed.congr (h : Aimed s) (h1 : s'.pc = s.pc) : Aimed s' := by
  unfold Aimed
  rw [h1]
  exact h

lemma Pc.target_none (h : x.life = false) : x.target = none := by
  cases x with
  | killScan pid k => cases h
  | _ => rfl

lemma Pc.target_none_of_lock (h : x.lock ≠ none) : x.target = none := by
  cases x with
  | killScan pid k => exact absurd rfl h
  | _ => rfl

lemma Aimed.other (h : Aimed s)
    (h2 : ∃ x, s'.pc = update s.pc i x ∧ x.life = false ∧ (s.pc i).life = false) :
    Aimed s' := by
  obtain ⟨x, h2, h3, -⟩ := h2
  have hx : x.target ≠ some 0 := by
    rw [Pc.target_none h3]
    nofun
  exact h.move h2 hx

lemma LifeStep.aimed {o} (h : Aimed s) (st : LifeStep s i o s') : Aimed s' := by
  cases st with
  | @forkRun j hpc =>
    have h1 : Aimed (s.goto j .user) := h.move (x := .user) rfl nofun
    exact h1.move (i := i) (x := .user) rfl nofun
  | @killNext pid j hpc _ =>
    have hx : pid ≠ 0 := by
      rintro rfl
      exact h i (by rw [hpc]; rfl)
    exact h.move (i := i) rfl (by simpa [Pc.target] using hx)
  | _ => exact h.move (i := i) rfl nofun

lemma Step.aimed {a} (h : Aimed s) (hs : Sane s) (ha : ∀ i, a ≠ .call i (.kill 0))
    (st : Step s a s') : Aimed s' := by
  cases st with
  | @call i c _ _ _ =>
    refine h.move rfl ?_
    cases c with
    | kill pid =>
      rintro e
      cases e
      exact ha i rfl
    | _ => nofun
  | @acquire i o l next _ hpc _ =>
    have hw := hs.locks.wf i
    rw [hpc] at hw
    have hx : next.target = none := Pc.target_none_of_lock (by rw [Enters.lock hw]; nofun)
    exact h.move (i := i) (x := next) rfl (by rw [hx]; nofun)
  | wakeSelf _ _ => exact h.move rfl nofun
  | @wake i o c next j _ _ _ => exact h.move (i := i) (x := .wakeup c (j + 1) next) rfl nofun
  | @wakeDone i o c k next _ hpc _ =>
    have hw := hs.locks.wf i
    rw [hpc] at hw
    have hx : next.target = none := Pc.target_none_of_lock (Wakes.lock hw)
    exact h.move rfl (by rw [hx]; nofun)
  | @sleep i o c l next _ _ => exact h.move (i := i) (x := .acquire l next) rfl nofun
  | life _ st => exact st.aimed h
  | pipe _ st => exact h.other st.pc
  | device _ st => exact h.other st.pc
  | _ => exact h.congr rfl

lemma LifeStep.clean {o} (h : Clean s) (hf : Forks s) (ha : Aimed s) (st : LifeStep s i o s') :
    Clean s' := by
  cases st with
  | @forkFail j _ _ _ | @waitReap _ _ j _ _ _ =>
    exact (h.slot (j := j) (f := freeproc) fun _ => freeproc_clean).congr rfl
  | @forkBuild j _ _ _ => exact (h.slot (j := j) (f := s.buildSlot i o) nofun).congr rfl
  | @forkParent j hpc _ =>
    have hj := hf.used i j (by rw [hpc]; rfl)
    exact (h.slot (j := j) (f := fun p => { p with parent := some i })
      fun e => by rw [hj] at e; cases e).congr rfl
  | @forkRun j _ => exact (h.slot (j := j) (f := fun p => { p with state := .runnable }) nofun).congr rfl
  | @reparent st j _ _ =>
    refine (h.slot (j := j) (f := fun p => { p with parent := some initproc }) fun e => ?_).congr rfl
    have hc := h j e
    exact ⟨hc.killed, hc.pid, hc.sz, hc.chan, hc.trapframe, hc.pagetable⟩
  | @zombie st _ =>
    exact (h.slot (j := i) (f := fun p => { p with xstate := st, state := .zombie }) nofun).congr rfl
  | @killHit pid j hpc hj =>
    refine (h.slot (j := j) (f := Slot.kill) fun e => ?_).congr rfl
    -- The slot is not free: its pid is the one that is looked for, which is not 0.
    have hu : (s.slot j).state = .unused := by
      unfold Slot.kill at e
      dsimp only at e
      split at e
      · cases e
      · exact e
    rw [(h j hu).pid] at hj
    exact absurd (by rw [hpc, ← hj]; rfl) (ha i)
  | _ => exact h.congr rfl

lemma Step.clean {a} (h : Clean s) (hf : Forks s) (ha : Aimed s) (st : Step s a s') : Clean s' := by
  cases st with
  | wake _ _ _ => exact h.wake.congr rfl
  | @sleep i o c l next _ _ => exact (h.slot (j := i) (f := Slot.doze c) nofun).congr rfl
  | life _ st => exact st.clean h hf ha
  | pipe _ st | device _ st => exact h.congr st.slot
  | sched _ => exact h.slot nofun
  | yield _ _ => exact h.slot nofun
  | intr _ => exact h.wake
  | _ => exact h.congr rfl

lemma setSlot_killed {k} (hf : j = k → (f (s.slot j)).state ≠ .unused →
      (f (s.slot j)).killed = (s.slot j).killed) (hn : ((s.setSlot k f).slot j).state ≠ .unused) :
    ((s.setSlot k f).slot j).killed = (s.slot j).killed := by
  rw [setSlot_slot, update_apply] at hn ⊢
  split
  · rename_i e
    rw [if_pos e, ← e] at hn
    rw [← e]
    exact hf e hn
  · rfl

lemma LifeStep.born {o} (hu : (s.slot j).state = .unused) (st : LifeStep s i o s')
    (hn : (s'.slot j).state ≠ .unused) : (s'.slot j).killed = (s.slot j).killed := by
  cases st with
  | @forkFail k _ _ _ | @waitReap _ _ k _ _ _ =>
    exact setSlot_killed (k := k) (f := freeproc) (fun _ h => absurd rfl h) hn
  | @forkBuild k _ _ _ => exact setSlot_killed (k := k) (f := s.buildSlot i o) (fun _ _ => rfl) hn
  | @forkParent k _ _ =>
    exact setSlot_killed (k := k) (f := fun p => { p with parent := some i }) (fun _ _ => rfl) hn
  | @forkRun k _ =>
    exact setSlot_killed (k := k) (f := fun p => { p with state := .runnable }) (fun _ _ => rfl) hn
  | @reparent _ k _ _ =>
    exact setSlot_killed (k := k) (f := fun p => { p with parent := some initproc }) (fun _ _ => rfl) hn
  | @zombie st _ =>
    exact setSlot_killed (k := i) (f := fun p => { p with xstate := st, state := .zombie })
      (fun _ _ => rfl) hn
  | @killHit _ k _ _ =>
    refine setSlot_killed (k := k) (f := Slot.kill) (fun _ h => ?_) hn
    unfold Slot.kill at h
    rw [hu] at h
    exact absurd rfl h
  | _ => rfl

lemma Step.born {a} (hu : (s.slot j).state = .unused) (st : Step s a s')
    (hn : (s'.slot j).state ≠ .unused) : (s'.slot j).killed = (s.slot j).killed := by
  have hwake : ∀ {c}, (Slot.wake c (s.slot j)).killed = (s.slot j).killed := by
    intro c
    rw [Slot.wake_state (by rw [hu]; nofun)]
  cases st with
  | @wake i o c next k _ _ _ => exact setSlot_killed (k := k) (fun _ _ => hwake) hn
  | @sleep i o c l next _ _ => exact setSlot_killed (k := i) (f := Slot.doze c) (fun _ _ => rfl) hn
  | life _ st => exact st.born hu hn
  | pipe _ st => rw [st.slot]
  | device _ st => rw [st.slot]
  | sched _ | yield _ _ => exact setSlot_killed (fun _ _ => rfl) hn
  | intr _ => exact setSlot_killed (fun _ _ => hwake) hn
  | _ => rfl

lemma Step.kill_found {o pid k} (hpc : s.pc i = .killScan pid k) (st : Step s (.run i o) s')
    (hret : s'.ret i = 0) (hu : s'.pc i = .user) : ∃ j, (s.slot j).pid = pid := by
  cases st.life_of (by rw [hpc]; rfl) (by rw [hpc]; rfl) with
  | @killHit _ j e hj =>
    rw [hpc] at e
    cases e
    exact ⟨j, hj⟩
  | killNext _ _ =>
    rw [goto_pc, update_self] at hu
    cases hu
  | killNone _ _ =>
    rw [leave_ret, update_self] at hret
    cases hret
  | _ => simp_all

def Pc.dozing : Pc → Bool
  | .sleep _ _ _ => true
  | .wakeup _ _ next => next.dozing
  | _ => false

def Heeded (s : State) : Prop :=
  ∀ i, (s.slot i).killed = true → (s.slot i).state ≠ .sleeping ∧ (s.pc i).dozing = false

def Calm (s : State) : Action → Prop
  | .run i _ => ∀ pid (j : Fin NPROC), s.pc i = .killScan pid j → (s.slot j).pid = pid →
    (s.pc j).dozing = false
  | _ => True

lemma Heeded.move (h : Heeded s) (h1 : s'.slot = s.slot) (h2 : s'.pc = update s.pc i x)
    (hx : x.dozing = true → (s.slot i).killed = false) : Heeded s' := by
  intro k hk
  rw [h1] at hk ⊢
  refine ⟨(h k hk).1, ?_⟩
  rw [h2, update_apply]
  split
  · rename_i e
    rw [e] at hk
    rw [Bool.eq_false_iff]
    intro hd
    rw [hx hd] at hk
    cases hk
  · exact (h k hk).2

lemma Heeded.slot (h : Heeded s) (hf : (f (s.slot j)).killed = true →
    (f (s.slot j)).state ≠ .sleeping ∧ (s.pc j).dozing = false) : Heeded (s.setSlot j f) := by
  intro k hk
  rw [setSlot_slot, update_apply] at hk ⊢
  rw [setSlot_pc]
  split at hk
  · rename_i e
    rw [if_pos e, e]
    exact hf hk
  · rename_i e
    rw [if_neg e]
    exact h k hk

lemma Heeded.congr (h : Heeded s) (h1 : s'.slot = s.slot) (h2 : s'.pc = s.pc) : Heeded s' := by
  unfold Heeded
  rw [h1, h2]
  exact h

lemma Heeded.wake {c} (h : Heeded s) : Heeded (s.setSlot j (Slot.wake c)) := by
  refine h.slot fun hk => ?_
  unfold Slot.wake at hk ⊢
  split
  · rename_i hc
    rw [if_pos hc] at hk
    exact ⟨nofun, (h j hk).2⟩
  · rename_i hc
    rw [if_neg hc] at hk
    exact h j hk

lemma PipeStep.heeded {o} (h : Heeded s) (st : PipeStep s i o s') : Heeded s' := by
  cases st with
  | readSleep _ _ _ hk | writeFull _ _ _ hk _ => exact h.move (i := i) rfl rfl fun _ => hk
  | _ => exact h.move (i := i) rfl rfl nofun

lemma DeviceStep.heeded {o} (h : Heeded s) (st : DeviceStep s i o s') : Heeded s' := by
  cases st with
  | consSleep _ hk | sleepSleep _ hk => exact h.move (i := i) rfl rfl fun _ => hk
  | _ => exact h.move (i := i) rfl rfl nofun

lemma LifeStep.heeded {o} (h : Heeded s) (hc : Calm s (.run i o)) (st : LifeStep s i o s') :
    Heeded s' := by
  have hgo : ∀ {x}, x.dozing = false → Heeded (s.goto i x) := by
    intro x hx
    exact h.move rfl rfl fun e => by rw [hx] at e; cases e
  cases st with
  | @forkFail j _ _ _ | @waitReap _ _ j _ _ _ =>
    exact ((hgo (x := .user) rfl).slot (j := j) (f := freeproc) nofun).congr rfl rfl
  | @forkBuild j _ _ _ =>
    have h1 := hgo (x := .forkParent j) rfl
    exact (h1.slot (j := j) (f := s.buildSlot i o) fun hk => ⟨nofun, (h1 j hk).2⟩).congr rfl rfl
  | @forkParent j _ _ =>
    have h1 := hgo (x := .forkRun j) rfl
    exact h1.slot (f := fun p => { p with parent := some i }) fun hk => h1 j hk
  | @forkRun j _ =>
    have h1 : Heeded (s.goto j .user) := h.move (x := .user) rfl rfl nofun
    have h2 : Heeded ((s.goto j .user).goto i .user) := h1.move (x := .user) rfl rfl nofun
    exact (h2.slot (j := j) (f := fun p => { p with state := .runnable })
      fun hk => ⟨nofun, (h2 j hk).2⟩).congr rfl rfl
  | @reparent st j _ _ =>
    have h1 := hgo (x := .wakeup (some (.proc initproc)) 0 (.exitReparent st (j + 1))) rfl
    exact h1.slot (f := fun p => { p with parent := some initproc }) fun hk => h1 j hk
  | @zombie st _ =>
    have h1 := hgo (x := .dead) rfl
    exact (h1.slot (j := i) (f := fun p => { p with xstate := st, state := .zombie })
      fun hk => ⟨nofun, (h1 i hk).2⟩).congr rfl rfl
  | waitSleep _ _ hk => exact h.move rfl rfl fun _ => hk
  | @killHit pid j hpc hj =>
    refine ((hgo (x := .user) rfl).slot (j := j) (f := Slot.kill) fun _ => ⟨?_, ?_⟩).congr rfl rfl
    · unfold Slot.kill
      dsimp only
      split
      · nofun
      · assumption
    · rw [goto_pc, update_apply]
      split
      · rfl
      · exact hc pid j hpc hj
  | _ => exact h.move (i := i) rfl rfl nofun

lemma Enters.dozing {l} (h : Enters l x) : x.dozing = false := by
  cases x with
  | sleep c l next => cases h
  | wakeup c k next => cases h
  | _ => rfl

lemma Step.heeded {a} (h : Heeded s) (hs : Sane s) (hc : Calm s a) (st : Step s a s') : Heeded s' := by
  -- A process that is about to sleep has not been killed.
  have hdoze : ∀ i, (s.pc i).dozing = true → (s.slot i).killed = false := by
    intro i hd
    rw [Bool.eq_false_iff]
    intro hk
    rw [(h i hk).2] at hd
    cases hd
  cases st with
  | @call i c _ _ _ =>
    have hx : c.start.dozing = false := by cases c <;> rfl
    exact h.move rfl rfl (by rw [hx]; nofun)
  | @acquire i o l next _ hpc _ =>
    have hw := hs.locks.wf i
    rw [hpc] at hw
    exact h.move (i := i) (x := next) rfl rfl (by rw [Enters.dozing hw]; nofun)
  | @wakeSelf i o c next _ hpc | @wakeDone i o c k next _ hpc _ =>
    exact h.move rfl rfl fun hd => hdoze i (by rw [hpc]; exact hd)
  | @wake i o c next j _ hpc _ =>
    have h1 : Heeded (s.goto i (.wakeup c (j + 1) next)) :=
      h.move rfl rfl fun hd => hdoze i (by rw [hpc]; exact hd)
    exact h1.wake
  | @sleep i o c l next _ hpc =>
    have hk := hdoze i (by rw [hpc]; rfl)
    have h1 : Heeded (s.goto i (.acquire l next)) := h.move rfl rfl nofun
    refine (h1.slot (j := i) (f := Slot.doze c) fun hd => ?_).congr rfl rfl
    have hd : (s.slot i).killed = true := hd
    rw [hk] at hd
    cases hd
  | life _ st => exact st.heeded h hc
  | pipe _ st => exact st.heeded h
  | device _ st => exact st.heeded h
  | @sched i _ | @yield i _ _ => exact h.slot fun hk => ⟨nofun, (h i hk).2⟩
  | intr _ => exact h.wake
  | _ => exact h.congr rfl rfl

/-- In every run in which no process is killed between its test and its sleep, no process that has been
    killed sleeps. -/
theorem kill_not_lost {data buf o as s} (hc : Along State.step Calm (State.start data buf o) as)
    (h : exec State.step (State.start data buf o) as = some s) :
    ∀ i, (s.slot i).killed = true → (s.slot i).state ≠ .sleeping := by
  have hinv : Sane s ∧ Heeded s := by
    refine Along.invariant (I := fun s => Sane s ∧ Heeded s) (fun hI ha hst => ?_) ⟨.start, ?_⟩ hc h
    · have st := step_inv hst
      exact ⟨st.sane hI.1, st.heeded hI.2 hI.1 ha⟩
    · intro i hk
      unfold State.start at hk
      dsimp only at hk
      split at hk
      · cases hk
      · cases hk
  exact fun i hk => (hinv.2 i hk).1

/-- The first process kills itself. -/
theorem kill_not_lost_self :
    Along State.step Calm (State.start (fun _ => 0) (fun _ => 0) ⟨true, 0, 1, 2⟩)
      [.sched 0, .call 0 (.kill 1), .run 0 ⟨true, 0, 0, 0⟩] ∧
    ∃ s, exec State.step (State.start (fun _ => 0) (fun _ => 0) ⟨true, 0, 1, 2⟩)
        [.sched 0, .call 0 (.kill 1), .run 0 ⟨true, 0, 0, 0⟩] = some s ∧
      (s.slot 0).killed = true ∧
      ∀ i, (s.slot i).killed = true → (s.slot i).state ≠ .sleeping := by
  have hc : Along State.step Calm (State.start (fun _ => 0) (fun _ => 0) ⟨true, 0, 1, 2⟩)
      [.sched 0, .call 0 (.kill 1), .run 0 ⟨true, 0, 0, 0⟩] := by
    refine (along_cons rfl).2 ⟨trivial, (along_cons rfl).2 ⟨trivial, (along_cons rfl).2 ⟨?_, trivial⟩⟩⟩
    rintro - j - -
    revert j
    decide
  exact ⟨hc, _, rfl, rfl, kill_not_lost hc rfl⟩

/-- The first process has a child, tests its mark in `sys_sleep`, is killed by the child, and goes to
    sleep. -/
theorem kill_lost :
    ∃ s, exec State.step (State.start (fun _ => 0) (fun _ => 0) ⟨true, 0, 1, 2⟩)
        [.sched 0, .call 0 .fork, .run 0 ⟨true, 0, 0, 0⟩, .run 0 ⟨true, 0, 3, 4⟩, .run 0 ⟨true, 0, 0, 0⟩,
          .run 0 ⟨true, 0, 0, 0⟩, .sched 1, .call 0 (.sleep 5), .run 0 ⟨true, 0, 0, 0⟩,
          .run 0 ⟨true, 0, 0, 0⟩, .run 0 ⟨true, 0, 0, 0⟩, .call 1 (.kill 1), .run 1 ⟨true, 0, 0, 0⟩,
          .run 0 ⟨true, 0, 0, 0⟩] = some s ∧
      s.ret 1 = 0 ∧ (s.slot 0).killed = true ∧ (s.slot 0).state = .sleeping ∧
      (s.slot 0).chan = some .ticks :=
  ⟨_, rfl, rfl, rfl, rfl, rfl⟩

end

end Xv6n.Sched
