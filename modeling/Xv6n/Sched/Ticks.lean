import Xv6n.Sched.Locks

/-!
# Waiting for the clock

`sys_sleep` compares the ticks since its start, an unsigned difference of 32 bits, with its argument, an
`int`, and the comparison is made unsigned.
-/

namespace Xv6n.Sched
open Lib State Function

section
variable {s s' : State} {i : Fin NPROC} {a : Action} {n : Int} {t e : Nat}

lemma LifeStep.ticks {o} (st : LifeStep s i o s') : s'.ticks = s.ticks := by
  cases st <;> rfl

lemma PipeStep.ticks {o} (st : PipeStep s i o s') : s'.ticks = s.ticks := by
  cases st <;> rfl

lemma DeviceStep.ticks {o} (st : DeviceStep s i o s') : s'.ticks = s.ticks := by
  cases st <;> rfl

lemma Step.ticks (st : Step s a s') :
    s'.ticks = if a = .tick then (s.ticks + 1) % 2 ^ 32 else s.ticks := by
  cases st with
  | life _ st | pipe _ st | device _ st => exact st.ticks
  | _ => rfl

lemma Step.ticks_lt (h : s.ticks < 2 ^ 32) (st : Step s a s') : s'.ticks < 2 ^ 32 := by
  rw [st.ticks]
  split
  · exact Nat.mod_lt _ (by decide)
  · exact h

lemma Step.pc_other (h : Sane s) (st : Step s a s') (hrun : ∀ o, a ≠ .run i o) (hcall : ∀ c, a ≠ .call i c)
    (hu : s.pc i ≠ .user) (hd : s.pc i ≠ .dead) : s'.pc i = s.pc i := by
  have hup : ∀ {j : Fin NPROC} {o} {x : Pc}, Action.run j o = a → update s.pc j x i = s.pc i := by
    intro j o x hj
    refine update_of_ne ?_ _ _
    rintro rfl
    exact hrun o hj.symm
  cases st with
  | @call j c _ _ _ =>
    refine update_of_ne ?_ _ _
    rintro rfl
    exact hcall c rfl
  | acquire _ _ _ | wakeSelf _ _ | wake _ _ _ | wakeDone _ _ _ | sleep _ _ => exact hup rfl
  | @life j o _ _ st =>
    rcases st.pc i with hpc | ⟨hij | hpc, -⟩
    · exact hpc
    · subst hij
      exact absurd rfl (hrun o)
    · -- a process that is being created is in no call
      rcases h.forks.pc_child (i := j) h.idle (by rw [hpc]; rfl) with hi | hi
      · exact absurd hi hu
      · exact absurd hi hd
  | pipe _ st | device _ st =>
    obtain ⟨x, hpc, -⟩ := st.pc
    rw [hpc]
    exact hup rfl
  | _ => rfl

/-- The process is in the loop of a `sys_sleep(n)` that read `t` at its start. -/
def Pc.Naps (n : Int) (t : Nat) (x : Pc) : Prop :=
  x = .sleepLoop n t ∨ x = .sleep .ticks .ticks (.sleepLoop n t) ∨ x = .acquire .ticks (.sleepLoop n t)

/-- A `sys_sleep(n)` of process `i` that has started at `t` ticks and `e` ticks ago, or has returned. -/
structure Napping (i : Fin NPROC) (n : Int) (t e : Nat) (s : State) : Prop where
  ticks : s.ticks = (t + e) % 2 ^ 32
  pc : s.pc i = .user ∨ s.pc i = .sleepStart n ∧ e = 0 ∨ (s.pc i).Naps n t

lemma LifeStep.pc_child {o k} (st : LifeStep s i o s') (hpc : s.pc i = .forkRun k) : s'.pc k = .user := by
  cases st with
  | @forkRun j hpc' =>
    cases hpc.symm.trans hpc'
    rw [leave_pc, setSlot_pc]
    dsimp only
    rw [update_apply, update_self, ite_self]
  | _ => simp_all

lemma Step.pc_user (st : Step s a s') (hpc : s.pc i = .user) (hcall : ∀ c, a ≠ .call i c) : s'.pc i = .user := by
  have hup : ∀ {j : Fin NPROC} {x : Pc}, s.pc j ≠ .user → update s.pc j x i = .user := by
    intro j x hj
    rw [update_of_ne, hpc]
    rintro rfl
    exact hj hpc
  cases st with
  | @call j c _ _ _ =>
    rw [goto_pc, update_of_ne, hpc]
    rintro rfl
    exact hcall c rfl
  | acquire _ hj _ | wakeSelf _ hj | wake _ hj _ | wakeDone _ hj _ | sleep _ hj => exact hup (by rw [hj]; nofun)
  | @life j o _ _ st =>
    rcases st.pc i with hi | ⟨hij | hi, -⟩
    · exact hi.trans hpc
    · subst hij
      cases st <;> simp_all
    · exact st.pc_child hi
  | pipe _ st | device _ st =>
    cases st with
    | _ hj => exact hup (by rw [hj]; nofun)
  | _ => exact hpc

/-- A step of the process itself: it starts the loop, goes round, or returns. -/
lemma Napping.run {o} (h : Napping i n t e s) (ht : t < 2 ^ 32) (st : s.step (.run i o) = some s') :
    Napping i n t e s' := by
  have hticks : s'.ticks = (t + e) % 2 ^ 32 := (step_inv st).ticks.trans h.ticks
  refine ⟨hticks, ?_⟩
  rw [State.step] at st
  split at st
  · rcases h.pc with hpc | ⟨hpc, he⟩ | hpc | hpc | hpc
    · rw [State.run, hpc] at st
      cases st
    · rw [State.run, hpc] at st
      dsimp only at st
      rw [State.runDevice, hpc] at st
      cases st
      -- the clock has stood still since the lock was taken
      have hs : s.ticks = t := by rw [h.ticks, he, Nat.add_zero, Nat.mod_eq_of_lt ht]
      rw [goto_pc, update_self, hs]
      exact .inr (.inr (.inl rfl))
    · rw [State.run, hpc] at st
      dsimp only at st
      rw [State.runDevice, hpc] at st
      dsimp only at st
      split at st
      · split at st
        · cases st
          exact .inl (update_self _ _ _)
        · cases st
          rw [goto_pc, update_self]
          exact .inr (.inr (.inr (.inl rfl)))
      · cases st
        exact .inl (update_self _ _ _)
    · rw [State.run, hpc] at st
      cases st
      rw [goto_pc, update_self]
      exact .inr (.inr (.inr (.inr rfl)))
    · rw [State.run, hpc] at st
      dsimp only at st
      split at st
      · cases st
        rw [goto_pc, update_self]
        exact .inr (.inr (.inl rfl))
      · cases st
  · cases st

lemma Napping.step (h : Napping i n t e s) (hs : Sane s) (ht : t < 2 ^ 32) (hcall : ∀ c, a ≠ .call i c)
    (hst : s.step a = some s') : Napping i n t (e + List.count .tick [a]) s' := by
  have st := step_inv hst
  by_cases hrun : ∃ o, a = .run i o
  · obtain ⟨o, rfl⟩ := hrun
    exact h.run ht hst
  · have hticks : s'.ticks = (t + (e + List.count .tick [a])) % 2 ^ 32 := by
      rw [st.ticks, h.ticks, List.count_singleton]
      by_cases hak : a = .tick
      · simp [hak, Nat.add_assoc]
      · simp [hak]
    refine ⟨hticks, ?_⟩
    have hkeep : s.pc i ≠ .user → s.pc i ≠ .dead → s'.pc i = s.pc i :=
      st.pc_other hs (fun o ho => hrun ⟨o, ho⟩) hcall
    rcases h.pc with hpc | ⟨hpc, he⟩ | hpc
    · exact .inl (st.pc_user hpc hcall)
    · rw [hkeep (by rw [hpc]; nofun) (by rw [hpc]; nofun)]
      refine .inr (.inl ⟨hpc, ?_⟩)
      rw [he, Nat.zero_add, List.count_singleton]
      by_cases hak : a = .tick
      · -- the process holds the lock that a tick takes
        subst hak
        cases st with
        | tick hfree => exact absurd (by rw [hpc]; rfl) (hs.locks.free (i := i) hfree)
      · simp [hak]
    · have hpc' : s.pc i ≠ .user ∧ s.pc i ≠ .dead := by
        rcases hpc with hpc | hpc | hpc <;> rw [hpc] <;> exact ⟨nofun, nofun⟩
      rw [hkeep hpc'.1 hpc'.2]
      exact .inr (.inr hpc)

lemma Napping.exec {as} (h : Napping i n t e s) (hs : Sane s) (ht : t < 2 ^ 32)
    (hcall : ∀ c, Action.call i c ∉ as) (hex : exec State.step s as = some s') :
    Sane s' ∧ Napping i n t (e + as.count .tick) s' := by
  induction as generalizing s e with
  | nil =>
    cases hex
    exact ⟨hs, h⟩
  | cons a as ih =>
    obtain ⟨s1, h1, h2⟩ := exec_cons.1 hex
    have hn := h.step hs ht (fun c hc => hcall c (hc ▸ List.mem_cons_self)) h1
    obtain ⟨hs', hn'⟩ := ih hn ((step_inv h1).sane hs) (fun c hc => hcall c (List.mem_cons_of_mem _ hc)) h2
    refine ⟨hs', ?_⟩
    rwa [Nat.add_assoc, ← List.count_append] at hn'

/-- The comparison of `sys_sleep(n)` is right `e` ticks after its start. -/
def OnTime (n : Int) (e : Nat) : Prop :=
  if 0 ≤ n then e < 2 ^ 32 ∨ n ≤ (e % 2 ^ 32 : Nat) else 2 ^ 32 + n ≤ (e % 2 ^ 32 : Nat)

lemma compare_iff (hn : -2 ^ 31 ≤ n ∧ n < 2 ^ 31) :
    (¬ ((e % 2 ^ 32 : Nat) : Int) < n % 2 ^ 32 ↔ n.toNat ≤ e) ↔ OnTime n e := by
  unfold OnTime
  split <;> omega

lemma elapsed_eq : (((t + e) % 2 ^ 32 : Nat) + 2 ^ 32 - t : Int) % 2 ^ 32 = (e % 2 ^ 32 : Nat) := by
  omega

/-- A process in `sys_sleep(n)` that is not killed tests the time whenever it runs, and either returns or goes
to sleep. It returns exactly if `max(n, 0)` ticks have passed since its start, if and only if `n` is not negative
and less than 2^32 ticks have passed or their low 32 bits are at least `n`. With a negative `n` it waits until
the low 32 bits have reached `2^32 + n`, so its first test is always wrong. -/
theorem sleep_ticks {data buf o as₀ s₀ as o'} (h₀ : exec State.step (State.start data buf o) as₀ = some s₀)
    (hcall : s₀.pc i = .sleepStart n) (hn : -2 ^ 31 ≤ n ∧ n < 2 ^ 31)
    (h : exec State.step s₀ as = some s) (hsame : ∀ c, Action.call i c ∉ as) (hpc : s.pc i = .sleepLoop n t)
    (hk : (s.slot i).killed = false) :
    ∃ s', s.step (.run i o') = some s' ∧
      (s'.pc i = .user ∧ s'.ret i = 0 ∧ s'.held .ticks = none ∨
        s'.pc i = .sleep .ticks .ticks (.sleepLoop n t)) ∧
      ((s'.pc i = .user ↔ n.toNat ≤ as.count .tick) ↔ OnTime n (as.count .tick)) := by
  have hinv : Sane s₀ ∧ s₀.ticks < 2 ^ 32 := by
    refine exec_invariant (I := fun s => Sane s ∧ s.ticks < 2 ^ 32) (fun hI hst => ?_) ⟨.start, Nat.two_pow_pos 32⟩ h₀
    exact ⟨(step_inv hst).sane hI.1, (step_inv hst).ticks_lt hI.2⟩
  have hnap : Napping i n s₀.ticks 0 s₀ := ⟨(Nat.mod_eq_of_lt hinv.2).symm, .inr (.inl ⟨hcall, rfl⟩)⟩
  obtain ⟨hs, hnap'⟩ := hnap.exec hinv.1 hinv.2 hsame h
  rw [Nat.zero_add] at hnap'
  have ht : t = s₀.ticks := by
    rcases hnap'.pc with hpc' | ⟨hpc', -⟩ | hpc' | hpc' | hpc' <;> rw [hpc] at hpc' <;> cases hpc'
    rfl
  have hrun : (s.slot i).state = .running := hs.locks.running i (by rw [hpc]; rintro ⟨⟩)
  have helapsed : (s.ticks + 2 ^ 32 - t : Int) % 2 ^ 32 = (as.count .tick % 2 ^ 32 : Nat) := by
    rw [hnap'.ticks, ht, elapsed_eq]
  rw [← compare_iff hn, State.step, if_pos hrun, State.run, hpc]
  dsimp only
  rw [State.runDevice, hpc]
  dsimp only
  rw [helapsed, hk]
  split
  · refine ⟨_, rfl, .inr (update_self _ _ _), iff_congr ?_ Iff.rfl⟩
    rw [goto_pc, update_self]
    exact ⟨by rintro ⟨⟩, fun hnot => absurd ‹_› hnot⟩
  · have hfree : ((s.setHeld .ticks none).leave i 0).held .ticks = none := by
      rw [leave_held, setHeld_held, update_self]
    refine ⟨_, rfl, .inl ⟨update_self _ _ _, update_self _ _ _, hfree⟩, iff_congr ?_ Iff.rfl⟩
    exact ⟨fun _ => ‹_›, fun _ => update_self _ _ _⟩

/-- The first process sleeps for one tick, and is woken by it. -/
theorem sleep_ticks_one :
    ∃ s₀ s, exec State.step (State.start (fun _ => 0) (fun _ => 0) ⟨true, 0, 1, 2⟩)
        [.sched 0, .call 0 (.sleep 1), .run 0 ⟨true, 0, 0, 0⟩] = some s₀ ∧
      exec State.step s₀ [.run 0 ⟨true, 0, 0, 0⟩, .run 0 ⟨true, 0, 0, 0⟩, .run 0 ⟨true, 0, 0, 0⟩, .tick,
        .intr 0 .ticks, .sched 0, .run 0 ⟨true, 0, 0, 0⟩] = some s ∧
      ∃ s', s.step (.run 0 ⟨true, 0, 0, 0⟩) = some s' ∧
        (s'.pc 0 = .user ∧ s'.ret 0 = 0 ∧ s'.held .ticks = none ∨
          s'.pc 0 = .sleep .ticks .ticks (.sleepLoop 1 0)) ∧
        ((s'.pc 0 = .user ↔ 1 ≤ 1) ↔ OnTime 1 1) := by
  obtain ⟨s₀, h₀⟩ : ∃ s₀, exec State.step (State.start (fun _ => 0) (fun _ => 0) ⟨true, 0, 1, 2⟩)
      [.sched 0, .call 0 (.sleep 1), .run 0 ⟨true, 0, 0, 0⟩] = some s₀ := ⟨_, rfl⟩
  obtain ⟨s, h⟩ : ∃ s, exec State.step s₀ [.run 0 ⟨true, 0, 0, 0⟩, .run 0 ⟨true, 0, 0, 0⟩,
      .run 0 ⟨true, 0, 0, 0⟩, .tick, .intr 0 .ticks, .sched 0, .run 0 ⟨true, 0, 0, 0⟩] = some s := by
    cases h₀
    exact ⟨_, rfl⟩
  have hstart : s₀.pc 0 = .sleepStart 1 := by
    cases h₀
    rfl
  have hloop : s.pc 0 = .sleepLoop 1 0 ∧ (s.slot 0).killed = false := by
    cases h₀
    cases h
    exact ⟨rfl, rfl⟩
  exact ⟨s₀, s, h₀, h, sleep_ticks h₀ hstart (by decide) h (by simp) hloop.1 hloop.2⟩

/-- The first process calls `sleep(-1)` and goes to sleep, although no tick has to pass. -/
theorem sleep_ticks_negative :
    ∃ s, exec State.step (State.start (fun _ => 0) (fun _ => 0) ⟨true, 0, 1, 2⟩)
        [.sched 0, .call 0 (.sleep (-1)), .run 0 ⟨true, 0, 0, 0⟩, .run 0 ⟨true, 0, 0, 0⟩, .run 0 ⟨true, 0, 0, 0⟩,
          .run 0 ⟨true, 0, 0, 0⟩] = some s ∧
      (s.slot 0).killed = false ∧ (s.slot 0).state = .sleeping ∧ (s.slot 0).chan = some .ticks ∧
      s.pc 0 = .acquire .ticks (.sleepLoop (-1) 0) :=
  ⟨_, rfl, rfl, rfl, rfl, rfl⟩

end

end Xv6n.Sched
