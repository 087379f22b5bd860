import Xv6n.Sched.Pipe

/-!
# Wakeups of a pipe

A process that sleeps on a pipe is woken when the pipe is no longer empty, or no longer full, or when the
other end is closed. The `wakeup` comes once at the end of a call, so until then the process that holds the
lock owes it. There is one way out of the loops without it: a writer that is killed after it has put bytes
in returns at once.
-/

namespace Xv6n.Sched
open Lib State Function

section
variable {s s' : State} {i j : Fin NPROC} {x : Pc} {f : Slot → Slot}

/-- A process that sleeps on `c` has nothing to do. -/
def Pipe.Stuck (p : Pipe) : Chan → Prop
  | .nread => p.Empty ∧ p.writeopen = true
  | .nwrite => p.Full ∧ p.readopen = true
  | _ => True

/-- The process holds the lock of the pipe and has still to wake `p` if it sleeps on `c`. -/
def Pc.owes (c : Chan) (p : Fin NPROC) : Pc → Prop
  | .wakeup d k next => d = some c ∧ k ≤ p ∧ next.lock = some .pipe
  | .readCopy _ _ => c = .nwrite
  | .writeLoop _ _ b => c = .nread ∧ b = true
  | _ => False

def Pc.bed : Pc → Option Chan
  | .sleep c _ _ => some c
  | .wakeup _ _ next => next.bed
  | _ => none

/-- Sleepers have nothing to do, or are about to be woken. -/
structure Roused (s : State) : Prop where
  asleep : ∀ p c, (s.slot p).state = .sleeping → (s.slot p).chan = some c →
    s.pipe.Stuck c ∨ ∃ h, (s.pc h).owes c p
  bed : ∀ i c, (s.pc i).bed = some c → s.pipe.Stuck c
  fresh : ∀ i n k, s.pc i = .writeLoop n k true → s.pipe.readopen = true

/-- A step that is not the return of a killed `pipewrite` that has put bytes in since its last
    `wakeup`. -/
def Prompt (s : State) : Action → Prop
  | .run i _ => ∀ n k, s.pc i = .writeLoop n k true → (k : Int) < n → (s.slot i).killed = false
  | _ => True

lemma Pc.owes_lock {c} {p : Fin NPROC} (h : x.owes c p) : x.lock = some .pipe := by
  cases x with
  | wakeup d k next => exact h.2.2
  | readCopy n k => rfl
  | writeLoop n k b => rfl
  | _ => cases h

lemma Pc.bed_lock {c} (hw : x.Wf i) (h : x.bed = some c) (hc : c = .nread ∨ c = .nwrite) :
    x.lock = some .pipe := by
  induction x with
  | sleep d l next =>
    cases h
    rw [Pc.Wf] at hw
    unfold Dozes at hw
    split at hw
    case h_2 => rfl
    case h_3 => rfl
    all_goals simp_all
  | wakeup d k next ih => exact ih (Wakes.wf hw) h
  | _ => cases h

lemma Roused.congr (h : Roused s) (h1 : s'.slot = s.slot) (h2 : s'.pc = s.pc)
    (h3 : s'.pipe = s.pipe) : Roused s' :=
  ⟨by rw [h1, h2, h3]; exact h.asleep, by rw [h2, h3]; exact h.bed, by rw [h2, h3]; exact h.fresh⟩

lemma Roused.slot (h : Roused s) (hf : (f (s.slot j)).state = .sleeping →
    (s.slot j).state = .sleeping ∧ (f (s.slot j)).chan = (s.slot j).chan) :
    Roused (s.setSlot j f) := by
  refine ⟨fun p c hp hc => ?_, h.bed, h.fresh⟩
  rw [setSlot_slot, update_apply] at hp hc
  split at hp
  · rename_i e
    rw [if_pos e] at hc
    obtain ⟨h1, h2⟩ := hf hp
    rw [e]
    exact h.asleep j c h1 (h2.symm.trans hc)
  · rename_i e
    rw [if_neg e] at hc
    exact h.asleep p c hp hc

lemma Roused.move (h : Roused s) (h1 : s'.slot = s.slot) (h2 : s'.pc = update s.pc i x)
    (h3 : s'.pipe = s.pipe)
    (ho : ∀ c p, (s.slot p).state = .sleeping → (s.slot p).chan = some c → (s.pc i).owes c p →
      x.owes c p)
    (hb : ∀ c, x.bed = some c → s.pipe.Stuck c)
    (hf : ∀ n k, x = .writeLoop n k true → s.pipe.readopen = true) : Roused s' := by
  refine ⟨fun p c hp hc => ?_, fun k c hk => ?_, fun k n m hk => ?_⟩
  · rw [h1] at hp hc
    rw [h3]
    refine (h.asleep p c hp hc).imp id fun ⟨e, he⟩ => ⟨e, ?_⟩
    rw [h2, update_apply]
    split
    · rename_i e'
      rw [e'] at he
      exact ho c p hp hc he
    · exact he
  · rw [h2, update_apply] at hk
    rw [h3]
    split at hk
    · exact hb c hk
    · exact h.bed k c hk
  · rw [h2, update_apply] at hk
    rw [h3]
    split at hk
    · exact hf n m hk
    · exact h.fresh k n m hk

/-- The process that holds the lock of the pipe goes on. What it owed before, it owes afterwards, or the
    sleepers have nothing to do. -/
lemma Roused.own (h : Roused s) (hs : Locks s) (hl : (s.pc i).lock = some .pipe)
    (h1 : s'.slot = s.slot) (h2 : s'.pc = update s.pc i x)
    (ho : ∀ c p, s.pipe.Stuck c ∨ (s.pc i).owes c p → s'.pipe.Stuck c ∨ x.owes c p)
    (hb : ∀ c, x.bed = some c → s'.pipe.Stuck c)
    (hf : ∀ n k, x = .writeLoop n k true → s'.pipe.readopen = true) : Roused s' := by
  have hself : s'.pc i = x := by rw [h2, update_self]
  refine ⟨fun p c hp hc => ?_, fun k c hk => ?_, fun k n m hk => ?_⟩
  · rw [h1] at hp hc
    have hi : s.pipe.Stuck c ∨ (s.pc i).owes c p := by
      refine (h.asleep p c hp hc).imp id fun ⟨e, he⟩ => ?_
      rw [hs.unique (Pc.owes_lock he) hl] at he
      exact he
    refine (ho c p hi).imp id fun he => ⟨i, ?_⟩
    rw [hself]
    exact he
  · rw [h2, update_apply] at hk
    split at hk
    · exact hb c hk
    · rename_i hne
      by_cases hc : c = .nread ∨ c = .nwrite
      · exact absurd (hs.unique (Pc.bed_lock (hs.wf k) hk hc) hl) hne
      · cases c with
        | nread => exact absurd (.inl rfl) hc
        | nwrite => exact absurd (.inr rfl) hc
        | _ => trivial
  · rw [h2, update_apply] at hk
    split at hk
    · exact hf n m hk
    · rename_i hne
      exact absurd (hs.unique (by rw [hk]; rfl) hl) hne

lemma PipeStep.roused {o} (h : Roused s) (hs : Locks s) (hpr : Prompt s (.run i o))
    (st : PipeStep s i o s') : Roused s' := by
  have hl := st.lock
  -- A step that changes nothing in the pipe, at a position that owes nothing.
  have hkeep : ∀ {x t}, t.slot = s.slot → t.pc = update s.pc i x → t.pipe = s.pipe →
      (∀ c p, ¬ (s.pc i).owes c p) → x.bed = none → (∀ n k, x ≠ .writeLoop n k true) → Roused t := by
    intro x t h1 h2 h3 h4 h5 h6
    refine h.own hs hl h1 h2 (fun c p e => ?_) (by rw [h5]; nofun) fun n k e => absurd e (h6 n k)
    rw [h3]
    exact .inl (e.resolve_right (h4 c p))
  cases st with
  | readKilled hpc _ _ _ | readEnd hpc | writeEnd hpc | closeDone hpc =>
    exact hkeep (x := .user) rfl rfl rfl (by rw [hpc]; exact fun _ _ => id) rfl nofun
  | readSleep hpc he hw _ =>
    refine h.own hs hl rfl rfl (fun c p e => ?_) (fun c hc => ?_) nofun
    · rw [hpc] at e
      exact .inl (e.resolve_right id)
    · cases hc
      exact ⟨he, hw⟩
  | readGo hpc _ =>
    refine h.own hs hl rfl rfl (fun c p e => ?_) nofun nofun
    rw [hpc] at e
    exact .inl (e.resolve_right id)
  | readByte hpc _ hne _ =>
    refine h.own (x := .readCopy _ _) hs hl rfl rfl (fun c p e => ?_) nofun nofun
    rw [hpc] at e
    cases c with
    | nread => exact (e.elim (fun e => absurd e.1 hne) nofun)
    | nwrite => exact .inr rfl
    | _ => exact .inl trivial
  | readFault hpc _ hne _ =>
    refine h.own (x := .wakeup _ _ (.readEnd _ _ _)) hs hl rfl rfl (fun c p e => ?_) nofun nofun
    rw [hpc] at e
    cases c with
    | nread => exact (e.elim (fun e => absurd e.1 hne) nofun)
    | nwrite => exact .inr ⟨rfl, Nat.zero_le _, rfl⟩
    | _ => exact .inl trivial
  | readStop hpc _ =>
    refine h.own (x := .wakeup _ _ (.readEnd _ _ _)) hs hl rfl rfl (fun c p e => ?_) nofun nofun
    rw [hpc] at e
    refine e.imp id fun e => ?_
    cases e
    exact ⟨rfl, Nat.zero_le _, rfl⟩
  | @writeStop n k b hpc hk hstop =>
    cases b with
    | false =>
      refine hkeep (x := .user) rfl rfl rfl (fun c p e => ?_) rfl nofun
      rw [hpc] at e
      cases e.2
    | true =>
      -- The only way out without a `wakeup`, which the step does not take.
      have h1 := h.fresh i n k hpc
      have h2 := hpr n k hpc hk
      rw [h1, h2] at hstop
      simp at hstop
  | @writeFull n k b hpc _ hr _ hfull =>
    refine h.own hs hl rfl rfl (fun c p e => ?_) (fun c hc => ?_) nofun
    · rw [hpc] at e
      refine e.imp id fun e => ?_
      rw [e.1]
      exact ⟨rfl, Nat.zero_le _, rfl⟩
    · cases hc
      exact ⟨hfull, hr⟩
  | @writeByte n k b hpc _ hr _ hfull _ =>
    refine h.own (x := .writeLoop n (k + 1) true) hs hl rfl rfl (fun c p e => ?_) nofun fun _ _ _ => hr
    rw [hpc] at e
    cases c with
    | nread => exact .inr ⟨rfl, rfl⟩
    | nwrite => exact (e.elim (fun e => absurd e.1 hfull) nofun)
    | _ => exact .inl trivial
  | writeFault hpc _ _ _ | writeDone hpc _ =>
    refine h.own hs hl rfl rfl (fun c p e => ?_) nofun nofun
    rw [hpc] at e
    refine e.imp id fun e => ?_
    rw [e.1]
    exact ⟨rfl, Nat.zero_le _, rfl⟩
  | @closeEnd w hpc =>
    refine h.own (x := .wakeup _ _ .closeDone) hs hl rfl rfl (fun c p e => ?_) nofun nofun
    rw [hpc] at e
    have hst : s.pipe.Stuck c := e.resolve_right id
    cases w with
    | true =>
      cases c with
      | nread => exact .inr ⟨rfl, Nat.zero_le _, rfl⟩
      | nwrite => exact .inl hst
      | _ => exact .inl trivial
    | false =>
      cases c with
      | nread => exact .inl hst
      | nwrite => exact .inr ⟨rfl, Nat.zero_le _, rfl⟩
      | _ => exact .inl trivial

lemma LifeStep.lock {o} (st : LifeStep s i o s') : (s.pc i).lock ≠ some .pipe := by
  cases st <;> simp only [*] <;> nofun

lemma setSlot_sleeping {p : Fin NPROC} (hf : (f (s.slot j)).state = .sleeping →
      (s.slot j).state = .sleeping ∧ (f (s.slot j)).chan = (s.slot j).chan)
    (h : ((s.setSlot j f).slot p).state = .sleeping) :
    (s.slot p).state = .sleeping ∧ ((s.setSlot j f).slot p).chan = (s.slot p).chan := by
  rw [setSlot_slot, update_apply] at h ⊢
  split at h
  · rename_i e
    rw [if_pos e, e]
    exact hf h
  · rename_i e
    rw [if_neg e]
    exact ⟨h, rfl⟩

lemma LifeStep.sleeping {o} (st : LifeStep s i o s') {p : Fin NPROC}
    (h : (s'.slot p).state = .sleeping) :
    (s.slot p).state = .sleeping ∧ (s'.slot p).chan = (s.slot p).chan := by
  cases st with
  | @forkFail j _ _ _ | @waitReap _ _ j _ _ _ => exact setSlot_sleeping (j := j) (f := freeproc) nofun h
  | @forkBuild j _ _ _ => exact setSlot_sleeping (j := j) (f := s.buildSlot i o) nofun h
  | @forkParent j _ _ =>
    exact setSlot_sleeping (j := j) (f := fun p => { p with parent := some i }) (fun e => ⟨e, rfl⟩) h
  | @forkRun j _ => exact setSlot_sleeping (j := j) (f := fun p => { p with state := .runnable }) nofun h
  | @reparent _ j _ _ =>
    exact setSlot_sleeping (j := j) (f := fun p => { p with parent := some initproc })
      (fun e => ⟨e, rfl⟩) h
  | @zombie st _ =>
    exact setSlot_sleeping (j := i) (f := fun p => { p with xstate := st, state := .zombie }) nofun h
  | @killHit _ j _ _ =>
    refine setSlot_sleeping (j := j) (f := Slot.kill) (fun e => ?_) h
    unfold Slot.kill at e
    dsimp only at e
    split at e
    · cases e
    · exact absurd e ‹_›
  | _ => exact ⟨h, rfl⟩

lemma Pc.bed_of_life {c} (hw : x.Wf i) (hl : x = .user ∨ x = .dead ∨ x.life = true)
    (h : x.bed = some c) : ∃ j, c = .proc j := by
  obtain rfl | rfl | hl := hl
  · cases h
  · cases h
  · induction x with
    | sleep d l next =>
      cases h
      rw [Pc.Wf] at hw
      unfold Dozes at hw
      split at hw
      case h_1 => exact ⟨_, rfl⟩
      all_goals first | cases hw; done | cases hl
    | wakeup d k next ih => exact ih (Wakes.wf hw) h hl
    | _ => cases h

lemma LifeStep.roused {o} (h : Roused s) (hs : Sane s) (hs' : Locks s') (st : LifeStep s i o s') :
    Roused s' := by
  -- The positions that change owed nothing.
  have howes : ∀ k c p, (s.pc k).owes c p → s'.pc k = s.pc k := by
    intro k c p hk
    cases st.pc k with
    | inl e => exact e
    | inr e =>
      cases e.1 with
      | inl e1 =>
        rw [e1] at hk
        exact absurd (Pc.owes_lock hk) st.lock
      | inr e1 =>
        have hu := hs.forks.pc_child hs.idle (i := i) (j := k) (by rw [e1]; rfl)
        cases hu with
        | inl e2 | inr e2 => rw [e2] at hk; cases hk
  refine ⟨fun p c hp hc => ?_, fun k c hk => ?_, fun k n m hk => ?_⟩
  · obtain ⟨h1, h2⟩ := st.sleeping hp
    rw [st.pipe_eq]
    refine (h.asleep p c h1 (h2.symm.trans hc)).imp id fun ⟨e, he⟩ => ⟨e, ?_⟩
    rw [howes e c p he]
    exact he
  · rw [st.pipe_eq]
    cases st.pc k with
    | inl e =>
      rw [e] at hk
      exact h.bed k c hk
    | inr e =>
      obtain ⟨j, rfl⟩ := Pc.bed_of_life (hs'.wf k) e.2 hk
      trivial
  · rw [st.pipe_eq]
    cases st.pc k with
    | inl e =>
      rw [e] at hk
      exact h.fresh k n m hk
    | inr e =>
      rw [hk] at e
      simp [Pc.life] at e

lemma DeviceStep.roused {o} (h : Roused s) (st : DeviceStep s i o s') : Roused s' := by
  have howes : ∀ {x c p}, s.pc i = x → x.lock ≠ some .pipe → ¬ (s.pc i).owes c p := by
    intro x c p e hx ho
    rw [e] at ho
    exact hx (Pc.owes_lock ho)
  cases st with
  | consLeave hpc | sleepLeave hpc =>
    exact h.move (i := i) (x := .user) rfl rfl rfl (fun _ _ _ _ ho => absurd ho (howes hpc nofun)) nofun nofun
  | consSleep hpc _ | sleepSleep hpc _ =>
    refine h.move rfl rfl rfl (fun _ _ _ _ ho => absurd ho (howes hpc nofun)) (fun c hc => ?_) nofun
    cases hc
    trivial
  | consByte hpc =>
    exact h.move (i := i) (x := .consLoop _ _) rfl rfl rfl
      (fun _ _ _ _ ho => absurd ho (howes hpc nofun)) nofun nofun
  | sleepStart hpc =>
    exact h.move rfl rfl rfl (fun _ _ _ _ ho => absurd ho (howes hpc nofun)) nofun nofun

lemma Roused.wake {c} (h : Roused s) : Roused (s.setSlot j (Slot.wake c)) := by
  refine h.slot fun e => ?_
  obtain ⟨h1, h2, -⟩ := Slot.wake_sleeping e
  exact ⟨h2, by rw [h1]⟩

lemma Roused.turn {c k next} (h : Roused s) (hpc : s.pc i = .wakeup c k next) (h1 : s'.slot = s.slot)
    (h2 : s'.pc = update s.pc i (.wakeup c (k + 1) next)) (h3 : s'.pipe = s.pipe)
    (hk : ∀ p : Fin NPROC, p = k → (s.slot p).state = .sleeping → (s.slot p).chan ≠ c) :
    Roused s' := by
  refine h.move h1 h2 h3 (fun d p hp hd ho => ?_) (fun d hd => ?_) nofun
  · rw [hpc] at ho
    obtain ⟨rfl, hle, hl⟩ := ho
    refine ⟨rfl, Nat.succ_le_of_lt (lt_of_le_of_ne hle fun e => ?_), hl⟩
    exact hk p e.symm hp hd
  · exact h.bed i d (by rw [hpc]; exact hd)

lemma Step.roused {a} (h : Roused s) (hs : Sane s) (hpr : Prompt s a) (st : Step s a s') :
    Roused s' := by
  have hs' := st.locks hs.locks hs.forks
  cases st with
  | @call i c _ hpc _ =>
    have hx : c.start.bed = none := by cases c <;> rfl
    refine h.move rfl rfl rfl (fun d p _ _ ho => ?_) (by rw [hx]; nofun) (by cases c <;> nofun)
    rw [hpc] at ho
    cases ho
  | @acquire i o l next _ hpc _ =>
    have hw := hs.locks.wf i
    rw [hpc] at hw
    refine h.move (i := i) (x := next) rfl rfl rfl (fun d p _ _ ho => ?_) (fun d hd => ?_) ?_
    · rw [hpc] at ho
      cases ho
    · cases next with
      | sleep c l next => cases hw
      | wakeup c k next => cases hw
      | _ => cases hd
    · rintro n k rfl
      cases hw.2
  | @wakeSelf i o c next hrun hpc =>
    refine h.turn hpc rfl rfl rfl fun p e hp => ?_
    rw [Fin.ext e, hrun] at hp
    cases hp
  | @wake i o c next j _ hpc _ =>
    refine (h.wake (j := j) (c := c)).turn (i := i) (by rw [setSlot_pc]; exact hpc) rfl rfl rfl
      fun p e hp hc => ?_
    have hpj : p = j := Fin.ext e
    subst hpj
    rw [setSlot_slot, update_self] at hp hc
    obtain ⟨h1, -, h3⟩ := Slot.wake_sleeping hp
    rw [h1] at hc
    exact h3 hc
  | @wakeDone i o c k next _ hpc hk =>
    have hw := hs.locks.wf i
    rw [hpc] at hw
    refine h.move rfl rfl rfl (fun d p _ _ ho => ?_) (fun d hd => ?_) ?_
    · rw [hpc] at ho
      exact absurd (lt_of_le_of_lt ho.2.1 p.isLt) (Nat.not_lt.2 hk)
    · exact h.bed i d (by rw [hpc]; exact hd)
    · rintro n k rfl
      cases hw
  | @sleep i o c l next _ hpc =>
    have h1 : Roused (s.goto i (.acquire l next)) := by
      refine h.move rfl rfl rfl (fun d p _ _ ho => ?_) nofun nofun
      rw [hpc] at ho
      cases ho
    refine ⟨fun p d hp hd => ?_, h1.bed, h1.fresh⟩
    rw [goto_slot, setSlot_slot, setHeld_slot, update_apply] at hp hd
    split at hp
    · rename_i e
      rw [if_pos e] at hd
      cases hd
      exact .inl (h.bed i c (by rw [hpc]; rfl))
    · rename_i e
      rw [if_neg e] at hd
      exact h1.asleep p d hp hd
  | life _ st => exact st.roused h hs hs'
  | pipe _ st => exact st.roused h hs.locks hpr
  | device _ st => exact st.roused h
  | sched _ => exact h.slot nofun
  | yield _ _ => exact h.slot nofun
  | intr _ => exact h.wake
  | _ => exact h.congr rfl rfl rfl

/-- In every run in which no `pipewrite` is killed after it has put bytes in and before it has woken the
    readers: while the lock of the pipe is free, a process that sleeps in `piperead` finds the pipe empty and
    its write end open, and one that sleeps in `pipewrite` finds it full and its read end open. -/
theorem pipe_wakeups {data buf o as s} (hp : Along State.step Prompt (State.start data buf o) as)
    (h : exec State.step (State.start data buf o) as = some s) (hfree : s.held .pipe = none) :
    (∀ p, (s.slot p).state = .sleeping → (s.slot p).chan = some .nread →
      s.pipe.Empty ∧ s.pipe.writeopen = true) ∧
    ∀ p, (s.slot p).state = .sleeping → (s.slot p).chan = some .nwrite →
      s.pipe.Full ∧ s.pipe.readopen = true := by
  have hinv : Sane s ∧ Roused s := by
    refine Along.invariant (I := fun s => Sane s ∧ Roused s) (fun hI ha hst => ?_)
      ⟨.start, ⟨fun p c hst => ?_, nofun, nofun⟩⟩ hp h
    · have st := step_inv hst
      exact ⟨st.sane hI.1, st.roused hI.2 hI.1 ha⟩
    · unfold State.start at hst
      dsimp only at hst
      split at hst
      · cases hst
      · cases hst
  obtain ⟨hs, hr⟩ := hinv
  have hstuck : ∀ p c, (s.slot p).state = .sleeping → (s.slot p).chan = some c → s.pipe.Stuck c := by
    intro p c h1 h2
    refine (hr.asleep p c h1 h2).resolve_right fun ⟨e, he⟩ => ?_
    exact hs.locks.free hfree (Pc.owes_lock he)
  exact ⟨fun p h1 h2 => hstuck p .nread h1 h2, fun p h1 h2 => hstuck p .nwrite h1 h2⟩

/-- The first process sleeps in `piperead`. -/
theorem pipe_wakeups_reader :
    ∃ s, exec State.step (State.start (fun _ => 0) (fun _ => 0) ⟨true, 0, 1, 2⟩)
        [.sched 0, .call 0 (.piperead 1), .run 0 ⟨true, 0, 0, 0⟩, .run 0 ⟨true, 0, 0, 0⟩,
          .run 0 ⟨true, 0, 0, 0⟩] = some s ∧
      (s.slot 0).state = .sleeping ∧ (s.slot 0).chan = some .nread ∧ s.pipe.Empty := by
  have hp : Along State.step Prompt (State.start (fun _ => 0) (fun _ => 0) ⟨true, 0, 1, 2⟩)
      [.sched 0, .call 0 (.piperead 1), .run 0 ⟨true, 0, 0, 0⟩, .run 0 ⟨true, 0, 0, 0⟩,
        .run 0 ⟨true, 0, 0, 0⟩] := by
    refine (along_cons rfl).2 ⟨trivial, (along_cons rfl).2 ⟨trivial, (along_cons rfl).2 ⟨?_,
      (along_cons rfl).2 ⟨?_, (along_cons rfl).2 ⟨?_, trivial⟩⟩⟩⟩⟩
    · nofun
    · nofun
    · nofun
  exact ⟨_, rfl, rfl, rfl, ((pipe_wakeups hp rfl rfl).1 0 rfl rfl).1⟩

/-- A reader sleeps, a writer of two bytes puts the first in and is killed before the second: it returns -1,
    and the reader sleeps on although there is a byte. -/
theorem pipe_wakeup_lost :
    ∃ s, exec State.step (State.start (fun _ => 0) (fun _ => 0) ⟨true, 0, 1, 2⟩)
        [.sched 0,
          .call 0 .fork, .run 0 ⟨true, 0, 0, 0⟩, .run 0 ⟨true, 0, 3, 4⟩, .run 0 ⟨true, 0, 0, 0⟩,
          .run 0 ⟨true, 0, 0, 0⟩,
          .call 0 .fork, .run 0 ⟨true, 0, 0, 0⟩, .run 0 ⟨true, 0, 0, 0⟩, .run 0 ⟨true, 0, 5, 6⟩,
          .run 0 ⟨true, 0, 0, 0⟩, .run 0 ⟨true, 0, 0, 0⟩,
          .sched 1, .call 1 (.piperead 1), .run 1 ⟨true, 0, 0, 0⟩, .run 1 ⟨true, 0, 0, 0⟩,
          .run 1 ⟨true, 0, 0, 0⟩,
          .sched 2, .call 2 (.pipewrite 2), .run 2 ⟨true, 0, 0, 0⟩, .run 2 ⟨true, 65, 0, 0⟩,
          .call 0 (.kill 3), .run 0 ⟨true, 0, 0, 0⟩, .run 0 ⟨true, 0, 0, 0⟩, .run 0 ⟨true, 0, 0, 0⟩,
          .run 2 ⟨true, 0, 0, 0⟩] = some s ∧
      s.ret 2 = -1 ∧ s.held .pipe = none ∧ (s.slot 1).state = .sleeping ∧
      (s.slot 1).chan = some .nread ∧ ¬ s.pipe.Empty :=
  ⟨_, rfl, rfl, rfl, rfl, rfl, nofun⟩

end

end Xv6n.Sched
