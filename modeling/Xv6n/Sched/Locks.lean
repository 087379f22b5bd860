import Xv6n.Sched.Step

/-!
# Lock discipline

A spin lock is held by exactly the process whose position says so, that process is running, and a
process that sleeps does so in one of the five loops, with the lock of the loop released.
-/

namespace Xv6n.Sched
open Lib State Function
variable {p : Slot}

/-- The calls of `sleep(c, l)` by process `i`, and where each goes on. -/
def Dozes (i : Fin NPROC) : Chan → Lock → Pc → Prop
  | .proc j, .wait, .waitScan _ k b => j = i ∧ k = 0 ∧ b = false
  | .nread, .pipe, .readWait _ => True
  | .nwrite, .pipe, .writeLoop _ _ b => b = false
  | .cons, .cons, .consLoop _ _ => True
  | .ticks, .ticks, .sleepLoop _ _ => True
  | _, _, _ => False

/-- The calls of `wakeup(c)`, and where each goes on. -/
def Wakes (c : Option Chan) : Pc → Prop
  | .exitReparent _ _ => c = some (.proc initproc)
  | .exitZombie _ => True
  | .readEnd _ _ _ => c = some .nwrite
  | .writeEnd _ => c = some .nread
  | .sleep d l (.writeLoop _ _ b) => c = some .nread ∧ d = .nwrite ∧ l = .pipe ∧ b = false
  | .closeDone => c = some .nread ∨ c = some .nwrite
  | _ => False

/-- The calls of `acquire(l)`, and where each goes on. -/
def Enters (l : Lock) : Pc → Prop
  | .exitReparent _ k => l = .wait ∧ k = 0
  | .waitScan _ k b => l = .wait ∧ k = 0 ∧ b = false
  | .readWait _ | .closeEnd _ => l = .pipe
  | .writeLoop _ _ b => l = .pipe ∧ b = false
  | .consLoop _ _ => l = .cons
  | .sleepStart _ | .sleepLoop _ _ => l = .ticks
  | _ => False

/-- Well-formed positions of process `i`. -/
def Pc.Wf (i : Fin NPROC) : Pc → Prop
  | .acquire l next => Enters l next
  | .wakeup c _ next => Wakes c next
  | .sleep c l next => Dozes i c l next
  | _ => True

lemma Enters.lock {l next} (h : Enters l next) : next.lock = some l := by
  unfold Enters at h
  split at h
  case h_1 => rw [h.1]; rfl
  case h_2 => rw [h.1]; rfl
  case h_5 => rw [h.1]; rfl
  all_goals first | cases h; done | rw [h]; rfl

lemma Enters.wf {i l next} (h : Enters l next) : next.Wf i := by
  unfold Enters at h
  split at h
  all_goals trivial

lemma Dozes.enters {i c l next} (h : Dozes i c l next) : Enters l next := by
  unfold Dozes at h
  split at h
  case h_1 => exact ⟨rfl, h.2⟩
  case h_3 => exact ⟨rfl, h⟩
  all_goals first | rfl | cases h

lemma Wakes.lock {c next} (h : Wakes c next) : next.lock ≠ none := by
  unfold Wakes at h
  split at h
  all_goals first | cases h; done | nofun

lemma Wakes.wf {i c next} (h : Wakes c next) : next.Wf i := by
  unfold Wakes at h
  split at h
  case h_5 =>
    obtain ⟨-, rfl, rfl, rfl⟩ := h
    rfl
  all_goals trivial

def Slot.Alive (p : Slot) : Prop := p.state = .runnable ∨ p.state = .running ∨ p.state = .sleeping

/-- The process that a `fork` is creating. -/
def Pc.child : Pc → Option (Fin NPROC)
  | .forkParent j | .forkRun j => some j
  | _ => none

/-- Positions, locks and states of processes fit together. -/
structure Locks (s : State) : Prop where
  held : ∀ i l, s.held l = some i ↔ (s.pc i).lock = some l
  running : ∀ i, (s.pc i).lock ≠ none → (s.slot i).state = .running
  wf : ∀ i, (s.pc i).Wf i
  asleep : ∀ i, (s.slot i).state = .sleeping →
    ∃ c l next, (s.slot i).chan = some c ∧ s.pc i = .acquire l next ∧ Dozes i c l next

section
variable {s s' : State} {i j : Fin NPROC} {l : Lock} {x : Pc} {f : Slot → Slot}

section
variable (h : Locks s)
include h

lemma Locks.unique (hi : (s.pc i).lock = some l) (hj : (s.pc j).lock = some l) : i = j :=
  Option.some_inj.1 (((h.held i l).2 hi).symm.trans ((h.held j l).2 hj))

lemma Locks.free (hl : s.held l = none) : (s.pc i).lock ≠ some l := by
  intro e
  rw [(h.held i l).2 e] at hl
  cases hl

lemma Locks.congr (h1 : s'.pc = s.pc) (h2 : s'.held = s.held) (h3 : s'.slot = s.slot) :
    Locks s' :=
  ⟨by rw [h1, h2]; exact h.held, by rw [h1, h3]; exact h.running, by rw [h1]; exact h.wf,
    by rw [h1, h3]; exact h.asleep⟩

lemma Locks.goto (hrun : (s.slot i).state = .running) (hl : x.lock = (s.pc i).lock)
    (hx : x.Wf i) : Locks (s.goto i x) := by
  have hlock : ∀ j, ((s.goto i x).pc j).lock = (s.pc j).lock := by
    intro j
    rw [goto_pc, update_apply]
    split
    · rename_i e
      rw [e, hl]
    · rfl
  refine ⟨fun j l => ?_, fun j hj => ?_, fun j => ?_, fun j hj => ?_⟩
  · rw [hlock, goto_held]
    exact h.held j l
  · rw [hlock] at hj
    exact h.running j hj
  · rw [goto_pc, update_apply]
    split
    · rename_i e
      rw [e]
      exact hx
    · exact h.wf j
  · rw [goto_pc, update_of_ne]
    · exact h.asleep j hj
    · rintro rfl
      rw [goto_slot, hrun] at hj
      cases hj

lemma Locks.take (hrun : (s.slot i).state = .running) (hfree : s.held l = none)
    (hl : (s.pc i).lock = none) (hxl : x.lock = some l) (hx : x.Wf i) :
    Locks ((s.setHeld l (some i)).goto i x) := by
  refine ⟨fun j l' => ?_, fun j hj => ?_, fun j => ?_, fun j hj => ?_⟩
  · rw [goto_held, setHeld_held, goto_pc, setHeld_pc]
    by_cases hj : j = i
    · subst hj
      rw [update_self, hxl]
      by_cases e : l' = l
      · subst e
        simp
      · rw [update_of_ne e, h.held, hl]
        simpa using Ne.symm e
    · rw [update_of_ne hj]
      by_cases e : l' = l
      · subst e
        rw [update_self]
        exact ⟨fun e => absurd (Option.some.inj e).symm hj, fun e => absurd e (h.free hfree)⟩
      · rw [update_of_ne e]
        exact h.held j l'
  · rw [goto_pc, setHeld_pc, update_apply] at hj
    split at hj
    · rename_i e
      rw [e]
      exact hrun
    · exact h.running j hj
  · rw [goto_pc, setHeld_pc, update_apply]
    split
    · rename_i e
      rw [e]
      exact hx
    · exact h.wf j
  · rw [goto_pc, setHeld_pc, update_of_ne]
    · exact h.asleep j hj
    · rintro rfl
      rw [goto_slot, setHeld_slot, hrun] at hj
      cases hj

lemma Locks.drop (hl : (s.pc i).lock = some l) (hxl : x.lock = none) (hx : x.Wf i) :
    Locks ((s.setHeld l none).goto i x) := by
  have hrun : (s.slot i).state = .running := h.running i (by rw [hl]; nofun)
  refine ⟨fun j l' => ?_, fun j hj => ?_, fun j => ?_, fun j hj => ?_⟩
  · rw [goto_held, setHeld_held, goto_pc, setHeld_pc]
    by_cases hj : j = i
    · subst hj
      rw [update_self, hxl]
      by_cases e : l' = l
      · subst e
        simp
      · rw [update_of_ne e, h.held, hl]
        simpa using Ne.symm e
    · rw [update_of_ne hj]
      by_cases e : l' = l
      · subst e
        rw [update_self]
        exact ⟨nofun, fun e => absurd (h.unique e hl) hj⟩
      · rw [update_of_ne e]
        exact h.held j l'
  · rw [goto_pc, setHeld_pc, update_apply] at hj
    split at hj
    · exact absurd hxl hj
    · exact h.running j hj
  · rw [goto_pc, setHeld_pc, update_apply]
    split
    · rename_i e
      rw [e]
      exact hx
    · exact h.wf j
  · rw [goto_pc, setHeld_pc, update_of_ne]
    · exact h.asleep j hj
    · rintro rfl
      rw [goto_slot, setHeld_slot, hrun] at hj
      cases hj

lemma Locks.slot (hrun : (s.pc j).lock ≠ none → (f (s.slot j)).state = .running)
    (hsl : (f (s.slot j)).state = .sleeping →
      (s.slot j).state = .sleeping ∧ (f (s.slot j)).chan = (s.slot j).chan) :
    Locks (s.setSlot j f) := by
  refine ⟨h.held, fun k hk => ?_, h.wf, fun k hk => ?_⟩
  · rw [setSlot_slot, update_apply]
    split
    · rename_i e
      rw [setSlot_pc, e] at hk
      exact hrun hk
    · exact h.running k hk
  · rw [setSlot_slot, update_apply] at hk ⊢
    split at hk
    · rename_i e
      rw [if_pos e]
      obtain ⟨h1, h2⟩ := hsl hk
      obtain ⟨c, l, next, hc, h3, h4⟩ := h.asleep j h1
      rw [setSlot_pc, e]
      exact ⟨c, l, next, h2.trans hc, h3, h4⟩
    · rename_i e
      rw [if_neg e]
      exact h.asleep k hk

lemma Locks.slotSame (h1 : (f (s.slot j)).state = (s.slot j).state)
    (h2 : (f (s.slot j)).chan = (s.slot j).chan) : Locks (s.setSlot j f) :=
  h.slot (fun hl => h1.trans (h.running j hl)) fun hs => ⟨h1.symm.trans hs, h2⟩

lemma Locks.lock_none (hj : (s.slot j).state ≠ .running) : (s.pc j).lock = none := by
  by_contra hl
  exact hj (h.running j hl)

lemma Locks.doze {c} (hpc : s.pc i = .sleep c l x) :
    Locks (((s.setHeld l none).setSlot i (Slot.doze c)).goto i (.acquire l x)) := by
  have hd : Dozes i c l x := by
    have := h.wf i
    rwa [hpc] at this
  have h1 : Locks ((s.setHeld l none).goto i (.acquire l x)) :=
    h.drop (by rw [hpc]; rfl) rfl hd.enters
  refine ⟨h1.held, fun k hk => ?_, h1.wf, fun k hk => ?_⟩
  · rw [goto_pc, setSlot_pc, setHeld_pc, update_apply] at hk
    split at hk
    · exact absurd rfl hk
    · rename_i e
      rw [goto_slot, setSlot_slot, update_of_ne e]
      exact h.running k hk
  · rw [goto_slot, setSlot_slot, setHeld_slot, update_apply] at hk ⊢
    rw [goto_pc, setSlot_pc, setHeld_pc, update_apply]
    split at hk
    · rename_i e
      rw [if_pos e, if_pos e, e]
      exact ⟨c, l, x, rfl, rfl, hd⟩
    · rename_i e
      rw [if_neg e, if_neg e]
      exact h.asleep k hk

lemma Locks.leave {v} (hrun : (s.slot i).state = .running) (hl : (s.pc i).lock = none) :
    Locks (s.leave i v) :=
  (h.goto (x := .user) hrun hl.symm trivial).congr rfl rfl rfl

lemma Locks.dropLeave {v} (hl : (s.pc i).lock = some l) :
    Locks ((s.setHeld l none).leave i v) :=
  (h.drop (x := .user) hl rfl trivial).congr rfl rfl rfl

end

lemma running_of_ne (hrun : (s.slot i).state = .running) (hj : (s.slot j).state ≠ .running) :
    ((s.setSlot j f).slot i).state = .running := by
  rw [setSlot_slot, update_of_ne]
  · exact hrun
  · rintro rfl
    exact hj hrun

/-- The slots of processes that are being created: used, and each by one `fork`. -/
structure Forks (s : State) : Prop where
  used : ∀ i j, (s.pc i).child = some j → (s.slot j).state = .used
  once : ∀ i i' j, (s.pc i).child = some j → (s.pc i').child = some j → i = i'

lemma Locks.park (h : Locks s) (hj : (s.slot j).state = .used) :
    Locks { s with pc := update s.pc j .user } := by
  have hl : (s.pc j).lock = none := h.lock_none (by rw [hj]; nofun)
  refine ⟨fun k l => ?_, fun k hk => ?_, fun k => ?_, fun k hk => ?_⟩
  · dsimp only
    rw [update_apply]
    split
    · rename_i e
      rw [h.held, e, hl]
      rfl
    · exact h.held k l
  · dsimp only at hk
    rw [update_apply] at hk
    split at hk
    · exact absurd rfl hk
    · exact h.running k hk
  · dsimp only
    rw [update_apply]
    split
    · trivial
    · exact h.wf k
  · dsimp only
    rw [update_of_ne]
    · exact h.asleep k hk
    · rintro rfl
      have hk : (s.slot k).state = .sleeping := hk
      rw [hj] at hk
      cases hk

lemma Locks.slotIdle (h : Locks s) (hj : (s.slot j).state ≠ .running)
    (hf : (f (s.slot j)).state ≠ .sleeping) : Locks (s.setSlot j f) :=
  h.slot (fun hl => absurd (h.lock_none hj) hl) fun e => absurd e hf

lemma LifeStep.locks {o} (h : Locks s) (hf : Forks s) (hrun : (s.slot i).state = .running)
    (st : LifeStep s i o s') : Locks s' := by
  cases st with
  | forkNext hpc _ | reparentNext hpc _ | reparentDone hpc _ | waitNext hpc _ | waitLive hpc _ _ | killNext hpc _ =>
    exact h.goto hrun (by rw [hpc]; rfl) trivial
  | forkNone hpc _ | killNone hpc _ => exact h.leave hrun (by rw [hpc]; rfl)
  | @forkFail j hpc hj _ =>
    have hne : (s.slot j).state ≠ .running := by rw [hj]; nofun
    have h1 : Locks (s.setSlot j freeproc) := h.slotIdle hne nofun
    exact (h1.leave (v := -1) (running_of_ne hrun hne) (by rw [setSlot_pc, hpc]; rfl)).congr rfl rfl rfl
  | @forkBuild j hpc hj _ =>
    have hne : (s.slot j).state ≠ .running := by rw [hj]; nofun
    have h1 : Locks (s.setSlot j (s.buildSlot i o)) := h.slotIdle hne nofun
    have hr := running_of_ne (f := s.buildSlot i o) hrun hne
    exact (h1.goto (x := .forkParent j) hr (by rw [setSlot_pc, hpc]; rfl) trivial).congr rfl rfl rfl
  | @forkParent j hpc _ =>
    have h1 := h.goto (x := .forkRun j) hrun (by rw [hpc]; rfl) trivial
    exact h1.slotSame (j := j) (f := fun p => { p with parent := some i }) rfl rfl
  | @forkRun j hpc =>
    have hj : (s.slot j).state = .used := hf.used i j (by rw [hpc]; rfl)
    have hij : i ≠ j := by
      rintro rfl
      rw [hj] at hrun
      cases hrun
    have h1 := (h.park hj).slotIdle (j := j) (f := fun p => { p with state := .runnable })
      (by rw [hj]; nofun) nofun
    refine h1.leave ?_ ?_
    · rw [setSlot_slot, update_of_ne hij]
      exact hrun
    · rw [setSlot_pc]
      dsimp only
      rw [update_of_ne hij, hpc]
      rfl
  | @reparent st j hpc _ =>
    have h1 := h.goto (x := .wakeup (some (.proc initproc)) 0 (.exitReparent st (j + 1))) hrun
      (by rw [hpc]; rfl) rfl
    exact h1.slotSame (j := j) (f := fun p => { p with parent := some initproc }) rfl rfl
  | zombie hpc =>
    have h1 := h.drop (x := .dead) (by rw [hpc]; rfl) rfl trivial
    refine (h1.slot (j := i) (f := fun p => { p with xstate := _, state := .zombie }) ?_ nofun).congr
      rfl rfl rfl
    intro hl
    rw [goto_pc, update_self] at hl
    exact absurd rfl hl
  | waitFault hpc _ _ _ | waitNone hpc _ _ => exact h.dropLeave (by rw [hpc]; rfl)
  | @waitReap _ _ j hpc _ hz =>
    have hne : (s.slot j).state ≠ .running := by rw [hz]; nofun
    have h1 : Locks (s.setSlot j freeproc) := h.slotIdle hne nofun
    exact (h1.drop (l := .wait) (x := .user) (by rw [setSlot_pc, hpc]; rfl) rfl trivial).congr rfl rfl rfl
  | waitSleep hpc _ _ => exact h.goto hrun (by rw [hpc]; rfl) ⟨rfl, rfl, rfl⟩
  | @killHit _ j hpc _ =>
    have h1 := h.goto (x := .user) hrun (by rw [hpc]; rfl) trivial
    refine (h1.slot (j := j) (f := Slot.kill) (fun hl => ?_) fun hs => ?_).congr rfl rfl rfl
    · have := h1.running j hl
      unfold Slot.kill
      dsimp only
      rw [this]
      rfl
    · unfold Slot.kill at hs
      dsimp only at hs
      split at hs
      · cases hs
      · exact absurd hs ‹_›

lemma PipeStep.locks {o} (h : Locks s) (hrun : (s.slot i).state = .running) (st : PipeStep s i o s') :
    Locks s' := by
  cases st with
  | readKilled hpc _ _ _ | readEnd hpc | writeStop hpc _ _ | writeEnd hpc | closeDone hpc =>
    exact h.dropLeave (by rw [hpc]; rfl)
  | readSleep hpc _ _ _ | readGo hpc _ => exact h.goto hrun (by rw [hpc]; rfl) trivial
  | readByte hpc _ _ _ =>
    exact (h.goto (x := .readCopy _ _) hrun (by rw [hpc]; rfl) trivial).congr rfl rfl rfl
  | readFault hpc _ _ _ =>
    exact (h.goto (x := .wakeup _ _ (.readEnd _ _ _)) hrun (by rw [hpc]; rfl) rfl).congr rfl rfl rfl
  | readStop hpc _ | writeFault hpc _ _ _ | writeDone hpc _ => exact h.goto hrun (by rw [hpc]; rfl) rfl
  | writeFull hpc _ _ _ _ => exact h.goto hrun (by rw [hpc]; rfl) ⟨rfl, rfl, rfl, rfl⟩
  | writeByte hpc _ _ _ _ _ =>
    exact (h.goto (x := .writeLoop _ _ _) hrun (by rw [hpc]; rfl) trivial).congr rfl rfl rfl
  | @closeEnd w hpc =>
    have hw : Wakes (some (if w then .nread else .nwrite)) .closeDone := by
      cases w with
      | true => exact .inl rfl
      | false => exact .inr rfl
    exact (h.goto (x := .wakeup _ _ .closeDone) hrun (by rw [hpc]; rfl) hw).congr rfl rfl rfl

lemma DeviceStep.locks {o} (h : Locks s) (hrun : (s.slot i).state = .running)
    (st : DeviceStep s i o s') : Locks s' := by
  cases st with
  | consLeave hpc =>
    exact (h.drop (l := .cons) (x := .user) (by rw [hpc]; rfl) rfl trivial).congr rfl rfl rfl
  | consSleep hpc _ | sleepStart hpc | sleepSleep hpc _ => exact h.goto hrun (by rw [hpc]; rfl) trivial
  | consByte hpc =>
    exact (h.goto (x := .consLoop _ _) hrun (by rw [hpc]; rfl) trivial).congr rfl rfl rfl
  | sleepLeave hpc => exact h.dropLeave (by rw [hpc]; rfl)

lemma Slot.wake_state {c} (h : p.state ≠ .sleeping) : p.wake c = p := by
  unfold Slot.wake
  rw [if_neg]
  exact fun e => h e.1

lemma Slot.wake_sleeping {c} (h : (p.wake c).state = .sleeping) :
    p.wake c = p ∧ p.state = .sleeping ∧ p.chan ≠ c := by
  unfold Slot.wake at h ⊢
  split at h
  · cases h
  · rename_i hn
    rw [if_neg hn]
    exact ⟨rfl, h, fun e => hn ⟨h, e⟩⟩

lemma Locks.wake {c} (h : Locks s) : Locks (s.setSlot j (Slot.wake c)) := by
  refine h.slot (fun hl => ?_) fun hs => ?_
  · have := h.running j hl
    rw [Slot.wake_state (by rw [this]; nofun)]
    exact this
  · obtain ⟨h1, h2, _⟩ := Slot.wake_sleeping hs
    exact ⟨h2, by rw [h1]⟩

lemma Call.start_lock {c : Call} : c.start.lock = none := by
  cases c <;> rfl

lemma Call.start_wf {c : Call} : c.start.Wf i := by
  cases c with
  | fork => trivial
  | kill => trivial
  | exit => exact ⟨rfl, rfl⟩
  | wait => exact ⟨rfl, rfl, rfl⟩
  | pipewrite => exact ⟨rfl, rfl⟩
  | _ => rfl

lemma Step.locks {a} (h : Locks s) (hf : Forks s) (st : Step s a s') : Locks s' := by
  cases st with
  | call hrun hpc _ => exact h.goto hrun (by rw [hpc, Call.start_lock]; rfl) Call.start_wf
  | @acquire i o l next hrun hpc hfree =>
    have hw := h.wf i
    rw [hpc] at hw
    exact h.take hrun hfree (by rw [hpc]; rfl) (Enters.lock hw) (Enters.wf hw)
  | @wakeSelf i o c next hrun hpc =>
    have hw := h.wf i
    rw [hpc] at hw
    exact h.goto hrun (by rw [hpc]; rfl) hw
  | @wake i o c next j hrun hpc hne =>
    have hw := h.wf i
    rw [hpc] at hw
    exact (h.goto (x := .wakeup c (j + 1) next) hrun (by rw [hpc]; rfl) hw).wake
  | @wakeDone i o c k next hrun hpc _ =>
    have hw := h.wf i
    rw [hpc] at hw
    exact h.goto hrun (by rw [hpc]; rfl) hw.wf
  | sleep _ hpc => exact h.doze hpc
  | life hrun st => exact st.locks h hf hrun
  | pipe hrun st | device hrun st => exact st.locks h hrun
  | @sched i hr => exact h.slotIdle (by rw [hr]; nofun) nofun
  | yield _ hl => exact h.slot (fun e => absurd hl e) nofun
  | input _ | tick _ => exact h.congr rfl rfl rfl
  | intr _ => exact h.wake

lemma update_keep {α} {g : Pc → α} (h : g x = g (s.pc i)) (k : Fin NPROC) :
    g (update s.pc i x k) = g (s.pc k) := by
  rw [update_apply]
  split
  · rename_i e
    rw [e, h]
  · rfl

lemma PipeStep.slot {o} (st : PipeStep s i o s') : s'.slot = s.slot := by
  cases st <;> rfl

lemma DeviceStep.slot {o} (st : DeviceStep s i o s') : s'.slot = s.slot := by
  cases st <;> rfl

lemma Forks.keep (h : Forks s) (h1 : ∀ i, (s'.pc i).child = (s.pc i).child)
    (h2 : ∀ j, (s.slot j).state = .used → (s'.slot j).state = .used) : Forks s' := by
  refine ⟨fun i j hi => ?_, fun i i' j hi hi' => ?_⟩
  · rw [h1] at hi
    exact h2 j (h.used i j hi)
  · rw [h1] at hi hi'
    exact h.once i i' j hi hi'

lemma Forks.goto (h : Forks s) (hx : x.child = (s.pc i).child) : Forks (s.goto i x) :=
  h.keep (update_keep hx) fun _ => id

lemma Forks.slot (h : Forks s) (hf : (s.slot j).state = .used → (f (s.slot j)).state = .used) :
    Forks (s.setSlot j f) := by
  refine h.keep (fun _ => rfl) fun k hk => ?_
  rw [setSlot_slot, update_apply]
  split
  · rename_i e
    rw [e] at hk
    exact hf hk
  · exact hk

lemma Forks.congr (h : Forks s) (h1 : s'.pc = s.pc) (h2 : s'.slot = s.slot) : Forks s' :=
  h.keep (fun _ => by rw [h1]) fun _ => by rw [h2]; exact id

lemma Forks.build (h : Forks s) (hj : (s.slot j).state = .unused)
    (hf : (f (s.slot j)).state = .used) (hx : x.child = some j) :
    Forks ((s.setSlot j f).goto i x) := by
  have hfree : ∀ k, (s.pc k).child ≠ some j := by
    intro k e
    rw [h.used k j e] at hj
    cases hj
  refine ⟨fun k j' hk => ?_, fun k k' j' hk hk' => ?_⟩
  · rw [goto_pc, setSlot_pc, update_apply] at hk
    rw [goto_slot, setSlot_slot]
    split at hk
    · rw [hx, Option.some_inj] at hk
      rw [← hk, update_self]
      exact hf
    · rw [update_of_ne]
      · exact h.used k j' hk
      · rintro rfl
        exact hfree k hk
  · rw [goto_pc, setSlot_pc, update_apply] at hk hk'
    split at hk
    · rename_i e
      split at hk'
      · rename_i e'
        rw [e, e']
      · rw [hx, Option.some_inj] at hk
        rw [← hk] at hk'
        exact absurd hk' (hfree k')
    · split at hk'
      · rw [hx, Option.some_inj] at hk'
        rw [← hk'] at hk
        exact absurd hk (hfree k)
      · exact h.once k k' j' hk hk'

lemma Forks.release {v} (h : Forks s) (hpc : (s.pc i).child = some j) (hj : (s.pc j).child = none) :
    Forks ((({ s with pc := update s.pc j .user }).setSlot j f).leave i v) := by
  have hchild : ∀ k j', (update (update s.pc j .user) i .user k).child = some j' →
      (s.pc k).child = some j' ∧ j' ≠ j := by
    intro k j' hk
    rw [update_apply] at hk
    split at hk
    · cases hk
    · rename_i hki
      rw [update_keep (g := Pc.child) (by rw [hj]; rfl)] at hk
      refine ⟨hk, ?_⟩
      rintro rfl
      exact hki (h.once k i j' hk hpc)
  refine ⟨fun k j' hk => ?_, fun k k' j' hk hk' => ?_⟩
  · obtain ⟨h1, h2⟩ := hchild k j' hk
    rw [leave_slot, setSlot_slot, update_of_ne h2]
    exact h.used k j' h1
  · exact h.once k k' j' (hchild k j' hk).1 (hchild k' j' hk').1

/-- A process that is not running, runnable or asleep is at its start or its end. -/
def Idle (s : State) : Prop := ∀ j, ¬ (s.slot j).Alive → s.pc j = .user ∨ s.pc j = .dead

lemma Idle.goto (h : Idle s) (hi : (s.slot i).Alive) : Idle (s.goto i x) := by
  intro j hj
  rw [goto_pc, update_of_ne]
  · exact h j hj
  · rintro rfl
    exact hj hi

lemma Idle.slot (h : Idle s) (hf : (s.slot j).Alive → (f (s.slot j)).Alive) :
    Idle (s.setSlot j f) := by
  intro k hk
  rw [setSlot_slot, update_apply] at hk
  split at hk
  · rename_i e
    rw [e]
    exact h j fun ha => hk (hf ha)
  · exact h k hk

lemma Idle.congr (h : Idle s) (h1 : s'.pc = s.pc) (h2 : s'.slot = s.slot) : Idle s' := by
  intro j hj
  rw [h2] at hj
  rw [h1]
  exact h j hj

lemma Forks.pc_child (h : Forks s) (hid : Idle s) (hpc : (s.pc i).child = some j) :
    s.pc j = .user ∨ s.pc j = .dead := by
  refine hid j fun ha => ?_
  rw [Slot.Alive, h.used i j hpc] at ha
  simp at ha

/-- The process is in `fork`, `exit`, `wait` or `kill`. -/
def Pc.life : Pc → Bool
  | .acquire _ next | .wakeup _ _ next | .sleep _ _ next => next.life
  | .forkScan _ | .forkParent _ | .forkRun _ | .exitReparent _ _ | .exitZombie _ | .waitScan _ _ _
  | .killScan _ _ => true
  | _ => false

lemma Pc.child_none (h : x.life = false) : x.child = none := by
  cases x with
  | forkParent j => cases h
  | forkRun j => cases h
  | _ => rfl

lemma Pc.child_none_of_lock (h : x.lock ≠ none) : x.child = none := by
  cases x with
  | forkParent j => exact absurd rfl h
  | forkRun j => exact absurd rfl h
  | _ => rfl

lemma PipeStep.pc {o} (st : PipeStep s i o s') :
    ∃ x, s'.pc = update s.pc i x ∧ x.life = false ∧ (s.pc i).life = false := by
  cases st <;> exact ⟨_, rfl, rfl, by simp only [*]; rfl⟩

lemma DeviceStep.pc {o} (st : DeviceStep s i o s') :
    ∃ x, s'.pc = update s.pc i x ∧ x.life = false ∧ (s.pc i).life = false := by
  cases st <;> exact ⟨_, rfl, rfl, by simp only [*]; rfl⟩

/-- The process neither takes a lock, nor wakes others, nor falls asleep. -/
def Pc.own : Pc → Bool
  | .acquire _ _ | .wakeup _ _ _ | .sleep _ _ _ => false
  | _ => true

lemma Step.own {o} (hp : (s.pc i).own = true) (st : Step s (.run i o) s') :
    LifeStep s i o s' ∨ PipeStep s i o s' ∨ DeviceStep s i o s' := by
  cases st with
  | life _ st => exact .inl st
  | pipe _ st => exact .inr (.inl st)
  | device _ st => exact .inr (.inr st)
  | _ => simp_all [Pc.own]

lemma Step.life_of {o} (hp : (s.pc i).own = true) (hl : (s.pc i).life = true) (st : Step s (.run i o) s') :
    LifeStep s i o s' := by
  have hno : ¬ ∃ x, s'.pc = update s.pc i x ∧ x.life = false ∧ (s.pc i).life = false := by
    rintro ⟨-, -, -, h⟩
    exact absurd (hl.symm.trans h) nofun
  rcases st.own hp with st | st | st
  · exact st
  · exact absurd st.pc hno
  · exact absurd st.pc hno

lemma Forks.other (h : Forks s) (h1 : s'.slot = s.slot)
    (h2 : ∃ x, s'.pc = update s.pc i x ∧ x.life = false ∧ (s.pc i).life = false) :
    Forks s' := by
  obtain ⟨x, h2, h3, h4⟩ := h2
  have hx : x.child = (s.pc i).child := by rw [Pc.child_none h3, Pc.child_none h4]
  exact (h.goto hx).congr h2 h1

lemma Idle.other (h : Idle s) (hi : (s.slot i).Alive) (h1 : s'.slot = s.slot)
    (h2 : ∃ x, s'.pc = update s.pc i x ∧ x.life = false ∧ (s.pc i).life = false) :
    Idle s' := by
  obtain ⟨x, h2, -⟩ := h2
  exact (h.goto hi).congr h2 h1

lemma Slot.wake_used {c} (h : p.state = .used) : (p.wake c).state = .used := by
  rw [Slot.wake_state (by rw [h]; nofun), h]

lemma Slot.wake_alive {c} (h : p.Alive) : (p.wake c).Alive := by
  unfold Slot.wake
  split
  · exact .inl rfl
  · exact h

lemma Slot.kill_used (h : p.state = .used) : p.kill.state = .used := by
  unfold Slot.kill
  dsimp only
  rw [h]
  rfl

lemma Slot.kill_alive (h : p.Alive) : p.kill.Alive := by
  unfold Slot.kill Slot.Alive
  dsimp only
  split
  · exact .inl rfl
  · exact h

/-- `fork`, `exit`, `wait` and `kill` keep track of the children that are being created. -/
lemma LifeStep.forks {o} (h : Forks s) (hid : Idle s) (hrun : (s.slot i).state = .running)
    (st : LifeStep s i o s') : Forks s' := by
  cases st with
  | forkNext hpc _ | reparentNext hpc _ | reparentDone hpc _ | waitNext hpc _ | waitLive hpc _ _
  | waitSleep hpc _ _ | killNext hpc _ => exact h.goto (by rw [hpc]; rfl)
  | forkNone hpc _ | waitFault hpc _ _ _ | waitNone hpc _ _ | killNone hpc _ =>
    exact (h.goto (x := .user) (by rw [hpc]; rfl)).congr rfl rfl
  | @forkFail j hpc hj _ | @waitReap _ _ j hpc _ hj =>
    have h1 := h.slot (j := j) (f := freeproc) fun e => by rw [hj] at e; cases e
    exact (h1.goto (x := .user) (i := i) (by rw [setSlot_pc, hpc]; rfl)).congr rfl rfl
  | forkBuild _ hj _ => exact (h.build (i := i) (f := s.buildSlot i o) hj rfl rfl).congr rfl rfl
  | @forkParent j hpc _ =>
    have h1 := h.slot (j := j) (f := fun p => { p with parent := some i }) id
    exact h1.goto (by rw [setSlot_pc, hpc]; rfl)
  | @forkRun j hpc =>
    have hc : (s.pc i).child = some j := by rw [hpc]; rfl
    have hj : (s.pc j).child = none := by
      cases h.pc_child hid hc with
      | inl e | inr e => rw [e]; rfl
    exact h.release hc hj
  | @reparent st j hpc _ =>
    have h1 := h.slot (j := j) (f := fun p => { p with parent := some initproc }) id
    exact h1.goto (by rw [setSlot_pc, hpc]; rfl)
  | @zombie st hpc =>
    have h1 := h.slot (j := i) (f := fun p => { p with xstate := st, state := .zombie })
      fun e => by rw [hrun] at e; cases e
    exact (h1.goto (x := .dead) (by rw [setSlot_pc, hpc]; rfl)).congr rfl rfl
  | @killHit _ j hpc _ =>
    have h1 := h.slot (j := j) (f := Slot.kill) Slot.kill_used
    exact (h1.goto (x := .user) (i := i) (by rw [setSlot_pc, hpc]; rfl)).congr rfl rfl

/-- `fork`, `exit`, `wait` and `kill` leave processes that do not run at their start or end. -/
lemma LifeStep.idle {o} (h : Idle s) (hrun : (s.slot i).state = .running)
    (st : LifeStep s i o s') : Idle s' := by
  have hi : (s.slot i).Alive := .inr (.inl hrun)
  have hgo : ∀ {x}, Idle (s.goto i x) := h.goto hi
  cases st with
  | @forkFail j _ hj _ | @waitReap _ _ j _ _ hj =>
    exact (hgo.slot (j := j) (f := freeproc) fun e => absurd e (by simp [Slot.Alive, hj])).congr rfl rfl
  | @forkBuild j hpc hj _ =>
    have h1 := hgo (x := .forkParent j)
    exact (h1.slot (j := j) (f := s.buildSlot i o) fun e => absurd e (by simp [Slot.Alive, hj])).congr
      rfl rfl
  | @forkParent j hpc _ => exact (hgo (x := .forkRun j)).slot (f := fun p => { p with parent := some i }) id
  | @forkRun j hpc =>
    intro k hk
    rw [leave_slot, setSlot_slot, update_apply] at hk
    rw [leave_pc, setSlot_pc]
    dsimp only
    rw [update_apply]
    split
    · exact .inl rfl
    · rw [update_apply]
      split
      · exact .inl rfl
      · rename_i hkj
        rw [if_neg hkj] at hk
        exact h k hk
  | @reparent st j hpc _ => exact hgo.slot (j := j) (f := fun p => { p with parent := some initproc }) id
  | @zombie st hpc =>
    intro k hk
    rw [emit_pc, goto_pc, update_apply]
    split
    · exact .inr rfl
    · rename_i hki
      rw [emit_slot, goto_slot, setHeld_slot, setSlot_slot, update_of_ne hki] at hk
      exact h k hk
  | @killHit _ j hpc _ => exact (hgo.slot (j := j) (f := Slot.kill) Slot.kill_alive).congr rfl rfl
  | _ => exact hgo.congr rfl rfl

/-- The caller stays in `fork`, `exit`, `wait` or `kill`, returns, or is dead; a child starts. -/
lemma LifeStep.pc {o} (st : LifeStep s i o s') (k : Fin NPROC) :
    s'.pc k = s.pc k ∨ (k = i ∨ s.pc i = .forkRun k) ∧
      (s'.pc k = .user ∨ s'.pc k = .dead ∨ (s'.pc k).life = true) := by
  have hup : ∀ {x : Pc}, x = .user ∨ x = .dead ∨ x.life = true →
      update s.pc i x k = s.pc k ∨ (k = i ∨ s.pc i = .forkRun k) ∧
        (update s.pc i x k = .user ∨ update s.pc i x k = .dead ∨
          (update s.pc i x k).life = true) := by
    intro x hx
    rw [update_apply]
    split
    · exact .inr ⟨.inl ‹_›, hx⟩
    · exact .inl rfl
  cases st with
  | @forkRun j hpc =>
    rw [leave_pc, setSlot_pc]
    dsimp only
    rw [update_apply]
    split
    · exact .inr ⟨.inl ‹_›, .inl rfl⟩
    · rw [update_apply]
      split
      · rename_i e
        rw [e]
        exact .inr ⟨.inr hpc, .inl rfl⟩
      · exact .inl rfl
  | zombie _ => exact hup (.inr (.inl rfl))
  | forkNext _ _ | forkBuild _ _ _ | forkParent _ _ | reparent _ _ | reparentNext _ _ | reparentDone _ _
  | waitNext _ _ | waitLive _ _ _ | waitSleep _ _ _ | killNext _ _ => exact hup (.inr (.inr rfl))
  | _ => exact hup (.inl rfl)

/-- The discipline that every step keeps. -/
structure Sane (s : State) : Prop where
  locks : Locks s
  forks : Forks s
  idle : Idle s

lemma Call.start_child {c : Call} : c.start.child = none := by
  cases c <;> rfl

lemma Step.forks {a} (h : Sane s) (st : Step s a s') : Forks s' := by
  have hf := h.forks
  cases st with
  | call _ hpc _ => exact hf.goto (by rw [hpc, Call.start_child]; rfl)
  | @acquire i o l next hrun hpc _ =>
    have hw := h.locks.wf i
    rw [hpc] at hw
    have hx : next.child = none := Pc.child_none_of_lock (by rw [Enters.lock hw]; nofun)
    exact (hf.goto (x := next) (i := i) (by rw [hpc, hx]; rfl)).congr rfl rfl
  | wakeSelf _ hpc => exact hf.goto (by rw [hpc]; rfl)
  | @wake i o c next j _ hpc _ =>
    have h1 := hf.slot (j := j) (f := Slot.wake c) Slot.wake_used
    exact h1.goto (by rw [setSlot_pc, hpc]; rfl)
  | @wakeDone i o c k next _ hpc _ =>
    have hw := h.locks.wf i
    rw [hpc] at hw
    have hx : next.child = none := Pc.child_none_of_lock (Wakes.lock hw)
    exact hf.goto (by rw [hpc, hx]; rfl)
  | @sleep i o c l next hrun hpc =>
    have h1 := hf.slot (j := i) (f := Slot.doze c) fun e => by rw [hrun] at e; cases e
    exact (h1.goto (x := .acquire l next) (i := i) (by rw [setSlot_pc, hpc]; rfl)).congr rfl rfl
  | life hrun st => exact st.forks hf h.idle hrun
  | pipe _ st | device _ st => exact hf.other st.slot st.pc
  | @sched i hr | @yield i hr _ => exact hf.slot fun e => by rw [hr] at e; cases e
  | input _ | tick _ => exact hf.congr rfl rfl
  | intr _ => exact hf.slot Slot.wake_used

lemma Step.idle {a} (h : Idle s) (st : Step s a s') : Idle s' := by
  cases st with
  | call hrun _ _ | wakeSelf hrun _ | wakeDone hrun _ _ => exact h.goto (.inr (.inl hrun))
  | acquire hrun _ _ => exact (h.goto (.inr (.inl hrun))).congr rfl rfl
  | @wake i o c next j hrun _ _ =>
    have h1 := h.goto (x := .wakeup c (j + 1) next) (.inr (.inl hrun))
    exact h1.slot Slot.wake_alive
  | @sleep i o c l next hrun _ =>
    have h1 := h.goto (x := .acquire l next) (.inr (.inl hrun))
    exact (h1.slot (j := i) (f := Slot.doze c) fun _ => .inr (.inr rfl)).congr rfl rfl
  | life hrun st => exact st.idle h hrun
  | pipe hrun st | device hrun st => exact h.other (.inr (.inl hrun)) st.slot st.pc
  | sched _ => exact h.slot fun _ => .inr (.inl rfl)
  | yield _ _ => exact h.slot fun _ => .inl rfl
  | input _ | tick _ => exact h.congr rfl rfl
  | intr _ => exact h.slot Slot.wake_alive

lemma Step.sane {a} (h : Sane s) (st : Step s a s') : Sane s' :=
  ⟨st.locks h.locks h.forks, st.forks h, st.idle h.idle⟩

lemma Sane.start {data buf o} : Sane (State.start data buf o) := by
  refine ⟨⟨fun i l => ⟨nofun, nofun⟩, fun i hi => absurd rfl hi, fun _ => trivial, fun i hi => ?_⟩,
    ⟨nofun, nofun⟩, fun _ _ => .inl rfl⟩
  unfold State.start at hi
  dsimp only at hi
  split at hi
  · cases hi
  · cases hi

end

end Xv6n.Sched
