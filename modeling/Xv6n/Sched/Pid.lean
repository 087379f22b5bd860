import Xv6n.Sched.Locks

/-!
# Process ids

Pids come from a 32-bit counter that nobody compares with the pids in use. Until the counter overflows they are
positive and no two processes have the same one, so `fork` returns a positive number, `kill` reaches at most one
process, and `holdingsleep`, which compares pids, is true for nobody but the holder. The pid that comes after
`2 ^ 31 - 1` is negative.

The sleep lock is one of the file system's, which a process takes and releases inside a system call: its holder
makes no other call.
-/

namespace Xv6n.Sched
open Lib State Function

/-- A sleep lock (C `struct sleeplock`, less its spin lock). `holder` is who has taken it; no step reads it. -/
structure SleepLock where
  locked : Bool
  pid : Int
  holder : Option (Fin NPROC)

structure Locked where
  sys : State
  lk : SleepLock

/-- What happens next: a step of the machine, or a process takes or releases the sleep lock. -/
inductive LockAction where
  | sys (a : Action)
  | acquiresleep (i : Fin NPROC)
  | releasesleep (i : Fin NPROC)

/-- The call that an action makes, if any, is not one by process `i`. -/
def Action.byOther (i : Fin NPROC) : Action → Bool
  | .call j _ => j ≠ i
  | _ => true

namespace Locked

/-- The machine after `userinit` and `initsleeplock`. -/
def start (data : Fin PIPESIZE → UInt8) (buf : Fin INPUT_BUF_SIZE → UInt8) (o : Outcome) : Locked :=
  ⟨State.start data buf o, ⟨false, 0, none⟩⟩

/-- One step of the machine with a sleep lock (C `acquiresleep` after its wait, C `releasesleep`). -/
def step (s : Locked) : LockAction → Option Locked
  | .sys a =>
    if ∀ i, s.lk.holder = some i → a.byOther i then (s.sys.step a).map fun t => { s with sys := t }
    else none
  | .acquiresleep i =>
    if (s.sys.slot i).state = .running ∧ s.sys.pc i = .user ∧ s.lk.locked = false then
      some { s with lk := ⟨true, (s.sys.slot i).pid, some i⟩ }
    else none
  | .releasesleep i =>
    if (s.sys.slot i).state = .running ∧ s.lk.holder = some i then
      some { s with lk := ⟨false, 0, none⟩ }
    else none

/-- C `holdingsleep`, called by process `i`. -/
def holdingsleep (s : Locked) (i : Fin NPROC) : Bool :=
  s.lk.locked && s.lk.pid == (s.sys.slot i).pid

end Locked

/-- A step that takes a pid from the counter (C `allocpid`) finds it positive. -/
def PidLeft (s : State) : Action → Prop
  | .run i _ => ∀ j : Fin NPROC, s.pc i = .forkScan j → (s.slot j).state = .unused → 0 < s.nextpid
  | _ => True

def Locked.PidLeft (s : Locked) : LockAction → Prop
  | .sys a => Sched.PidLeft s.sys a
  | _ => True

def Slot.Keeps (p p' : Slot) : Prop := p'.pid = p.pid ∧ (p'.state = .unused ↔ p.state = .unused)

inductive PidStep (s : State) (a : Action) (s' : State) : Prop where
  | keep : s'.nextpid = s.nextpid → (∀ j, (s.slot j).Keeps (s'.slot j)) → PidStep s a s'
  | free (j : Fin NPROC) : s'.nextpid = s.nextpid →
    s'.slot = update s.slot j (freeproc (s.slot j)) → PidStep s a s'
  | fail (i j : Fin NPROC) (o : Outcome) : a = .run i o → s.pc i = .forkScan j →
    (s.slot j).state = .unused → s'.nextpid = Int.bmod (s.nextpid + 1) (2 ^ 32) →
    s'.slot = update s.slot j (freeproc (s.slot j)) → PidStep s a s'
  | build (i j : Fin NPROC) (o : Outcome) : a = .run i o → s.pc i = .forkScan j →
    (s.slot j).state = .unused → s'.nextpid = Int.bmod (s.nextpid + 1) (2 ^ 32) →
    s'.slot = update s.slot j (s.buildSlot i o (s.slot j)) → PidStep s a s'

variable {s s' : State} {i j k : Fin NPROC} {o : Outcome} {a : Action} {pid : Int} {n : Int}

lemma Slot.Keeps.refl {p : Slot} : p.Keeps p := ⟨rfl, Iff.rfl⟩

lemma PidStep.slot {f : Slot → Slot} (hn : s'.nextpid = s.nextpid)
    (hs : s'.slot = update s.slot j (f (s.slot j))) (hf : (s.slot j).Keeps (f (s.slot j))) :
    PidStep s a s' := by
  refine .keep hn fun k => ?_
  rw [hs]
  by_cases hk : k = j
  · subst hk
    rwa [update_self]
  · rw [update_of_ne hk]
    exact .refl

lemma PidStep.same (hn : s'.nextpid = s.nextpid) (hs : s'.slot = s.slot) : PidStep s a s' :=
  .keep hn fun j => by rw [hs]; exact .refl

lemma Slot.keeps_wake {c} {p : Slot} : p.Keeps (p.wake c) := by
  unfold Slot.wake
  split
  · rename_i h
    exact ⟨rfl, iff_of_false nofun (by rw [h.1]; nofun)⟩
  · exact .refl

lemma Slot.keeps_kill {p : Slot} : p.Keeps p.kill := by
  refine ⟨rfl, ?_⟩
  unfold Slot.kill
  dsimp only
  split
  · rename_i h
    exact iff_of_false nofun (by rw [h]; nofun)
  · exact Iff.rfl

lemma LifeStep.pids (hs : Sane s) (hrun : (s.slot i).state = .running) (st : LifeStep s i o s') :
    PidStep s (.run i o) s' := by
  cases st with
  | @forkFail j hpc hj _ => exact .fail i j o rfl hpc hj rfl rfl
  | @forkBuild j hpc hj _ => exact .build i j o rfl hpc hj rfl rfl
  | @forkParent j _ _ => exact .slot (j := j) (f := fun p => { p with parent := some i }) rfl rfl .refl
  | @forkRun j hpc =>
    have hj := hs.forks.used i j (by rw [hpc]; rfl)
    exact .slot (j := j) (f := fun p => { p with state := .runnable }) rfl rfl
      ⟨rfl, iff_of_false nofun (by rw [hj]; nofun)⟩
  | @reparent st j _ _ =>
    exact .slot (j := j) (f := fun p => { p with parent := some initproc }) rfl rfl .refl
  | @zombie st _ =>
    exact .slot (j := i) (f := fun p => { p with xstate := st, state := .zombie }) rfl rfl
      ⟨rfl, iff_of_false nofun (by rw [hrun]; nofun)⟩
  | @waitReap _ _ j _ _ _ => exact .free j rfl rfl
  | @killHit _ j _ _ => exact .slot (j := j) (f := Slot.kill) rfl rfl Slot.keeps_kill
  | _ => exact .same rfl rfl

lemma Step.pids (hs : Sane s) (st : Step s a s') : PidStep s a s' := by
  cases st with
  | @wake i o c next j _ _ _ => exact .slot (j := j) (f := Slot.wake c) rfl rfl Slot.keeps_wake
  | @sleep i o c l next hrun _ =>
    exact .slot (j := i) (f := Slot.doze c) rfl rfl ⟨rfl, iff_of_false nofun (by rw [hrun]; nofun)⟩
  | life hrun st => exact st.pids hs hrun
  | pipe _ st | device _ st => exact .same (by cases st <;> rfl) st.slot
  | @sched i hr =>
    exact .slot (j := i) (f := Slot.resume) rfl rfl ⟨rfl, iff_of_false nofun (by rw [hr]; nofun)⟩
  | @yield i hr _ =>
    exact .slot (j := i) (f := fun p => { p with state := .runnable }) rfl rfl
      ⟨rfl, iff_of_false nofun (by rw [hr]; nofun)⟩
  | @intr j c _ => exact .slot (j := j) (f := Slot.wake (some c)) rfl rfl Slot.keeps_wake
  | _ => exact .same rfl rfl

/-- Pids in use are positive, below the counter as long as it has not overflowed, and distinct. -/
structure Pids (s : State) : Prop where
  free : ∀ j, (s.slot j).state = .unused → (s.slot j).pid = 0
  pos : ∀ j, (s.slot j).state ≠ .unused → 0 < (s.slot j).pid
  inj : ∀ j k, (s.slot j).state ≠ .unused → (s.slot k).state ≠ .unused →
    (s.slot j).pid = (s.slot k).pid → j = k
  below : ∀ j, 0 < s.nextpid → (s.slot j).pid < s.nextpid
  top : s.nextpid < 2 ^ 31

lemma nextpid_succ (h0 : 0 < n) (h : n < 2 ^ 31) (hpos : 0 < Int.bmod (n + 1) (2 ^ 32)) :
    Int.bmod (n + 1) (2 ^ 32) = n + 1 := by
  by_cases hn : n + 1 < 2 ^ 31
  · exact Int.bmod_eq_of_le (by omega) (by omega)
  · have e : n + 1 = 2 ^ 31 := by omega
    rw [e] at hpos
    cases hpos

lemma nextpid_lt : Int.bmod n (2 ^ 32) < 2 ^ 31 := Int.bmod_lt (by decide)

lemma Pids.release (h : Pids s) (hn : 0 < s'.nextpid → 0 < s.nextpid ∧ s.nextpid ≤ s'.nextpid)
    (ht : s'.nextpid < 2 ^ 31) (hs : s'.slot = update s.slot j (freeproc (s.slot j))) : Pids s' := by
  have hj : s'.slot j = freeproc (s.slot j) := by rw [hs, update_self]
  have hk : ∀ k, k ≠ j → s'.slot k = s.slot k := fun k hk => by rw [hs, update_of_ne hk]
  have hne : ∀ k, (s'.slot k).state ≠ .unused → k ≠ j := by
    rintro k hu rfl
    rw [hj] at hu
    exact hu rfl
  refine ⟨fun k hu => ?_, fun k hu => ?_, fun k l hu hl e => ?_, fun k h0 => ?_, ht⟩
  · by_cases e : k = j
    · rw [e, hj]
      rfl
    · rw [hk k e] at hu ⊢
      exact h.free k hu
  · have e := hne k hu
    rw [hk k e] at hu ⊢
    exact h.pos k hu
  · have hk' := hk k (hne k hu)
    have hl' := hk l (hne l hl)
    rw [hk'] at hu e
    rw [hl'] at hl e
    exact h.inj k l hu hl e
  · obtain ⟨h1, h2⟩ := hn h0
    by_cases e : k = j
    · rw [e, hj]
      exact h0
    · rw [hk k e]
      exact Int.lt_of_lt_of_le (h.below k h1) h2

lemma Pids.build (h : Pids s) (h0 : 0 < s.nextpid)
    (hn : s'.nextpid = Int.bmod (s.nextpid + 1) (2 ^ 32))
    (hs : s'.slot = update s.slot j (s.buildSlot i o (s.slot j))) : Pids s' := by
  have hpj : (s'.slot j).pid = s.nextpid ∧ (s'.slot j).state = .used := by
    rw [hs, update_self]
    exact ⟨rfl, rfl⟩
  have hk : ∀ k, k ≠ j → s'.slot k = s.slot k := fun k hk => by rw [hs, update_of_ne hk]
  refine ⟨fun k hu => ?_, fun k hu => ?_, fun k l hu hl e => ?_, fun k hp => ?_, by rw [hn]; exact nextpid_lt⟩
  · by_cases e : k = j
    · rw [e, hpj.2] at hu
      cases hu
    · rw [hk k e] at hu ⊢
      exact h.free k hu
  · by_cases e : k = j
    · rwa [e, hpj.1]
    · rw [hk k e] at hu ⊢
      exact h.pos k hu
  · -- the new pid is above all others
    by_cases ek : k = j
    · by_cases el : l = j
      · rw [ek, el]
      · rw [ek, hpj.1, hk l el] at e
        have := h.below l h0
        omega
    · by_cases el : l = j
      · rw [el, hpj.1, hk k ek] at e
        have := h.below k h0
        omega
      · rw [hk k ek] at hu e
        rw [hk l el] at hl e
        exact h.inj k l hu hl e
  · rw [hn] at hp ⊢
    rw [nextpid_succ h0 h.top hp]
    by_cases e : k = j
    · rw [e, hpj.1]
      omega
    · rw [hk k e]
      have := h.below k h0
      omega

lemma PidStep.keeps (h : Pids s) (hp : PidLeft s a) (st : PidStep s a s') : Pids s' := by
  cases st with
  | keep hn hk =>
    refine ⟨fun j hu => ?_, fun j hu => ?_, fun j k hu hl e => ?_, fun j h0 => ?_, by rw [hn]; exact h.top⟩
    · rw [(hk j).1]
      exact h.free j ((hk j).2.1 hu)
    · rw [(hk j).1]
      exact h.pos j fun e => hu ((hk j).2.2 e)
    · rw [(hk j).1, (hk k).1] at e
      exact h.inj j k (fun e => hu ((hk j).2.2 e)) (fun e => hl ((hk k).2.2 e)) e
    · rw [hn] at h0 ⊢
      rw [(hk j).1]
      exact h.below j h0
  | free j hn hs => exact h.release (by rw [hn]; exact fun h0 => ⟨h0, Int.le_refl _⟩) (by rw [hn]; exact h.top) hs
  | fail i j o ha hpc hj hn hs =>
    subst ha
    have h0 := hp j hpc hj
    refine h.release (fun hpos => ⟨h0, ?_⟩) (by rw [hn]; exact nextpid_lt) hs
    rw [hn] at hpos ⊢
    rw [nextpid_succ h0 h.top hpos]
    omega
  | build i j o ha hpc hj hn hs =>
    subst ha
    exact h.build (hp j hpc hj) hn hs

lemma Pids.start {data buf o} : Pids (State.start data buf o) := by
  have hslot : ∀ j, ((State.start data buf o).slot j).state ≠ .unused →
      j = initproc ∧ ((State.start data buf o).slot j).pid = 1 := by
    intro j hj
    unfold State.start at hj ⊢
    dsimp only at hj ⊢
    split
    · rename_i e
      exact ⟨e, rfl⟩
    · rename_i e
      rw [if_neg e] at hj
      exact absurd rfl hj
  have hfree : ∀ j, ((State.start data buf o).slot j).state = .unused →
      ((State.start data buf o).slot j).pid = 0 := by
    intro j hj
    unfold State.start at hj ⊢
    dsimp only at hj ⊢
    split
    · rename_i e
      rw [if_pos e] at hj
      cases hj
    · rfl
  refine ⟨hfree, fun j hj => ?_, fun j k hj hk _ => ?_, fun j _ => ?_, ?_⟩
  · rw [(hslot j hj).2]
    decide
  · rw [(hslot j hj).1, (hslot k hk).1]
  · by_cases hj : ((State.start data buf o).slot j).state = .unused
    · rw [hfree j hj]
      exact (by decide : (0 : Int) < 2)
    · rw [(hslot j hj).2]
      exact (by decide : (1 : Int) < 2)
  · exact Int.lt_of_sub_pos (by decide : (0 : Int) < 2 ^ 31 - 2)

/-- The process is in a system call that this machine does not follow. -/
structure Resident (s : State) (i : Fin NPROC) (pid : Int) : Prop where
  pid : (s.slot i).pid = pid
  pc : s.pc i = .user
  state : (s.slot i).state = .running ∨ (s.slot i).state = .runnable

lemma Resident.ne (h : Resident s k pid) (hpc : s.pc i ≠ .user) : k ≠ i := by
  rintro rfl
  exact hpc h.pc

lemma Resident.stays {x : Pc} (h : Resident s k pid) (hi : s.pc i ≠ .user) :
    update s.pc i x k = .user := by
  rw [update_of_ne (h.ne hi), h.pc]

lemma Resident.slot {f : Slot → Slot} (h : Resident s k pid) (hpc : s'.pc k = .user)
    (hs : s'.slot = update s.slot j (f (s.slot j)))
    (hf : k = j → (f (s.slot k)).pid = (s.slot k).pid ∧
      ((f (s.slot k)).state = .running ∨ (f (s.slot k)).state = .runnable)) : Resident s' k pid := by
  by_cases hj : k = j
  · obtain ⟨h1, h2⟩ := hf hj
    subst hj
    exact ⟨by rw [hs, update_self, h1, h.pid], hpc, by rwa [hs, update_self]⟩
  · exact ⟨by rw [hs, update_of_ne hj, h.pid], hpc, by rw [hs, update_of_ne hj]; exact h.state⟩

lemma Resident.congr (h : Resident s k pid) (hpc : s'.pc k = .user) (hs : s'.slot = s.slot) :
    Resident s' k pid :=
  ⟨by rw [hs, h.pid], hpc, by rw [hs]; exact h.state⟩

lemma Resident.awake (h : Resident s k pid) : (s.slot k).state ≠ .sleeping := by
  intro e
  obtain h1 | h1 := h.state
  · rw [e] at h1
    cases h1
  · rw [e] at h1
    cases h1

lemma Resident.ne_state {x : ProcState} (h : Resident s k pid) (hj : (s.slot j).state = x)
    (hx : x ≠ .running ∧ x ≠ .runnable) : k ≠ j := by
  rintro rfl
  obtain h1 | h1 := h.state
  · exact hx.1 (hj.symm.trans h1)
  · exact hx.2 (hj.symm.trans h1)

lemma LifeStep.busy (st : LifeStep s i o s') : s.pc i ≠ .user := by
  cases st <;> simp [*]

lemma PipeStep.busy (st : PipeStep s i o s') : s.pc i ≠ .user := by
  cases st <;> simp [*]

lemma DeviceStep.busy (st : DeviceStep s i o s') : s.pc i ≠ .user := by
  cases st <;> simp [*]

lemma LifeStep.resident (h : Resident s k pid) (st : LifeStep s i o s') : Resident s' k pid := by
  have hi := st.busy
  cases st with
  | @forkFail j _ hj _ | @waitReap _ _ j _ _ hj =>
    exact h.slot (j := j) (f := freeproc) (h.stays hi) rfl
      fun e => absurd e (h.ne_state hj (by decide))
  | @forkBuild j _ hj _ =>
    exact h.slot (j := j) (f := s.buildSlot i o) (h.stays hi) rfl
      fun e => absurd e (h.ne_state hj (by decide))
  | @forkParent j _ _ =>
    exact h.slot (j := j) (f := fun p => { p with parent := some i }) (h.stays hi) rfl
      fun _ => ⟨rfl, h.state⟩
  | @forkRun j _ =>
    -- the new process starts at `user` as well
    refine h.slot (j := j) (f := fun p => { p with state := .runnable }) ?_ rfl fun _ => ⟨rfl, .inr rfl⟩
    by_cases e : k = j
    · subst e
      exact (update_of_ne (h.ne hi) ..).trans (update_self ..)
    · exact (update_of_ne (h.ne hi) ..).trans ((update_of_ne e ..).trans h.pc)
  | @reparent st j _ _ =>
    exact h.slot (j := j) (f := fun p => { p with parent := some initproc }) (h.stays hi)
      rfl fun _ => ⟨rfl, h.state⟩
  | @zombie st _ =>
    exact h.slot (j := i) (f := fun p => { p with xstate := st, state := .zombie }) (h.stays hi)
      rfl fun e => absurd e (h.ne hi)
  | @killHit _ j _ _ =>
    refine h.slot (j := j) (f := Slot.kill) (h.stays hi) rfl fun _ => ⟨rfl, ?_⟩
    unfold Slot.kill
    dsimp only
    rw [if_neg h.awake]
    exact h.state
  | _ => exact h.congr (h.stays hi) rfl

lemma Step.resident (h : Resident s k pid) (hb : a.byOther k) (st : Step s a s') :
    Resident s' k pid := by
  cases st with
  | @call i c _ hpc _ =>
    have hne : k ≠ i := Ne.symm (by simpa [Action.byOther] using hb)
    exact ⟨h.pid, (update_of_ne hne ..).trans h.pc, h.state⟩
  | acquire _ hpc _ | wakeSelf _ hpc | wakeDone _ hpc _ => exact h.congr (h.stays (by rw [hpc]; nofun)) rfl
  | @wake i o c next j _ hpc _ =>
    refine h.slot (j := j) (f := Slot.wake c) (h.stays (by rw [hpc]; nofun)) rfl fun _ => ?_
    rw [Slot.wake_state h.awake]
    exact ⟨rfl, h.state⟩
  | @sleep i o c l next _ hpc =>
    exact h.slot (j := i) (f := Slot.doze c) (h.stays (by rw [hpc]; nofun)) rfl
      fun e => absurd e (h.ne (by rw [hpc]; nofun))
  | life _ st => exact st.resident h
  | pipe _ st | device _ st =>
    obtain ⟨x, hx, -⟩ := st.pc
    exact h.congr (by rw [hx]; exact h.stays st.busy) st.slot
  | @sched i _ => exact h.slot (j := i) (f := Slot.resume) h.pc rfl fun _ => ⟨rfl, .inl rfl⟩
  | @yield i _ _ =>
    exact h.slot (j := i) (f := fun p => { p with state := .runnable }) h.pc rfl fun _ => ⟨rfl, .inr rfl⟩
  | @intr j c _ =>
    refine h.slot (j := j) (f := Slot.wake (some c)) h.pc rfl fun _ => ?_
    rw [Slot.wake_state h.awake]
    exact ⟨rfl, h.state⟩
  | _ => exact ⟨h.pid, h.pc, h.state⟩

/-- The holder of the sleep lock is in the call in which it took the lock, and the lock has its pid. -/
structure Holder (s : Locked) : Prop where
  idle : s.lk.holder = none → s.lk.locked = false
  held : ∀ i, s.lk.holder = some i → Resident s.sys i s.lk.pid

/-- The invariant of the machine with a sleep lock. -/
structure LockedInv (s : Locked) : Prop where
  sane : Sane s.sys
  pids : Pids s.sys
  holder : Holder s

lemma Locked.step_inv {s s' : Locked} {a : LockAction} (h : LockedInv s) (hp : s.PidLeft a)
    (hst : s.step a = some s') : LockedInv s' := by
  cases a with
  | sys a =>
    rw [Locked.step] at hst
    split at hst
    · rename_i hb
      obtain ⟨t, ht, rfl⟩ := Option.map_eq_some_iff.1 hst
      have st := State.step_inv ht
      refine ⟨st.sane h.sane, (st.pids h.sane).keeps h.pids hp, h.holder.idle, fun i hi => ?_⟩
      exact st.resident (h.holder.held i hi) (hb i hi)
    · cases hst
  | acquiresleep i =>
    rw [Locked.step] at hst
    split at hst
    · rename_i hc
      cases hst
      refine ⟨h.sane, h.pids, nofun, fun j hj => ?_⟩
      cases hj
      exact ⟨rfl, hc.2.1, .inl hc.1⟩
    · cases hst
  | releasesleep i =>
    rw [Locked.step] at hst
    split at hst
    · cases hst
      exact ⟨h.sane, h.pids, fun _ => rfl, nofun⟩
    · cases hst

lemma LifeStep.kill_slot {m : Nat} (hpc : s.pc i = .killScan pid m) (st : LifeStep s i o s')
    (hj : s'.slot j ≠ s.slot j) : (s.slot j).pid = pid := by
  cases st with
  | @killHit pid' l hpc' hl =>
    rw [hpc] at hpc'
    cases hpc'
    by_cases e : j = l
    · rwa [e]
    · exact absurd (update_of_ne e ..) hj
  | killNext hpc' _ => exact absurd rfl hj
  | killNone hpc' _ => exact absurd rfl hj
  | _ => simp_all

lemma Step.kill_slot {m : Nat} (hpc : s.pc i = .killScan pid m) (st : Step s (.run i o) s')
    (hj : s'.slot j ≠ s.slot j) : (s.slot j).pid = pid := by
  cases st with
  | life _ st => exact st.kill_slot hpc hj
  | pipe _ st | device _ st => exact absurd (congrFun st.slot j) hj
  | _ => simp_all

lemma run_forkScan (hpc : s.pc i = .forkScan j) : s.run i o =
    if (s.slot j).state = .unused then
      if o.ok then
        some ((({ s with nextpid := Int.bmod (s.nextpid + 1) (2 ^ 32) }).setSlot j (s.buildSlot i o)).goto i
          (.forkParent j))
      else
        some ((({ s with nextpid := Int.bmod (s.nextpid + 1) (2 ^ 32) }).setSlot j freeproc).leave i (-1))
    else some (s.goto i (.forkScan (j + 1))) := by
  unfold State.run runLife
  rw [hpc]
  dsimp only
  rw [dif_pos j.isLt]

/-- In every run in which each `allocpid` finds the counter positive: pids in use are positive and distinct, a
    `fork` that succeeds returns a positive number, `kill` of a positive pid changes only the slot in use that has
    it, and `holdingsleep` is true for no other process than the holder. A process that is made when the counter is
    not positive has a pid that is not positive. -/
theorem pids_identify {data buf o as} {s : Locked}
    (hp : Along Locked.step Locked.PidLeft (Locked.start data buf o) as)
    (h : exec Locked.step (Locked.start data buf o) as = some s) :
    (∀ j, (s.sys.slot j).state ≠ .unused → 0 < (s.sys.slot j).pid) ∧
    (∀ j k, (s.sys.slot j).state ≠ .unused → (s.sys.slot k).state ≠ .unused →
      (s.sys.slot j).pid = (s.sys.slot k).pid → j = k) ∧
    (∀ i j o t, s.sys.pc i = .forkRun j → s.sys.step (.run i o) = some t → t.pc i = .user ∧ 0 < t.ret i) ∧
    (∀ i pid m o t, s.sys.pc i = .killScan pid m → 0 < pid → s.sys.step (.run i o) = some t →
      ∀ j, t.slot j ≠ s.sys.slot j → (s.sys.slot j).state ≠ .unused ∧ (s.sys.slot j).pid = pid) ∧
    (∀ j, (s.sys.slot j).state ≠ .unused → s.holdingsleep j = true → s.lk.holder = some j) ∧
    (∀ i (j : Fin NPROC) o t, s.sys.pc i = .forkScan j → (s.sys.slot j).state = .unused → o.ok = true → s.sys.nextpid ≤ 0 →
      s.sys.step (.run i o) = some t → (t.slot j).state ≠ .unused ∧ (t.slot j).pid ≤ 0) := by
  have hi : LockedInv s := by
    refine Along.invariant (I := LockedInv) (fun hI ha hst => Locked.step_inv hI ha hst) ⟨.start, .start, ?_⟩ hp h
    exact ⟨fun _ => rfl, by rintro _ ⟨⟩⟩
  refine ⟨hi.pids.pos, hi.pids.inj, fun i j o t hpc hst => ?_, fun i pid m o t hpc h0 hst j hj => ?_,
    fun j hj hh => ?_, fun i j o t hpc hj ho hn hst => ?_⟩
  · have hpos := hi.pids.pos j (by rw [hi.sane.forks.used i j (by rw [hpc]; rfl)]; rintro ⟨⟩)
    cases State.step_inv hst with
    | life _ st =>
      cases st with
      | @forkRun j' hpc' =>
        rw [hpc] at hpc'
        cases hpc'
        refine ⟨update_self .., ?_⟩
        rw [leave_ret, update_self]
        exact hpos
      | _ => simp_all
    | pipe _ st => cases st <;> simp_all
    | device _ st => cases st <;> simp_all
    | _ => simp_all
  · have hpid := (State.step_inv hst).kill_slot hpc hj
    refine ⟨fun e => ?_, hpid⟩
    rw [hi.pids.free j e] at hpid
    omega
  · unfold Locked.holdingsleep at hh
    rw [Bool.and_eq_true, beq_iff_eq] at hh
    cases hl : s.lk.holder with
    | none =>
      rw [hi.holder.idle hl] at hh
      cases hh.1
    | some k =>
      have hk := hi.holder.held k hl
      have hu : (s.sys.slot k).state ≠ .unused := by
        rintro e
        obtain h1 | h1 := hk.state
        · rw [e] at h1
          cases h1
        · rw [e] at h1
          cases h1
      rw [hi.pids.inj j k hj hu (by rw [← hh.2, hk.pid])]
  · rw [State.step] at hst
    split at hst
    · rw [run_forkScan hpc, if_pos hj, if_pos ho] at hst
      cases hst
      rw [goto_slot, setSlot_slot, update_self]
      exact ⟨by rintro ⟨⟩, hn⟩
    · cases hst

/-- The first process runs, forks, and takes the sleep lock. -/
theorem pids_identify_fork : ∃ s, exec Locked.step (Locked.start (fun _ => 0) (fun _ => 0) ⟨true, 0, 1, 2⟩)
      [.sys (.sched 0), .sys (.call 0 .fork), .sys (.run 0 ⟨true, 0, 3, 4⟩), .sys (.run 0 ⟨true, 0, 3, 4⟩),
        .sys (.run 0 ⟨true, 0, 3, 4⟩), .sys (.run 0 ⟨true, 0, 3, 4⟩), .acquiresleep 0] = some s ∧
    s.sys.ret 0 = 2 ∧ s.holdingsleep 0 = true ∧
    ∀ j, (s.sys.slot j).state ≠ .unused → s.holdingsleep j = true → s.lk.holder = some j := by
  refine ⟨_, rfl, rfl, rfl, (@pids_identify (fun _ => 0) (fun _ => 0) ⟨true, 0, 1, 2⟩
    [.sys (.sched 0), .sys (.call 0 .fork), .sys (.run 0 ⟨true, 0, 3, 4⟩), .sys (.run 0 ⟨true, 0, 3, 4⟩),
      .sys (.run 0 ⟨true, 0, 3, 4⟩), .sys (.run 0 ⟨true, 0, 3, 4⟩), .acquiresleep 0] _ ?_ rfl).2.2.2.2.1⟩
  refine (along_cons rfl).2 ⟨trivial, (along_cons rfl).2 ⟨trivial, (along_cons rfl).2 ⟨fun _ _ _ => by decide, ?_⟩⟩⟩
  refine (along_cons rfl).2 ⟨fun _ _ _ => by decide, (along_cons rfl).2 ⟨fun _ _ _ => by decide, ?_⟩⟩
  exact (along_cons rfl).2 ⟨fun _ _ _ => by decide, (along_cons rfl).2 ⟨trivial, trivial⟩⟩

/-- The first process is about to call `fork`, and the second slot is free. -/
structure Ready (s : State) (n : Int) : Prop where
  state : (s.slot 0).state = .running
  pc : s.pc 0 = .user
  free : (s.slot 1).state = .unused
  wait : s.held .wait = none
  nextpid : s.nextpid = n

lemma step_run (hr : (s.slot i).state = .running) : s.step (.run i o) = s.run i o := if_pos hr

lemma Ready.scan (h : Ready s n) : ∃ s', exec State.step s [.call 0 .fork, .run 0 o] = some s' ∧
    s'.slot = s.slot ∧ s'.pc 0 = .forkScan (1 : Fin NPROC) ∧ s'.held = s.held ∧ s'.nextpid = n := by
  have h1 : s.step (.call 0 .fork) = some (s.goto 0 (.forkScan (0 : Fin NPROC))) := by
    rw [State.step, if_pos ⟨h.state, h.pc, rfl⟩]
    rfl
  have hpc : (s.goto 0 (.forkScan (0 : Fin NPROC))).pc 0 = .forkScan (0 : Fin NPROC) := by
    rw [goto_pc, update_self]
  have h2 : (s.goto 0 (.forkScan (0 : Fin NPROC))).step (.run 0 o) =
      some ((s.goto 0 (.forkScan (0 : Fin NPROC))).goto 0 (.forkScan (1 : Fin NPROC))) := by
    rw [step_run (by exact h.state), run_forkScan hpc, if_neg]
    · rfl
    · rw [goto_slot, h.state]
      rintro ⟨⟩
  refine ⟨_, exec_cons.2 ⟨_, h1, exec_cons.2 ⟨_, h2, rfl⟩⟩, rfl, ?_, rfl, h.nextpid⟩
  rw [goto_pc, update_self]

lemma Ready.fail (h : Ready s n) : ∃ s', exec State.step s
    ([.call 0 .fork, .run 0 ⟨false, 0, 0, 0⟩] ++ [.run 0 ⟨false, 0, 0, 0⟩]) = some s' ∧
    Ready s' (Int.bmod (n + 1) (2 ^ 32)) := by
  obtain ⟨s1, he, hs, hpc, hw, hn⟩ := h.scan (o := ⟨false, 0, 0, 0⟩)
  have hrun : s1.step (.run 0 ⟨false, 0, 0, 0⟩) = some
      ((({ s1 with nextpid := Int.bmod (s1.nextpid + 1) (2 ^ 32) }).setSlot 1 freeproc).leave 0 (-1)) := by
    rw [step_run (by rw [hs]; exact h.state), run_forkScan hpc, if_pos (by rw [hs]; exact h.free)]
    rfl
  refine ⟨_, exec_snoc.2 ⟨s1, he, hrun⟩, ?_⟩
  exact ⟨by simp [hs, h.state], by simp, by simp [freeproc], by simp [hw, h.wait], by simp [hn]⟩

lemma Ready.fails (m : Nat) (h : Ready s n) (h0 : -2 ^ 31 ≤ n) (hm : n + m < 2 ^ 31) :
    ∃ as s', exec State.step s as = some s' ∧ Ready s' (n + m) := by
  induction m generalizing s n with
  | zero => exact ⟨[], s, rfl, by simpa using h⟩
  | succ m ih =>
    obtain ⟨s1, he, h1⟩ := h.fail
    rw [Int.bmod_eq_of_le (by omega) (by omega)] at h1
    obtain ⟨as, s2, he2, h2⟩ := ih h1 (by omega) (by omega)
    refine ⟨_, s2, exec_append.2 ⟨s1, he, he2⟩, ?_⟩
    rwa [Int.natCast_succ, Int.add_comm (m : Int), ← Int.add_assoc]

lemma Ready.succeed (h : Ready s n) : ∃ as s', exec State.step s as = some s' ∧
    (s'.slot 1).state = .runnable ∧ (s'.slot 1).pid = n ∧ s'.ret 0 = n ∧ s'.pc 0 = .user := by
  obtain ⟨s1, he, hs, hpc, hw, hn⟩ := h.scan (o := ⟨true, 0, 0, 0⟩)
  obtain ⟨s2, hrun, h2, hpc2, hp2, hw2⟩ : ∃ s2, s1.step (.run 0 ⟨true, 0, 0, 0⟩) = some s2 ∧
      (s2.slot 0).state = .running ∧ s2.pc 0 = .forkParent 1 ∧ (s2.slot 1).pid = n ∧ s2.held .wait = none := by
    rw [step_run (by rw [hs]; exact h.state), run_forkScan hpc, if_pos (by rw [hs]; exact h.free), if_pos rfl]
    exact ⟨_, rfl, by simp [hs, h.state], by simp, by simp [buildSlot, hn], by simp [hw, h.wait]⟩
  obtain ⟨s3, hrun3, h3, hpc3, hp3⟩ : ∃ s3, s2.step (.run 0 ⟨true, 0, 0, 0⟩) = some s3 ∧
      (s3.slot 0).state = .running ∧ s3.pc 0 = .forkRun 1 ∧ (s3.slot 1).pid = n := by
    rw [step_run h2, State.run, hpc2]
    dsimp only
    rw [runLife, hpc2]
    dsimp only
    rw [if_pos hw2]
    exact ⟨_, rfl, by simp [h2], by simp, by simp [hp2]⟩
  obtain ⟨s4, hrun4, h4⟩ : ∃ s4, s3.step (.run 0 ⟨true, 0, 0, 0⟩) = some s4 ∧
      (s4.slot 1).state = .runnable ∧ (s4.slot 1).pid = n ∧ s4.ret 0 = n ∧ s4.pc 0 = .user := by
    rw [step_run h3, State.run, hpc3]
    dsimp only
    rw [runLife, hpc3]
    exact ⟨_, rfl, by simp, by simp [hp3], by simp [hp3], by simp⟩
  exact ⟨_, s4, exec_snoc.2 ⟨s3, exec_snoc.2 ⟨s2, exec_snoc.2 ⟨s1, he, hrun⟩, hrun3⟩, hrun4⟩, h4⟩

lemma exec_sys {lk : SleepLock} (hl : lk.holder = none) {as} (h : exec State.step s as = some s') :
    exec Locked.step ⟨s, lk⟩ (as.map .sys) = some ⟨s', lk⟩ := by
  induction as generalizing s with
  | nil =>
    cases h
    rfl
  | cons a as ih =>
    obtain ⟨s1, h1, h2⟩ := exec_cons.1 h
    refine exec_cons.2 ⟨⟨s1, lk⟩, ?_, ih h2⟩
    rw [Locked.step, if_pos (by rw [hl]; nofun), h1]
    rfl

/-- After `2 ^ 31 - 2` calls of `fork` that find no memory the counter overflows, and the next `fork` succeeds
    and returns a negative pid. -/
theorem pid_overflow : ∃ as s, exec Locked.step (Locked.start (fun _ => 0) (fun _ => 0) ⟨true, 0, 1, 2⟩) as =
      some s ∧ (s.sys.slot 1).state = .runnable ∧ (s.sys.slot 1).pid = -2 ^ 31 ∧ s.sys.ret 0 = -2 ^ 31 := by
  obtain ⟨s0, he0, h0⟩ : ∃ s0, exec State.step (State.start (fun _ => 0) (fun _ => 0) ⟨true, 0, 1, 2⟩) [.sched 0] =
      some s0 ∧ Ready s0 2 := ⟨_, rfl, rfl, rfl, rfl, rfl, rfl⟩
  obtain ⟨as1, s1, he1, h1⟩ := h0.fails (2 ^ 31 - 3) (by decide) (by decide)
  obtain ⟨s2, he2, h2⟩ := h1.fail
  obtain ⟨as3, s3, he3, h3, hpid, hret, -⟩ := h2.succeed
  refine ⟨_, _, exec_sys rfl (exec_append.2 ⟨s0, he0, exec_append.2 ⟨s1, he1, exec_append.2 ⟨s2, he2, he3⟩⟩⟩), h3, ?_, ?_⟩
  · exact hpid
  · exact hret

end Xv6n.Sched
