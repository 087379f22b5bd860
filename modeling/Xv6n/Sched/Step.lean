import Xv6n.Sched.Basic

/-!
# Steps of the processes

`State.step` runs the code one step at a time. `Step` lists what a step can do, one constructor for each
branch of the code, and `step_inv` is the inversion that the invariants are proved by.
-/

namespace Xv6n.Sched
open Lib Function

namespace State

/-- Process `i` goes on at `x`. -/
@[simps -fullyApplied] def goto (s : State) (i : Fin NPROC) (x : Pc) : State := { s with pc := update s.pc i x }

@[simps -fullyApplied] def setSlot (s : State) (j : Fin NPROC) (f : Slot → Slot) : State :=
  { s with slot := update s.slot j (f (s.slot j)) }

@[simps -fullyApplied] def setHeld (s : State) (l : Lock) (h : Option (Fin NPROC)) : State :=
  { s with held := update s.held l h }

@[simps -fullyApplied] def leave (s : State) (i : Fin NPROC) (v : Int) : State :=
  { s with pc := update s.pc i .user, ret := update s.ret i v }

@[simps -fullyApplied] def emit (s : State) (e : Event) : State := { s with trace := e :: s.trace }

/-- The machine after `userinit`. -/
def start (data : Fin PIPESIZE → UInt8) (buf : Fin INPUT_BUF_SIZE → UInt8) (o : Outcome) : State :=
  { slot := fun i => if i = initproc then
      { Slot.blank with
        state := .runnable, pid := 1, sz := PGSIZE, pagetable := o.pagetable, trapframe := o.trapframe }
      else .blank
    pc := fun _ => .user
    held := fun _ => none
    pipe := { data := data, nread := 0, nwrite := 0, readopen := true, writeopen := true
              sent := [], got := [] }
    cons := { buf := buf, r := 0, w := 0, e := 0 }
    ticks := 0
    nextpid := 2
    ret := fun _ => 0
    trace := [] }

/-- What `fork` does to the slot of the new process while it holds its lock, if memory suffices. -/
def buildSlot (s : State) (i : Fin NPROC) (o : Outcome) (p : Slot) : Slot :=
  { p with
    pid := s.nextpid, state := .used, sz := (s.slot i).sz, pagetable := o.pagetable
    trapframe := o.trapframe }

/-- The next step of `fork`, `exit`, `wait` or `kill` (C `fork`, `allocproc`, `reparent`, `exit`, `wait`,
    `kill`). -/
def runLife (s : State) (i : Fin NPROC) (o : Outcome) : Option State :=
  match s.pc i with
  | .forkScan k =>
    if h : k < NPROC then
      if (s.slot ⟨k, h⟩).state = .unused then
        let s' := { s with nextpid := Int.bmod (s.nextpid + 1) (2 ^ 32) }
        if o.ok then
          some ((s'.setSlot ⟨k, h⟩ (s.buildSlot i o)).goto i (.forkParent ⟨k, h⟩))
        else
          some ((s'.setSlot ⟨k, h⟩ freeproc).leave i (-1))
      else some (s.goto i (.forkScan (k + 1)))
    else some (s.leave i (-1))
  | .forkParent child =>
    if s.held .wait = none then
      some ((s.setSlot child fun p => { p with parent := some i }).goto i (.forkRun child))
    else none
  | .forkRun child =>
    some ((({ s with pc := update s.pc child .user }).setSlot child fun p =>
      { p with state := .runnable }).leave i (s.slot child).pid)
  | .exitReparent status k =>
    if h : k < NPROC then
      if (s.slot ⟨k, h⟩).parent = some i then
        some ((s.setSlot ⟨k, h⟩ fun p => { p with parent := some initproc }).goto i
          (.wakeup (some (.proc initproc)) 0 (.exitReparent status (k + 1))))
      else some (s.goto i (.exitReparent status (k + 1)))
    else some (s.goto i (.wakeup ((s.slot i).parent.map .proc) 0 (.exitZombie status)))
  | .exitZombie status =>
    some ((((s.setSlot i fun p => { p with xstate := status, state := .zombie }).setHeld .wait none).goto i
      .dead).emit (.exited i (s.slot i).pid status))
  | .waitScan addr k havekids =>
    if h : k < NPROC then
      if (s.slot ⟨k, h⟩).parent = some i then
        if (s.slot ⟨k, h⟩).state = .zombie then
          if addr ≠ 0 ∧ o.ok = false then
            some ((s.setHeld .wait none).leave i (-1))
          else
            some ((((s.setSlot ⟨k, h⟩ freeproc).setHeld .wait none).leave i (s.slot ⟨k, h⟩).pid).emit
              (.reaped i ⟨k, h⟩ (s.slot ⟨k, h⟩).pid (s.slot ⟨k, h⟩).xstate))
        else some (s.goto i (.waitScan addr (k + 1) true))
      else some (s.goto i (.waitScan addr (k + 1) havekids))
    else if havekids = false ∨ (s.slot i).killed = true then
      some ((s.setHeld .wait none).leave i (-1))
    else some (s.goto i (.sleep (.proc i) .wait (.waitScan addr 0 false)))
  | .killScan pid k =>
    if h : k < NPROC then
      if (s.slot ⟨k, h⟩).pid = pid then some ((s.setSlot ⟨k, h⟩ Slot.kill).leave i 0)
      else some (s.goto i (.killScan pid (k + 1)))
    else some (s.leave i (-1))
  | _ => none

/-- The next step of a call on the pipe (C `piperead`, `pipewrite`, `pipeclose`). -/
def runPipe (s : State) (i : Fin NPROC) (o : Outcome) : Option State :=
  match s.pc i with
  | .readWait n =>
    if s.pipe.Empty ∧ s.pipe.writeopen = true then
      if (s.slot i).killed = true then some ((s.setHeld .pipe none).leave i (-1))
      else some (s.goto i (.sleep .nread .pipe (.readWait n)))
    else some (s.goto i (.readCopy n 0))
  | .readCopy n k =>
    if (k : Int) < n ∧ ¬ s.pipe.Empty then
      let s' := { s with pipe := s.pipe.advance }
      if o.ok then some (s'.goto i (.readCopy n (k + 1)))
      else some (s'.goto i (.wakeup (some .nwrite) 0 (.readEnd n k true)))
    else some (s.goto i (.wakeup (some .nwrite) 0 (.readEnd n k false)))
  | .readEnd _ k _ => some ((s.setHeld .pipe none).leave i k)
  | .writeLoop n k _ =>
    if (k : Int) < n then
      if s.pipe.readopen = false ∨ (s.slot i).killed = true then
        some ((s.setHeld .pipe none).leave i (-1))
      else if s.pipe.Full then
        some (s.goto i (.wakeup (some .nread) 0 (.sleep .nwrite .pipe (.writeLoop n k false))))
      else if o.ok then
        some (({ s with pipe := s.pipe.put o.byte }).goto i (.writeLoop n (k + 1) true))
      else some (s.goto i (.wakeup (some .nread) 0 (.writeEnd k)))
    else some (s.goto i (.wakeup (some .nread) 0 (.writeEnd k)))
  | .writeEnd k => some ((s.setHeld .pipe none).leave i k)
  | .closeEnd writable =>
    some (({ s with pipe := s.pipe.close writable }).goto i
      (.wakeup (some (if writable then .nread else .nwrite)) 0 .closeDone))
  | .closeDone => some ((s.setHeld .pipe none).leave i 0)
  | _ => none

/-- The next step of `consoleread` or `sys_sleep`. -/
def runDevice (s : State) (i : Fin NPROC) (o : Outcome) : Option State :=
  match s.pc i with
  | .consLoop target n =>
    if n = 0 then some ((s.setHeld .cons none).leave i target)
    else if s.cons.r = s.cons.w then
      if (s.slot i).killed = true then some ((s.setHeld .cons none).leave i (-1))
      else some (s.goto i (.sleep .cons .cons (.consLoop target n)))
    else if s.cons.head = ctrlD then
      let s' := if n < target then s else { s with cons := s.cons.advance }
      some ((s'.setHeld .cons none).leave i (target - n))
    else
      let s' := { s with cons := s.cons.advance }
      if o.ok = false then some ((s'.setHeld .cons none).leave i (target - n))
      else if s.cons.head = newline then some ((s'.setHeld .cons none).leave i (target - (n - 1 : Nat)))
      else some (s'.goto i (.consLoop target (n - 1)))
  | .sleepStart n => some (s.goto i (.sleepLoop n s.ticks))
  | .sleepLoop n ticks0 =>
    if ((s.ticks + 2 ^ 32 - ticks0) % 2 ^ 32 : Int) < n % 2 ^ 32 then
      if (s.slot i).killed = true then some ((s.setHeld .ticks none).leave i (-1))
      else some (s.goto i (.sleep .ticks .ticks (.sleepLoop n ticks0)))
    else some ((s.setHeld .ticks none).leave i 0)
  | _ => none

/-- The next step of process `i` (C `acquire`, `wakeup`, `sleep`, and the calls above). -/
def run (s : State) (i : Fin NPROC) (o : Outcome) : Option State :=
  match s.pc i with
  | .acquire l next =>
    if s.held l = none then some ((s.setHeld l (some i)).goto i next) else none
  | .wakeup c k next =>
    if h : k < NPROC then
      if (⟨k, h⟩ : Fin NPROC) = i then some (s.goto i (.wakeup c (k + 1) next))
      else some ((s.setSlot ⟨k, h⟩ (Slot.wake c)).goto i (.wakeup c (k + 1) next))
    else some (s.goto i next)
  | .sleep c l next =>
    some (((s.setHeld l none).setSlot i (Slot.doze c)).goto i (.acquire l next))
  | .forkScan _ | .forkParent _ | .forkRun _ | .exitReparent _ _ | .exitZombie _ | .waitScan _ _ _
  | .killScan _ _ => s.runLife i o
  | .consLoop _ _ | .sleepStart _ | .sleepLoop _ _ => s.runDevice i o
  | .user | .dead => none
  | _ => s.runPipe i o

/-- The call may be made: the first process does not exit, and an end of the pipe is used only while
    it is open, and closed only when no process is using it. -/
def mayCall (s : State) (i : Fin NPROC) : Call → Bool
  | .exit _ => i ≠ initproc
  | .piperead _ => s.pipe.readopen
  | .pipewrite _ => s.pipe.writeopen
  | .pipeclose writable =>
    (if writable then s.pipe.writeopen else s.pipe.readopen) ∧ ∀ j, (s.pc j).uses writable = false
  | _ => true

/-- One step of the machine. -/
def step (s : State) : Action → Option State
  | .call i c =>
    if (s.slot i).state = .running ∧ s.pc i = .user ∧ s.mayCall i c then some (s.goto i c.start) else none
  | .run i o => if (s.slot i).state = .running then s.run i o else none
  | .sched i => if (s.slot i).state = .runnable then some (s.setSlot i Slot.resume) else none
  | .yield i =>
    if (s.slot i).state = .running ∧ (s.pc i).lock = none then
      some (s.setSlot i fun p => { p with state := .runnable })
    else none
  | .input ch => if s.held .cons = none then some { s with cons := s.cons.intr ch } else none
  | .tick => if s.held .ticks = none then some { s with ticks := (s.ticks + 1) % 2 ^ 32 } else none
  | .intr j c =>
    if c = .cons ∨ c = .ticks then some (s.setSlot j (Slot.wake (some c))) else none

end State

/-- The steps of `fork`, `exit`, `wait` and `kill`. -/
inductive LifeStep (s : State) (i : Fin NPROC) (o : Outcome) : State → Prop where
  | forkNext {j : Fin NPROC} :
    s.pc i = .forkScan j → (s.slot j).state ≠ .unused →
    LifeStep s i o (s.goto i (.forkScan (j + 1)))
  | forkNone {k} :
    s.pc i = .forkScan k → NPROC ≤ k →
    LifeStep s i o (s.leave i (-1))
  | forkFail {j : Fin NPROC} :
    s.pc i = .forkScan j → (s.slot j).state = .unused → o.ok = false →
    LifeStep s i o
      ((({ s with nextpid := Int.bmod (s.nextpid + 1) (2 ^ 32) }).setSlot j freeproc).leave i (-1))
  | forkBuild {j : Fin NPROC} :
    s.pc i = .forkScan j → (s.slot j).state = .unused → o.ok = true →
    LifeStep s i o
      ((({ s with nextpid := Int.bmod (s.nextpid + 1) (2 ^ 32) }).setSlot j (s.buildSlot i o)).goto i
        (.forkParent j))
  | forkParent {j} :
    s.pc i = .forkParent j → s.held .wait = none →
    LifeStep s i o ((s.setSlot j fun p => { p with parent := some i }).goto i (.forkRun j))
  | forkRun {j} :
    s.pc i = .forkRun j →
    LifeStep s i o
      ((({ s with pc := update s.pc j .user }).setSlot j fun p =>
        { p with state := .runnable }).leave i (s.slot j).pid)
  | reparent {st} {j : Fin NPROC} :
    s.pc i = .exitReparent st j → (s.slot j).parent = some i →
    LifeStep s i o ((s.setSlot j fun p => { p with parent := some initproc }).goto i
      (.wakeup (some (.proc initproc)) 0 (.exitReparent st (j + 1))))
  | reparentNext {st} {j : Fin NPROC} :
    s.pc i = .exitReparent st j → (s.slot j).parent ≠ some i →
    LifeStep s i o (s.goto i (.exitReparent st (j + 1)))
  | reparentDone {st k} :
    s.pc i = .exitReparent st k → NPROC ≤ k →
    LifeStep s i o (s.goto i (.wakeup ((s.slot i).parent.map .proc) 0 (.exitZombie st)))
  | zombie {st} :
    s.pc i = .exitZombie st →
    LifeStep s i o
      ((((s.setSlot i fun p => { p with xstate := st, state := .zombie }).setHeld .wait none).goto i
        .dead).emit (.exited i (s.slot i).pid st))
  | waitNext {addr have'} {j : Fin NPROC} :
    s.pc i = .waitScan addr j have' → (s.slot j).parent ≠ some i →
    LifeStep s i o (s.goto i (.waitScan addr (j + 1) have'))
  | waitLive {addr have'} {j : Fin NPROC} :
    s.pc i = .waitScan addr j have' → (s.slot j).parent = some i → (s.slot j).state ≠ .zombie →
    LifeStep s i o (s.goto i (.waitScan addr (j + 1) true))
  | waitFault {addr have'} {j : Fin NPROC} :
    s.pc i = .waitScan addr j have' → (s.slot j).parent = some i → (s.slot j).state = .zombie →
    addr ≠ 0 ∧ o.ok = false →
    LifeStep s i o ((s.setHeld .wait none).leave i (-1))
  | waitReap {addr have'} {j : Fin NPROC} :
    s.pc i = .waitScan addr j have' → (s.slot j).parent = some i → (s.slot j).state = .zombie →
    LifeStep s i o
      ((((s.setSlot j freeproc).setHeld .wait none).leave i (s.slot j).pid).emit
        (.reaped i j (s.slot j).pid (s.slot j).xstate))
  | waitNone {addr k have'} :
    s.pc i = .waitScan addr k have' → NPROC ≤ k → have' = false ∨ (s.slot i).killed = true →
    LifeStep s i o ((s.setHeld .wait none).leave i (-1))
  | waitSleep {addr k} :
    s.pc i = .waitScan addr k true → NPROC ≤ k → (s.slot i).killed = false →
    LifeStep s i o (s.goto i (.sleep (.proc i) .wait (.waitScan addr 0 false)))
  | killHit {pid} {j : Fin NPROC} :
    s.pc i = .killScan pid j → (s.slot j).pid = pid →
    LifeStep s i o ((s.setSlot j Slot.kill).leave i 0)
  | killNext {pid} {j : Fin NPROC} :
    s.pc i = .killScan pid j → (s.slot j).pid ≠ pid →
    LifeStep s i o (s.goto i (.killScan pid (j + 1)))
  | killNone {pid k} :
    s.pc i = .killScan pid k → NPROC ≤ k →
    LifeStep s i o (s.leave i (-1))

/-- The steps of `piperead`, `pipewrite` and `pipeclose`. -/
inductive PipeStep (s : State) (i : Fin NPROC) (o : Outcome) : State → Prop where
  | readKilled {n} :
    s.pc i = .readWait n → s.pipe.Empty → s.pipe.writeopen = true → (s.slot i).killed = true →
    PipeStep s i o ((s.setHeld .pipe none).leave i (-1))
  | readSleep {n} :
    s.pc i = .readWait n → s.pipe.Empty → s.pipe.writeopen = true → (s.slot i).killed = false →
    PipeStep s i o (s.goto i (.sleep .nread .pipe (.readWait n)))
  | readGo {n} :
    s.pc i = .readWait n → ¬ (s.pipe.Empty ∧ s.pipe.writeopen = true) →
    PipeStep s i o (s.goto i (.readCopy n 0))
  | readByte {n k} :
    s.pc i = .readCopy n k → (k : Int) < n → ¬ s.pipe.Empty → o.ok = true →
    PipeStep s i o (({ s with pipe := s.pipe.advance }).goto i (.readCopy n (k + 1)))
  | readFault {n k} :
    s.pc i = .readCopy n k → (k : Int) < n → ¬ s.pipe.Empty → o.ok = false →
    PipeStep s i o
      (({ s with pipe := s.pipe.advance }).goto i (.wakeup (some .nwrite) 0 (.readEnd n k true)))
  | readStop {n k} :
    s.pc i = .readCopy n k → ¬ ((k : Int) < n ∧ ¬ s.pipe.Empty) →
    PipeStep s i o (s.goto i (.wakeup (some .nwrite) 0 (.readEnd n k false)))
  | readEnd {n k f} :
    s.pc i = .readEnd n k f →
    PipeStep s i o ((s.setHeld .pipe none).leave i k)
  | writeStop {n k f} :
    s.pc i = .writeLoop n k f → (k : Int) < n → s.pipe.readopen = false ∨ (s.slot i).killed = true →
    PipeStep s i o ((s.setHeld .pipe none).leave i (-1))
  | writeFull {n k f} :
    s.pc i = .writeLoop n k f → (k : Int) < n → s.pipe.readopen = true → (s.slot i).killed = false →
    s.pipe.Full →
    PipeStep s i o
      (s.goto i (.wakeup (some .nread) 0 (.sleep .nwrite .pipe (.writeLoop n k false))))
  | writeByte {n k f} :
    s.pc i = .writeLoop n k f → (k : Int) < n → s.pipe.readopen = true → (s.slot i).killed = false →
    ¬ s.pipe.Full → o.ok = true →
    PipeStep s i o (({ s with pipe := s.pipe.put o.byte }).goto i (.writeLoop n (k + 1) true))
  | writeFault {n k f} :
    s.pc i = .writeLoop n k f → (k : Int) < n → ¬ s.pipe.Full → o.ok = false →
    PipeStep s i o (s.goto i (.wakeup (some .nread) 0 (.writeEnd k)))
  | writeDone {n k f} :
    s.pc i = .writeLoop n k f → ¬ (k : Int) < n →
    PipeStep s i o (s.goto i (.wakeup (some .nread) 0 (.writeEnd k)))
  | writeEnd {k} :
    s.pc i = .writeEnd k →
    PipeStep s i o ((s.setHeld .pipe none).leave i k)
  | closeEnd {w} :
    s.pc i = .closeEnd w →
    PipeStep s i o (({ s with pipe := s.pipe.close w }).goto i
      (.wakeup (some (if w then .nread else .nwrite)) 0 .closeDone))
  | closeDone :
    s.pc i = .closeDone →
    PipeStep s i o ((s.setHeld .pipe none).leave i 0)

/-- The steps of `consoleread` and `sys_sleep`. -/
inductive DeviceStep (s : State) (i : Fin NPROC) (o : Outcome) : State → Prop where
  | consLeave {target n c v} :
    s.pc i = .consLoop target n →
    DeviceStep s i o (({ s with cons := c }.setHeld .cons none).leave i v)
  | consSleep {target n} :
    s.pc i = .consLoop target n → (s.slot i).killed = false →
    DeviceStep s i o (s.goto i (.sleep .cons .cons (.consLoop target n)))
  | consByte {target n} :
    s.pc i = .consLoop target n →
    DeviceStep s i o (({ s with cons := s.cons.advance }).goto i (.consLoop target (n - 1)))
  | sleepStart {n} :
    s.pc i = .sleepStart n →
    DeviceStep s i o (s.goto i (.sleepLoop n s.ticks))
  | sleepSleep {n t} :
    s.pc i = .sleepLoop n t → (s.slot i).killed = false →
    DeviceStep s i o (s.goto i (.sleep .ticks .ticks (.sleepLoop n t)))
  | sleepLeave {n t v} :
    s.pc i = .sleepLoop n t →
    DeviceStep s i o ((s.setHeld .ticks none).leave i v)

inductive Step (s : State) : Action → State → Prop where
  | call {i c} :
    (s.slot i).state = .running → s.pc i = .user → s.mayCall i c = true →
    Step s (.call i c) (s.goto i c.start)
  | acquire {i o l next} :
    (s.slot i).state = .running → s.pc i = .acquire l next → s.held l = none →
    Step s (.run i o) ((s.setHeld l (some i)).goto i next)
  | wakeSelf {i o c next} :
    (s.slot i).state = .running → s.pc i = .wakeup c i next →
    Step s (.run i o) (s.goto i (.wakeup c (i + 1) next))
  | wake {i o c next} {j : Fin NPROC} :
    (s.slot i).state = .running → s.pc i = .wakeup c j next → j ≠ i →
    Step s (.run i o) ((s.setSlot j (Slot.wake c)).goto i (.wakeup c (j + 1) next))
  | wakeDone {i o c k next} :
    (s.slot i).state = .running → s.pc i = .wakeup c k next → NPROC ≤ k →
    Step s (.run i o) (s.goto i next)
  | sleep {i o c l next} :
    (s.slot i).state = .running → s.pc i = .sleep c l next →
    Step s (.run i o) (((s.setHeld l none).setSlot i (Slot.doze c)).goto i (.acquire l next))
  | life {i o s'} :
    (s.slot i).state = .running → LifeStep s i o s' → Step s (.run i o) s'
  | pipe {i o s'} :
    (s.slot i).state = .running → PipeStep s i o s' → Step s (.run i o) s'
  | device {i o s'} :
    (s.slot i).state = .running → DeviceStep s i o s' → Step s (.run i o) s'
  | sched {i} :
    (s.slot i).state = .runnable →
    Step s (.sched i) (s.setSlot i Slot.resume)
  | yield {i} :
    (s.slot i).state = .running → (s.pc i).lock = none →
    Step s (.yield i) (s.setSlot i fun p => { p with state := .runnable })
  | input {ch} :
    s.held .cons = none →
    Step s (.input ch) { s with cons := s.cons.intr ch }
  | tick :
    s.held .ticks = none →
    Step s .tick { s with ticks := (s.ticks + 1) % 2 ^ 32 }
  | intr {j c} :
    c = .cons ∨ c = .ticks →
    Step s (.intr j c) (s.setSlot j (Slot.wake (some c)))

namespace State
variable {s s' : State} {i : Fin NPROC} {o : Outcome}

lemma runLife_inv (h : s.runLife i o = some s') : LifeStep s i o s' := by
  unfold runLife at h
  split at h
  case h_1 k e =>
    split at h
    · rename_i hk
      split at h
      · dsimp only at h
        split at h
        · cases h
          exact .forkBuild (j := ⟨k, hk⟩) e ‹_› ‹_›
        · cases h
          exact .forkFail (j := ⟨k, hk⟩) e ‹_› (Bool.eq_false_iff.2 ‹_›)
      · cases h
        exact .forkNext (j := ⟨k, hk⟩) e ‹_›
    · cases h
      exact .forkNone e (by omega)
  case h_2 e =>
    split at h
    · cases h
      exact .forkParent e ‹_›
    · cases h
  case h_3 e =>
    cases h
    exact .forkRun e
  case h_4 k e =>
    split at h
    · rename_i hk
      split at h
      · cases h
        exact .reparent (j := ⟨k, hk⟩) e ‹_›
      · cases h
        exact .reparentNext (j := ⟨k, hk⟩) e ‹_›
    · cases h
      exact .reparentDone e (by omega)
  case h_5 e =>
    cases h
    exact .zombie e
  case h_6 k b e =>
    split at h
    · rename_i hk
      split at h
      · split at h
        · split at h
          · cases h
            exact .waitFault (j := ⟨k, hk⟩) e ‹_› ‹_› ‹_›
          · cases h
            exact .waitReap (j := ⟨k, hk⟩) e ‹_› ‹_›
        · cases h
          exact .waitLive (j := ⟨k, hk⟩) e ‹_› ‹_›
      · cases h
        exact .waitNext (j := ⟨k, hk⟩) e ‹_›
    · split at h
      · cases h
        exact .waitNone e (by omega) ‹_›
      · rename_i hn
        rw [not_or] at hn
        cases b with
        | false => exact absurd rfl hn.1
        | true =>
          cases h
          exact .waitSleep e (by omega) (by simpa using hn.2)
  case h_7 k e =>
    split at h
    · rename_i hk
      split at h
      · cases h
        exact .killHit (j := ⟨k, hk⟩) e ‹_›
      · cases h
        exact .killNext (j := ⟨k, hk⟩) e ‹_›
    · cases h
      exact .killNone e (by omega)
  case h_8 => cases h

lemma runPipe_inv (h : s.runPipe i o = some s') : PipeStep s i o s' := by
  unfold runPipe at h
  split at h
  case h_1 e =>
    split at h
    · rename_i hc
      split at h
      · cases h
        exact .readKilled e hc.1 hc.2 ‹_›
      · cases h
        exact .readSleep e hc.1 hc.2 (Bool.eq_false_iff.2 ‹_›)
    · cases h
      exact .readGo e ‹_›
  case h_2 e =>
    dsimp only at h
    split at h
    · rename_i hc
      split at h
      · cases h
        exact .readByte e hc.1 hc.2 ‹_›
      · cases h
        exact .readFault e hc.1 hc.2 (Bool.eq_false_iff.2 ‹_›)
    · cases h
      exact .readStop e ‹_›
  case h_3 e =>
    cases h
    exact .readEnd e
  case h_4 e =>
    split at h
    · split at h
      · cases h
        exact .writeStop e ‹_› ‹_›
      · rename_i hn
        rw [not_or, Bool.not_eq_false, Bool.not_eq_true] at hn
        split at h
        · cases h
          exact .writeFull e ‹_› hn.1 hn.2 ‹_›
        · split at h
          · cases h
            exact .writeByte e ‹_› hn.1 hn.2 ‹_› ‹_›
          · cases h
            exact .writeFault e ‹_› ‹_› (Bool.eq_false_iff.2 ‹_›)
    · cases h
      exact .writeDone e ‹_›
  case h_5 e =>
    cases h
    exact .writeEnd e
  case h_6 e =>
    cases h
    exact .closeEnd e
  case h_7 e =>
    cases h
    exact .closeDone e
  case h_8 => cases h

lemma runDevice_inv (h : s.runDevice i o = some s') : DeviceStep s i o s' := by
  unfold runDevice at h
  split at h
  case h_1 target n e =>
    dsimp only at h
    split at h
    · cases h
      exact .consLeave (c := s.cons) e
    · split at h
      · split at h
        · cases h
          exact .consLeave (c := s.cons) e
        · cases h
          exact .consSleep e (Bool.eq_false_iff.2 ‹_›)
      · split at h
        · cases h
          split
          · exact .consLeave (c := s.cons) e
          · exact .consLeave e
        · split at h
          · cases h
            exact .consLeave e
          · split at h
            · cases h
              exact .consLeave e
            · cases h
              exact .consByte e
  case h_2 e =>
    cases h
    exact .sleepStart e
  case h_3 e =>
    split at h
    · split at h
      · cases h
        exact .sleepLeave e
      · cases h
        exact .sleepSleep e (Bool.eq_false_iff.2 ‹_›)
    · cases h
      exact .sleepLeave e
  case h_4 => cases h

lemma step_inv {a : Action} (h : s.step a = some s') : Step s a s' := by
  cases a with
  | call i c =>
    rw [step] at h
    split at h
    · rename_i hc
      cases h
      exact .call hc.1 hc.2.1 hc.2.2
    · cases h
  | run i o =>
    rw [step] at h
    split at h
    · rename_i hr
      unfold run at h
      split at h
      case h_1 e =>
        split at h
        · cases h
          exact .acquire hr e ‹_›
        · cases h
      case h_2 c k next e =>
        split at h
        · rename_i hk
          split at h
          · rename_i hi
            cases h
            subst hi
            exact .wakeSelf hr e
          · cases h
            exact .wake (j := ⟨k, hk⟩) hr e ‹_›
        · cases h
          exact .wakeDone hr e (by omega)
      case h_3 e =>
        cases h
        exact .sleep hr e
      all_goals first
        | cases h
        | exact .life hr (runLife_inv h)
        | exact .device hr (runDevice_inv h)
        | exact .pipe hr (runPipe_inv h)
    · cases h
  | sched i =>
    rw [step] at h
    split at h
    · cases h
      exact .sched ‹_›
    · cases h
  | yield i =>
    rw [step] at h
    split at h
    · rename_i hc
      cases h
      exact .yield hc.1 hc.2
    · cases h
  | input ch =>
    rw [step] at h
    split at h
    · cases h
      exact .input ‹_›
    · cases h
  | tick =>
    rw [step] at h
    split at h
    · cases h
      exact .tick ‹_›
    · cases h
  | intr j c =>
    rw [step] at h
    split at h
    · cases h
      exact .intr ‹_›
    · cases h

end State

end Xv6n.Sched
