import Mathlib.Data.Fintype.Card
import Xv6n.Lib.Exec
import Xv6n.Log.Basic

/-!
# Group commit

The log as `N` processes use it concurrently (`begin_op`, `log_write`, `end_op` and `commit` of
`kernel/log.c`). Every critical section of `log.lock` is one step; `commit` runs without the lock, so
every iteration of its loops is a step of its own and interleaves with the other processes. A process
that sleeps on `&log` may also be woken by `kill`, which is the step `kill`.

`Sys.trace` records, newest first, what has happened so far. It is never read by a step.
-/

namespace Xv6n
open Lib

/-- Where a process stands with respect to the log. -/
inductive Pc where
  | idle
  | beginOp
  | asleep
  | inOp
  | commit
  | writeLog (tail : Nat)
  | writeHead
  | install (tail : Nat)
  | erase
  | finish
deriving DecidableEq, Repr

/-- The process is between the two critical sections of an `end_op` that commits. -/
def Pc.commits : Pc → Bool
  | .commit | .writeLog _ | .writeHead | .install _ | .erase | .finish => true
  | _ => false

inductive Label (N : Nat) where
  | began (p : Fin N)
  | wrote (p : Fin N) (b : Nat)
  | ended (p : Fin N)
  | logged (k : Nat)
  | installed (b : Nat)
  | committed
deriving DecidableEq, Repr

def Label.isCommit {N : Nat} : Label N → Bool
  | .committed | .installed _ => true
  | _ => false

/-- The log, the processes, the panic that stopped the machine (if any) and the trace. -/
structure Sys (N : Nat) where
  log : Log
  pc : Fin N → Pc
  panicked : Option LogPanic
  trace : List (Label N)

inductive Action (N : Nat) where
  | enter (p : Fin N)
  | test (p : Fin N)
  | kill (p : Fin N)
  | write (p : Fin N) (b : Nat)
  | leave (p : Fin N)
  | commit (p : Fin N)
deriving DecidableEq, Repr

namespace Sys
variable {N : Nat}

/-- The system after `initlog` on an empty log, before any call. -/
def init (N start size : Nat) : Sys N :=
  { log := .initlog start size, pc := fun _ => .idle, panicked := none, trace := [] }

/-- Move process `p` to `x`. -/
@[simps -fullyApplied] def goto (s : Sys N) (p : Fin N) (x : Pc) : Sys N := { s with pc := Function.update s.pc p x }

@[simps -fullyApplied] def emit (s : Sys N) (l : Label N) : Sys N := { s with trace := l :: s.trace }

/-- Wake every process that sleeps on `&log`. -/
@[simps log trace] def wakeup (s : Sys N) : Sys N :=
  { s with pc := fun q => if s.pc q = .asleep then .beginOp else s.pc q }

/-- The next step of the `commit` that process `p` is running (C `commit`, `write_log`,
    `write_head`, `install_trans` and the second section of `end_op`). -/
def commitStep (s : Sys N) (p : Fin N) : Option (Sys N) :=
  match s.pc p with
  | .commit => some (if 0 < s.log.n then s.goto p (.writeLog 0) else s.goto p .finish)
  | .writeLog tail =>
    some (if tail < s.log.n then
      (s.goto p (.writeLog (tail + 1))).emit (.logged (s.log.start + tail + 1))
    else s.goto p .writeHead)
  | .writeHead => some (s.goto p (.install 0))
  | .install tail =>
    some (match s.log.block[tail]? with
      | some b => (s.goto p (.install (tail + 1))).emit (.installed b)
      | none => s.goto p .erase)
  | .erase => some ({ s with log := { s.log with block := [] } }.goto p .finish)
  | .finish => some (({ s with log := s.log.endCommit }.goto p .idle).wakeup.emit .committed)
  | _ => none

/-- One step of the system. After a panic nothing runs any more. -/
def step (s : Sys N) (a : Action N) : Option (Sys N) :=
  if s.panicked ≠ none then none else
  match a with
  | .enter p => if s.pc p = .idle then some (s.goto p .beginOp) else none
  | .test p =>
    if s.pc p = .beginOp then
      match s.log.beginOp with
      | some lg => some (({ s with log := lg }.goto p .inOp).emit (.began p))
      | none => some (s.goto p .asleep)
    else none
  | .kill p => if s.pc p = .asleep then some (s.goto p .beginOp) else none
  | .write p b =>
    if s.pc p = .inOp then
      match s.log.logWrite b with
      | .ok lg => some ({ s with log := lg }.emit (.wrote p b))
      | .error e => some { s with panicked := some e }
    else none
  | .leave p =>
    if s.pc p = .inOp then
      match s.log.endOp with
      | .ok (lg, true) => some (({ s with log := lg }.goto p .commit).emit (.ended p))
      | .ok (lg, false) => some (({ s with log := lg }.goto p .idle).wakeup.emit (.ended p))
      | .error e => some { s with panicked := some e }
    else none
  | .commit p => s.commitStep p

/-- Everything a step can do, one constructor per branch of the code. -/
inductive Step (s : Sys N) : Action N → Sys N → Prop where
  | enter {p} :
    s.pc p = .idle →
    Step s (.enter p) (s.goto p .beginOp)
  | began {p} :
    s.pc p = .beginOp → s.log.admits →
    Step s (.test p)
      (({ s with log := { s.log with outstanding := s.log.outstanding + 1 } }.goto p .inOp).emit
        (.began p))
  | slept {p} :
    s.pc p = .beginOp → ¬ s.log.admits →
    Step s (.test p) (s.goto p .asleep)
  | kill {p} :
    s.pc p = .asleep →
    Step s (.kill p) (s.goto p .beginOp)
  | wrote {p b} :
    s.pc p = .inOp → s.log.n < LOGSIZE → s.log.n < s.log.size - 1 → 1 ≤ s.log.outstanding →
    Step s (.write p b)
      ({ s with log := { s.log with
          block := if b ∈ s.log.block then s.log.block else s.log.block ++ [b] } }.emit (.wrote p b))
  | writePanic {p b e} :
    s.pc p = .inOp → s.log.logWrite b = .error e →
    Step s (.write p b) { s with panicked := some e }
  | last {p} :
    s.pc p = .inOp → s.log.committing = false → s.log.outstanding = 1 →
    Step s (.leave p)
      (({ s with log := { s.log with outstanding := 0, committing := true } }.goto p .commit).emit
        (.ended p))
  | ended {p} :
    s.pc p = .inOp → s.log.committing = false → s.log.outstanding ≠ 1 →
    Step s (.leave p)
      (({ s with log := { s.log with outstanding := s.log.outstanding - 1 } }.goto p .idle).wakeup.emit
        (.ended p))
  | endPanic {p} :
    s.pc p = .inOp → s.log.committing = true →
    Step s (.leave p) { s with panicked := some .committing }
  | commitSome {p} :
    s.pc p = .commit → 0 < s.log.n →
    Step s (.commit p) (s.goto p (.writeLog 0))
  | commitNone {p} :
    s.pc p = .commit → s.log.block = [] →
    Step s (.commit p) (s.goto p .finish)
  | logged {p tail} :
    s.pc p = .writeLog tail → tail < s.log.n →
    Step s (.commit p)
      ((s.goto p (.writeLog (tail + 1))).emit (.logged (s.log.start + tail + 1)))
  | writeHead {p tail} :
    s.pc p = .writeLog tail → s.log.n ≤ tail →
    Step s (.commit p) (s.goto p .writeHead)
  | headWritten {p} :
    s.pc p = .writeHead →
    Step s (.commit p) (s.goto p (.install 0))
  | installed {p tail b} :
    s.pc p = .install tail → s.log.block[tail]? = some b →
    Step s (.commit p) ((s.goto p (.install (tail + 1))).emit (.installed b))
  | installDone {p tail} :
    s.pc p = .install tail → s.log.n ≤ tail →
    Step s (.commit p) (s.goto p .erase)
  | erase {p} :
    s.pc p = .erase →
    Step s (.commit p) ({ s with log := { s.log with block := [] } }.goto p .finish)
  | finish {p} :
    s.pc p = .finish →
    Step s (.commit p)
      (({ s with log := { s.log with committing := false } }.goto p .idle).wakeup.emit .committed)

lemma commitStep_inv {s s' : Sys N} {p} (h : s.commitStep p = some s') : Step s (.commit p) s' := by
  unfold commitStep at h
  split at h
  case h_1 e =>
    split at h
    · cases h
      exact .commitSome e ‹_›
    · cases h
      exact .commitNone e (List.length_eq_zero_iff.1 (by unfold Log.n at *; omega))
  case h_2 e =>
    split at h
    · cases h
      exact .logged e ‹_›
    · cases h
      exact .writeHead e (by omega)
  case h_3 e =>
    cases h
    exact .headWritten e
  case h_4 e =>
    split at h
    · cases h
      exact .installed e ‹_›
    · rename_i hn
      cases h
      exact .installDone e (List.getElem?_eq_none_iff.1 hn)
  case h_5 e =>
    cases h
    exact .erase e
  case h_6 e =>
    cases h
    exact .finish e
  case h_7 => cases h

/-- Inversion of `step`: a step is taken only before a panic, and is one of `Step`. -/
lemma step_inv {s s' : Sys N} {a} (h : s.step a = some s') : s.panicked = none ∧ Step s a s' := by
  unfold step at h
  split at h
  · cases h
  · refine ⟨by simp_all, ?_⟩
    cases a with
    | enter p =>
      simp only at h
      split at h
      · cases h
        exact .enter ‹_›
      · cases h
    | test p =>
      simp only at h
      split at h
      · split at h
        · rename_i e
          obtain ⟨ha, rfl⟩ := Log.beginOp_eq_some.1 e
          cases h
          exact .began ‹_› ha
        · rename_i e
          cases h
          exact .slept ‹_› (Log.beginOp_eq_none.1 e)
      · cases h
    | kill p =>
      simp only at h
      split at h
      · cases h
        exact .kill ‹_›
      · cases h
    | write p b =>
      simp only at h
      split at h
      · split at h
        · rename_i e
          obtain ⟨h1, h2, h3, rfl⟩ := Log.logWrite_ok e
          cases h
          exact .wrote ‹_› h1 h2 h3
        · cases h
          exact .writePanic ‹_› ‹_›
      · cases h
    | leave p =>
      simp only at h
      split at h
      · split at h
        · rename_i e
          obtain ⟨hc, ⟨ho, _, rfl⟩ | ⟨_, hf, _⟩⟩ := Log.endOp_ok e
          · cases h
            exact .last ‹_› hc ho
          · cases hf
        · rename_i e
          obtain ⟨hc, ⟨_, hf, _⟩ | ⟨ho, _, rfl⟩⟩ := Log.endOp_ok e
          · cases hf
          · cases h
            exact .ended ‹_› hc ho
        · rename_i e
          obtain ⟨rfl, hc⟩ := Log.endOp_error e
          cases h
          exact .endPanic ‹_› hc
      · cases h
    | commit p => exact commitStep_inv h

end Sys

end Xv6n
