import Xv6n.Param

/-!
# The in-memory log

The fields of `struct log` (`kernel/log.c`) that admission, absorption and commit read, and the three
entry points of the log layer as functions on them. Each function is the body of one critical section
of `log.lock`: `beginOp` is one iteration of the loop of `begin_op`, `endOp` the first section of
`end_op`, `endCommit` the second one, and `logWrite` the whole of `log_write`.

The in-memory header `log.lh` is the list of the block numbers `lh.block[0 .. lh.n)`, so `lh.n` is the
length of the list.
-/

namespace Xv6n

/-- In-memory log state (C `struct log`); `block` is `lh.block[0 .. lh.n)`. -/
structure Log where
  start : Nat
  size : Nat
  outstanding : Int
  committing : Bool
  block : List Nat
deriving DecidableEq, Repr

inductive LogPanic where
  | tooBig
  | outsideTrans
  | committing
deriving DecidableEq, Repr

namespace Log

/-- Number of logged blocks (C `log.lh.n`). -/
def n (lg : Log) : Nat := lg.block.length

/-- The log after `initlog` on an empty on-disk log. -/
def initlog (start size : Nat) : Log :=
  { start := start, size := size, outstanding := 0, committing := false, block := [] }

/-- The admission test of `begin_op`: not committing, and the reservation fits. -/
def admits (lg : Log) : Prop :=
  lg.committing = false ∧ (lg.n : Int) + (lg.outstanding + 1) * MAXOPBLOCKS ≤ LOGSIZE

instance (lg : Log) : Decidable lg.admits := inferInstanceAs (Decidable (_ ∧ _))

/-- One iteration of the loop of `begin_op`; `none` is the branch that sleeps on `&log`
    (C `begin_op`). -/
def beginOp (lg : Log) : Option Log :=
  if lg.committing then
    none
  else if (lg.n : Int) + (lg.outstanding + 1) * MAXOPBLOCKS > LOGSIZE then
    none
  else
    some { lg with outstanding := lg.outstanding + 1 }

/-- First critical section of `end_op`; the flag is `do_commit` (C `end_op`). -/
def endOp (lg : Log) : Except LogPanic (Log × Bool) :=
  let lg := { lg with outstanding := lg.outstanding - 1 }
  if lg.committing then
    .error .committing
  else if lg.outstanding = 0 then
    .ok ({ lg with committing := true }, true)
  else
    .ok (lg, false)

/-- Second critical section of `end_op`, after `commit` has returned (C `end_op`). -/
def endCommit (lg : Log) : Log := { lg with committing := false }

/-- Record a modified block in the log header, absorbing repeated writes (C `log_write`). -/
def logWrite (lg : Log) (b : Nat) : Except LogPanic Log :=
  if LOGSIZE ≤ lg.n ∨ lg.size - 1 ≤ lg.n then
    .error .tooBig
  else if lg.outstanding < 1 then
    .error .outsideTrans
  else if b ∈ lg.block then
    .ok lg
  else
    .ok { lg with block := lg.block ++ [b] }

lemma beginOp_eq_some {lg lg' : Log} :
    lg.beginOp = some lg' ↔ lg.admits ∧ lg' = { lg with outstanding := lg.outstanding + 1 } := by
  unfold beginOp admits
  by_cases hc : lg.committing = true
  · simp [hc]
  · by_cases hn : (lg.n : Int) + (lg.outstanding + 1) * MAXOPBLOCKS > LOGSIZE
    · simp only [hc, hn, if_true, if_false, Bool.false_eq_true]
      constructor
      · nofun
      · rintro ⟨⟨_, h⟩, _⟩
        omega
    · simp only [hc, hn, if_false, Bool.false_eq_true, Option.some.injEq]
      constructor
      · rintro rfl
        exact ⟨⟨trivial, by omega⟩, rfl⟩
      · rintro ⟨_, rfl⟩
        rfl

lemma beginOp_eq_none {lg : Log} : lg.beginOp = none ↔ ¬ lg.admits := by
  rw [Option.eq_none_iff_forall_ne_some]
  constructor
  · intro h ha
    exact h _ (beginOp_eq_some.2 ⟨ha, rfl⟩)
  · intro h lg' e
    exact h (beginOp_eq_some.1 e).1

lemma logWrite_ok {lg lg' : Log} {b : Nat} (h : lg.logWrite b = .ok lg') :
    lg.n < LOGSIZE ∧ lg.n < lg.size - 1 ∧ 1 ≤ lg.outstanding ∧
      lg' = { lg with block := if b ∈ lg.block then lg.block else lg.block ++ [b] } := by
  unfold logWrite at h
  split at h
  · cases h
  · split at h
    · cases h
    · refine ⟨by omega, by omega, by omega, ?_⟩
      split at h
      · rename_i hb
        cases h
        rw [if_pos hb]
      · rename_i hb
        cases h
        rw [if_neg hb]

lemma logWrite_error {lg : Log} {b : Nat} {e : LogPanic} (h : lg.logWrite b = .error e) :
    (e = .tooBig ∧ (LOGSIZE ≤ lg.n ∨ lg.size - 1 ≤ lg.n)) ∨
      (e = .outsideTrans ∧ lg.outstanding < 1) := by
  unfold logWrite at h
  split at h
  · cases h
    exact .inl ⟨rfl, ‹_›⟩
  · split at h
    · cases h
      exact .inr ⟨rfl, ‹_›⟩
    · split at h <;> cases h

lemma endOp_ok {lg lg' : Log} {c : Bool} (h : lg.endOp = .ok (lg', c)) :
    lg.committing = false ∧
      ((lg.outstanding = 1 ∧ c = true ∧ lg' = { lg with outstanding := 0, committing := true }) ∨
       (lg.outstanding ≠ 1 ∧ c = false ∧ lg' = { lg with outstanding := lg.outstanding - 1 })) := by
  unfold endOp at h
  simp only at h
  split at h
  · cases h
  · rename_i hc
    split at h
    · cases h
      refine ⟨by simpa using hc, .inl ⟨by omega, rfl, ?_⟩⟩
      simp_all
    · cases h
      exact ⟨by simpa using hc, .inr ⟨by omega, rfl, rfl⟩⟩

lemma endOp_error {lg : Log} {e : LogPanic} (h : lg.endOp = .error e) :
    e = .committing ∧ lg.committing = true := by
  unfold endOp at h
  simp only at h
  split at h
  · cases h
    exact ⟨rfl, ‹_›⟩
  · split at h <;> cases h

end Log

end Xv6n
