import Mathlib.Algebra.Order.BigOperators.Group.Finset
import Xv6n.Log.GroupCommit

/-!
# The log comes to rest

If no operation begins and the open ones do nothing but end, then the steps of `end_op` and `commit` come to an end, and
leave an empty log. So a process in `begin_op` does not wait for ever.
-/

namespace Xv6n
open Lib Function

/-- A bound on the steps up to the end of the commit, with `n` blocks in the log. -/
def Pc.left (n : Nat) : Pc → Nat
  | .inOp => 2 * n + 7
  | .commit => 2 * n + 6
  | .writeLog tail => n + 5 + (n - tail)
  | .writeHead => n + 4
  | .install tail => 3 + (n - tail)
  | .erase => 2
  | .finish => 1
  | _ => 0

/-- A step of `end_op` or `commit`. -/
def Action.drains {N : Nat} : Action N → Bool
  | .leave _ | .commit _ => true
  | _ => false

namespace Sys
variable {N : Nat} {s s' : Sys N} {p : Fin N} {a : Action N} {x : Pc}

def left (s : Sys N) : Nat := ∑ p, (s.pc p).left s.log.n

def Empty (s : Sys N) : Prop := s.log.committing = false → s.log.outstanding = 0 → s.log.block = []

lemma Empty.step (c : Ctl s) (r : Rec s) (h : Empty s) (st : Step s a s') : Empty s' := by
  intro hc ho
  cases st with
  | began =>
    change s.log.outstanding + 1 = 0 at ho
    have := c.count
    omega
  | wrote _ _ _ h1 =>
    change s.log.outstanding = 0 at ho
    omega
  | last => cases hc
  | ended _ _ h1 =>
    change s.log.outstanding - 1 = 0 at ho
    omega
  | erase => rfl
  | finish e => exact (r.finishing _ e).1
  | _ => exact h hc ho

lemma left_lt (hn : s'.log.n ≤ s.log.n) (hq : ∀ n q, (s'.pc q).left n = (update s.pc p x q).left n)
    (hx : x.left s'.log.n < (s.pc p).left s.log.n) : s'.left < s.left := by
  have hp : (s'.pc p).left s'.log.n < (s.pc p).left s.log.n := by rwa [hq, update_self]
  refine Finset.sum_lt_sum (fun q _ => ?_) ⟨p, Finset.mem_univ p, hp⟩
  by_cases e : q = p
  · exact e ▸ hp.le
  · rw [hq, update_of_ne e]
    cases s.pc q <;> simp only [Pc.left] <;> omega

lemma wakeup_left (n : Nat) (q : Fin N) : (s.wakeup.pc q).left n = (s.pc q).left n := by
  unfold wakeup
  dsimp only
  split
  · rename_i e
    rw [e]
    rfl
  · rfl

lemma Step.left_lt (c : Ctl s) (st : Step s a s') (ha : a.drains = true) :
    s'.panicked = s.panicked ∧ s'.left < s.left := by
  cases st with
  | enter | began | slept | kill | wrote | writePanic => cases ha
  | endPanic e hc => exact absurd e (c.quiet hc _)
  | @ended p e | @finish p e =>
    refine ⟨rfl, Sys.left_lt (p := p) (x := .idle) (Nat.le_refl _) wakeup_left ?_⟩
    rw [e]
    exact Nat.succ_pos _
  | @erase p e =>
    refine ⟨rfl, Sys.left_lt (p := p) (Nat.zero_le _) (fun _ _ => rfl) ?_⟩
    rw [e]
    exact Nat.lt_succ_self 1
  | @installed p tail b e hb =>
    have := (List.getElem?_eq_some_iff.1 hb).1
    refine ⟨rfl, Sys.left_lt (p := p) (Nat.le_refl _) (fun _ _ => rfl) ?_⟩
    simp only [e, Pc.left, emit_log, goto_log, Log.n]
    omega
  | @last p e | @commitSome p e | @commitNone p e | @logged p _ e | @writeHead p _ e | @headWritten p e
  | @installDone p _ e =>
    refine ⟨rfl, Sys.left_lt (p := p) (Nat.le_refl _) (fun _ _ => rfl) ?_⟩
    simp only [e, Pc.left, emit_log, goto_log, Log.n] at *
    omega

lemma exec_left {bs : List (Action N)} (c : Ctl s) (hp : s.panicked = none) (hb : ∀ b ∈ bs, b.drains = true)
    (hs : exec step s bs = some s') : bs.length ≤ s.left ∧ s'.panicked = none := by
  induction bs generalizing s with
  | nil =>
    cases hs
    exact ⟨Nat.zero_le _, hp⟩
  | cons b bs ih =>
    obtain ⟨hb, hbs⟩ := List.forall_mem_cons.1 hb
    obtain ⟨s1, h1, h2⟩ := exec_cons.1 hs
    obtain ⟨-, st⟩ := step_inv h1
    obtain ⟨hp1, hlt⟩ := st.left_lt c hb
    have := ih (c.step st) (hp1.trans hp) hbs h2
    exact ⟨Nat.succ_le_of_lt (this.1.trans_lt hlt), this.2⟩

/-- As long as there has been no panic, the steps of `end_op` and `commit` come to an end without one, and then no
    operation is open, the log is empty and nobody sleeps. -/
theorem log_drains {start size as} (h : exec step (init N start size) as = some s) (hp : s.panicked = none) :
    (∀ bs s', (∀ b ∈ bs, b.drains = true) → exec step s bs = some s' → bs.length ≤ s.left ∧ s'.panicked = none) ∧
    ((∀ b, b.drains = true → s.step b = none) → s.log.outstanding = 0 ∧ s.log.committing = false ∧
      s.log.block = [] ∧ ∀ p, s.pc p ≠ .asleep) := by
  obtain ⟨c, r, he⟩ : Ctl s ∧ Rec s ∧ Empty s := by
    refine exec_invariant (I := fun s => Ctl s ∧ Rec s ∧ Empty s) ?_ ⟨.init, .init, fun _ _ => rfl⟩ h
    rintro s a s' ⟨c, r, he⟩ hs
    obtain ⟨-, st⟩ := step_inv hs
    exact ⟨c.step st, r.step c st, he.step c r st⟩
  refine ⟨fun bs s' => exec_left c hp, fun hstuck => ?_⟩
  have hno : ∀ p, s.pc p ≠ .inOp := by
    intro p e
    have hst := hstuck (.leave p) rfl
    simp only [step, hp, e] at hst
    grind
  have hnc : ∀ p, (s.pc p).commits = false := by
    intro p
    have hst := hstuck (.commit p) rfl
    simp only [step, hp, commitStep] at hst
    cases e : s.pc p <;> simp_all [Pc.commits]
  have hout : s.log.outstanding = 0 := by
    rw [c.count, show s.inOps = ∅ from Finset.filter_false_of_mem fun p _ => hno p]
    rfl
  have hcom : s.log.committing = false := by
    rw [← Bool.not_eq_true, c.committing]
    rintro ⟨p, hc⟩
    rw [hnc p] at hc
    cases hc
  have hblock := he hcom hout
  refine ⟨hout, hcom, hblock, fun p e => c.asleep p e ⟨hcom, ?_⟩⟩
  rw [Log.n, hblock, hout]
  decide

/-- One operation that has logged a block. -/
theorem log_drains_one : ∃ s, exec step (init 1 2 LOGSIZE) [.enter 0, .test 0, .write 0 50] = some s ∧
    ∀ bs s', (∀ b ∈ bs, b.drains = true) → exec step s bs = some s' → bs.length ≤ 9 ∧ s'.panicked = none := by
  obtain ⟨s, hs, hp, hl⟩ : ∃ s, exec step (init 1 2 LOGSIZE) [.enter 0, .test 0, .write 0 50] = some s ∧
      s.panicked = none ∧ s.left = 9 := ⟨_, rfl, rfl, rfl⟩
  exact ⟨s, hs, hl ▸ (log_drains hs hp).1⟩

end Sys
end Xv6n
