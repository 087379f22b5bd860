import Xv6n.Log.GroupInv

/-!
# Group commit: the theorems

`group_commit` collects what holds in every state of every interleaving: the blocks of one operation
are installed by one commit, no block is logged while a commit runs, the panics `log.committing` and
`log_write outside of trans` do not happen, `outstanding` counts the operations, and no process
sleeps in `begin_op` that would be admitted.

`log_space_iff` is about the space reservation: the panic `too big a transaction` is reached exactly
when some `log_write` is issued after the operations of the current group have logged `nlog - 1`
distinct blocks. The admission test of `begin_op` allows `LOGSIZE` of them, so with the log that
`mkfs` builds the reservation is one block short; `log_too_small` is a run that hits it.
-/

namespace Xv6n
open Lib

namespace Sys
variable {N : Nat} {s s' : Sys N}

lemma split_unique {α : Type*} {a : α} {u u' v v' : List α} (h : u ++ a :: v = u' ++ a :: v')
    (hu : a ∉ u) (hu' : a ∉ u') : u = u' ∧ v = v' := by
  induction u generalizing u' with
  | nil =>
    cases u' with
    | nil =>
      cases h
      exact ⟨rfl, rfl⟩
    | cons x u' =>
      cases h
      exact absurd (List.mem_cons_self ..) hu'
  | cons x u ih =>
    cases u' with
    | nil =>
      cases h
      exact absurd (List.mem_cons_self ..) hu
    | cons y u' =>
      rw [List.cons_append, List.cons_append, List.cons.injEq] at h
      obtain ⟨rfl, h⟩ := h
      rw [List.mem_cons, not_or] at hu hu'
      obtain ⟨rfl, rfl⟩ := ih h hu.2 hu'.2
      exact ⟨rfl, rfl⟩

/-- One operation of `p` in a trace: what came before it, happened during it and came after it. -/
structure Op (t : List (Label N)) (p : Fin N) (after during before : List (Label N)) : Prop where
  split : t = after ++ .ended p :: (during ++ .began p :: before)
  inner : ∀ l ∈ during, l ≠ .began p ∧ l ≠ .ended p

/-- What the trace says about running and completed operations. -/
structure Seg (s : Sys N) : Prop where
  running : ∀ p, s.pc p = .inOp → ∃ during before, s.trace = during ++ .began p :: before ∧
    (∀ l ∈ during, l ≠ .began p ∧ l ≠ .ended p) ∧ (∀ l ∈ during, l.isCommit = false) ∧
    ∀ c, .installed c ∉ since before
  done : ∀ p after during before, Op s.trace p after during before →
    (∀ l ∈ during, l.isCommit = false) ∧ (∀ c, .installed c ∉ since before) ∧
    ∀ b, .wrote p b ∈ during → ∀ later first, after = later ++ .committed :: first →
      .committed ∉ first → .installed b ∈ first

lemma Seg.init {start size} : Seg (init N start size) := by
  constructor
  · simp [Sys.init]
  · intro p after during before op
    have := op.split
    simp [Sys.init] at this

lemma Seg.silent (g : Seg s) (ht : s'.trace = s.trace)
    (hp : ∀ p, s'.pc p = .inOp → s.pc p = .inOp) : Seg s' := by
  constructor
  · intro p h
    rw [ht]
    exact g.running p (hp p h)
  · rw [ht]
    exact g.done

lemma Seg.label (g : Seg s) {l : Label N} (ht : s'.trace = l :: s.trace)
    (hrun : ∀ p, s'.pc p = .inOp →
      (l = .began p ∧ ∀ c, .installed c ∉ since s.trace) ∨
      (s.pc p = .inOp ∧ l ≠ .began p ∧ l ≠ .ended p ∧ l.isCommit = false))
    (hend : ∀ p, l = .ended p → s.pc p = .inOp)
    (hcom : l = .committed → ∀ q b, .wrote q b ∈ since s.trace → .installed b ∈ since s.trace) :
    Seg s' := by
  constructor
  · intro p hp
    obtain ⟨rfl, h⟩ | ⟨h, h1, h2, h3⟩ := hrun p hp
    · exact ⟨[], s.trace, ht, by simp, by simp, h⟩
    · obtain ⟨during, before, e, hi, hq, hb⟩ := g.running p h
      refine ⟨l :: during, before, by rw [ht, e, List.cons_append], ?_, ?_, hb⟩
      · intro x hx
        obtain rfl | hx := List.mem_cons.1 hx
        · exact ⟨h1, h2⟩
        · exact hi x hx
      · intro x hx
        obtain rfl | hx := List.mem_cons.1 hx
        · exact h3
        · exact hq x hx
  · intro p after during before op
    have hs := op.split
    rw [ht] at hs
    cases after with
    | nil =>
      -- the operation ends with this very step
      rw [List.nil_append, List.cons.injEq] at hs
      obtain ⟨rfl, hs⟩ := hs
      obtain ⟨d, b, e, hi, hq, hb⟩ := g.running p (hend p rfl)
      obtain ⟨rfl, rfl⟩ := split_unique (hs.symm.trans e)
        (fun h => (op.inner _ h).1 rfl) (fun h => (hi _ h).1 rfl)
      refine ⟨hq, hb, ?_⟩
      intro b _ later first h
      simp at h
    | cons x after =>
      rw [List.cons_append, List.cons.injEq] at hs
      obtain ⟨rfl, hs⟩ := hs
      obtain ⟨hq, hb, hc⟩ := g.done p after during before ⟨hs, op.inner⟩
      refine ⟨hq, hb, ?_⟩
      intro b hw later first h hf
      cases later with
      | cons y later =>
        rw [List.cons_append, List.cons.injEq] at h
        exact hc b hw later first h.2 hf
      | nil =>
        -- the first commit after the operation has just finished
        rw [List.nil_append, List.cons.injEq] at h
        obtain ⟨rfl, rfl⟩ := h
        have hd : .committed ∉ during := fun h => absurd (hq _ h) (by simp [Label.isCommit])
        have hsince : since s.trace = after ++ .ended p :: (during ++ .began p :: since before) := by
          rw [hs, since_append hf, since_cons (by nofun), since_append hd, since_cons (by nofun)]
        have hi := hcom rfl p b (by rw [hsince]; simp [hw])
        rw [hsince] at hi
        simp only [List.mem_append, List.mem_cons, reduceCtorEq, false_or] at hi
        obtain hi | hi | hi := hi
        · exact hi
        · exact absurd (hq _ hi) (by simp [Label.isCommit])
        · exact absurd hi (hb b)

/-- Every step keeps the facts about operations. -/
theorem Seg.step {a} (c : Ctl s) (r : Rec s) (g : Seg s) (st : Step s a s') :
    Seg s' := by
  have goto_inOp : ∀ {p x q}, x ≠ .inOp → (s.goto p x).pc q = .inOp → q ≠ p ∧ s.pc q = .inOp := by
    intro p x q hx hq
    obtain ⟨_, e⟩ | h := goto_pc_eq.1 hq
    · exact absurd e hx
    · exact h
  cases st with
  | enter _ | slept _ _ | kill _ | commitSome _ _ | commitNone _ _ | writeHead _ _ | headWritten _
  | installDone _ _ | erase _ => exact g.silent rfl fun q hq => (goto_inOp (by rintro ⟨⟩) hq).2
  | @began p e ha =>
    apply g.label rfl _ (by rintro _ ⟨⟩) (by rintro ⟨⟩)
    intro q hq
    obtain ⟨rfl, _⟩ | ⟨hne, h⟩ := goto_pc_eq.1 hq
    · exact .inl ⟨rfl, r.fresh ha.1⟩
    · exact .inr ⟨h, by simp [Ne.symm hne], by rintro ⟨⟩, rfl⟩
  | wrote _ _ _ _ =>
    apply g.label rfl _ (by rintro _ ⟨⟩) (by rintro ⟨⟩)
    intro q hq
    exact .inr ⟨hq, by rintro ⟨⟩, by rintro ⟨⟩, rfl⟩
  | writePanic _ _ | endPanic _ _ => exact g.silent rfl fun q hq => hq
  | @last p e hc _ =>
    apply g.label rfl _ _ (by rintro ⟨⟩)
    · intro q hq
      obtain ⟨hne, h⟩ := goto_inOp (by rintro ⟨⟩) hq
      exact .inr ⟨h, by rintro ⟨⟩, by simp [Ne.symm hne], rfl⟩
    · rintro q ⟨⟩
      exact e
  | @ended p e hc _ =>
    apply g.label rfl _ _ (by rintro ⟨⟩)
    · intro q hq
      obtain ⟨hne, h⟩ := goto_inOp (by rintro ⟨⟩) ((wakeup_pc_eq (by rintro ⟨⟩) (by rintro ⟨⟩)).1 hq)
      exact .inr ⟨h, by rintro ⟨⟩, by simp [Ne.symm hne], rfl⟩
    · rintro q ⟨⟩
      exact e
  | logged _ _ =>
    apply g.label rfl _ (by rintro _ ⟨⟩) (by rintro ⟨⟩)
    intro q hq
    exact .inr ⟨(goto_inOp (by rintro ⟨⟩) hq).2, by rintro ⟨⟩, by rintro ⟨⟩, rfl⟩
  | @installed p tail b e _ =>
    apply g.label rfl _ (by rintro _ ⟨⟩) (by rintro ⟨⟩)
    intro q hq
    have hc : s.log.committing = true := c.committing.2 ⟨p, by simp [e, Pc.commits]⟩
    exact absurd (goto_inOp (by rintro ⟨⟩) hq).2 (c.quiet hc q)
  | @finish p e =>
    apply g.label rfl _ (by rintro _ ⟨⟩)
    · intro _
      exact (r.finishing p e).2
    · intro q hq
      have hc : s.log.committing = true := c.committing.2 ⟨p, by simp [e, Pc.commits]⟩
      exact absurd (goto_inOp (by rintro ⟨⟩) ((wakeup_pc_eq (by rintro ⟨⟩) (by rintro ⟨⟩)).1 hq)).2
        (c.quiet hc q)

lemma run_inv {start size as} (h : exec step (init N start size) as = some s) :
    Ctl s ∧ Rec s ∧ Seg s := by
  apply exec_invariant (I := fun s => Ctl s ∧ Rec s ∧ Seg s) _ ⟨Ctl.init, Rec.init, Seg.init⟩ h
  intro s a s' ⟨c, r, g⟩ hs
  obtain ⟨_, st⟩ := step_inv hs
  exact ⟨c.step st, r.step c st, g.step c r st⟩

/-- Group commit (C `begin_op`, `end_op`, `commit`, `log_write`): in every state of every
    interleaving of any number of processes. -/
theorem group_commit {start size as} {s : Sys N} (h : exec step (init N start size) as = some s) :
    (∀ p after during before, Op s.trace p after during before →
      (∀ l ∈ during, l.isCommit = false) ∧
      ∀ b, .wrote p b ∈ during → ∀ later first, after = later ++ .committed :: first →
        .committed ∉ first → .installed b ∈ first) ∧
    (∀ p b s', s.step (.write p b) = some s' → s.log.committing = false) ∧
    s.panicked ≠ some .committing ∧ s.panicked ≠ some .outsideTrans ∧
    s.log.outstanding = (s.inOps.card : Int) ∧
    ∀ p, s.pc p = .asleep → ¬ s.log.admits := by
  obtain ⟨c, r, g⟩ := run_inv h
  refine ⟨?_, ?_, c.noPanic.1, c.noPanic.2, c.count, c.asleep⟩
  · intro p after during before op
    obtain ⟨h1, _, h3⟩ := g.done p after during before op
    exact ⟨h1, h3⟩
  · intro p b s' hs
    have hp : s.pc p = .inOp := by
      obtain ⟨_, st⟩ := step_inv hs
      cases st <;> assumption
    by_contra hc
    exact c.quiet (by simpa using hc) p hp

/-- Two operations that overlap: both write, both end, and one commit installs both blocks. -/
def overlapRun : List (Action 2) :=
  [.enter 0, .test 0, .enter 1, .test 1, .write 0 50, .write 1 51, .leave 0, .leave 1,
   .commit 1, .commit 1, .commit 1, .commit 1, .commit 1, .commit 1, .commit 1, .commit 1,
   .commit 1, .commit 1]

theorem group_commit_overlap :
    ∃ s, exec step (init 2 2 LOGSIZE) overlapRun = some s ∧
      s.trace = [.committed, .installed 51, .installed 50, .logged 4, .logged 3, .ended 1, .ended 0,
        .wrote 1 51, .wrote 0 50, .began 1, .began 0] ∧
      s.log.outstanding = (s.inOps.card : Int) ∧ ∀ p, s.pc p = .asleep → ¬ s.log.admits := by
  have h : ∃ s, exec step (init 2 2 LOGSIZE) overlapRun = some s ∧
      s.trace = [.committed, .installed 51, .installed 50, .logged 4, .logged 3, .ended 1, .ended 0,
        .wrote 1 51, .wrote 0 50, .began 1, .began 0] := ⟨_, rfl, rfl⟩
  obtain ⟨s, hs, ht⟩ := h
  exact ⟨s, hs, ht, (group_commit hs).2.2.2.2⟩

/-- The distinct blocks that the operations of the current group have logged so far. -/
def groupBlocks (s : Sys N) : Finset Nat :=
  ((since s.trace).filterMap fun
    | .wrote _ b => some b
    | _ => none).toFinset

lemma mem_groupBlocks {b} : b ∈ s.groupBlocks ↔ ∃ p, .wrote p b ∈ since s.trace := by
  simp only [groupBlocks, List.mem_toFinset, List.mem_filterMap]
  constructor
  · rintro ⟨l, hl, h⟩
    split at h
    · cases h
      exact ⟨_, hl⟩
    · cases h
  · rintro ⟨p, h⟩
    exact ⟨_, h, rfl⟩

lemma card_groupBlocks (c : Ctl s) (r : Rec s) {p} (hp : s.pc p = .inOp) :
    s.groupBlocks.card = s.log.n := by
  have hc : s.log.committing = false := by
    by_contra h
    exact c.quiet (by simpa using h) p hp
  have hf : ∀ q, s.pc q ≠ .finish := by
    intro q hq
    have := c.not_commits hc q
    rw [hq] at this
    cases this
  have e : s.groupBlocks = s.log.block.toFinset := by
    ext b
    rw [mem_groupBlocks, List.mem_toFinset, r.recorded hf b]
  rw [e, List.toFinset_card_of_nodup r.nodup]
  rfl

lemma run_layout {start size as} (h : exec step (init N start size) as = some s) :
    s.log.start = start ∧ s.log.size = size := by
  apply exec_invariant (I := fun s => s.log.start = start ∧ s.log.size = size) _ ⟨rfl, rfl⟩ h
  intro s a s' hs h
  obtain ⟨_, st⟩ := step_inv h
  cases st <;> exact hs

lemma write_tooBig {p b} (c : Ctl s) (hs : s.log.size = LOGSIZE)
    (h : s.step (.write p b) = some s') :
    s'.panicked = some .tooBig ↔ LOGSIZE - 1 ≤ s.log.n := by
  obtain ⟨hn, st⟩ := step_inv h
  cases st with
  | wrote e h1 h2 _ =>
    rw [hs] at h2
    simp only [emit_panicked, hn, reduceCtorEq, false_iff]
    omega
  | @writePanic _ _ x e hx =>
    have := c.outstanding_pos e
    obtain ⟨rfl, hb⟩ | ⟨rfl, hb⟩ := Log.logWrite_error hx
    · rw [hs] at hb
      simp only [true_iff]
      omega
    · omega

/-- Log space (C `begin_op`, `log_write`, `write_log`; `nlog` of `mkfs`): the panic `too big a
    transaction` stays away, with all log blocks inside the log area, exactly when every `log_write`
    comes while its group has logged fewer than `LOGSIZE - 1` distinct blocks. -/
theorem log_space_iff {start as} {s : Sys N} (h : exec step (init N start LOGSIZE) as = some s) :
    (s.panicked ≠ some .tooBig ∧ ∀ k, .logged k ∈ s.trace → start < k ∧ k < start + LOGSIZE) ↔
      ∀ front p b back s1, as = front ++ .write p b :: back →
        exec step (init N start LOGSIZE) front = some s1 → s1.groupBlocks.card < LOGSIZE - 1 := by
  constructor
  · rintro ⟨hp, _⟩ front p b back s1 rfl h1
    obtain ⟨s1', h1', h2⟩ := exec_append.1 h
    cases h1.symm.trans h1'
    obtain ⟨s2, hw, h3⟩ := exec_cons.1 h2
    obtain ⟨c, r, _⟩ := run_inv h1
    have hin : s1.pc p = .inOp := by
      obtain ⟨_, st⟩ := step_inv hw
      cases st <;> assumption
    rw [card_groupBlocks c r hin]
    by_contra hn
    have ht := (write_tooBig c (run_layout h1).2 hw).2 (by omega)
    -- nothing runs after the panic, so the state it left is the last one
    cases back with
    | nil =>
      cases h3
      exact hp ht
    | cons a back =>
      obtain ⟨s3, hs3, _⟩ := exec_cons.1 h3
      obtain ⟨hnone, _⟩ := step_inv hs3
      rw [ht] at hnone
      cases hnone
  · intro hw
    refine ⟨?_, ?_⟩
    · intro hp
      obtain rfl | ⟨front, a, rfl⟩ := List.eq_nil_or_concat' as
      · cases h
        simp [init] at hp
      · obtain ⟨s1, h1, hs⟩ := exec_snoc.1 h
        obtain ⟨c, r, _⟩ := run_inv h1
        obtain ⟨hn, st⟩ := step_inv hs
        -- only a `log_write` can have set this panic
        have ha : ∃ p b, a = .write p b ∧ s1.pc p = .inOp := by
          cases st with
          | writePanic e _ => exact ⟨_, _, rfl, e⟩
          | endPanic _ _ => simp at hp
          | _ =>
            change s1.panicked = _ at hp
            rw [hn] at hp
            cases hp
        obtain ⟨p, b, rfl, hin⟩ := ha
        have hlt := hw front p b [] s1 rfl h1
        rw [card_groupBlocks c r hin] at hlt
        have := (write_tooBig c (run_layout h1).2 hs).1 hp
        omega
    · intro k hk
      obtain ⟨_, r, _⟩ := run_inv h
      have := r.area k hk
      rwa [(run_layout h).1, (run_layout h).2] at this

/-- The distinct blocks that `p` has asked to log since its last `end_op`. -/
def opBlocks (p : Fin N) (as : List (Action N)) : Finset Nat :=
  ((as.reverse.takeWhile (· ≠ .leave p)).filterMap fun
    | .write q b => if q = p then some b else none
    | _ => none).toFinset

/-- Every operation keeps to its reservation of `MAXOPBLOCKS` distinct blocks. -/
def Reserved (as : List (Action N)) : Prop :=
  ∀ p, ∀ front ∈ as.inits, (opBlocks p front).card ≤ MAXOPBLOCKS

instance (as : List (Action N)) : Decidable (Reserved as) :=
  inferInstanceAs (Decidable (∀ p, ∀ front ∈ as.inits, (opBlocks p front).card ≤ MAXOPBLOCKS))

def fullRun : List (Action 3) :=
  [.enter 0, .test 0, .enter 1, .test 1, .enter 2, .test 2] ++
  (List.range MAXOPBLOCKS).map (fun i => .write 0 (100 + i)) ++
  (List.range MAXOPBLOCKS).map (fun i => .write 1 (200 + i)) ++
  (List.range MAXOPBLOCKS).map (fun i => .write 2 (300 + i))

/-- With the log that `mkfs` builds, three full reservations do not fit. -/
theorem log_too_small :
    Reserved fullRun ∧
      ∃ s, exec step (init 3 2 LOGSIZE) fullRun = some s ∧ s.panicked = some .tooBig := by
  refine ⟨by decide +kernel, ?_⟩
  have h : (exec step (init 3 2 LOGSIZE) fullRun).map (·.panicked) = some (some .tooBig) := by
    decide +kernel
  exact Option.map_eq_some_iff.1 h

theorem log_space_overlap :
    ∃ s, exec step (init 2 2 LOGSIZE) overlapRun = some s ∧
      ((s.panicked ≠ some .tooBig ∧ ∀ k, .logged k ∈ s.trace → 2 < k ∧ k < 2 + LOGSIZE) ↔
        ∀ front p b back s1, overlapRun = front ++ .write p b :: back →
          exec step (init 2 2 LOGSIZE) front = some s1 → s1.groupBlocks.card < LOGSIZE - 1) := by
  have h : ∃ s, exec step (init 2 2 LOGSIZE) overlapRun = some s := ⟨_, rfl⟩
  obtain ⟨s, hs⟩ := h
  exact ⟨s, hs, log_space_iff hs⟩

end Sys

end Xv6n
