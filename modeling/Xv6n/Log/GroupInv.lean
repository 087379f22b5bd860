import Xv6n.Log.Group

/-!
# Invariants of group commit

`Ctl` says how the fields of the log follow the positions of the processes: `outstanding` counts the
operations, at most one process commits, nobody is inside an operation while it does, and nobody
sleeps in `begin_op` who would be admitted. `Rec` relates the logged blocks to the part of the trace
since the last commit (`since`). Both are shown to be preserved by every `Step`.
-/

namespace Xv6n
open Lib Function

namespace Sys
variable {N : Nat} {s : Sys N}

lemma wakeup_pc_eq {q x} (h1 : x ≠ .asleep) (h2 : x ≠ .beginOp) :
    s.wakeup.pc q = x ↔ s.pc q = x := by
  unfold wakeup
  simp only
  split
  · rename_i e
    rw [e]
    exact ⟨fun h => absurd h.symm h2, fun h => absurd h.symm h1⟩
  · rfl

lemma wakeup_not_asleep {q} : s.wakeup.pc q ≠ .asleep := by
  unfold wakeup
  simp only
  split
  · nofun
  · assumption

@[simp] lemma wakeup_commits {q} : (s.wakeup.pc q).commits = (s.pc q).commits := by
  unfold wakeup
  simp only
  split
  · rename_i e
    rw [e]
    rfl
  · rfl

/-- The processes between `begin_op` and `end_op`. -/
def inOps (s : Sys N) : Finset (Fin N) := Finset.univ.filter fun p => s.pc p = .inOp

@[simp] lemma mem_inOps {p} : p ∈ s.inOps ↔ s.pc p = .inOp := by
  simp [inOps]

lemma goto_pc_eq {p q x y} :
    (s.goto p x).pc q = y ↔ (q = p ∧ x = y) ∨ (q ≠ p ∧ s.pc q = y) := by
  by_cases h : q = p
  · subst h
    simp
  · simp [h]

lemma inOps_congr {s s' : Sys N} (h : ∀ q, s'.pc q = .inOp ↔ s.pc q = .inOp) :
    s'.inOps = s.inOps := by
  ext q
  simp [h]

lemma inOps_goto_none {p x} (h1 : s.pc p ≠ .inOp) (h2 : x ≠ .inOp) :
    (s.goto p x).inOps = s.inOps := by
  apply inOps_congr
  intro q
  rw [goto_pc_eq]
  constructor
  · rintro (⟨_, h⟩ | ⟨_, h⟩)
    · exact absurd h h2
    · exact h
  · intro h
    exact .inr ⟨fun e => h1 (e ▸ h), h⟩

lemma card_inOps_enter {p} (h : s.pc p ≠ .inOp) :
    (s.goto p .inOp).inOps.card = s.inOps.card + 1 := by
  have e : (s.goto p .inOp).inOps = insert p s.inOps := by
    ext q
    simp only [mem_inOps, goto_pc_eq, Finset.mem_insert]
    tauto
  rw [e, Finset.card_insert_of_notMem (by simpa using h)]

lemma card_inOps_leave {p x} (h : s.pc p = .inOp) (hx : x ≠ .inOp) :
    (s.goto p x).inOps.card + 1 = s.inOps.card := by
  have e : (s.goto p x).inOps = s.inOps.erase p := by
    ext q
    simp only [mem_inOps, goto_pc_eq, Finset.mem_erase]
    tauto
  rw [e, Finset.card_erase_add_one (by simpa using h)]

lemma inOps_wakeup : s.wakeup.inOps = s.inOps :=
  inOps_congr fun _ => wakeup_pc_eq nofun nofun

/-- How the log's counters follow the processes. -/
structure Ctl (s : Sys N) : Prop where
  count : s.log.outstanding = (s.inOps.card : Int)
  single : ∀ p q, (s.pc p).commits = true → (s.pc q).commits = true → p = q
  committing : s.log.committing = true ↔ ∃ p, (s.pc p).commits = true
  quiet : s.log.committing = true → ∀ p, s.pc p ≠ .inOp
  asleep : ∀ p, s.pc p = .asleep → ¬ s.log.admits
  noPanic : s.panicked ≠ some .committing ∧ s.panicked ≠ some .outsideTrans

lemma Ctl.init {start size} : Ctl (init N start size) := by
  constructor
  · simp [Sys.init, Log.initlog, inOps]
  · simp [Sys.init, Pc.commits]
  · simp [Sys.init, Pc.commits, Log.initlog]
  · simp [Sys.init]
  · simp [Sys.init]
  · simp [Sys.init]

lemma Ctl.outstanding_pos (c : Ctl s) {p} (h : s.pc p = .inOp) :
    1 ≤ s.log.outstanding := by
  have : 0 < s.inOps.card := Finset.card_pos.2 ⟨p, by simpa using h⟩
  rw [c.count]
  omega

lemma Ctl.only (c : Ctl s) {p q} (h1 : s.log.outstanding = 1) (hp : s.pc p = .inOp)
    (hq : s.pc q = .inOp) : q = p := by
  have h : s.inOps.card = 1 := by
    have := c.count
    omega
  obtain ⟨r, hr⟩ := Finset.card_eq_one.1 h
  have h1 : p ∈ s.inOps := by simpa using hp
  have h2 : q ∈ s.inOps := by simpa using hq
  rw [hr, Finset.mem_singleton] at h1 h2
  rw [h1, h2]

lemma Ctl.goto (c : Ctl s) {p x} (h1 : s.pc p ≠ .inOp) (h2 : x ≠ .inOp)
    (h3 : x.commits = (s.pc p).commits) (h4 : x = .asleep → ¬ s.log.admits) : Ctl (s.goto p x) := by
  have hc : ∀ q, ((s.goto p x).pc q).commits = (s.pc q).commits := by
    intro q
    by_cases e : q = p
    · subst e
      simpa using h3
    · simp [update_of_ne e]
  constructor
  · rw [inOps_goto_none h1 h2]
    exact c.count
  · intro q r hq hr
    rw [hc] at hq hr
    exact c.single q r hq hr
  · simp only [hc]
    exact c.committing
  · intro h q hq
    rw [goto_pc_eq] at hq
    obtain ⟨_, e⟩ | ⟨_, e⟩ := hq
    · exact h2 e
    · exact c.quiet h q e
  · intro q hq
    rw [goto_pc_eq] at hq
    obtain ⟨_, e⟩ | ⟨_, e⟩ := hq
    · exact h4 e
    · exact c.asleep q e
  · exact c.noPanic

lemma Ctl.emit (c : Ctl s) {l} : Ctl (s.emit l) :=
  ⟨c.count, c.single, c.committing, c.quiet, c.asleep, c.noPanic⟩

lemma Ctl.not_commits (c : Ctl s) (hc : s.log.committing = false) (q) :
    (s.pc q).commits = false := by
  by_contra h
  have := c.committing.2 ⟨q, by simpa using h⟩
  rw [hc] at this
  cases this

lemma Ctl.not_finish (c : Ctl s) {p} (h : (s.pc p).commits = true)
    (hp : s.pc p ≠ .finish) (q) : s.pc q ≠ .finish := by
  intro hq
  have := c.single q p (by simp [hq, Pc.commits]) h
  subst this
  exact hp hq

lemma goto_not_commits {p x} (hx : x.commits = false)
    (h : ∀ q, q ≠ p → (s.pc q).commits = false) (q) : ((s.goto p x).pc q).commits = false := by
  by_cases e : q = p
  · subst e
    simpa using hx
  · rw [goto_pc, update_of_ne e]
    exact h q e

lemma Ctl.of_open (hc : s.log.committing = false) (hn : ∀ q, (s.pc q).commits = false)
    (count : s.log.outstanding = (s.inOps.card : Int))
    (asleep : ∀ p, s.pc p = .asleep → ¬ s.log.admits)
    (noPanic : s.panicked ≠ some .committing ∧ s.panicked ≠ some .outsideTrans) : Ctl s := by
  refine ⟨count, ?_, ?_, ?_, asleep, noPanic⟩
  · intro q r hq
    rw [hn q] at hq
    cases hq
  · rw [hc]
    constructor
    · nofun
    · rintro ⟨q, hq⟩
      rw [hn q] at hq
      cases hq
  · intro h
    rw [hc] at h
    cases h

/-- Every step keeps the control invariant. -/
theorem Ctl.step {s s' : Sys N} {a} (c : Ctl s) (st : Step s a s') : Ctl s' := by
  cases st with
  | enter e | kill e | commitSome e _ | commitNone e _ | writeHead e _ | headWritten e | installDone e _ =>
    exact c.goto (by simp [e]) nofun (by simp [e, Pc.commits]) nofun
  | @began p e ha =>
    apply Ctl.emit
    apply Ctl.of_open
    · exact ha.1
    · exact goto_not_commits rfl fun q _ => c.not_commits ha.1 q
    · have := card_inOps_enter (s := s) (p := p) (by simp [e])
      have := c.count
      change s.log.outstanding + 1 = ((s.goto p .inOp).inOps.card : Int)
      omega
    · -- one more reservation admits nobody new
      intro q hq ha'
      rw [goto_pc_eq] at hq
      obtain ⟨_, e'⟩ | ⟨_, e'⟩ := hq
      · cases e'
      · apply c.asleep q e'
        obtain ⟨h1, h2⟩ := ha'
        refine ⟨ha.1, ?_⟩
        simp only [goto_log, Log.n, MAXOPBLOCKS] at h2 ⊢
        omega
    · exact c.noPanic
  | slept e ha => exact c.goto (by simp [e]) nofun (by simp [e, Pc.commits]) fun _ => ha
  | @wrote p b e h1 h2 h3 =>
    apply Ctl.emit
    refine ⟨c.count, c.single, c.committing, c.quiet, ?_, c.noPanic⟩
    intro q hq ha
    apply c.asleep q hq
    obtain ⟨hc, hn⟩ := ha
    refine ⟨hc, ?_⟩
    simp only [Log.n] at hn ⊢
    split at hn
    · exact hn
    · rw [List.length_append] at hn
      simp only [List.length_cons, List.length_nil] at hn
      omega
  | @writePanic p b x e h =>
    refine ⟨c.count, c.single, c.committing, c.quiet, c.asleep, ?_⟩
    have := c.outstanding_pos e
    obtain ⟨rfl, _⟩ | ⟨rfl, h⟩ := Log.logWrite_error h
    · simp
    · omega
  | @last p e hc ho =>
    apply Ctl.emit
    have hcm : ∀ q, ((s.goto p .commit).pc q).commits = true → q = p := by
      intro q hq
      by_contra h
      rw [goto_pc, update_of_ne h, c.not_commits hc q] at hq
      cases hq
    constructor
    · have := card_inOps_leave (s := s) (p := p) (x := .commit) e nofun
      have := c.count
      change (0 : Int) = ((s.goto p .commit).inOps.card : Int)
      omega
    · intro q r hq hr
      rw [hcm q hq, hcm r hr]
    · simp only [goto_log, true_iff]
      exact ⟨p, by simp [Pc.commits]⟩
    · intro _ q hq
      rw [goto_pc_eq] at hq
      obtain ⟨_, e'⟩ | ⟨h, e'⟩ := hq
      · cases e'
      · exact h (c.only ho e e')
    · intro q _ ha
      exact absurd ha.1 (by simp)
    · exact c.noPanic
  | @ended p e hc ho =>
    apply Ctl.emit
    apply Ctl.of_open
    · exact hc
    · intro q
      rw [wakeup_commits]
      exact goto_not_commits rfl (fun q _ => c.not_commits hc q) q
    · have := card_inOps_leave (s := s) (p := p) (x := .idle) e nofun
      have := c.count
      rw [inOps_wakeup]
      change s.log.outstanding - 1 = ((s.goto p .idle).inOps.card : Int)
      omega
    · intro q hq
      exact absurd hq wakeup_not_asleep
    · exact c.noPanic
  | endPanic e hc => exact absurd e (c.quiet hc _)
  | logged e _ | installed e _ =>
    apply Ctl.emit
    exact c.goto (by simp [e]) nofun (by simp [e, Pc.commits]) nofun
  | @erase p e =>
    have hc : s.log.committing = true := c.committing.2 ⟨p, by simp [e, Pc.commits]⟩
    have c' : Ctl { s with log := { s.log with block := [] } } := by
      refine ⟨c.count, c.single, c.committing, c.quiet, ?_, c.noPanic⟩
      intro q _ ha
      have := ha.1
      rw [hc] at this
      cases this
    exact c'.goto (by simp [e]) nofun (by simp [e, Pc.commits]) nofun
  | @finish p e =>
    apply Ctl.emit
    apply Ctl.of_open
    · rfl
    · intro q
      rw [wakeup_commits]
      apply goto_not_commits rfl _ q
      intro q h
      by_contra h'
      exact h (c.single q p (by simpa using h') (by simp [e, Pc.commits]))
    · rw [inOps_wakeup]
      change s.log.outstanding = ((s.goto p .idle).inOps.card : Int)
      have h : s.pc p ≠ .inOp := by simp [e]
      rw [inOps_goto_none h (x := .idle) nofun]
      exact c.count
    · intro q hq
      exact absurd hq wakeup_not_asleep
    · exact c.noPanic

def since (t : List (Label N)) : List (Label N) := t.takeWhile (· ≠ .committed)

@[simp] lemma since_nil : since ([] : List (Label N)) = [] := rfl

@[simp] lemma since_committed {t : List (Label N)} : since (.committed :: t) = [] := by
  simp [since]

lemma since_cons {l : Label N} {t} (h : l ≠ .committed) : since (l :: t) = l :: since t := by
  simp [since, h]

lemma since_append {u t : List (Label N)} (h : .committed ∉ u) : since (u ++ t) = u ++ since t := by
  induction u with
  | nil => rfl
  | cons l u ih =>
    simp only [List.mem_cons, not_or] at h
    rw [List.cons_append, since_cons (Ne.symm h.1), ih h.2, List.cons_append]

/-- How the logged blocks follow the trace. -/
structure Rec (s : Sys N) : Prop where
  nodup : s.log.block.Nodup
  le : s.log.n ≤ LOGSIZE ∧ s.log.n ≤ s.log.size - 1
  area : ∀ k, .logged k ∈ s.trace → s.log.start < k ∧ k < s.log.start + s.log.size
  recorded : (∀ p, s.pc p ≠ .finish) → ∀ b, b ∈ s.log.block ↔ ∃ p, .wrote p b ∈ since s.trace
  fresh : s.log.committing = false → ∀ b, .installed b ∉ since s.trace
  installing : ∀ p tail, s.pc p = .install tail →
    ∀ i b, i < tail → s.log.block[i]? = some b → .installed b ∈ since s.trace
  erasing : ∀ p, s.pc p = .erase → ∀ b ∈ s.log.block, .installed b ∈ since s.trace
  finishing : ∀ p, s.pc p = .finish →
    s.log.block = [] ∧ ∀ q b, .wrote q b ∈ since s.trace → .installed b ∈ since s.trace

lemma Rec.init {start size} : Rec (init N start size) := by
  constructor <;> simp [Sys.init, Log.initlog, Log.n]

lemma Rec.goto (r : Rec s) {p x} (h0 : s.pc p ≠ .finish)
    (h1 : ∀ tail, x = .install tail → tail = 0) (h2 : x ≠ .erase) (h3 : x ≠ .finish) :
    Rec (s.goto p x) := by
  refine ⟨r.nodup, r.le, r.area, ?_, r.fresh, ?_, ?_, ?_⟩
  · intro h
    apply r.recorded
    intro q hq
    by_cases e : q = p
    · exact h0 (e ▸ hq)
    · exact h q (goto_pc_eq.2 (.inr ⟨e, hq⟩))
  · intro q tail hq i b hi
    rw [goto_pc_eq] at hq
    obtain ⟨_, e⟩ | ⟨_, e⟩ := hq
    · have := h1 tail e
      omega
    · exact r.installing q tail e i b hi
  · intro q hq
    rw [goto_pc_eq] at hq
    obtain ⟨_, e⟩ | ⟨_, e⟩ := hq
    · exact absurd e h2
    · exact r.erasing q e
  · intro q hq
    rw [goto_pc_eq] at hq
    obtain ⟨_, e⟩ | ⟨_, e⟩ := hq
    · exact absurd e h3
    · exact r.finishing q e

lemma Rec.emit (r : Rec s) {l : Label N} (h1 : ∀ p b, l ≠ .wrote p b)
    (h2 : ∀ b, l ≠ .installed b) (h3 : l ≠ .committed)
    (h4 : ∀ k, l = .logged k → s.log.start < k ∧ k < s.log.start + s.log.size) : Rec (s.emit l) := by
  have hw : ∀ p b, .wrote p b ∈ since (l :: s.trace) ↔ .wrote p b ∈ since s.trace := by
    intro p b
    rw [since_cons h3, List.mem_cons]
    exact or_iff_right (Ne.symm (h1 p b))
  have hi : ∀ b, .installed b ∈ since (l :: s.trace) ↔ .installed b ∈ since s.trace := by
    intro b
    rw [since_cons h3, List.mem_cons]
    exact or_iff_right (Ne.symm (h2 b))
  refine ⟨r.nodup, r.le, ?_, ?_, ?_, ?_, ?_, ?_⟩
  · intro k hk
    obtain h | h := List.mem_cons.1 hk
    · exact h4 k h.symm
    · exact r.area k h
  · intro h b
    simp only [emit_trace, hw]
    exact r.recorded h b
  · intro h b
    rw [emit_trace, hi]
    exact r.fresh h b
  · intro p tail hp i b hlt hb
    rw [emit_trace, hi]
    exact r.installing p tail hp i b hlt hb
  · intro p hp b hb
    rw [emit_trace, hi]
    exact r.erasing p hp b hb
  · intro p hp
    obtain ⟨h, hf⟩ := r.finishing p hp
    refine ⟨h, ?_⟩
    intro q b
    rw [emit_trace, hi, hw]
    exact hf q b

lemma Rec.wakeup (r : Rec s) : Rec s.wakeup := by
  refine ⟨r.nodup, r.le, r.area, ?_, r.fresh, ?_, ?_, ?_⟩
  · intro h
    apply r.recorded
    intro p hp
    exact h p ((wakeup_pc_eq (by nofun) (by nofun)).2 hp)
  · intro p tail hp
    exact r.installing p tail ((wakeup_pc_eq (by nofun) (by nofun)).1 hp)
  · intro p hp
    exact r.erasing p ((wakeup_pc_eq (by nofun) (by nofun)).1 hp)
  · intro p hp
    exact r.finishing p ((wakeup_pc_eq (by nofun) (by nofun)).1 hp)

lemma Rec.setLog (r : Rec s) {o c} (h : c = false → s.log.committing = false) :
    Rec { s with log := { s.log with outstanding := o, committing := c } } :=
  ⟨r.nodup, r.le, r.area, r.recorded, fun e => r.fresh (h e), r.installing, r.erasing, r.finishing⟩

/-- Every step keeps the trace invariant. -/
theorem Rec.step {s s' : Sys N} {a} (c : Ctl s) (r : Rec s) (st : Step s a s') : Rec s' := by
  cases st with
  | enter e | slept e _ | kill e | commitSome e _ | writeHead e _ => exact r.goto (by simp [e]) nofun nofun nofun
  | began e ha =>
    apply Rec.emit _ (by nofun) (by nofun) (by nofun) (by nofun)
    apply Rec.goto _ (by simp [e]) (by nofun) (by nofun) (by nofun)
    exact r.setLog fun h => h
  | @wrote p b e h1 h2 h3 =>
    -- nobody commits while `p` is inside its operation
    have hc : s.log.committing = false := by
      by_contra h
      exact c.quiet (by simpa using h) p e
    have hn := c.not_commits hc
    refine ⟨?_, ?_, ?_, ?_, ?_, ?_, ?_, ?_⟩
    · simp only [emit_log]
      split
      · exact r.nodup
      · rename_i hb
        refine List.nodup_append.2 ⟨r.nodup, by simp, ?_⟩
        intro x hx y hy e'
        rw [List.mem_singleton] at hy
        exact hb (hy ▸ e' ▸ hx)
    · simp only [emit_log, Log.n] at h1 h2 ⊢
      split
      · exact r.le
      · simp only [List.length_append, List.length_cons, List.length_nil]
        omega
    · intro k hk
      obtain h | h := List.mem_cons.1 hk
      · cases h
      · exact r.area k h
    · intro h b'
      have hr := r.recorded h b'
      simp only [emit_log, emit_trace, since_cons (show Label.wrote p b ≠ .committed from nofun),
        List.mem_cons]
      have hm : b' ∈ (if b ∈ s.log.block then s.log.block else s.log.block ++ [b]) ↔
          b' = b ∨ b' ∈ s.log.block := by
        split
        · constructor
          · exact .inr
          · rintro (rfl | h)
            · assumption
            · exact h
        · simp [or_comm]
      rw [hm, hr]
      constructor
      · rintro (rfl | ⟨q, hq⟩)
        · exact ⟨p, .inl rfl⟩
        · exact ⟨q, .inr hq⟩
      · rintro ⟨q, hq | hq⟩
        · cases hq
          exact .inl rfl
        · exact .inr ⟨q, hq⟩
    · intro _ b' hb
      rw [emit_trace, since_cons (by nofun)] at hb
      obtain h | h := List.mem_cons.1 hb
      · cases h
      · exact r.fresh hc b' h
    · intro q tail hq
      have := hn q
      rw [show s.pc q = .install tail from hq] at this
      cases this
    · intro q hq
      have := hn q
      rw [show s.pc q = .erase from hq] at this
      cases this
    · intro q hq
      have := hn q
      rw [show s.pc q = .finish from hq] at this
      cases this
  | writePanic _ _ | endPanic _ _ =>
    exact ⟨r.nodup, r.le, r.area, r.recorded, r.fresh, r.installing, r.erasing, r.finishing⟩
  | last e hc _ =>
    apply Rec.emit _ (by nofun) (by nofun) (by nofun) (by nofun)
    apply Rec.goto _ (by simp [e]) (by nofun) (by nofun) (by nofun)
    exact r.setLog fun _ => hc
  | ended e hc _ =>
    apply Rec.emit _ (by nofun) (by nofun) (by nofun) (by nofun)
    apply Rec.wakeup
    apply Rec.goto _ (by simp [e]) (by nofun) (by nofun) (by nofun)
    exact r.setLog fun h => h
  | @commitNone p e hb =>
    have hf : ∀ q, s.pc q ≠ .finish :=
      c.not_finish (p := p) (by simp [e, Pc.commits]) (by simp [e])
    have hr := r.recorded hf
    refine ⟨r.nodup, r.le, r.area, ?_, r.fresh, ?_, ?_, ?_⟩
    · intro _
      exact hr
    · intro q tail hq
      rw [goto_pc_eq] at hq
      obtain ⟨_, e'⟩ | ⟨_, e'⟩ := hq
      · cases e'
      · exact r.installing q tail e'
    · intro q hq
      rw [goto_pc_eq] at hq
      obtain ⟨_, e'⟩ | ⟨_, e'⟩ := hq
      · cases e'
      · exact r.erasing q e'
    · intro q _
      refine ⟨hb, ?_⟩
      intro q b h
      have := (hr b).2 ⟨q, h⟩
      rw [hb] at this
      cases this
  | @logged p tail e h =>
    apply Rec.emit _ (by nofun) (by nofun) (by nofun)
    · rintro k ⟨⟩
      have := r.le
      simp only [goto_log]
      omega
    · exact r.goto (by simp [e]) nofun nofun nofun
  | headWritten e => exact r.goto (by simp [e]) (by simp) nofun nofun
  | @installed p tail b e hb =>
    have hc : s.log.committing = true := c.committing.2 ⟨p, by simp [e, Pc.commits]⟩
    have hp : ∀ q x, x.commits = true → (s.goto p (.install (tail + 1))).pc q = x →
        x = .install (tail + 1) := by
      intro q x hx hq
      rw [goto_pc_eq] at hq
      obtain ⟨_, e'⟩ | ⟨h, e'⟩ := hq
      · exact e'.symm
      · exact absurd (c.single q p (e' ▸ hx) (by simp [e, Pc.commits])) h
    have hs : since ((Label.installed b) :: s.trace) = .installed b :: since s.trace :=
      since_cons nofun
    refine ⟨r.nodup, r.le, ?_, ?_, ?_, ?_, ?_, ?_⟩
    · intro k hk
      obtain h | h := List.mem_cons.1 hk
      · cases h
      · exact r.area k h
    · intro hf b'
      have hf' : ∀ q, s.pc q ≠ .finish :=
        c.not_finish (p := p) (by simp [e, Pc.commits]) (by simp [e])
      rw [emit_trace, goto_trace, hs]
      simpa using r.recorded hf' b'
    · intro h
      rw [emit_log, goto_log, hc] at h
      cases h
    · intro q tail' hq i b' hi hb'
      cases hp q _ rfl hq
      rw [emit_trace, goto_trace, hs, List.mem_cons]
      obtain h | h := Nat.lt_succ_iff_lt_or_eq.1 hi
      · exact .inr (r.installing p tail e i b' h hb')
      · subst h
        left
        have : some b' = some b := hb'.symm.trans hb
        cases this
        rfl
    · intro q hq
      cases hp q _ rfl hq
    · intro q hq
      cases hp q _ rfl hq
  | @installDone p tail e h =>
    refine ⟨r.nodup, r.le, r.area, ?_, r.fresh, ?_, ?_, ?_⟩
    · intro hf
      apply r.recorded
      intro q hq
      by_cases hqp : q = p
      · subst hqp
        rw [e] at hq
        cases hq
      · exact hf q (goto_pc_eq.2 (.inr ⟨hqp, hq⟩))
    · intro q tail' hq
      rw [goto_pc_eq] at hq
      obtain ⟨_, e'⟩ | ⟨_, e'⟩ := hq
      · cases e'
      · exact r.installing q tail' e'
    · intro q hq b hb
      obtain ⟨i, hi, he⟩ := List.getElem_of_mem hb
      have hi' : i < s.log.block.length := hi
      exact r.installing p tail e i b (by unfold Log.n at h; omega)
        (List.getElem?_eq_some_iff.2 ⟨hi, he⟩)
    · intro q hq
      rw [goto_pc_eq] at hq
      obtain ⟨_, e'⟩ | ⟨_, e'⟩ := hq
      · cases e'
      · exact r.finishing q e'
  | @erase p e =>
    have hf : ∀ q, s.pc q ≠ .finish :=
      c.not_finish (p := p) (by simp [e, Pc.commits]) (by simp [e])
    have hr := r.recorded hf
    refine ⟨by simp, by simp [Log.n], r.area, ?_, r.fresh, ?_, ?_, ?_⟩
    · intro h
      exact absurd (by simp) (h p)
    · intro q tail _ i b _ hb
      simp at hb
    · intro q _ b hb
      simp at hb
    · intro q _
      refine ⟨rfl, ?_⟩
      intro q b hw
      exact r.erasing p e b ((hr b).2 ⟨q, hw⟩)
  | @finish p e =>
    have hb := (r.finishing p e).1
    have hn : ∀ q, ((s.goto p .idle).pc q).commits = false := by
      apply goto_not_commits rfl
      intro q h
      by_contra h'
      exact h (c.single q p (by simpa using h') (by simp [e, Pc.commits]))
    have hn' : ∀ q x, x.commits = true → (s.goto p .idle).wakeup.pc q ≠ x := by
      intro q x hx hq
      have := hn q
      rw [← wakeup_commits, hq, hx] at this
      cases this
    refine ⟨r.nodup, r.le, ?_, ?_, ?_, ?_, ?_, ?_⟩
    · intro k hk
      obtain h | h := List.mem_cons.1 hk
      · cases h
      · exact r.area k h
    · intro _ b
      simp [hb]
    · intro _ b
      simp
    · intro q tail hq
      exact absurd hq (hn' q _ rfl)
    · intro q hq
      exact absurd hq (hn' q _ rfl)
    · intro q hq
      exact absurd hq (hn' q _ rfl)

end Sys

end Xv6n
