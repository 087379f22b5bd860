import Xv6n.Lib.Exec

/-!
# Interrupts, nested locks and context switches

`push_off` and `pop_off` of `kernel/spinlock.c`, which `acquire` begins and `release` ends with, and the switches
of `sched` and `scheduler` of `kernel/proc.c`, for any number of CPUs and processes. A CPU executes its scheduler or
the thread of a process, and a step is one thing that the executed thread does.

`push_off` is two steps: it reads the interrupt flag, and turns it off. In between an interrupt may come, which
may call `yield`, and the thread goes on on another CPU. The rest of `push_off`, and `pop_off` up to its end, run with
interrupts off, on data of their own CPU. The handler of an interrupt runs on the stack of the thread that it
interrupts.

The `depth` and `start` of a thread are not part of the source: the number of `push_off`s that it has not undone, and
whether interrupts were on at the outermost one.
-/

namespace Xv6n.Intr
open Lib

/-- What a CPU has (C `struct cpu` and the interrupt enable bit of the hart). -/
structure Regs where
  noff : Int
  intena : Bool
  intr : Bool
deriving DecidableEq

/-- A kernel thread: the local `old` if it is inside `push_off`, the local `intena` if it has been switched to inside
    `sched`, and the same of what the interrupts on its stack have interrupted. -/
structure Thread where
  old : Option Bool
  back : Option Bool
  frames : List (Option Bool × Option Bool)
  depth : Nat
  start : Option Bool
deriving DecidableEq

/-- The panics of `pop_off`. -/
inductive Panic where
  | interruptible
  | popOff
deriving DecidableEq

/-- What a thread does on its CPU: the two halves of `push_off`, `pop_off`, `intr_on` and `intr_off`, the start and the
    end of an interrupt, and the end of `sched`. -/
inductive Op where
  | getIntr
  | pushOff
  | popOff
  | setIntr (on : Bool)
  | trap
  | sret
  | restore
deriving DecidableEq

/-- One step of a thread; `none` if the thread is not there. Calls are nested: a thread undoes only its own `push_off`s, and
    turns interrupts on or off, or returns from one, only when it has undone all of them. -/
def Op.run (r : Regs) (t : Thread) : Op → Option (Except Panic (Regs × Thread))
  | .getIntr => if t.old = none ∧ t.back = none then some (.ok (r, { t with old := some r.intr })) else none
  | .pushOff =>
    match t.old with
    | none => none
    | some old =>
      let intena := if r.noff = 0 then old else r.intena
      let start := if t.depth = 0 then some r.intr else t.start
      some (.ok (⟨r.noff + 1, intena, false⟩, { t with old := none, depth := t.depth + 1, start := start }))
  | .popOff =>
    if t.old = none ∧ t.back = none ∧ 0 < t.depth then
      if r.intr = true then some (.error .interruptible)
      else if r.noff < 1 then some (.error .popOff)
      else
        let intr := if r.noff - 1 = 0 ∧ r.intena = true then true else r.intr
        some (.ok (⟨r.noff - 1, r.intena, intr⟩, { t with depth := t.depth - 1 }))
    else none
  | .setIntr on =>
    if t.old = none ∧ t.back = none ∧ t.depth = 0 then some (.ok ({ r with intr := on }, t)) else none
  | .trap =>
    if r.intr = true then
      some (.ok ({ r with intr := false }, { t with old := none, back := none, frames := (t.old, t.back) :: t.frames }))
    else none
  | .sret =>
    match t.frames with
    | [] => none
    | (old, back) :: frames =>
      if t.old = none ∧ t.back = none ∧ t.depth = 0 then
        some (.ok ({ r with intr := true }, { t with old := old, back := back, frames := frames }))
      else none
  | .restore =>
    match t.back with
    | none => none
    | some intena => some (.ok ({ r with intena := intena }, { t with back := none }))

/-- The machine: what each CPU has, the process that it executes, its scheduler's thread, and the threads of the processes
    with whether they are switched out. -/
structure State (C P : Type) where
  regs : C → Regs
  ctx : C → Option P
  scheduler : C → Thread
  thread : P → Thread
  idle : P → Bool
  panic : Option Panic

/-- A step of the thread that a CPU executes, a switch from the scheduler to a process or back, or a new process. -/
inductive Action (C P : Type) where
  | op (c : C) (o : Op)
  | swtch (c : C) (p : P)
  | sched (c : C)
  | alloc (p : P)

/-- A thread before its first step, which is in `forkret` with its lock held. -/
def Thread.new : Thread := ⟨none, none, [], 1, none⟩

variable {C P : Type} [DecidableEq C] [DecidableEq P]

namespace State

def cur (s : State C P) (c : C) : Thread :=
  match s.ctx c with
  | none => s.scheduler c
  | some p => s.thread p

def put (s : State C P) (c : C) (r : Regs) (t : Thread) : State C P :=
  match s.ctx c with
  | none => { s with regs := Function.update s.regs c r, scheduler := Function.update s.scheduler c t }
  | some p => { s with regs := Function.update s.regs c r, thread := Function.update s.thread p t }

/-- One step of the machine. -/
def step (s : State C P) : Action C P → Option (State C P)
  | .op c o =>
    match o.run (s.regs c) (s.cur c) with
    | none => none
    | some (.error e) => some { s with panic := some e }
    | some (.ok (r, t)) => some (s.put c r t)
  | .swtch c p =>
    -- the scheduler does not save `intena`
    if s.ctx c = none ∧ (s.scheduler c).old = none ∧ (s.regs c).noff = 1 ∧ s.idle p = true then
      some { s with
        ctx := Function.update s.ctx c (some p)
        scheduler := Function.update s.scheduler c { s.scheduler c with start := none }
        idle := Function.update s.idle p false }
    else none
  | .sched c =>
    match s.ctx c with
    | none => none
    | some p =>
      if (s.thread p).old = none ∧ (s.thread p).back = none ∧ (s.regs c).noff = 1 then
        some { s with
          ctx := Function.update s.ctx c none
          thread := Function.update s.thread p { s.thread p with back := some (s.regs c).intena }
          idle := Function.update s.idle p true }
      else none
  | .alloc p => if s.idle p = true then some { s with thread := Function.update s.thread p .new } else none

def init (intena intr : C → Bool) : State C P where
  regs c := ⟨0, intena c, intr c⟩
  ctx _ := none
  scheduler _ := ⟨none, none, [], 0, none⟩
  thread _ := .new
  idle _ := true
  panic := none

end State

/-- What holds between a CPU and the thread that it executes. -/
structure Held (r : Regs) (t : Thread) : Prop where
  noff : r.noff = t.depth
  off : 0 < t.depth → r.intr = false
  old : ∀ b ∈ t.old, r.intr = b
  intena : t.back = none → 0 < t.depth → ∀ b ∈ t.start, r.intena = b
  back : ∀ b ∈ t.back, t.depth = 1 ∧ t.old = none ∧ ∀ b' ∈ t.start, b = b'
  frames : ∀ f ∈ t.frames, f.2 = none ∧ ∀ b ∈ f.1, b = true

structure Parked (t : Thread) : Prop where
  depth : t.depth = 1
  old : t.old = none
  start : ∀ b ∈ t.start, t.back = some b
  frames : ∀ f ∈ t.frames, f.2 = none ∧ ∀ b ∈ f.1, b = true

section
variable {r r' : Regs} {t t' : Thread} {o : Op}

lemma Held.back_none (h : Held r t) (hold : t.old ≠ none ∨ t.depth = 0) : t.back = none := by
  cases hb : t.back with
  | none => rfl
  | some b =>
    obtain ⟨hd, ho, -⟩ := h.back b hb
    rcases hold with hold | hold
    · exact absurd ho hold
    · omega

lemma Held.pushOff {b : Bool} (h : Held r t) (hold : t.old = some b) :
    Held ⟨r.noff + 1, if r.noff = 0 then b else r.intena, false⟩
      { t with old := none, depth := t.depth + 1, start := if t.depth = 0 then some r.intr else t.start } := by
  have hback : t.back = none := h.back_none (.inl (by rw [hold]; nofun))
  have hnoff := h.noff
  refine ⟨by dsimp only; omega, fun _ => rfl, nofun, fun _ _ b' hb' => ?_, ?_, h.frames⟩
  · dsimp only at hb' ⊢
    by_cases hd : t.depth = 0
    · -- the outermost one
      rw [if_pos hd] at hb'
      cases hb'
      rw [if_pos (by omega)]
      exact (h.old b hold).symm
    · rw [if_neg hd] at hb'
      rw [if_neg (by omega)]
      exact h.intena hback (Nat.pos_of_ne_zero hd) b' hb'
  · dsimp only
    rw [hback]
    nofun

lemma Held.popOff (h : Held r t) (hback : t.back = none) (hold : t.old = none) (hd : 0 < t.depth) :
    Held ⟨r.noff - 1, r.intena, if r.noff - 1 = 0 ∧ r.intena = true then true else r.intr⟩
      { t with depth := t.depth - 1 } := by
  have hnoff := h.noff
  refine ⟨by dsimp only; omega, fun hpos => ?_, ?_, fun _ _ => h.intena hback hd, ?_, h.frames⟩
  · dsimp only at hpos ⊢
    rw [if_neg (by omega)]
    exact h.off hd
  · dsimp only
    rw [hold]
    nofun
  · dsimp only
    rw [hback]
    nofun

lemma Held.trap (h : Held r t) (hintr : r.intr = true) :
    Held { r with intr := false } { t with old := none, back := none, frames := (t.old, t.back) :: t.frames } := by
  -- interrupts are on, so the thread has undone all of its `push_off`s
  have hd : t.depth = 0 := by
    by_contra hd
    exact Bool.false_ne_true ((h.off (Nat.pos_of_ne_zero hd)).symm.trans hintr)
  refine ⟨h.noff, fun _ => rfl, nofun, fun _ hpos => ?_, nofun, fun f hf => ?_⟩
  · dsimp only at hpos
    omega
  · rcases List.mem_cons.1 hf with rfl | hf
    · exact ⟨h.back_none (.inr hd), fun b hb => (h.old b hb).symm.trans hintr⟩
    · exact h.frames f hf

lemma Held.sret {old back : Option Bool} {frames} (h : Held r t) (hf : t.frames = (old, back) :: frames)
    (hd : t.depth = 0) : Held { r with intr := true } { t with old := old, back := back, frames := frames } := by
  obtain ⟨hback, hold⟩ := h.frames (old, back) (hf ▸ List.mem_cons_self)
  dsimp only at hback hold
  subst hback
  refine ⟨h.noff, fun hpos => ?_, fun b hb => (hold b hb).symm, fun _ hpos => ?_, nofun,
    fun f hf' => h.frames f (hf ▸ List.mem_cons_of_mem _ hf')⟩
  · dsimp only at hpos
    omega
  · dsimp only at hpos
    omega

lemma Held.restore {b : Bool} (h : Held r t) (hback : t.back = some b) :
    Held { r with intena := b } { t with back := none } := by
  obtain ⟨-, -, hstart⟩ := h.back b hback
  exact ⟨h.noff, h.off, h.old, fun _ _ => hstart, nofun, h.frames⟩

lemma Held.run {x} (h : Held r t) (hx : o.run r t = some x) : ∃ r' t', x = .ok (r', t') ∧ Held r' t' := by
  cases o with
  | getIntr =>
    rw [Op.run] at hx
    split at hx
    · rename_i hc
      cases hx
      refine ⟨_, _, rfl, h.noff, h.off, fun b hb => Option.some.inj hb, h.intena, ?_, h.frames⟩
      dsimp only
      rw [hc.2]
      nofun
    · cases hx
  | pushOff =>
    rw [Op.run] at hx
    split at hx
    · cases hx
    · cases hx
      exact ⟨_, _, rfl, h.pushOff ‹_›⟩
  | popOff =>
    rw [Op.run] at hx
    split at hx
    · rename_i hc
      rw [if_neg (by rw [h.off hc.2.2]; nofun), if_neg (by have := h.noff; omega)] at hx
      cases hx
      exact ⟨_, _, rfl, h.popOff hc.2.1 hc.1 hc.2.2⟩
    · cases hx
  | setIntr on =>
    rw [Op.run] at hx
    split at hx
    · rename_i hc
      cases hx
      refine ⟨_, _, rfl, h.noff, fun hpos => ?_, ?_, h.intena, h.back, h.frames⟩
      · omega
      · rw [hc.1]
        nofun
    · cases hx
  | trap =>
    rw [Op.run] at hx
    split at hx
    · cases hx
      exact ⟨_, _, rfl, h.trap ‹_›⟩
    · cases hx
  | sret =>
    rw [Op.run] at hx
    split at hx
    · cases hx
    · split at hx
      · rename_i hf hc
        cases hx
        exact ⟨_, _, rfl, h.sret hf hc.2.2⟩
      · cases hx
  | restore =>
    rw [Op.run] at hx
    split at hx
    · cases hx
    · cases hx
      exact ⟨_, _, rfl, h.restore ‹_›⟩

lemma Parked.held (h : Parked t) (hnoff : r.noff = 1) (hintr : r.intr = false) : Held r t := by
  refine ⟨by rw [hnoff, h.depth]; rfl, fun _ => hintr, ?_, fun hb _ b hs => ?_, fun b hb => ⟨h.depth, h.old, ?_⟩, h.frames⟩
  · rw [h.old]
    nofun
  · exact absurd ((h.start b hs).symm.trans hb) nofun
  · intro b' hs
    exact Option.some.inj (hb.symm.trans (h.start b' hs))

end

/-- The CPUs are in order, and the threads that they do not execute are switched out. -/
structure Ordered (s : State C P) : Prop where
  held : ∀ c, Held (s.regs c) (s.cur c)
  scheduler : ∀ c p, s.ctx c = some p → Parked (s.scheduler c)
  busy : ∀ c p, s.ctx c = some p → s.idle p = false
  once : ∀ c c' p, s.ctx c = some p → s.ctx c' = some p → c = c'
  parked : ∀ p, s.idle p = true → Parked (s.thread p)
  panic : s.panic = none

section
variable {s s' : State C P} {c c' : C} {p : P} {r : Regs} {t : Thread}

omit [DecidableEq P] [DecidableEq C] in
lemma cur_of_none (h : s.ctx c = none) : s.cur c = s.scheduler c := by
  rw [State.cur, h]

omit [DecidableEq P] [DecidableEq C] in
lemma cur_of_some (h : s.ctx c = some p) : s.cur c = s.thread p := by
  rw [State.cur, h]

lemma put_regs : (s.put c r t).regs = Function.update s.regs c r := by
  unfold State.put
  split <;> rfl

lemma put_ctx : (s.put c r t).ctx = s.ctx := by
  unfold State.put
  split <;> rfl

lemma put_idle : (s.put c r t).idle = s.idle := by
  unfold State.put
  split <;> rfl

lemma put_panic : (s.put c r t).panic = s.panic := by
  unfold State.put
  split <;> rfl

lemma put_cur_self : (s.put c r t).cur c = t := by
  cases hc : s.ctx c with
  | none =>
    rw [cur_of_none (by rw [put_ctx, hc]), State.put, hc]
    exact Function.update_self _ _ _
  | some p =>
    rw [cur_of_some (by rw [put_ctx, hc]), State.put, hc]
    exact Function.update_self _ _ _

lemma put_scheduler (hq : s.ctx c' = some p) : (s.put c r t).scheduler c' = s.scheduler c' := by
  unfold State.put
  split
  · rename_i hc
    refine Function.update_of_ne ?_ _ _
    rintro rfl
    cases hc.symm.trans hq
  · rfl

lemma put_thread (h : s.ctx c ≠ some p) : (s.put c r t).thread p = s.thread p := by
  unfold State.put
  split
  · rfl
  · rename_i q hc
    refine Function.update_of_ne ?_ _ _
    rintro rfl
    exact h hc

lemma Ordered.put_cur (h : Ordered s) (hcc : c' ≠ c) : (s.put c r t).cur c' = s.cur c' := by
  cases hc' : s.ctx c' with
  | none =>
    rw [cur_of_none (by rw [put_ctx, hc']), cur_of_none hc']
    unfold State.put
    split
    · exact Function.update_of_ne hcc _ _
    · rfl
  | some q =>
    rw [cur_of_some (by rw [put_ctx, hc']), cur_of_some hc']
    exact put_thread fun hc => hcc (h.once c' c q hc' hc)

lemma Ordered.put (h : Ordered s) (hrt : Held r t) : Ordered (s.put c r t) := by
  refine ⟨fun c' => ?_, fun c' q hq => ?_, ?_, ?_, fun q hq => ?_, ?_⟩
  · rw [put_regs]
    by_cases hcc : c' = c
    · subst hcc
      rw [put_cur_self, Function.update_self]
      exact hrt
    · rw [h.put_cur hcc, Function.update_of_ne hcc]
      exact h.held c'
  · rw [put_ctx] at hq
    rw [put_scheduler hq]
    exact h.scheduler c' q hq
  · rw [put_ctx, put_idle]
    exact h.busy
  · rw [put_ctx]
    exact h.once
  · rw [put_idle] at hq
    rw [put_thread fun hc => Bool.false_ne_true ((h.busy c q hc).symm.trans hq)]
    exact h.parked q hq
  · rw [put_panic, h.panic]

lemma Ordered.swtch (h : Ordered s) (hst : s.step (.swtch c p) = some s') : Ordered s' := by
  rw [State.step] at hst
  split at hst
  · rename_i hc
    obtain ⟨hctx, hold, hnoff, hidle⟩ := hc
    cases hst
    have hsch := h.held c
    rw [cur_of_none hctx] at hsch
    have hd : (s.scheduler c).depth = 1 := by
      have := hsch.noff
      omega
    have hp : ∀ c', s.ctx c' ≠ some p := fun c' hc' => Bool.false_ne_true ((h.busy c' p hc').symm.trans hidle)
    refine ⟨fun c' => ?_, fun c' q hq => ?_, fun c' q hq => ?_, fun c' c'' q hq hq' => ?_, fun q hq => ?_, h.panic⟩
    · unfold State.cur
      by_cases hcc : c' = c
      · subst hcc
        dsimp only
        rw [Function.update_self]
        exact (h.parked p hidle).held hnoff (hsch.off (by omega))
      · dsimp only
        rw [Function.update_of_ne hcc, Function.update_of_ne hcc]
        exact h.held c'
    · dsimp only at hq ⊢
      by_cases hcc : c' = c
      · subst hcc
        rw [Function.update_self]
        exact ⟨hd, hold, nofun, hsch.frames⟩
      · rw [Function.update_of_ne hcc] at hq ⊢
        exact h.scheduler c' q hq
    · dsimp only at hq ⊢
      by_cases hqp : q = p
      · rw [hqp, Function.update_self]
      · have hcc : c' ≠ c := by
          rintro rfl
          rw [Function.update_self, Option.some_inj] at hq
          exact hqp hq.symm
        rw [Function.update_of_ne hcc] at hq
        rw [Function.update_of_ne hqp]
        exact h.busy c' q hq
    · dsimp only at hq hq'
      rw [Function.update_apply] at hq hq'
      split at hq <;> split at hq'
      · rename_i h1 h2
        rw [h1, h2]
      · cases hq
        exact absurd hq' (hp c'')
      · cases hq'
        exact absurd hq (hp c')
      · exact h.once c' c'' q hq hq'
    · dsimp only at hq ⊢
      rw [Function.update_apply] at hq
      split at hq
      · cases hq
      · exact h.parked q hq
  · cases hst

lemma Ordered.sched (h : Ordered s) (hst : s.step (.sched c) = some s') : Ordered s' := by
  rw [State.step] at hst
  split at hst
  · cases hst
  · rename_i p hctx
    split at hst
    · rename_i hc
      obtain ⟨hold, hback, hnoff⟩ := hc
      cases hst
      have hpr := h.held c
      rw [cur_of_some hctx] at hpr
      have hd : (s.thread p).depth = 1 := by
        have := hpr.noff
        omega
      have hp : ∀ c' ≠ c, s.ctx c' ≠ some p := fun c' hcc hc' => hcc (h.once c' c p hc' hctx)
      refine ⟨fun c' => ?_, fun c' q hq => ?_, fun c' q hq => ?_, fun c' c'' q hq hq' => ?_, fun q hq => ?_, h.panic⟩
      · unfold State.cur
        dsimp only
        by_cases hcc : c' = c
        · subst hcc
          rw [Function.update_self]
          exact (h.scheduler c' p hctx).held hnoff (hpr.off (by omega))
        · have hheld := h.held c'
          rw [Function.update_of_ne hcc]
          unfold State.cur at hheld
          split
          · rename_i hn
            rwa [hn] at hheld
          · rename_i q hq
            rw [hq] at hheld
            rwa [Function.update_of_ne]
            rintro rfl
            exact hp c' hcc hq
      · dsimp only at hq ⊢
        rw [Function.update_apply] at hq
        split at hq
        · cases hq
        · exact h.scheduler c' q hq
      · dsimp only at hq ⊢
        rw [Function.update_apply] at hq
        split at hq
        · cases hq
        · rename_i hcc
          rw [Function.update_of_ne]
          · exact h.busy c' q hq
          · rintro rfl
            exact hp c' hcc hq
      · dsimp only at hq hq'
        rw [Function.update_apply] at hq hq'
        split at hq
        · cases hq
        · split at hq'
          · cases hq'
          · exact h.once c' c'' q hq hq'
      · dsimp only at hq ⊢
        by_cases hqp : q = p
        · subst hqp
          rw [Function.update_self]
          refine ⟨hd, hold, fun b hb => ?_, hpr.frames⟩
          dsimp only at hb ⊢
          rw [hpr.intena hback (by omega) b hb]
        · rw [Function.update_of_ne hqp] at hq ⊢
          exact h.parked q hq
    · cases hst

lemma Parked.new : Parked .new := ⟨rfl, rfl, nofun, nofun⟩

lemma Ordered.alloc (h : Ordered s) (hst : s.step (.alloc p) = some s') : Ordered s' := by
  rw [State.step] at hst
  split at hst
  · rename_i hidle
    cases hst
    refine ⟨fun c => ?_, h.scheduler, h.busy, h.once, fun q hq => ?_, h.panic⟩
    · have hheld := h.held c
      unfold State.cur at hheld ⊢
      dsimp only
      split
      · rename_i hn
        rwa [hn] at hheld
      · rename_i q hq
        rw [hq] at hheld
        rwa [Function.update_of_ne]
        rintro rfl
        exact Bool.false_ne_true ((h.busy c q hq).symm.trans hidle)
    · dsimp only at hq ⊢
      rw [Function.update_apply]
      split
      · exact .new
      · exact h.parked q hq
  · cases hst

lemma Ordered.op {o : Op} (h : Ordered s) (hst : s.step (.op c o) = some s') :
    ∃ r t, o.run (s.regs c) (s.cur c) = some (.ok (r, t)) ∧ s' = s.put c r t ∧ Ordered s' := by
  rw [State.step] at hst
  split at hst
  · cases hst
  · rename_i hx
    obtain ⟨r, t, he, -⟩ := (h.held c).run hx
    cases he
  · rename_i r t hx
    cases hst
    obtain ⟨r', t', he, hrt⟩ := (h.held c).run hx
    cases he
    exact ⟨r, t, hx, rfl, h.put hrt⟩

lemma Ordered.step {a : Action C P} (h : Ordered s) (hst : s.step a = some s') : Ordered s' := by
  cases a with
  | op c o =>
    obtain ⟨-, -, -, -, ho⟩ := h.op hst
    exact ho
  | swtch c p => exact h.swtch hst
  | sched c => exact h.sched hst
  | alloc p => exact h.alloc hst

omit [DecidableEq C] [DecidableEq P] in
lemma Ordered.init {intena intr : C → Bool} : Ordered (State.init intena intr : State C P) := by
  refine ⟨fun c => ⟨rfl, nofun, nofun, nofun, nofun, nofun⟩, nofun, nofun, nofun, fun p _ => .new, rfl⟩

lemma Held.popOff_outermost {b : Bool} {x} (h : Held r t) (hd : t.depth = 1) (hstart : t.start = some b)
    (hrun : Op.popOff.run r t = some x) : ∃ r' t', x = .ok (r', t') ∧ t'.depth = 0 ∧ r'.intr = b := by
  have hnoff := h.noff
  have hoff := h.off (by omega)
  rw [Op.run] at hrun
  split at hrun
  · rename_i hc
    have hintena := h.intena hc.2.1 hc.2.2 b hstart
    rw [if_neg (by rw [hoff]; nofun), if_neg (by omega)] at hrun
    cases hrun
    refine ⟨_, _, rfl, by dsimp only; omega, ?_⟩
    dsimp only
    rw [hintena, hoff]
    cases b <;> simp [hnoff, hd]
  · cases hrun

/-- In every run, interrupts are off on a CPU whose thread has `push_off`s to undo, `pop_off` does not panic, and when
a process undoes its outermost `push_off`, on whichever CPU, interrupts are on there if and only if they were on when
it made it. -/
theorem interrupts_preserved {intena intr : C → Bool} {as : List (Action C P)}
    (h : exec State.step (State.init intena intr) as = some s) :
    (∀ c, 0 < (s.cur c).depth → (s.regs c).intr = false) ∧ s.panic = none ∧
      ∀ c p b s', s.ctx c = some p → (s.thread p).depth = 1 → (s.thread p).start = some b →
        s.step (.op c .popOff) = some s' → (s'.thread p).depth = 0 ∧ (s'.regs c).intr = b := by
  have ho : Ordered s := exec_invariant (fun hI hst => hI.step hst) .init h
  refine ⟨fun c => (ho.held c).off, ho.panic, fun c p b s' hctx hd hstart hst => ?_⟩
  obtain ⟨r, t, hrun, rfl, -⟩ := ho.op hst
  have hheld := ho.held c
  rw [cur_of_some hctx] at hrun hheld
  obtain ⟨r', t', he, hd', hintr⟩ := hheld.popOff_outermost hd hstart hrun
  cases he
  have hcur : (s.put c r t).thread p = t := by
    rw [← cur_of_some (s := s.put c r t) (by rw [put_ctx, hctx]), put_cur_self]
  rw [hcur, put_regs, Function.update_self]
  exact ⟨hd', hintr⟩

end

/-- A process takes a lock with interrupts on, gives up CPU 0, and releases the lock on CPU 1, where they were off. -/
theorem interrupts_preserved_moved :
    ∃ s s' : State (Fin 2) (Fin 1), exec State.step (State.init (fun _ => false) (fun _ => true))
        [.op 0 .getIntr, .op 0 .pushOff, .swtch 0 0, .op 0 .popOff, .op 0 .getIntr, .op 0 .pushOff, .sched 0,
          .op 1 (.setIntr false), .op 1 .getIntr, .op 1 .pushOff, .swtch 1 0, .op 1 .restore] = some s ∧
      s.ctx 1 = some 0 ∧ (s.thread 0).depth = 1 ∧ (s.thread 0).start = some true ∧
      s.step (.op 1 .popOff) = some s' ∧ (s'.thread 0).depth = 0 ∧ (s'.regs 1).intr = true := by
  obtain ⟨s, h⟩ : ∃ s : State (Fin 2) (Fin 1), exec State.step (State.init (fun _ => false) (fun _ => true))
      [.op 0 .getIntr, .op 0 .pushOff, .swtch 0 0, .op 0 .popOff, .op 0 .getIntr, .op 0 .pushOff, .sched 0,
        .op 1 (.setIntr false), .op 1 .getIntr, .op 1 .pushOff, .swtch 1 0, .op 1 .restore] = some s := ⟨_, rfl⟩
  obtain ⟨hctx, hd, hstart, s', hst⟩ : s.ctx 1 = some 0 ∧ (s.thread 0).depth = 1 ∧ (s.thread 0).start = some true ∧
      ∃ s', s.step (.op 1 .popOff) = some s' := by
    cases h
    exact ⟨rfl, rfl, rfl, _, rfl⟩
  exact ⟨s, s', h, hctx, hd, hstart, hst, (interrupts_preserved h).2.2 1 0 true s' hctx hd hstart hst⟩

end Xv6n.Intr
