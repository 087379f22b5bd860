import Xv6n.Bio.Cache
import Xv6n.Lib.Exec
import Xv6n.Lib.Refs

/-!
# Processes that share the buffer cache

Any number of processes call `bread`, `brelse`, `bpin` and `bunpin`. A call is cut where `bcache.lock` is
released: `bread` finds its buffer, takes the sleep-lock and reads the block, `brelse` releases the sleep-lock
and drops its reference. Between these steps other processes may do anything.

The main result is that the cache represents a map from blocks to buffers in every state that they reach.
-/

namespace Xv6n.Bio
open Lib Function

structure Key where
  dev : Nat
  blockno : Nat
deriving DecidableEq

inductive Panic where
  | noBuffers
  | brelse
deriving DecidableEq

/-- Where a process is: outside, in `bread` before or after it got the sleep-lock, or in `brelse` after it has
    released it. -/
inductive Pc where
  | idle
  | wait (b : BufId) (k : Key)
  | fill (b : BufId) (k : Key)
  | release (b : BufId)
deriving DecidableEq

/-- The machine. `held i b` is the block for which process `i` holds buffer `b`, and `pins b` the pins of `b`
    that have not been given up. -/
structure State (ι : Type) where
  cache : Cache ι
  disk : Key → Block
  pc : ι → Pc
  held : ι → BufId → Option Key
  pins : BufId → Nat
  panicked : Option Panic

/-- What process `i` does next. -/
inductive Move (ι : Type) where
  | bget (i : ι) (k : Key)
  | acquiresleep (i : ι)
  | read (i : ι)
  | brelse (i : ι) (b : BufId)
  | unref (i : ι)
  | bpin (i : ι) (b : BufId)
  | bunpin (i : ι) (b : BufId)

namespace State
variable {ι : Type} [DecidableEq ι]

/-- The machine after `binit`. -/
def start (next prev : Ptr → Ptr) (data : BufId → Block) (disk : Key → Block) : State ι where
  cache := .binit next prev data
  disk := disk
  pc := fun _ => .idle
  held := fun _ _ => none
  pins := fun _ => 0
  panicked := none

/-- Process `i` goes on at `x`. -/
@[simps -fullyApplied] def goto (s : State ι) (i : ι) (x : Pc) : State ι := { s with pc := update s.pc i x }

@[simps -fullyApplied] def setBuf (s : State ι) (b : BufId) (x : Buf ι) : State ι := { s with cache := s.cache.setBuf b x }

/-- What process `i` holds. -/
@[simps -fullyApplied] def setHeld (s : State ι) (i : ι) (b : BufId) (k : Option Key) : State ι :=
  { s with held := update s.held i (update (s.held i) b k) }

/-- Read the block if the buffer does not have it yet (the rest of C `bread`). -/
def fillBuf (s : State ι) (b : BufId) : Buf ι :=
  let x := s.cache.buf b
  if x.valid then x else { x with data := s.disk ⟨x.dev, x.blockno⟩, valid := true }

/-- One move. A process gives up only pins that there are. -/
def step (s : State ι) (m : Move ι) : Option (State ι) :=
  if s.panicked.isSome then none else
  match m with
  | .bget i k =>
    if s.pc i = .idle ∧ k.dev ≠ 0 then
      match s.cache.bget k.dev k.blockno with
      | some (b, c) => some ({ s with cache := c }.goto i (.wait b k))
      | none => some { s with panicked := some .noBuffers }
    else none
  | .acquiresleep i =>
    match s.pc i with
    | .wait b k =>
      if (s.cache.buf b).lock = none then
        some ((s.setBuf b { s.cache.buf b with lock := some i }).goto i (.fill b k))
      else none
    | _ => none
  | .read i =>
    match s.pc i with
    | .fill b k => some (((s.setBuf b (s.fillBuf b)).setHeld i b (some k)).goto i .idle)
    | _ => none
  | .brelse i b =>
    if s.pc i = .idle then
      if (s.cache.buf b).lock = some i then
        some (((s.setBuf b { s.cache.buf b with lock := none }).setHeld i b none).goto i (.release b))
      else some { s with panicked := some .brelse }
    else none
  | .unref i =>
    match s.pc i with
    | .release b => some ({ s with cache := s.cache.unref b }.goto i .idle)
    | _ => none
  | .bpin i b =>
    if s.pc i = .idle then
      some { s with cache := s.cache.bpin b, pins := update s.pins b (s.pins b + 1) }
    else none
  | .bunpin i b =>
    if s.pc i = .idle ∧ 0 < s.pins b then
      some { s with cache := s.cache.bunpin b, pins := update s.pins b (s.pins b - 1) }
    else none

end State

def Pc.uses (b : BufId) : Pc → Nat
  | .idle => 0
  | .wait b' _ | .fill b' _ | .release b' => if b' = b then 1 else 0

/-- How often process `i` uses buffer `b`: it waits for it, holds it or is just releasing it. -/
def State.uses {ι : Type} (s : State ι) (i : ι) (b : BufId) : Nat :=
  (s.pc i).uses b + if (s.held i b).isSome then 1 else 0

/-- Process `i` waits for or holds buffer `b`, for block `k`. -/
def State.Wants {ι : Type} (s : State ι) (i : ι) (b : BufId) (k : Key) : Prop :=
  s.pc i = .wait b k ∨ s.pc i = .fill b k ∨ s.held i b = some k

/-- Process `i` has the sleep-lock of buffer `b`. -/
def State.Has {ι : Type} (s : State ι) (i : ι) (b : BufId) : Prop :=
  (∃ k, s.pc i = .fill b k) ∨ (s.held i b).isSome

variable {ι : Type} [Fintype ι] [DecidableEq ι] {s s' : State ι} {i j : ι} {b b' : BufId} {k : Key} {m : Move ι}

structure Inv (s : State ι) : Prop where
  wf : s.cache.Wf
  count : ∀ b, (s.cache.buf b).refcnt = ∑ i, s.uses i b + s.pins b
  lock : ∀ i b, (s.cache.buf b).lock = some i ↔ s.Has i b
  apart : ∀ i b k, s.pc i = .fill b k → s.held i b = none
  wants : ∀ i b k, s.Wants i b k → (s.cache.buf b).Has k.dev k.blockno ∧ k.dev ≠ 0

/-- What a move can do to a buffer: nothing that matters to the block, or give it to another block if nobody
    uses it, or read its block from the disk. -/
inductive Buf.Turns {ι : Type} (disk : Key → Block) (x y : Buf ι) : Prop where
  | keep : y.Has x.dev x.blockno → y.valid = x.valid → y.data = x.data → Buf.Turns disk x y
  | recycle : x.refcnt = 0 → y.valid = false → Buf.Turns disk x y
  | fill : y.Has x.dev x.blockno → x.valid = false → y.valid = true → y.data = disk ⟨x.dev, x.blockno⟩ →
      Buf.Turns disk x y

/-- What a move can do to a cache that is well-formed. -/
inductive Step (s : State ι) : Move ι → State ι → Prop where
  | panic {m : Move ι} (p : Panic) : Step s m { s with panicked := some p }
  | bget {i : ι} {k : Key} {b : BufId} {x : Buf ι} : s.pc i = .idle → k.dev ≠ 0 → s.cache.Got k.dev k.blockno b x →
      Step s (.bget i k) ((s.setBuf b x).goto i (.wait b k))
  | acquiresleep {i : ι} {k : Key} {b : BufId} : s.pc i = .wait b k → (s.cache.buf b).lock = none →
      Step s (.acquiresleep i) ((s.setBuf b { s.cache.buf b with lock := some i }).goto i (.fill b k))
  | read {i : ι} {k : Key} {b : BufId} : s.pc i = .fill b k →
      Step s (.read i) (((s.setBuf b (s.fillBuf b)).setHeld i b (some k)).goto i .idle)
  | brelse {i : ι} {b : BufId} : s.pc i = .idle → (s.cache.buf b).lock = some i →
      Step s (.brelse i b)
        (((s.setBuf b { s.cache.buf b with lock := none }).setHeld i b none).goto i (.release b))
  | unref {i : ι} {b : BufId} : s.pc i = .release b →
      Step s (.unref i) ({ s with cache := s.cache.unref b }.goto i .idle)
  | bpin {i : ι} {b : BufId} : s.pc i = .idle →
      Step s (.bpin i b) { s with cache := s.cache.bpin b, pins := update s.pins b (s.pins b + 1) }
  | bunpin {i : ι} {b : BufId} : s.pc i = .idle → 0 < s.pins b →
      Step s (.bunpin i b) { s with cache := s.cache.bunpin b, pins := update s.pins b (s.pins b - 1) }

omit [Fintype ι] in
lemma step_inv (hw : s.cache.Wf) (h : s.step m = some s') : Step s m s' := by
  unfold State.step at h
  split at h
  · cases h
  cases m with
  | bget i k =>
    dsimp only at h
    split at h
    · rename_i hc
      split at h
      · rename_i b c hb
        cases h
        obtain ⟨x, hg, rfl⟩ := hw.bget hb
        exact .bget hc.1 hc.2 hg
      · cases h
        exact .panic _
    · cases h
  | acquiresleep i =>
    dsimp only at h
    split at h
    · rename_i b k hb
      split at h
      · rename_i hl
        cases h
        exact .acquiresleep hb hl
      · cases h
    · cases h
  | read i =>
    dsimp only at h
    split at h
    · rename_i b k hb
      cases h
      exact .read hb
    · cases h
  | brelse i b =>
    dsimp only at h
    split at h
    · rename_i hi
      split at h
      · rename_i hl
        cases h
        exact .brelse hi hl
      · cases h
        exact .panic _
    · cases h
  | unref i =>
    dsimp only at h
    split at h
    · rename_i b hb
      cases h
      exact .unref hb
    · cases h
  | bpin i b =>
    dsimp only at h
    split at h
    · cases h
      exact .bpin ‹_›
    · cases h
  | bunpin i b =>
    dsimp only at h
    split at h
    · rename_i hc
      cases h
      exact .bunpin hc.1 hc.2
    · cases h

omit [Fintype ι] in
lemma disk_step (h : Step s m s') : s'.disk = s.disk := by
  cases h <;> rfl

section step
variable (hi : Inv s)
include hi

lemma Inv.wf_step (h : Step s m s') : s'.cache.Wf := by
  cases h with
  | panic p => exact hi.wf
  | bget _ _ hg => exact hi.wf.got hg
  | acquiresleep | brelse | bpin | bunpin => exact hi.wf.setBuf ⟨rfl, rfl⟩
  | @read i k b =>
    refine hi.wf.setBuf ?_
    unfold State.fillBuf
    dsimp only
    split
    · exact ⟨rfl, rfl⟩
    · exact ⟨rfl, rfl⟩
  | unref => exact hi.wf.unref.1

lemma Inv.count_of (hj : ∀ j, j ≠ i → s'.uses j b = s.uses j b)
    (hr : (s'.cache.buf b).refcnt + s.uses i b + s.pins b =
      (s.cache.buf b).refcnt + s'.uses i b + s'.pins b) :
    (s'.cache.buf b).refcnt = ∑ j, s'.uses j b + s'.pins b := by
  have h1 := hi.count b
  have h2 := sum_change (f := fun j => s.uses j b) (g := fun j => s'.uses j b) hj
  omega

lemma Inv.refcnt_ge : s.uses i b + s.pins b ≤ (s.cache.buf b).refcnt := by
  rw [hi.count b]
  exact Nat.add_le_add_right (le_sum (f := fun j => s.uses j b)) _

omit [DecidableEq ι] in
lemma Inv.held_of_lock (hpc : s.pc i = .idle) (hl : (s.cache.buf b).lock = some i) :
    (s.held i b).isSome = true := by
  rcases (hi.lock i b).1 hl with ⟨k, hk⟩ | hh
  · rw [hpc] at hk
    cases hk
  · exact hh

lemma Inv.count_step (h : Step s m s') (b : BufId) :
    (s'.cache.buf b).refcnt = ∑ i, s'.uses i b + s'.pins b := by
  cases h with
  | panic p => exact hi.count b
  | @bget i k c x hpc hk hg =>
    refine hi.count_of (i := i) (fun j hj => ?_) ?_
    · simp [State.uses, hj]
    · by_cases e : b = c
      · subst e
        simp [State.uses, hpc, Pc.uses, hg.refcnt]
        omega
      · simp [State.uses, hpc, Pc.uses, e, Ne.symm e]
  | @acquiresleep i k c hpc hl =>
    refine hi.count_of (i := i) (fun j hj => ?_) ?_
    · simp [State.uses, hj]
    · by_cases e : b = c
      · subst e
        simp [State.uses, hpc, Pc.uses]
      · simp [State.uses, hpc, Pc.uses, e]
  | @read i k c hpc =>
    refine hi.count_of (i := i) (fun j hj => ?_) ?_
    · simp [State.uses, hj]
    · have hn := hi.apart i c k hpc
      have hf : (s.fillBuf c).refcnt = (s.cache.buf c).refcnt := by
        unfold State.fillBuf
        dsimp only
        split
        · rfl
        · rfl
      by_cases e : b = c
      · subst e
        simp [State.uses, hpc, Pc.uses, hn, hf]
      · simp [State.uses, hpc, Pc.uses, e, Ne.symm e]
  | @brelse i c hpc hl =>
    refine hi.count_of (i := i) (fun j hj => ?_) ?_
    · simp [State.uses, hj]
    · have hh := hi.held_of_lock hpc hl
      by_cases e : b = c
      · subst e
        simp [State.uses, hpc, Pc.uses, hh]
      · simp [State.uses, hpc, Pc.uses, e, Ne.symm e]
  | @unref i c hpc =>
    refine hi.count_of (i := i) (fun j hj => ?_) ?_
    · simp [State.uses, hj]
    · have hge := hi.refcnt_ge (i := i) (b := c)
      by_cases e : b = c
      · subst e
        simp [State.uses, hpc, Pc.uses, hi.wf.unref.2] at hge ⊢
        omega
      · simp [State.uses, hpc, Pc.uses, e, Ne.symm e, hi.wf.unref.2]
  | @bpin i c hpc =>
    have h1 := hi.count b
    by_cases e : b = c
    · subst e
      simp [State.uses, Cache.bpin] at h1 ⊢
      omega
    · simpa [State.uses, Cache.bpin, e] using h1
  | @bunpin i c hpc hp =>
    have h1 := hi.count b
    by_cases e : b = c
    · subst e
      simp [State.uses, Cache.bunpin] at h1 ⊢
      omega
    · simpa [State.uses, Cache.bunpin, e] using h1

lemma Inv.lock_step (h : Step s m s') (j : ι) (b : BufId) :
    (s'.cache.buf b).lock = some j ↔ s'.Has j b := by
  cases h with
  | panic p => exact hi.lock j b
  | @bget i k c x hpc hk hg =>
    have hlock : (update s.cache.buf c x b).lock = (s.cache.buf b).lock := by
      by_cases e : b = c
      · subst e
        rw [update_self, hg.lock]
      · rw [update_of_ne e]
    have hhas : ((s.setBuf c x).goto i (.wait c k)).Has j b ↔ s.Has j b := by
      by_cases e : j = i
      · subst e
        simp [State.Has, hpc]
      · simp [State.Has, e]
    rw [hhas]
    exact hlock ▸ hi.lock j b
  | @acquiresleep i k c hpc hl =>
    by_cases e : b = c
    · subst e
      by_cases ej : j = i
      · subst ej
        simp [State.Has]
      · have := hi.lock j b
        simp [State.Has, ej, Ne.symm ej, hl] at this ⊢
        exact this
    · have := hi.lock j b
      by_cases ej : j = i
      · subst ej
        simp [State.Has, e, Ne.symm e, hpc] at this ⊢
        exact this
      · simpa [State.Has, e, ej] using this
  | @read i k c hpc =>
    have hf : (s.fillBuf c).lock = (s.cache.buf c).lock := by
      unfold State.fillBuf
      dsimp only
      split
      · rfl
      · rfl
    have := hi.lock j b
    by_cases e : b = c
    · subst e
      by_cases ej : j = i
      · subst ej
        simp [State.Has, hf, hpc] at this ⊢
        exact this
      · simpa [State.Has, hf, ej] using this
    · by_cases ej : j = i
      · subst ej
        simp [State.Has, e, Ne.symm e, hpc] at this ⊢
        exact this
      · simpa [State.Has, e, ej] using this
  | @brelse i c hpc hl =>
    have := hi.lock j b
    by_cases e : b = c
    · subst e
      by_cases ej : j = i
      · subst ej
        simp [State.Has]
      · simp [State.Has, ej, hl, Ne.symm ej] at this ⊢
        exact this
    · by_cases ej : j = i
      · subst ej
        simp [State.Has, e, hpc] at this ⊢
        exact this
      · simpa [State.Has, e, ej] using this
  | @unref i c hpc =>
    have := hi.lock j b
    by_cases ej : j = i
    · subst ej
      by_cases e : b = c
      · subst e
        simpa [State.Has, hi.wf.unref.2, hpc] using this
      · simpa [State.Has, hi.wf.unref.2, hpc, e] using this
    · by_cases e : b = c
      · subst e
        simpa [State.Has, hi.wf.unref.2, ej] using this
      · simpa [State.Has, hi.wf.unref.2, ej, e] using this
  | @bpin i c hpc =>
    have := hi.lock j b
    by_cases e : b = c
    · subst e
      simpa [State.Has, Cache.bpin] using this
    · simpa [State.Has, Cache.bpin, e] using this
  | @bunpin i c hpc hp =>
    have := hi.lock j b
    by_cases e : b = c
    · subst e
      simpa [State.Has, Cache.bunpin] using this
    · simpa [State.Has, Cache.bunpin, e] using this

lemma Inv.apart_step (h : Step s m s') (j : ι) (b : BufId) (k : Key) (hk : s'.pc j = .fill b k) :
    s'.held j b = none := by
  cases h with
  | panic p | bpin | bunpin => exact hi.apart j b k hk
  | @bget i | @unref i =>
    by_cases ej : j = i
    · subst ej
      simp at hk
    · exact hi.apart j b k (by simpa [ej] using hk)
  | @acquiresleep i k' c hpc hl =>
    by_cases ej : j = i
    · subst ej
      simp only [State.goto_pc, update_self, Pc.fill.injEq] at hk
      obtain ⟨rfl, rfl⟩ := hk
      -- the lock was free, so nobody held the buffer
      cases hh : s.held j c with
      | none => exact hh
      | some k'' =>
        have hl' := (hi.lock j c).2 (.inr (by rw [hh]; rfl))
        rw [hl] at hl'
        cases hl'
    · exact hi.apart j b k (by simpa [ej] using hk)
  | @read i | @brelse i =>
    by_cases ej : j = i
    · subst ej
      simp at hk
    · have := hi.apart j b k (by simpa [ej] using hk)
      simpa [ej] using this

lemma Inv.buf_step (h : Step s m s') (b : BufId) : (s.cache.buf b).Turns s.disk (s'.cache.buf b) := by
  have hset : ∀ {c : BufId} {x : Buf ι}, (s.cache.buf c).Turns s.disk x →
      (s.cache.buf b).Turns s.disk (update s.cache.buf c x b) := by
    intro c x hx
    by_cases e : b = c
    · subst e
      rwa [update_self]
    · rw [update_of_ne e]
      exact .keep ⟨rfl, rfl⟩ rfl rfl
  cases h with
  | panic p => exact .keep ⟨rfl, rfl⟩ rfl rfl
  | @bget i k c x hpc hk hg =>
    refine hset (c := c) (x := x) ?_
    rcases hg.hit_or_miss with ⟨hh, hv⟩ | ⟨_, h0, hv⟩
    · exact .keep (by rw [hh.1, hh.2]; exact hg.has) hv hg.data
    · exact .recycle h0 hv
  | acquiresleep | brelse | bpin | bunpin => exact hset (.keep ⟨rfl, rfl⟩ rfl rfl)
  | @read i k c hpc =>
    refine hset ?_
    unfold State.fillBuf
    dsimp only
    split
    · exact .keep ⟨rfl, rfl⟩ rfl rfl
    · rename_i hv
      exact .fill ⟨rfl, rfl⟩ (by simpa using hv) rfl rfl
  | @unref i c hpc =>
    show (s.cache.buf b).Turns s.disk ((s.cache.unref c).buf b)
    rw [hi.wf.unref.2]
    exact hset (.keep ⟨rfl, rfl⟩ rfl rfl)

lemma Inv.key_step (h : Step s m s') (hr : 0 < (s.cache.buf b).refcnt) :
    (s'.cache.buf b).Has (s.cache.buf b).dev (s.cache.buf b).blockno := by
  cases hi.buf_step h b with
  | keep hk => exact hk
  | recycle h0 => omega
  | fill hk => exact hk

lemma Inv.refcnt_pos (hw : s.Wants j b k) : 0 < (s.cache.buf b).refcnt := by
  have h1 : 0 < s.uses j b := by
    unfold State.uses
    rcases hw with h | h | h
    · simp [h, Pc.uses]
    · simp [h, Pc.uses]
    · simp [h]
  have h2 := hi.refcnt_ge (i := j) (b := b)
  omega

lemma Inv.wants_step (h : Step s m s') (j : ι) (b : BufId) (k : Key) (hw : s'.Wants j b k) :
    (s'.cache.buf b).Has k.dev k.blockno ∧ k.dev ≠ 0 := by
  -- who wanted the buffer before still has the right one
  have hold : s.Wants j b k → (s'.cache.buf b).Has k.dev k.blockno ∧ k.dev ≠ 0 := by
    intro h0
    obtain ⟨h1, h2⟩ := hi.wants j b k h0
    have h3 := hi.key_step h (hi.refcnt_pos h0)
    rw [h1.1, h1.2] at h3
    exact ⟨h3, h2⟩
  cases h with
  | panic p | bpin | bunpin => exact hold hw
  | @bget i k' c x hpc hk hg =>
    by_cases ej : j = i
    · subst ej
      rcases hw with hw | hw | hw
      · simp only [State.goto_pc, update_self, Pc.wait.injEq] at hw
        obtain ⟨rfl, rfl⟩ := hw
        refine ⟨?_, hk⟩
        show (update s.cache.buf c x c).Has _ _
        rw [update_self]
        exact hg.has
      · simp at hw
      · exact hold (.inr (.inr hw))
    · exact hold (by simpa [State.Wants, ej] using hw)
  | @acquiresleep i k' c hpc hl =>
    by_cases ej : j = i
    · subst ej
      rcases hw with hw | hw | hw
      · simp at hw
      · simp only [State.goto_pc, update_self, Pc.fill.injEq] at hw
        obtain ⟨rfl, rfl⟩ := hw
        exact hold (.inl hpc)
      · exact hold (.inr (.inr hw))
    · exact hold (by simpa [State.Wants, ej] using hw)
  | @read i k' c hpc =>
    by_cases ej : j = i
    · subst ej
      rcases hw with hw | hw | hw
      · simp at hw
      · simp at hw
      · by_cases e : b = c
        · subst e
          simp only [State.goto_held, State.setHeld_held, update_self, Option.some.injEq] at hw
          subst hw
          exact hold (.inr (.inl hpc))
        · exact hold (.inr (.inr (by simpa [e] using hw)))
    · exact hold (by simpa [State.Wants, ej] using hw)
  | @brelse i c hpc hl =>
    by_cases ej : j = i
    · subst ej
      rcases hw with hw | hw | hw
      · simp at hw
      · simp at hw
      · by_cases e : b = c
        · subst e
          simp at hw
        · exact hold (.inr (.inr (by simpa [e] using hw)))
    · exact hold (by simpa [State.Wants, ej] using hw)
  | @unref i c hpc =>
    by_cases ej : j = i
    · subst ej
      rcases hw with hw | hw | hw
      · simp at hw
      · simp at hw
      · exact hold (.inr (.inr hw))
    · exact hold (by simpa [State.Wants, ej] using hw)

omit [DecidableEq ι] in
lemma Inv.setData (d : Block) : Inv (s.setBuf b { s.cache.buf b with data := d }) := by
  have hb : ∀ {α : Type} (f : Buf ι → α), f { s.cache.buf b with data := d } = f (s.cache.buf b) →
      ∀ c, f ((s.setBuf b { s.cache.buf b with data := d }).cache.buf c) = f (s.cache.buf c) := by
    intro α f hf c
    show f (update s.cache.buf b _ c) = _
    by_cases e : c = b
    · subst e
      rw [update_self, hf]
    · rw [update_of_ne e]
  refine ⟨hi.wf.setBuf ⟨rfl, rfl⟩, fun c => ?_, fun i c => ?_, hi.apart, fun i c k hw => ?_⟩
  · exact (hb Buf.refcnt rfl c).trans (hi.count c)
  · rw [hb Buf.lock rfl c]
    exact hi.lock i c
  · obtain ⟨h1, h2⟩ := hi.wants i c k hw
    exact ⟨⟨(hb Buf.dev rfl c).trans h1.1, (hb Buf.blockno rfl c).trans h1.2⟩, h2⟩

lemma Inv.step (h : Step s m s') : Inv s' where
  wf := hi.wf_step h
  count := hi.count_step h
  lock := hi.lock_step h
  apart := hi.apart_step h
  wants := hi.wants_step h

end step

omit [DecidableEq ι] in
lemma inv_start {next prev : Ptr → Ptr} {data : BufId → Block} {disk : Key → Block} :
    Inv (State.start next prev data disk : State ι) where
  wf := Cache.wf_binit
  count b := by
    have : (Cache.binit next prev data : Cache ι).buf = fun b => ⟨false, 0, 0, none, 0, data b⟩ := Cache.binit_buf
    simp [State.start, this, State.uses, Pc.uses]
  lock i b := by
    have : (Cache.binit next prev data : Cache ι).buf = fun b => ⟨false, 0, 0, none, 0, data b⟩ := Cache.binit_buf
    simp [State.start, this, State.Has]
  apart _ _ _ h := by cases h
  wants _ _ _ h := by rcases h with h | h | h <;> cases h

/-- What the cache represents: the links form one ring with every buffer in it once, no two buffers have the
    same block, the counts are those of the processes and pins, a buffer in use keeps its block whatever
    happens next, and processes that want the same block share its buffer and hold it one at a time. -/
structure Represents (s : State ι) : Prop where
  ring : ∃ l : List BufId, DRing s.cache.next s.cache.prev none (l.map some) ∧ l.Nodup ∧ ∀ b, b ∈ l
  unique : ∀ b b', (s.cache.buf b).dev ≠ 0 → (s.cache.buf b').Has (s.cache.buf b).dev (s.cache.buf b).blockno →
    b = b'
  refcnt : ∀ b, (s.cache.buf b).refcnt = ∑ i, s.uses i b + s.pins b
  keeps : ∀ m s', s.step m = some s' → ∀ b, 0 < (s.cache.buf b).refcnt →
    (s'.cache.buf b).Has (s.cache.buf b).dev (s.cache.buf b).blockno
  same : ∀ i j b b' k, s.Wants i b k → s.Wants j b' k → b = b'
  one : ∀ i j b, s.Has i b → s.Has j b → i = j

lemma Inv.represents (hi : Inv s) : Represents s where
  ring := by
    obtain ⟨l, hr, hl⟩ := hi.wf.ring
    exact ⟨l, hr, hr.nodup, hl⟩
  unique := hi.wf.unique
  refcnt := hi.count
  keeps _ _ h _ hr := hi.key_step (step_inv hi.wf h) hr
  same i j b b' k h1 h2 := by
    obtain ⟨hb, h0⟩ := hi.wants i b k h1
    obtain ⟨hb', _⟩ := hi.wants j b' k h2
    refine hi.wf.unique b b' (hb.1 ▸ h0) ?_
    rw [hb.1, hb.2]
    exact hb'
  one i j b h1 h2 := by
    have e1 := (hi.lock i b).2 h1
    have e2 := (hi.lock j b).2 h2
    exact Option.some.inj (e1.symm.trans e2)

/-- From `binit` on, whatever the processes do, the cache represents the blocks. -/
theorem cache_represents {next prev : Ptr → Ptr} {data : BufId → Block} {disk : Key → Block}
    {ms : List (Move ι)} (h : exec State.step (State.start next prev data disk) ms = some s) :
    Represents s := by
  refine (exec_invariant (I := Inv) (fun hi hs => hi.step (step_inv hi.wf hs)) inv_start h).represents

/-- A run in which two processes read the same block, and the second gets the buffer from the first. -/
def sharedRun : List (Move (Fin 2)) :=
  [.bget 0 ⟨1, 7⟩, .acquiresleep 0, .bget 1 ⟨1, 7⟩, .read 0, .bpin 0 0, .brelse 0 0, .acquiresleep 1, .unref 0,
    .read 1, .bunpin 1 0]

theorem cache_represents_shared :
    ∃ s, exec State.step (State.start id id (fun _ => Block.zero) fun _ => Block.zero) sharedRun = some s ∧
      Represents s := by
  obtain ⟨s, h⟩ := Option.isSome_iff_exists.1 (show (exec State.step (State.start id id (fun _ => Block.zero)
    fun _ => Block.zero) sharedRun).isSome by decide +kernel)
  exact ⟨s, h, cache_represents h⟩

end Xv6n.Bio
