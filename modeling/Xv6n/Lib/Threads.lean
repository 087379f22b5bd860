import Xv6n.Lib.Exec
import Xv6n.Lib.Safe

/-!
# Pools of threads

A pool has a shared state and, for each thread that is in a call, what is left of its program. A move starts
a call or takes the next action of a thread. An action that blocks is not taken; one that fails stops the
pool, and leaves the state as it was.

If every call that a resting thread may start is safe then the invariant holds in every state of every run,
and every action in it meets the guarantee. The thread may begin the call with a new record.
-/

namespace Xv6n.Lib
open Function

/-- The shared state, what the threads have left to do, and the error that stopped the pool. -/
structure Pool (ι : Type) (E : Type → Type) (ε σ α : Type) where
  st : σ
  thr : ι → Option (Prog E α)
  stopped : Option ε

/-- What can happen next: thread `i` starts a call, or takes its next action. -/
inductive Turn (ι C : Type) where
  | call (i : ι) (c : C)
  | act (i : ι)

namespace Pool
variable {ι C : Type} [DecidableEq ι] {E : Type → Type} {ε σ α L : Type}

def rest (st : σ) : Pool ι E ε σ α := ⟨st, fun _ => none, none⟩

/-- Set what thread `i` has left to do. -/
def setThr (s : Pool ι E ε σ α) (i : ι) (p : Option (Prog E α)) : Pool ι E ε σ α :=
  { s with thr := update s.thr i p }

section step
variable (I : ι → {β : Type} → E β → EStateM ε σ β) (blocks : ε → Bool) (calls : σ → ι → C → Option (Prog E α))

/-- The next action of thread `i`. -/
def stepAct (s : Pool ι E ε σ α) (i : ι) : Option (Pool ι E ε σ α) :=
  match s.thr i with
  | none => none
  | some (.ret _) => some (s.setThr i none)
  | some (.act e k) =>
    match I i e s.st with
    | .ok b st => some ({ s with st := st }.setThr i (some (k b)))
    | .error x _ => if blocks x then none else some { s with stopped := some x }

/-- One move; `calls` says which program a call runs, and whether it may be made. -/
def step (s : Pool ι E ε σ α) (m : Turn ι C) : Option (Pool ι E ε σ α) :=
  if s.stopped.isSome then none else
  match m with
  | .call i c =>
    match s.thr i with
    | some _ => none
    | none => (calls s.st i c).map fun p => s.setThr i (some p)
  | .act i => stepAct I blocks s i

variable (G : (ι → L) → σ → Prop) (R : σ → σ → Prop) (ok : ε → Prop) (Rest : L → Prop)

/-- What thread `i` has left to do is safe. -/
def Runs (i : ι) (p : Option (Prog E α)) (l : L) : Prop :=
  match p with
  | none => Rest l
  | some p => Safe I G R ok i p l fun _ l' => Rest l'

/-- The invariant holds, and every thread runs safely from where it is. -/
def Sound (s : Pool ι E ε σ α) : Prop :=
  (∃ g, G g s.st ∧ ∀ i, Runs I G R ok Rest i (s.thr i) (g i)) ∧ ∀ x, s.stopped = some x → ok x

variable {I blocks calls G R ok Rest} {s s' : Pool ι E ε σ α}

lemma runs_update {g : ι → L} {i : ι} {p : Option (Prog E α)} {l : L}
    (hr : ∀ j, Runs I G R ok Rest j (s.thr j) (g j)) (hp : Runs I G R ok Rest i p l) (j : ι) :
    Runs I G R ok Rest j ((s.setThr i p).thr j) (update g i l j) := by
  show Runs I G R ok Rest j (update s.thr i p j) _
  by_cases e : j = i
  · subst e
    rw [update_self, update_self]
    exact hp
  · rw [update_of_ne e, update_of_ne e]
    exact hr j

lemma Sound.stepAct {i : ι} (hs : Sound I G R ok Rest s) (h : stepAct I blocks s i = some s') :
    Sound I G R ok Rest s' := by
  obtain ⟨⟨g, hg, hr⟩, hok⟩ := hs
  have hi := hr i
  unfold Pool.stepAct at h
  split at h
  · cases h
  · rename_i a e
    cases h
    rw [e] at hi
    obtain ⟨l, h1, h2⟩ := hi g s.st hg rfl
    exact ⟨⟨_, h1, runs_update hr h2⟩, hok⟩
  · rename_i e k ek
    rw [ek] at hi
    have hw := wp_def.1 (hi g s.st hg rfl)
    split at h
    · rename_i b st eb
      cases h
      obtain ⟨_, l, h1, h2⟩ := hw.1 b st eb
      exact ⟨⟨_, h1, runs_update (s := { s with st := st }) hr h2⟩, hok⟩
    · rename_i x st ex
      split at h
      · cases h
      · cases h
        refine ⟨⟨g, hg, hr⟩, fun y hy => ?_⟩
        cases hy
        exact hw.2 x st ex

lemma Sound.step {m : Turn ι C}
    (hc : ∀ g st i c p, G g st → Rest (g i) → calls st i c = some p →
      ∃ l, G (update g i l) st ∧ Safe I G R ok i p l fun _ l => Rest l)
    (hs : Sound I G R ok Rest s) (h : step I blocks calls s m = some s') : Sound I G R ok Rest s' := by
  unfold Pool.step at h
  split at h
  · cases h
  cases m with
  | act i => exact hs.stepAct h
  | call i c =>
    dsimp only at h
    split at h
    · cases h
    · rename_i ei
      obtain ⟨p, hp, rfl⟩ := Option.map_eq_some_iff.1 h
      obtain ⟨⟨g, hg, hr⟩, hok⟩ := hs
      have hi := hr i
      rw [ei] at hi
      obtain ⟨l, hl, hsafe⟩ := hc g s.st i c p hg hi hp
      exact ⟨⟨_, hl, runs_update (p := some p) hr hsafe⟩, hok⟩

lemma Sound.guarantee (hR : ∀ st, R st st) {m : Turn ι C} (hs : Sound I G R ok Rest s)
    (h : Pool.step I blocks calls s m = some s') : R s.st s'.st := by
  unfold Pool.step at h
  split at h
  · cases h
  cases m with
  | act i =>
    obtain ⟨⟨g, hg, hr⟩, _⟩ := hs
    have hi := hr i
    dsimp only at h
    unfold Pool.stepAct at h
    split at h
    · cases h
    · cases h
      exact hR _
    · rename_i e k ek
      rw [ek] at hi
      have hw := wp_def.1 (hi g s.st hg rfl)
      split at h
      · rename_i b st eb
        cases h
        exact (hw.1 b st eb).1
      · split at h
        · cases h
        · cases h
          exact hR _
  | call i c =>
    dsimp only at h
    split at h
    · cases h
    · obtain ⟨p, _, rfl⟩ := Option.map_eq_some_iff.1 h
      exact hR _

/-- Every state of every run is sound. -/
theorem Sound.run {ms : List (Turn ι C)}
    (hc : ∀ g st i c p, G g st → Rest (g i) → calls st i c = some p →
      ∃ l, G (update g i l) st ∧ Safe I G R ok i p l fun _ l => Rest l)
    (hs : Sound I G R ok Rest s) (h : exec (Pool.step I blocks calls) s ms = some s') :
    Sound I G R ok Rest s' :=
  exec_invariant (fun hI hst => Sound.step hc hI hst) hs h

/-- A pool whose actions can only block is never stopped. -/
theorem Sound.run_on {ms : List (Turn ι C)} (hb : ∀ x, ok x → blocks x = true)
    (hc : ∀ g st i c p, G g st → Rest (g i) → calls st i c = some p →
      ∃ l, G (update g i l) st ∧ Safe I G R ok i p l fun _ l => Rest l)
    (hs : Sound I G R ok Rest s) (hn : s.stopped = none) (h : exec (Pool.step I blocks calls) s ms = some s') :
    Sound I G R ok Rest s' ∧ s'.stopped = none := by
  refine exec_invariant (I := fun s => Sound I G R ok Rest s ∧ s.stopped = none) (fun {s m s'} hI hst => ?_)
    ⟨hs, hn⟩ h
  have hs' := Sound.step hc hI.1 hst
  refine ⟨hs', ?_⟩
  unfold Pool.step at hst
  rw [if_neg (by rw [hI.2]; nofun)] at hst
  cases m with
  | call i c =>
    dsimp only at hst
    split at hst
    · cases hst
    · obtain ⟨p, _, rfl⟩ := Option.map_eq_some_iff.1 hst
      exact hI.2
  | act i =>
    dsimp only at hst
    unfold Pool.stepAct at hst
    split at hst
    · cases hst
    · cases hst
      exact hI.2
    · split at hst
      · cases hst
        exact hI.2
      · rename_i x _ _
        split at hst
        · cases hst
        · rename_i hx
          cases hst
          exact absurd (hb x (hs'.2 x rfl)) hx

lemma sound_rest {st : σ} {g : ι → L} (hg : G g st) (hr : ∀ i, Rest (g i)) :
    Sound I G R ok Rest (rest st : Pool ι E ε σ α) :=
  ⟨⟨g, hg, hr⟩, by nofun⟩

lemma exec_solo {i : ι} {p : Prog E α} {st st' : σ} {a : α} {f : ι → Option (Prog E α)}
    (h : p.run (I i) st = .ok a st') :
    ∃ ms, exec (step I blocks calls) ⟨st, update f i (some p), none⟩ ms =
      some ⟨st', update f i none, none⟩ := by
  induction p generalizing st with
  | ret b =>
    cases h
    refine ⟨[.act i], exec_cons.2 ⟨_, ?_, exec_nil⟩⟩
    unfold step stepAct setThr
    rw [if_neg (by nofun)]
    dsimp only
    rw [update_self]
    dsimp only
    rw [update_idem]
  | act e k ih =>
    unfold Prog.run at h
    simp only [Bind.bind, EStateM.bind] at h
    split at h
    · rename_i b st1 hb
      obtain ⟨ms, hms⟩ := ih b h
      refine ⟨.act i :: ms, exec_cons.2 ⟨_, ?_, hms⟩⟩
      unfold step stepAct setThr
      rw [if_neg (by nofun)]
      dsimp only
      rw [update_self]
      dsimp only
      rw [hb]
      dsimp only
      rw [update_idem]
    · cases h

lemma exec_call {i : ι} {c : C} {p : Prog E α} {st st' : σ} {a : α} (hc : calls st i c = some p)
    (h : p.run (I i) st = .ok a st') : ∃ ms, exec (step I blocks calls) (rest st) ms = some (rest st') := by
  obtain ⟨ms, hms⟩ : ∃ ms, exec (step I blocks calls) ⟨st, update (fun _ => none) i (some p), none⟩ ms =
      some ⟨st', update (fun _ => none) i none, none⟩ := exec_solo h
  rw [update_eq_self] at hms
  refine ⟨.call i c :: ms, exec_cons.2 ⟨_, ?_, hms⟩⟩
  unfold step rest setThr
  rw [if_neg (by nofun)]
  dsimp only
  rw [hc]
  rfl

end step

end Pool

end Xv6n.Lib
