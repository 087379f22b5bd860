import Mathlib.Logic.Relation
import Xv6n.Lib.Update

/-!
# Monitors

Procedures that run under one lock and sleep on one channel, in the way kernels sleep: a process takes its own lock
before it gives up the lock of the monitor, and is asleep before it gives up its own lock; a wakeup takes the lock of
each process in turn. `Spec` is what the procedures have to do. Then no wakeup is lost: a process sleeps only while
there is nothing to do for it, or is about to be woken.
-/

namespace Xv6n.Lib
open Function Relation

/-- What a procedure does next under the lock. -/
inductive Outcome (κ σ : Type) where
  | sleep
  | next (d : σ) (wake : Bool) (k : κ)
  | leave (d : σ)

/-- The process table, the steps of the procedures, how a call begins, and what changes without the lock. -/
structure Monitor (ι κ σ : Type) where
  procs : List ι
  op : ι → κ → σ → Outcome κ σ
  call : ι → κ → σ → Option σ
  env : σ → σ → Prop

namespace Monitor

/-- Where a process is, and its next step under the lock. -/
inductive Pc (ι κ : Type) where
  | out
  | enter (k : κ)
  | work (k : κ)
  | doze (k : κ)
  | nod (k : κ)
  | lie (k : κ)
  | asleep (k : κ)
  | scan (k : κ) (todo : List ι)
  | look (k : κ) (p : ι) (todo : List ι)
  | leave

def Pc.goOn {ι κ : Type} (procs : List ι) (k : κ) : Bool → Pc ι κ
  | true => .scan k procs
  | false => .work k

/-- The data, who holds the lock and the lock of each process, and where the processes are. -/
structure State (ι κ σ : Type) where
  data : σ
  lk : Option ι
  plk : ι → Option ι
  pc : ι → Pc ι κ

variable {ι κ σ : Type}

/-- One step of a process, or of the environment. -/
inductive Step [DecidableEq ι] (M : Monitor ι κ σ) : State ι κ σ → State ι κ σ → Prop where
  | call : s.pc i = .out → M.call i k s.data = some d →
      Step M s { s with data := d, pc := update s.pc i (.enter k) }
  | env : M.env s.data d → Step M s { s with data := d }
  | acquire : s.pc i = .enter k → s.lk = none → Step M s { s with lk := some i, pc := update s.pc i (.work k) }
  | sleep : s.pc i = .work k → M.op i k s.data = .sleep → Step M s { s with pc := update s.pc i (.doze k) }
  | next {s i k d w k'} : s.pc i = .work k → M.op i k s.data = .next d w k' →
      Step M s { s with data := d, pc := update s.pc i (.goOn M.procs k' w) }
  | leave {s i k d} : s.pc i = .work k → M.op i k s.data = .leave d →
      Step M s { s with data := d, pc := update s.pc i .leave }
  | release : s.pc i = .leave → Step M s { s with lk := none, pc := update s.pc i .out }
  | doze : s.pc i = .doze k → s.plk i = none →
      Step M s { s with plk := update s.plk i (some i), pc := update s.pc i (.nod k) }
  | nod : s.pc i = .nod k → Step M s { s with lk := none, pc := update s.pc i (.lie k) }
  | lie : s.pc i = .lie k → Step M s { s with plk := update s.plk i none, pc := update s.pc i (.asleep k) }
  | scanned : s.pc i = .scan k [] → Step M s { s with pc := update s.pc i (.work k) }
  | self : s.pc i = .scan k (i :: ps) → Step M s { s with pc := update s.pc i (.scan k ps) }
  | look : s.pc i = .scan k (p :: ps) → p ≠ i → s.plk p = none →
      Step M s { s with plk := update s.plk p (some i), pc := update s.pc i (.look k p ps) }
  | pass {s i k p ps} : s.pc i = .look k p ps → (∀ k, s.pc p ≠ .asleep k) →
      Step M s { s with plk := update s.plk p none, pc := update s.pc i (.scan k ps) }
  | wake {s i k p ps k'} : s.pc i = .look k p ps → s.pc p = .asleep k' →
      Step M s { s with plk := update s.plk p none, pc := update (update s.pc p (.enter k')) i (.scan k ps) }
  | kill : s.pc p = .asleep k → s.plk p = none → Step M s { s with pc := update s.pc p (.enter k) }

variable {s s' : State ι κ σ} {i j p : ι} {k : κ} {d d' : σ} {x y : Pc ι κ} {pc : ι → Pc ι κ}

def Pc.holds : Pc ι κ → Bool
  | .work _ | .doze _ | .nod _ | .scan _ _ | .look _ _ _ | .leave => true
  | _ => false

/-- The process whose lock process `i` holds. -/
def Pc.locks (i : ι) : Pc ι κ → Option ι
  | .nod _ | .lie _ => some i
  | .look _ p _ => some p
  | _ => none

/-- The locks are with those who have to hold them. -/
structure Locks (s : State ι κ σ) : Prop where
  lk : ∀ i, (s.pc i).holds = true ↔ s.lk = some i
  plk : ∀ i p, (s.pc i).locks i = some p → s.plk p = some i

/-- The step that a process in a procedure takes next under the lock. -/
def Pc.job : Pc ι κ → Option κ
  | .enter k | .work k | .doze k | .nod k | .lie k | .asleep k | .scan k _ | .look k _ _ => some k
  | _ => none

/-- It is asleep, or will be without the lock of the monitor. -/
def Pc.down : Pc ι κ → Bool
  | .lie _ | .asleep _ => true
  | _ => false

/-- It is about to wake `p`. -/
def Pc.wakes (p : ι) : Pc ι κ → Prop
  | .scan _ ps => p ∈ ps
  | .look _ q ps => p = q ∨ p ∈ ps
  | _ => False

/-- `Rest` holds while nobody has the lock, `Has` is what a process knows under the lock before its next step, and
    `Pre` what it knows without it. In `Stuck` there is nothing to do for those who sleep. What is `Owed` is done by
    processes whose next step is `Due`. -/
structure Assn (ι κ σ : Type) where
  Rest : σ → Prop
  Pre : ι → κ → σ → Prop
  Has : ι → κ → σ → Prop
  Stuck : σ → Prop
  Owed : σ → Prop
  Due : κ → Prop

/-- What everybody knows stays true. -/
structure Assn.Same (A : Assn ι κ σ) (d d' : σ) : Prop where
  rest : A.Rest d → A.Rest d'
  pre : ∀ i k, A.Pre i k d → A.Pre i k d'
  has : ∀ i k, A.Has i k d → A.Has i k d'
  stuck : A.Stuck d → A.Stuck d'

variable {A : Assn ι κ σ}

def Pc.Ok (A : Assn ι κ σ) (i : ι) (d : σ) : Pc ι κ → Prop
  | .out => True
  | .enter k => A.Pre i k d
  | .work k | .scan k _ | .look k _ _ => A.Has i k d
  | .doze k | .nod k => A.Rest d ∧ A.Pre i k d ∧ A.Stuck d ∧ ¬A.Due k
  | .lie k | .asleep k => A.Pre i k d ∧ ¬A.Due k
  | .leave => A.Rest d

/-- Those who are down have nothing to do, or are about to be woken. -/
def Rested (A : Assn ι κ σ) (d : σ) (pc : ι → Pc ι κ) : Prop :=
  ∀ p, (pc p).down = true → A.Stuck d ∨ ∃ i, (pc i).wakes p

def Busy (A : Assn ι κ σ) (pc : ι → Pc ι κ) : Prop := ∃ i k, (pc i).job = some k ∧ A.Due k

structure Inv (A : Assn ι κ σ) (s : State ι κ σ) : Prop extends Locks s where
  rest : s.lk = none → A.Rest s.data
  ok : ∀ i, (s.pc i).Ok A i s.data
  down : Rested A s.data s.pc
  owed : A.Owed s.data → Busy A s.pc

lemma Inv.has (h : Inv A s) (hi : s.pc i = .work k) : A.Has i k s.data := by
  have hok := h.ok i
  rwa [hi] at hok

lemma Pc.Ok.same (h : x.Ok A i d) (hs : A.Same d d') : x.Ok A i d' := by
  obtain ⟨h1, h2, h3, h4⟩ := hs
  cases x <;> grind [Pc.Ok]

/-- What a process knows without the lock stays true when the one that has it makes a step. -/
lemma Pc.Ok.other (h : x.Ok A j d) (hx : x.holds = false) (hk : ∀ k, A.Pre j k d → A.Pre j k d') : x.Ok A j d' := by
  cases x with
  | out => trivial
  | enter k => exact hk k h
  | lie k | asleep k => exact ⟨hk k h.1, h.2⟩
  | _ => cases hx

lemma Locks.alone (h : Locks s) (hi : (s.pc i).holds = true) (hj : j ≠ i) : (s.pc j).holds = false := by
  rw [← Bool.not_eq_true]
  intro hh
  exact hj (Option.some.inj (((h.lk j).1 hh).symm.trans ((h.lk i).1 hi)))

lemma Rested.mono (h : Rested A d pc) (hs : A.Stuck d → A.Stuck d') : Rested A d' pc :=
  fun p hp => (h p hp).imp_left hs

/-- What holds under the lock and without it holds always. -/
lemma Inv.always {P : σ → Prop} (h : Inv A s) (hr : ∀ d, A.Rest d → P d) (hh : ∀ i k d, A.Has i k d → P d) : P s.data := by
  cases hl : s.lk with
  | none => exact hr _ (h.rest hl)
  | some i =>
    have hi := (h.lk i).2 hl
    have hok := h.ok i
    cases hx : s.pc i with
    | work | scan | look =>
      rw [hx] at hok
      exact hh _ _ _ hok
    | doze | nod =>
      rw [hx] at hok
      exact hr _ hok.1
    | leave =>
      rw [hx] at hok
      exact hr _ hok
    | _ =>
      rw [hx] at hi
      cases hi

lemma Inv.free (h : Inv A s) (hl : s.lk = none) (i : ι) : (s.pc i).holds = false := by
  rw [← Bool.not_eq_true, h.lk, hl]
  nofun

/-- No wakeup is lost. -/
theorem Inv.asleep (h : Inv A s) (hl : s.lk = none) (hp : s.pc p = .asleep k) : A.Stuck s.data := by
  obtain hs | ⟨i, hi⟩ := h.down p (by rw [hp]; rfl)
  · exact hs
  · have hh := h.free hl i
    cases hx : s.pc i with
    | scan | look =>
      rw [hx] at hh
      cases hh
    | _ =>
      rw [hx] at hi
      cases hi

/-- What is owed is done by a process that is on its way. -/
theorem Inv.due (h : Inv A s) (hl : s.lk = none) (ho : A.Owed s.data) : ∃ i k, s.pc i = .enter k ∧ A.Due k := by
  obtain ⟨i, k, hj, hk⟩ := h.owed ho
  have hh := h.free hl i
  have hok := h.ok i
  refine ⟨i, k, ?_, hk⟩
  cases hx : s.pc i with
  | enter => simpa [hx, Pc.job] using hj
  | lie | asleep =>
    rw [hx] at hj hok
    cases hj
    exact absurd hk hok.2
  | out =>
    rw [hx] at hj
    cases hj
  | _ =>
    rw [hx] at hh
    cases hh

/-- What a step under the lock may do. -/
def Assn.Allows (A : Assn ι κ σ) (i : ι) (k : κ) (d : σ) : Outcome κ σ → Prop
  | .sleep => A.Rest d ∧ A.Pre i k d ∧ A.Stuck d ∧ ¬A.Due k
  | .next d' w k' => A.Has i k' d' ∧ (∀ j k, j ≠ i → A.Pre j k d → A.Pre j k d') ∧
    (A.Stuck d → w = true ∨ A.Stuck d') ∧ (A.Owed d' → A.Due k' ∨ A.Owed d ∧ ¬A.Due k)
  | .leave d' => A.Rest d' ∧ (∀ j k, j ≠ i → A.Pre j k d → A.Pre j k d') ∧ (A.Stuck d → A.Stuck d') ∧
    (A.Owed d' → A.Owed d ∧ ¬A.Due k)

lemma Assn.Allows.ite {c : Prop} [Decidable c] {o o' : Outcome κ σ} (h : c → A.Allows i k d o)
    (h' : ¬c → A.Allows i k d o') : A.Allows i k d (if c then o else o') := by
  split
  · exact h ‹_›
  · exact h' ‹_›

/-- What the procedures have to do. -/
structure Spec (M : Monitor ι κ σ) (A : Assn ι κ σ) : Prop where
  all : ∀ p, p ∈ M.procs
  acquire : ∀ {i k d}, A.Rest d → A.Pre i k d → A.Has i k d
  op : ∀ i k d, A.Has i k d → A.Allows i k d (M.op i k d)
  call : ∀ {i k d d'}, M.call i k d = some d' → A.Same d d' ∧ A.Pre i k d' ∧ (A.Owed d' → A.Due k ∨ A.Owed d)
  env : ∀ {d d'}, M.env d d' → A.Same d d' ∧ (A.Owed d' → A.Owed d)

variable [DecidableEq ι] {M : Monitor ι κ σ}

omit [DecidableEq ι] in
lemma Spec.allows {o : Outcome κ σ} (hM : Spec M A) (h : Inv A s) (hpc : s.pc i = .work k)
    (ho : M.op i k s.data = o) : A.Allows i k s.data o :=
  ho ▸ hM.op i k s.data (h.has hpc)

lemma Locks.step (h : Locks s) (st : Step M s s') : Locks s' := by
  obtain ⟨h1, h2⟩ := h
  cases st with
  | @next _ _ _ _ w => cases w <;> constructor <;> grind [Pc.holds, Pc.locks, Pc.goOn, update_apply]
  | _ => constructor <;> grind [Pc.holds, Pc.locks, update_apply]

lemma Inv.rest_step (hM : Spec M A) (h : Inv A s) (st : Step M s s') (hl : s'.lk = none) : A.Rest s'.data := by
  obtain ⟨⟨h1, h2⟩, h3, h4, h5, h6⟩ := h
  cases st <;> grind [Pc.Ok, Pc.holds, Spec, Assn.Same]

lemma Inv.ok_step (hM : Spec M A) (h : Inv A s) (st : Step M s s') : ∀ j, (s'.pc j).Ok A j s'.data := by
  have hmove : ∀ {d i x}, x.Ok A i d → (∀ j, j ≠ i → (s.pc j).Ok A j d) → ∀ j, (update s.pc i x j).Ok A j d :=
    fun hx hj => (forall_update_iff _ fun j x => Pc.Ok A j _ x).2 ⟨hx, hj⟩
  cases st with
  | call hpc hc =>
    obtain ⟨hs, hp, -⟩ := hM.call hc
    exact hmove hp fun j _ => (h.ok j).same hs
  | env he => exact fun j => (h.ok j).same (hM.env he).1
  | sleep hpc ho => exact hmove (hM.allows h hpc ho) fun j _ => h.ok j
  | @next _ i k d w k' hpc ho =>
    obtain ⟨hh, hk, -⟩ := hM.allows h hpc ho
    refine hmove (by cases w <;> exact hh) fun j hj => ?_
    exact (h.ok j).other (h.alone (by rw [hpc]; rfl) hj) (hk j · hj)
  | leave hpc ho =>
    obtain ⟨hh, hk, -⟩ := hM.allows h hpc ho
    refine hmove hh fun j hj => ?_
    exact (h.ok j).other (h.alone (by rw [hpc]; rfl) hj) (hk j · hj)
  | _ =>
    have := h.ok
    have := h.rest
    grind [Pc.Ok, update_apply, Spec]

lemma Rested.move (h : Rested A d pc) (hi : pc i = y) (hx : x.down = true → y.down = true ∨ A.Stuck d)
    (hw : ∀ p, (pc p).down = true → y.wakes p → x.wakes p) : Rested A d (update pc i x) := by
  subst hi
  intro p hp
  have hp' : (pc p).down = true ∨ A.Stuck d := by
    by_cases e : p = i
    · subst e
      rw [update_self] at hp
      exact hx hp
    · rw [update_of_ne e] at hp
      exact .inl hp
  obtain hp' | hs := hp'
  · refine (h p hp').imp_right fun ⟨j, hj⟩ => ⟨j, ?_⟩
    by_cases e : j = i
    · subst e
      rw [update_self]
      exact hw p hp' hj
    · rwa [update_of_ne e]
  · exact .inl hs

lemma Inv.rested_step (hM : Spec M A) (h : Inv A s) (st : Step M s s') : Rested A s'.data s'.pc := by
  have hd := h.down
  cases st with
  | call hpc hc => exact (hd.mono (hM.call hc).1.stuck).move hpc nofun nofun
  | env he => exact hd.mono (hM.env he).1.stuck
  | acquire hpc | sleep hpc | release hpc | doze hpc | scanned hpc => exact hd.move hpc nofun nofun
  | @next _ i k d w k' hpc ho =>
    obtain ⟨-, -, hs, -⟩ := hM.allows h hpc ho
    cases w with
    | true =>
      refine fun p _ => .inr ⟨i, ?_⟩
      dsimp only
      rw [update_self]
      exact hM.all p
    | false => exact (hd.mono fun hd => (hs hd).resolve_left nofun).move hpc nofun nofun
  | leave hpc ho => exact (hd.mono (hM.allows h hpc ho).2.2.1).move hpc nofun nofun
  | nod hpc =>
    obtain ⟨-, -, hs, -⟩ : Pc.Ok A _ s.data (.nod _) := hpc ▸ h.ok _
    exact hd.move hpc (fun _ => .inr hs) nofun
  | lie hpc => exact hd.move hpc (fun _ => .inl rfl) nofun
  | self hpc =>
    refine hd.move hpc nofun fun p hp hm => (List.mem_cons.1 hm).resolve_left ?_
    rintro rfl
    rw [hpc] at hp
    cases hp
  | look hpc => exact hd.move hpc nofun fun p _ hm => List.mem_cons.1 hm
  | @pass _ i k p ps hpc hne =>
    refine hd.move hpc nofun fun q hq hm => hm.resolve_left ?_
    rintro rfl
    -- it has its own lock if it is not asleep yet
    have hi := h.plk i q (by rw [hpc]; rfl)
    cases hx : s.pc q with
    | lie k =>
      have hq' := h.plk q q (by rw [hx]; rfl)
      obtain rfl := Option.some.inj (hi.symm.trans hq')
      cases hpc.symm.trans hx
    | asleep k => exact hne k hx
    | _ =>
      rw [hx] at hq
      cases hq
  | @wake _ i k p ps k' hpc hp =>
    have hne : i ≠ p := by
      rintro rfl
      cases hpc.symm.trans hp
    refine (hd.move (x := .enter k') hp nofun nofun).move ((update_of_ne hne ..).trans hpc) nofun fun q hq hm =>
      hm.resolve_left ?_
    rintro rfl
    rw [update_self] at hq
    cases hq
  | kill hp => exact hd.move hp nofun nofun

lemma Busy.of (hx : x.job = some k) (hk : A.Due k) : Busy A (update pc i x) :=
  ⟨i, k, by rw [update_self]; exact hx, hk⟩

lemma Busy.move (h : Busy A pc) (hi : pc i = y) (hx : ∀ k, y.job = some k → A.Due k → x.job = some k) :
    Busy A (update pc i x) := by
  obtain ⟨j, k, hj, hk⟩ := h
  subst hi
  refine ⟨j, k, ?_, hk⟩
  by_cases e : j = i
  · subst e
    rw [update_self]
    exact hx k hj hk
  · rwa [update_of_ne e]

lemma Inv.busy_step (hM : Spec M A) (h : Inv A s) (st : Step M s s') (ho : A.Owed s'.data) : Busy A s'.pc := by
  have hb := h.owed
  cases st with
  | call hpc hc =>
    obtain hk | ho := (hM.call hc).2.2 ho
    · exact .of rfl hk
    · exact (hb ho).move hpc nofun
  | env he => exact hb ((hM.env he).2 ho)
  | @next _ _ _ _ w _ hpc hop =>
    obtain hk | ⟨ho, hk⟩ := (hM.allows h hpc hop).2.2.2 ho
    · exact .of (by cases w <;> rfl) hk
    · exact (hb ho).move hpc fun _ e hd => absurd (Option.some.inj e ▸ hd) hk
  | leave hpc hop =>
    obtain ⟨ho, hk⟩ := (hM.allows h hpc hop).2.2.2 ho
    exact (hb ho).move hpc fun _ e hd => absurd (Option.some.inj e ▸ hd) hk
  | @wake _ i k p ps k' hpc hp =>
    have hne : i ≠ p := by
      rintro rfl
      cases hpc.symm.trans hp
    exact ((hb ho).move (x := .enter k') hp fun _ e _ => e).move ((update_of_ne hne ..).trans hpc) fun _ e _ => e
  | acquire hpc | sleep hpc | release hpc | doze hpc | nod hpc | lie hpc
  | scanned hpc | self hpc | look hpc | pass hpc | kill hpc => exact (hb ho).move hpc fun _ e _ => e

lemma Inv.step (hM : Spec M A) (h : Inv A s) (st : Step M s s') : Inv A s' :=
  ⟨h.toLocks.step st, h.rest_step hM st, h.ok_step hM st, h.rested_step hM st, h.busy_step hM st⟩

def start (d : σ) : State ι κ σ := ⟨d, none, fun _ => none, fun _ => .out⟩

theorem Inv.run (hM : Spec M A) (hd : A.Rest d) (ho : ¬A.Owed d) (st : ReflTransGen (Step M) (start d) s) :
    Inv A s := by
  induction st with
  | refl => exact ⟨⟨fun _ => ⟨nofun, nofun⟩, nofun⟩, fun _ => hd, fun _ => trivial, nofun, fun h => absurd h ho⟩
  | tail _ st ih => exact ih.step hM st

end Monitor
end Xv6n.Lib
