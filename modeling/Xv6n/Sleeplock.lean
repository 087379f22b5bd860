import Xv6n.Lib.Exec
import Xv6n.Lib.Monitor

/-!
# Sleep locks

`kernel/sleeplock.c` as a monitor. The spin-lock `lk->lk` is the lock of the monitor, and the channel is the sleep
lock itself. `Sleeplock.holders` is history: the processes that have got the lock and not released it since.
-/

namespace Xv6n
open Lib Monitor Relation

/-- A sleep lock (C `struct sleeplock`). -/
structure Sleeplock (ι : Type) where
  locked : Bool
  pid : Nat
  holders : List ι

namespace Sleeplock

/-- The functions, and the rest of `releasesleep` after its `wakeup`. -/
inductive Call where
  | acquiresleep
  | releasesleep
  | released
  | holdingsleep

variable {ι : Type} [DecidableEq ι]

/-- What `initsleeplock` makes. -/
def init : Sleeplock ι := ⟨false, 0, []⟩

/-- The value of `holdingsleep` (C `r`). -/
def holding (pid : ι → Nat) (i : ι) (lk : Sleeplock ι) : Bool := lk.locked && lk.pid == pid i

/-- The functions under the lock, for processes with these ids. -/
def op (pid : ι → Nat) (i : ι) : Call → Sleeplock ι → Outcome Call (Sleeplock ι)
  | .acquiresleep, lk => if lk.locked then .sleep else .leave ⟨true, pid i, i :: lk.holders⟩
  | .releasesleep, lk => .next ⟨false, 0, lk.holders.erase i⟩ true .released
  | .released, lk => .leave lk
  | .holdingsleep, lk => .leave lk

def call (i : ι) : Call → Sleeplock ι → Option (Sleeplock ι)
  | .releasesleep, lk => if i ∈ lk.holders then some lk else none
  | .released, _ => none
  | _, lk => some lk

def monitor (pid : ι → Nat) (procs : List ι) : Monitor ι Call (Sleeplock ι) := ⟨procs, op pid, call, fun _ _ => False⟩

def Held (pid : ι → Nat) (lk : Sleeplock ι) : Prop :=
  lk.locked = false ∧ lk.holders = [] ∨ ∃ i, lk.locked = true ∧ lk.pid = pid i ∧ lk.holders = [i]

def Knows (i : ι) (k : Call) (lk : Sleeplock ι) : Prop := k = .releasesleep → i ∈ lk.holders

def assn (pid : ι → Nat) : Assn ι Call (Sleeplock ι) :=
  ⟨Held pid, Knows, fun i k lk => Held pid lk ∧ Knows i k lk, fun lk => lk.locked = true, fun _ => False, fun _ => False⟩

variable {pid : ι → Nat} {procs : List ι}

lemma spec (hall : ∀ p, p ∈ procs) : Spec (monitor pid procs) (assn pid) where
  all := hall
  acquire := And.intro
  op := by
    intro i k lk ⟨hh, hk⟩
    cases k with
    | acquiresleep =>
      refine .ite (fun hl => ⟨hh, hk, hl, id⟩) fun hl => ?_
      obtain ⟨-, h0⟩ | ⟨j, hl', -⟩ := hh
      · exact ⟨.inr ⟨i, rfl, rfl, congrArg (i :: ·) h0⟩, fun j _ _ h e => List.mem_cons_of_mem _ (h e), fun _ => rfl, nofun⟩
      · exact absurd hl' hl
    | releasesleep =>
      refine ⟨⟨.inl ⟨rfl, ?_⟩, nofun⟩, fun j _ hj h e => ?_, fun _ => .inl rfl, nofun⟩
      · obtain ⟨-, h0⟩ | ⟨j, -, -, h1⟩ := hh
        · exact absurd (h0 ▸ hk rfl) List.not_mem_nil
        · have hi := hk rfl
          rw [h1, List.mem_singleton] at hi
          show lk.holders.erase i = []
          rw [h1, hi, List.erase_cons_head]
      · exact (List.mem_erase_of_ne hj).2 (h e)
    | _ => exact ⟨hh, fun _ _ _ h => h, id, nofun⟩
  call := by
    intro i k lk lk' hc
    have hsame : (assn pid).Same lk lk := ⟨id, fun _ _ => id, fun _ _ => id, id⟩
    cases k with
    | releasesleep =>
      change ite _ _ _ = _ at hc
      split at hc
      · cases hc
        exact ⟨hsame, fun _ => ‹_›, nofun⟩
      · cases hc
    | released => cases hc
    | _ =>
      cases hc
      exact ⟨hsame, nofun, nofun⟩
  env := nofun

/-- At most one process has the lock; `holdingsleep` is right about who it is; and a process sleeps only while another
    one has the lock, or is about to be woken. -/
theorem sleeplock_safe (hpid : pid.Injective) (hall : ∀ p, p ∈ procs) {s : State ι Call (Sleeplock ι)}
    (st : ReflTransGen (Step (monitor pid procs)) (start init) s) :
    s.data.holders.length ≤ 1 ∧
    (∀ i, s.pc i = .work .holdingsleep → (holding pid i s.data = true ↔ i ∈ s.data.holders)) ∧
    (s.lk = none → ∀ p k, s.pc p = .asleep k → ∃ i, s.data.holders = [i]) := by
  have h := Inv.run (spec hall) (.inl ⟨rfl, rfl⟩) (fun h => h) st
  refine ⟨?_, fun i hi => ?_, fun hl p k hp => ?_⟩
  · obtain ⟨-, h0⟩ | ⟨i, -, -, h1⟩ := h.always (P := Held pid) (fun _ => id) fun _ _ _ => And.left
    · rw [h0]
      exact Nat.zero_le _
    · rw [h1]
      exact Nat.le_refl 1
  · rw [holding, Bool.and_eq_true, beq_iff_eq]
    obtain ⟨h0, h1⟩ | ⟨j, h0, h1, h2⟩ := (h.has hi).1
    · simp [h0, h1]
    · simp [h0, h1, h2, hpid.eq_iff, eq_comm]
  · obtain ⟨h0, -⟩ | ⟨i, -, -, h1⟩ := h.rest hl
    · cases h0.symm.trans (h.asleep hl hp)
    · exact ⟨i, h1⟩

/-- The second process sleeps until the first one releases the lock. -/
theorem sleeplock_safe_two : ∃ s, ReflTransGen (Step (monitor (fun i : Fin 2 => i.val + 1) [0, 1])) (start init) s ∧
    s.pc 1 = .asleep .acquiresleep ∧ s.data.holders = [0] ∧ s.data.holders.length ≤ 1 := by
  have h0 := ReflTransGen.refl.tail (Step.call (M := monitor (fun i : Fin 2 => i.val + 1) [0, 1]) (s := start init)
    (i := 0) (k := .acquiresleep) rfl rfl)
  have h1 := ((h0.tail (.acquire (i := 0) rfl rfl)).tail (.leave (i := 0) rfl rfl)).tail (.release (i := 0) rfl)
  have h2 := (h1.tail (.call (i := 1) (k := .acquiresleep) rfl rfl)).tail (.acquire (i := 1) rfl rfl)
  have h3 := ((h2.tail (.sleep (i := 1) rfl rfl)).tail (.doze (i := 1) rfl rfl)).tail (.nod (i := 1) rfl)
  have h4 := h3.tail (.lie (i := 1) rfl)
  exact ⟨_, h4, rfl, rfl, (sleeplock_safe (fun _ _ h => Fin.ext (Nat.succ.inj h)) (by decide) h4).1⟩

end Sleeplock
end Xv6n
