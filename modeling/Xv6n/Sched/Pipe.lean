import Xv6n.Lib.Ring
import Xv6n.Sched.Locks

/-!
# Pipes

A pipe is a ring buffer, so the bytes come out in the order in which they went in, however many readers and
writers there are and however often the counters wrap. A read ends without a byte only at the end of the
file, or because its first byte could not be stored.
-/

namespace Xv6n.Sched
open Lib State Function

/-- The ring of a pipe holds the bytes that have been sent and not been read. -/
def Fifo (p : Pipe) : Prop :=
  ∃ q, p.sent = p.got ++ q ∧ Ring (2 ^ 32) p.data p.nread p.nwrite q ∧
    p.nread = p.got.length % 2 ^ 32

def Pc.readStart : Pc → Bool
  | .readCopy _ 0 => true
  | _ => false

/-- A read of `n` bytes that has ended without a byte, and without a fault. -/
def Pc.readDone : Pc → Option Int
  | .wakeup _ _ next => next.readDone
  | .readEnd n 0 false => some n
  | _ => none

/-- A read starts to copy when there are bytes or no writer, and ends without a byte only at the end of the
    file. -/
structure Reading (s : State) : Prop where
  start : ∀ i, (s.pc i).readStart = true → ¬ (s.pipe.Empty ∧ s.pipe.writeopen = true)
  done : ∀ i n, (s.pc i).readDone = some n → 0 < n → s.pipe.Empty ∧ s.pipe.writeopen = false

section
variable {s s' : State} {i j : Fin NPROC} {x : Pc} {f : Slot → Slot} {p : Pipe}

lemma PIPESIZE_dvd : PIPESIZE ∣ 2 ^ 32 := by decide

lemma PIPESIZE_lt : PIPESIZE < 2 ^ 32 := by decide

lemma Fifo.put (h : Fifo p) (hp : ¬ p.Full) (b : UInt8) : Fifo (p.put b) := by
  obtain ⟨q, h1, h2, h3⟩ := h
  have hlen : q.length < PIPESIZE := by
    refine lt_of_le_of_ne h2.le fun e => hp ?_
    exact (h2.full_iff PIPESIZE_lt).2 e
  refine ⟨q ++ [b], ?_, h2.put PIPESIZE_dvd hlen b, h3⟩
  show p.sent ++ [b] = p.got ++ (q ++ [b])
  rw [h1, List.append_assoc]

lemma Fifo.advance (h : Fifo p) (hp : ¬ p.Empty) : Fifo p.advance := by
  obtain ⟨q, h1, h2, h3⟩ := h
  cases q with
  | nil => exact absurd ((h2.empty_iff PIPESIZE_lt).2 rfl) hp
  | cons b q =>
    obtain ⟨h4, h5⟩ := h2.pop PIPESIZE_dvd
    have hb : p.head = b := h4
    refine ⟨q, ?_, h5, ?_⟩
    · rw [Pipe.advance, hb, h1]
      simp
    · rw [Pipe.advance, h3, List.length_append, Nat.mod_add_mod]
      rfl

lemma Fifo.close {w} (h : Fifo p) : Fifo (p.close w) := by
  cases w with
  | true => exact h
  | false => exact h

lemma PipeStep.fifo {o} (h : Fifo s.pipe) (st : PipeStep s i o s') : Fifo s'.pipe := by
  cases st with
  | readByte _ _ hp _ => exact h.advance hp
  | readFault _ _ hp _ => exact h.advance hp
  | writeByte _ _ _ _ hp _ => exact h.put hp _
  | closeEnd _ => exact h.close
  | _ => exact h

lemma LifeStep.pipe_eq {o} (st : LifeStep s i o s') : s'.pipe = s.pipe := by
  cases st <;> rfl

lemma DeviceStep.pipe_eq {o} (st : DeviceStep s i o s') : s'.pipe = s.pipe := by
  cases st <;> rfl

lemma Step.fifo {a} (h : Fifo s.pipe) (st : Step s a s') : Fifo s'.pipe := by
  cases st with
  | life _ st | device _ st => rw [st.pipe_eq]; exact h
  | pipe _ st => exact st.fifo h
  | _ => exact h

lemma PipeStep.lock {o} (st : PipeStep s i o s') : (s.pc i).lock = some .pipe := by
  cases st <;> simp only [*] <;> rfl

lemma Pc.readStart_lock (h : x.readStart = true) : x.lock = some .pipe := by
  cases x with
  | readCopy n k => rfl
  | _ => cases h

lemma Pc.readDone_lock {n} (h : x.readDone = some n) : x.lock = some .pipe := by
  induction x with
  | wakeup c k next ih => exact ih h
  | readEnd n k b => rfl
  | _ => cases h

lemma Reading.move (h : Reading s) (hp : s'.pipe = s.pipe)
    (h1 : ∀ k, (s'.pc k).readStart = true → (s.pc k).readStart = true)
    (h2 : ∀ k n, (s'.pc k).readDone = some n → (s.pc k).readDone = some n) : Reading s' := by
  refine ⟨fun k hk => ?_, fun k n hk => ?_⟩
  · rw [hp]
    exact h.start k (h1 k hk)
  · rw [hp]
    exact h.done k n (h2 k n hk)

lemma Reading.own (h : Locks s) (hl : (s.pc i).lock = some .pipe)
    (hpc : s'.pc = update s.pc i x)
    (h1 : x.readStart = true → ¬ (s'.pipe.Empty ∧ s'.pipe.writeopen = true))
    (h2 : ∀ n, x.readDone = some n → 0 < n → s'.pipe.Empty ∧ s'.pipe.writeopen = false) :
    Reading s' := by
  refine ⟨fun k hk => ?_, fun k n hk => ?_⟩
  · rw [hpc, update_apply] at hk
    split at hk
    · exact h1 hk
    · rename_i hne
      exact absurd (h.unique (Pc.readStart_lock hk) hl) hne
  · rw [hpc, update_apply] at hk
    split at hk
    · exact h2 n hk
    · rename_i hne
      exact absurd (h.unique (Pc.readDone_lock hk) hl) hne

lemma PipeStep.reading {o} (h : Reading s) (hs : Locks s) (st : PipeStep s i o s') : Reading s' := by
  have hl := st.lock
  cases st with
  | readGo _ hgo => exact .own hs hl rfl (fun _ => hgo) nofun
  | @readFault n k _ _ _ _ =>
    refine .own (x := .wakeup _ _ (.readEnd n k true)) hs hl rfl nofun fun m hm => ?_
    cases k <;> cases hm
  | @readStop n k hpc hstop =>
    refine .own (x := .wakeup _ _ (.readEnd n k false)) hs hl rfl nofun fun m hm hpos => ?_
    cases k with
    | succ k => cases hm
    | zero =>
      cases hm
      have he : s.pipe.Empty := by
        by_contra hne
        exact hstop ⟨hpos, hne⟩
      have hst := h.start i (by rw [hpc]; rfl)
      exact ⟨he, Bool.eq_false_iff.2 fun hw => hst ⟨he, hw⟩⟩
  | _ => exact .own (i := i) hs hl rfl nofun nofun

lemma Pc.reads_of_life (h : x = .user ∨ x = .dead ∨ x.life = true) :
    x.readStart = false ∧ x.readDone = none := by
  induction x with
  | wakeup c k next ih =>
    obtain h | h | h := h
    · cases h
    · cases h
    · exact ⟨rfl, (ih (.inr (.inr h))).2⟩
  | readCopy n k => simp [Pc.life] at h
  | readEnd n k b => simp [Pc.life] at h
  | _ => exact ⟨rfl, rfl⟩

lemma Reading.goto (h : Reading s) (hp : s'.pipe = s.pipe) (hpc : s'.pc = update s.pc i x)
    (h1 : x.readStart = false) (h2 : ∀ n, x.readDone = some n → (s.pc i).readDone = some n) :
    Reading s' := by
  refine h.move hp (fun k hk => ?_) fun k n hk => ?_
  · rw [hpc, update_apply] at hk
    split at hk
    · rw [h1] at hk
      cases hk
    · exact hk
  · rw [hpc, update_apply] at hk
    split at hk
    · rename_i e
      rw [e]
      exact h2 n hk
    · exact hk

lemma Step.reading {a} (h : Reading s) (hs : Locks s) (st : Step s a s') : Reading s' := by
  cases st with
  | @call i c _ _ _ =>
    have hx : c.start.readStart = false ∧ c.start.readDone = none := by
      cases c <;> exact ⟨rfl, rfl⟩
    exact h.goto rfl rfl hx.1 (by rw [hx.2]; nofun)
  | @acquire i o l next _ hpc _ =>
    have hw := hs.wf i
    rw [hpc] at hw
    have hx : next.readStart = false ∧ next.readDone = none := by
      cases next with
      | readCopy n k => cases hw
      | readEnd n k b => cases hw
      | wakeup c k next => cases hw
      | _ => exact ⟨rfl, rfl⟩
    exact h.goto (i := i) (x := next) rfl rfl hx.1 (by rw [hx.2]; nofun)
  | wakeSelf _ hpc | wake _ hpc _ => exact h.goto rfl rfl rfl fun n hn => by rw [hpc]; exact hn
  | @wakeDone i o c k next _ hpc _ =>
    have hw := hs.wf i
    rw [hpc] at hw
    have hx : next.readStart = false := by
      cases next with
      | readCopy n k => cases hw
      | _ => rfl
    exact h.goto rfl rfl hx fun n hn => by rw [hpc]; exact hn
  | sleep _ _ => exact h.goto rfl rfl rfl nofun
  | life _ st =>
    refine h.move st.pipe_eq (fun k hk => ?_) fun k n hk => ?_
    · cases st.pc k with
      | inl e => rw [← e]; exact hk
      | inr e =>
        rw [(Pc.reads_of_life e.2).1] at hk
        cases hk
    · cases st.pc k with
      | inl e => rw [← e]; exact hk
      | inr e =>
        rw [(Pc.reads_of_life e.2).2] at hk
        cases hk
  | pipe _ st => exact st.reading h hs
  | @device i _ _ _ st => cases st <;> exact h.goto (i := i) rfl rfl rfl nofun
  | _ => exact h.move rfl (fun _ => id) fun _ _ => id

lemma Step.readEnd {o n k b} (hpc : s.pc i = .readEnd n k b) (st : Step s (.run i o) s') :
    s'.ret i = k := by
  rcases st.own (by rw [hpc]; rfl) with st | st | st
  · cases st <;> simp_all
  · cases st with
    | readEnd e =>
      rw [hpc] at e
      cases e
      rw [leave_ret, update_self]
    | _ => simp_all
  · cases st <;> simp_all

lemma Step.readFault {o c n k} (hs : Locks s) (st : Step s (.run i o) s')
    (hpc : s'.pc i = .wakeup c 0 (.readEnd n k true)) : s.pc i = .readCopy n k ∧ o.ok = false := by
  have hself : ∀ {x}, s'.pc = update s.pc i x → x = .wakeup c 0 (.readEnd n k true) := by
    intro x e
    rw [e, update_self] at hpc
    exact hpc
  cases st with
  | acquire _ e _ | wakeDone _ e _ =>
    have hw := hs.wf i
    rw [e, hself rfl] at hw
    cases hw
  | wakeSelf _ _ | wake _ _ _ | sleep _ _ => cases hself rfl
  | life _ st =>
    cases st with
    | forkRun _ =>
      rw [leave_pc, update_self] at hpc
      cases hpc
    | _ => cases hself rfl
  | device _ st => cases st <;> cases hself rfl
  | pipe _ st =>
    cases st with
    | readFault e _ _ hok =>
      cases hself rfl
      exact ⟨e, hok⟩
    | _ => cases hself rfl

end

end Xv6n.Sched
