import Xv6n.Lib.Exec
import Xv6n.Lib.Monitor
import Xv6n.Lib.Ring

/-!
# The UART

The transmit side of `kernel/uart.c` as a monitor: the lock is `uart_tx_lock` and the channel `&uart_tx_r`. The device
becomes idle by itself and then asks for an interrupt, and `uartputc_sync` writes to it without the lock. `put` and
`sent` are history: the bytes that were put into the buffer, and those that `uartstart` has given to the device.
-/

namespace Xv6n
open Function Lib Monitor Relation

abbrev UART_TX_BUF_SIZE : Nat := 32

structure Uart where
  buf : Fin UART_TX_BUF_SIZE → UInt8
  w : Nat
  r : Nat
  /-- The bit `LSR_TX_IDLE`. -/
  idle : Bool
  /-- The device has asked for an interrupt. -/
  irq : Bool
  panicked : Bool
  put : List UInt8
  sent : List UInt8

namespace Uart

/-- What a thread does next: it begins `uartputc`, is at its loop, is at the loop of `uartstart`, or writes a byte to
    the device. -/
inductive Job where
  | putc (c : UInt8)
  | wait (c : UInt8)
  | start
  | thr (c : UInt8)

variable {ι : Type}

def op (_ : ι) : Job → Uart → Outcome Job Uart
  | .putc c, u => .next u false (if u.panicked then .putc c else .wait c)
  | .wait c, u =>
    if u.w = (u.r + UART_TX_BUF_SIZE) % 2 ^ 64 then .sleep
    else .next { u with
      buf := update u.buf (Fin.ofNat _ u.w) c, w := (u.w + 1) % 2 ^ 64, put := u.put ++ [c] } false .start
  | .start, u =>
    if u.w = u.r ∨ u.idle = false then .leave u
    else .next { u with r := (u.r + 1) % 2 ^ 64 } true (.thr (u.buf (Fin.ofNat _ u.r)))
  | .thr c, u => .next { u with idle := false, sent := u.sent ++ [c] } false .start

/-- `uartputc` can be called at any time, and so can `uartintr`, which takes the interrupt. -/
def call (_ : ι) : Job → Uart → Option Uart
  | .putc _, u => some u
  | .start, u => some { u with irq := false }
  | _, _ => none

/-- What happens without the lock. -/
inductive Device : Uart → Uart → Prop where
  | finish : u.idle = false → Device u { u with idle := true, irq := true }
  | sync : Device u { u with idle := false }
  | panic : Device u { u with panicked := true }

def monitor (procs : List ι) : Monitor ι Job Uart := ⟨procs, op, call, Device⟩

/-- The byte that has left the buffer and is not yet sent. -/
def Job.taken : Job → List UInt8
  | .thr c => [c]
  | _ => []

def Job.due : Job → Bool
  | .start | .thr _ => true
  | _ => false

/-- The buffer holds what has been put into it and not been taken. -/
def Queued (u : Uart) (taken : List UInt8) : Prop :=
  ∃ q, Ring (2 ^ 64) u.buf u.r u.w q ∧ u.put = u.sent ++ taken ++ q

def assn : Assn ι Job Uart where
  Rest u := Queued u []
  Pre _ k _ := k.taken = []
  Has _ k u := Queued u k.taken
  Stuck u := u.w = (u.r + UART_TX_BUF_SIZE) % 2 ^ 64
  Owed u := u.w ≠ u.r ∧ u.idle = true ∧ u.irq = false
  Due k := k.due = true

lemma Queued.put {u : Uart} {c : UInt8} (h : Queued u []) (hne : u.w ≠ (u.r + UART_TX_BUF_SIZE) % 2 ^ 64) :
    Queued { u with buf := update u.buf (Fin.ofNat _ u.w) c, w := (u.w + 1) % 2 ^ 64, put := u.put ++ [c] } [] := by
  obtain ⟨q, hr, hq⟩ := h
  have hlt : q.length < UART_TX_BUF_SIZE := hr.le.lt_of_ne fun e => hne ((hr.full_iff (by decide)).2 e)
  refine ⟨q ++ [c], hr.put (by decide) hlt c, ?_⟩
  show u.put ++ [c] = _
  rw [hq, List.append_assoc]

lemma Queued.take {u : Uart} (h : Queued u []) (hne : u.w ≠ u.r) :
    Queued { u with r := (u.r + 1) % 2 ^ 64 } [u.buf (Fin.ofNat _ u.r)] := by
  obtain ⟨q, hr, hq⟩ := h
  cases q with
  | nil => exact absurd ((hr.empty_iff (by decide)).2 rfl).symm hne
  | cons c q =>
    obtain ⟨hc, hr'⟩ := hr.pop (by decide)
    refine ⟨q, hr', ?_⟩
    show u.put = _
    rw [hq, hc, List.append_nil, List.append_assoc, List.singleton_append]

lemma spec {procs : List ι} (hall : ∀ p, p ∈ procs) : Spec (monitor procs) assn where
  all := hall
  acquire := by
    intro i k u hr hk
    show Queued u k.taken
    rwa [show k.taken = [] from hk]
  op := by
    intro i k u hh
    cases k with
    | putc c =>
      refine ⟨?_, fun _ _ _ => id, .inr, fun h => .inr ⟨h, nofun⟩⟩
      show Queued u (Job.taken _)
      split <;> exact hh
    | wait c =>
      refine .ite (fun he => ⟨hh, rfl, he, nofun⟩) fun hne => ?_
      exact ⟨Queued.put hh hne, fun _ _ _ => id, fun h => absurd h hne, fun _ => .inl rfl⟩
    | start =>
      refine .ite (fun he => ⟨hh, fun _ _ _ => id, id, fun h => ?_⟩) fun hne => ?_
      · obtain e | e := he
        · exact absurd e h.1
        · cases e.symm.trans h.2.1
      · exact ⟨Queued.take hh fun e => hne (.inl e), fun _ _ _ => id, fun _ => .inl rfl, fun _ => .inl rfl⟩
    | thr c =>
      obtain ⟨q, hr, hq⟩ := hh
      refine ⟨⟨q, hr, ?_⟩, fun _ _ _ => id, .inr, fun _ => .inl rfl⟩
      show u.put = u.sent ++ [c] ++ [] ++ q
      rw [List.append_nil]
      exact hq
  call := by
    intro i k u u' hc
    cases k with
    | putc c =>
      cases hc
      exact ⟨⟨id, fun _ _ => id, fun _ _ => id, id⟩, rfl, .inr⟩
    | start =>
      cases hc
      exact ⟨⟨id, fun _ _ => id, fun _ _ => id, id⟩, rfl, fun _ => .inl rfl⟩
    | _ => cases hc
  env := by
    intro u u' he
    cases he with
    | finish => exact ⟨⟨id, fun _ _ => id, fun _ _ => id, id⟩, fun h => nomatch h.2.2⟩
    | sync => exact ⟨⟨id, fun _ _ => id, fun _ _ => id, id⟩, fun h => nomatch h.2.1⟩
    | panic => exact ⟨⟨id, fun _ _ => id, fun _ _ => id, id⟩, id⟩

/-- Memory is zeroed before the kernel starts, and `uartinit` enables the interrupts. -/
def init (idle panicked : Bool) : Uart := ⟨fun _ => 0, 0, 0, idle, false, panicked, [], []⟩

variable [DecidableEq ι] {procs : List ι} {idle panicked : Bool} {s : State ι Job Uart}

lemma inv (hall : ∀ p, p ∈ procs) (st : ReflTransGen (Step (monitor procs)) (start (init idle panicked)) s) :
    Inv assn s :=
  .run (spec hall) ⟨[], .nil (Nat.two_pow_pos 64), rfl⟩ (fun h => h.1 rfl) st

/-- Bytes go to the device in the order in which they were put, each of them once; at most 32 of them wait in the
    buffer, and one is on its way while the lock is held. -/
theorem uart_fifo (hall : ∀ p, p ∈ procs)
    (st : ReflTransGen (Step (monitor procs)) (start (init idle panicked)) s) :
    ∃ taken, Queued s.data taken ∧ taken.length ≤ 1 ∧ (s.lk = none → taken = []) := by
  have h := inv hall st
  cases hl : s.lk with
  | none => exact ⟨[], h.rest hl, Nat.zero_le _, fun _ => rfl⟩
  | some i =>
    obtain ⟨taken, hq, hle⟩ := h.always (P := fun u => ∃ taken, Queued u taken ∧ taken.length ≤ 1)
      (fun _ hr => ⟨[], hr, Nat.zero_le _⟩) fun _ k _ hh => ⟨k.taken, hh, by cases k <;> simp [Job.taken]⟩
    exact ⟨taken, hq, hle, nofun⟩

/-- While the lock is free, a thread sleeps only if the buffer is full, and if there is a byte in the buffer then the
    device is busy, or has asked for an interrupt, or a thread is about to call `uartstart`. -/
theorem uart_progress (hall : ∀ p, p ∈ procs)
    (st : ReflTransGen (Step (monitor procs)) (start (init idle panicked)) s) (hl : s.lk = none) :
    (∀ p k, s.pc p = .asleep k → s.data.w = (s.data.r + UART_TX_BUF_SIZE) % 2 ^ 64) ∧
    (s.data.w ≠ s.data.r → s.data.idle = false ∨ s.data.irq = true ∨ ∃ i, s.pc i = .enter .start) := by
  have h := inv hall st
  refine ⟨fun p k hp => h.asleep hl hp, fun hne => ?_⟩
  by_contra hno
  rw [not_or, not_or, Bool.not_eq_false, Bool.not_eq_true] at hno
  obtain ⟨i, k, hi, hk⟩ := h.due hl ⟨hne, hno.1, hno.2.1⟩
  have hpre : k.taken = [] := by
    have hok := h.ok i
    rwa [hi] at hok
  cases k with
  | start => exact hno.2.2 ⟨i, hi⟩
  | thr c => cases hpre
  | _ => cases hk

/-- Two threads put a byte each. The first byte is sent, the second one waits until the device is idle. -/
lemma exists_two : ∃ s, ReflTransGen (Step (monitor [(0 : Fin 2), 1])) (start (init true false)) s ∧ s.lk = none ∧
    s.data.put = [97, 98] ∧ s.data.sent = [97] ∧ s.data.w ≠ s.data.r := by
  have h0 := ReflTransGen.refl.tail (Step.call (M := monitor [(0 : Fin 2), 1]) (s := start (init true false)) (i := 0)
    (k := .putc 97) rfl rfl)
  have h1 := (((h0.tail (.acquire (i := 0) rfl rfl)).tail (.next (i := 0) rfl rfl)).tail
    (.next (i := 0) rfl rfl)).tail (.next (i := 0) rfl rfl)
  have h2 := (((h1.tail (.self (i := 0) rfl)).tail (.look (i := 0) (p := 1) rfl (by decide) rfl)).tail
    (.pass (i := 0) rfl nofun)).tail (.scanned (i := 0) rfl)
  have h3 := ((h2.tail (.next (i := 0) rfl rfl)).tail (.leave (i := 0) rfl rfl)).tail (.release (i := 0) rfl)
  have h4 := ((h3.tail (.call (i := 1) (k := .putc 98) rfl rfl)).tail (.acquire (i := 1) rfl rfl)).tail
    (.next (i := 1) rfl rfl)
  have h5 := ((h4.tail (.next (i := 1) rfl rfl)).tail (.leave (i := 1) rfl rfl)).tail (.release (i := 1) rfl)
  exact ⟨_, h5, rfl, rfl, rfl, by decide⟩

theorem uart_fifo_two : ∃ s, ReflTransGen (Step (monitor [(0 : Fin 2), 1])) (start (init true false)) s ∧
    s.data.put = [97, 98] ∧ s.data.sent = [97] ∧ Queued s.data [] := by
  obtain ⟨s, st, hl, hp, hs, -⟩ := exists_two
  obtain ⟨taken, hq, -, ht⟩ := uart_fifo (by decide) st
  exact ⟨s, st, hp, hs, ht hl ▸ hq⟩

theorem uart_progress_two : ∃ s, ReflTransGen (Step (monitor [(0 : Fin 2), 1])) (start (init true false)) s ∧
    (s.data.idle = false ∨ s.data.irq = true ∨ ∃ i, s.pc i = .enter .start) := by
  obtain ⟨s, st, hl, -, -, hne⟩ := exists_two
  exact ⟨s, st, (uart_progress (by decide) st hl).2 hne⟩

end Uart
end Xv6n
