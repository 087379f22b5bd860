import Xv6n.Console.Line

/-!
# Reading lines

`consoleread` and `consoleintr` of `kernel/console.c`, with any number of readers and in every interleaving. Who holds
`cons.lock` takes one step at a time; a key is stored in the step that takes the lock, and if it ends a line, `wakeup`
visits the processes one by one before the lock is released. A process that goes to sleep gives up `cons.lock` while
it has its own `p->lock`, and `wakeup` waits for that one.

`typed`, `took` and `returns` are not part of the source: what has been typed, the bytes that were taken out of the
buffer, and what the calls that have returned took and returned.
-/

namespace Xv6n.Console
open Lib Sched Function

/-- Where a process is in `consoleread`: `got` is what this call has taken. In `doze` and `fall` it is in `sleep`, before
    and after it gives up `cons.lock`; `awake` is the end of `sleep`. -/
inductive Pc where
  | out
  | enter (n : Int)
  | loop (target n : Nat) (got : List UInt8)
  | doze (target n : Nat) (got : List UInt8)
  | fall (target n : Nat) (got : List UInt8)
  | asleep (target n : Nat) (got : List UInt8)
  | awake (target n : Nat) (got : List UInt8)
deriving DecidableEq

/-- Who holds `cons.lock`: a reader, or `consoleintr` in its `wakeup`, on the CPU of process `me`. -/
inductive Holder where
  | reader (p : Fin NPROC)
  | intr (me : Option (Fin NPROC)) (k : Nat)
deriving DecidableEq

structure Return where
  got : List UInt8
  ret : Int
deriving DecidableEq

structure State where
  cons : Cons
  lock : Option Holder
  pc : Fin NPROC → Pc
  killed : Fin NPROC → Bool
  typed : Typed
  took : List UInt8
  returns : List Return

/-- What happens: a process calls `consoleread`, takes `cons.lock`, or goes on (`ok` tells whether its byte can be copied
    out), a process is killed, a key arrives, and `wakeup` goes on. -/
inductive Action where
  | read (p : Fin NPROC) (n : Int)
  | acquire (p : Fin NPROC)
  | run (p : Fin NPROC) (ok : Bool)
  | kill (p : Fin NPROC)
  | born (p : Fin NPROC)
  | input (ch : UInt8) (me : Option (Fin NPROC))
  | wake

def Pc.sleeps : Pc → Bool
  | .fall _ _ _ | .asleep _ _ _ => true
  | _ => false

/-- The process holds `cons.lock`. -/
def Pc.holds : Pc → Bool
  | .loop _ _ _ | .doze _ _ _ => true
  | _ => false

def Pc.wake : Pc → Pc
  | .asleep target n got => .awake target n got
  | x => x

/-- The key makes `consoleintr` call `wakeup`. -/
def commits (c : Cons) (ch : UInt8) : Bool :=
  ch ≠ 16 ∧ ch ≠ 21 ∧ ¬ (ch = 8 ∨ ch = 127) ∧ ch ≠ 0 ∧ (c.e + 2 ^ 32 - c.r) % 2 ^ 32 < INPUT_BUF_SIZE ∧
    ((if ch = 13 then newline else ch) = newline ∨ (if ch = 13 then newline else ch) = ctrlD ∨
      ((c.e + 1) % 2 ^ 32 + 2 ^ 32 - c.r) % 2 ^ 32 = INPUT_BUF_SIZE)

namespace State

/-- Process `p` goes on at `x`. -/
@[simps -fullyApplied] def goto (s : State) (p : Fin NPROC) (x : Pc) : State := { s with pc := update s.pc p x }

/-- Release `cons.lock` and return. -/
@[simps -fullyApplied] def leave (s : State) (p : Fin NPROC) (got : List UInt8) (ret : Int) : State :=
  { s with lock := none, pc := update s.pc p .out, returns := ⟨got, ret⟩ :: s.returns }

/-- `cons.buf[cons.r++ % INPUT_BUF_SIZE]`. -/
@[simps -fullyApplied] def take (s : State) : State :=
  { s with cons := s.cons.advance, typed := s.typed.take, took := s.took ++ [s.cons.head] }

/-- One turn of the loop of C `consoleread`. -/
def turn (s : State) (p : Fin NPROC) (ok : Bool) (target n : Nat) (got : List UInt8) : State :=
  if n = 0 then s.leave p got (target - n)
  else if s.cons.r = s.cons.w then
    if s.killed p = true then s.leave p got (-1) else s.goto p (.doze target n got)
  else if s.cons.head = ctrlD then
    if n < target then s.leave p got (target - n) else s.take.leave p (got ++ [s.cons.head]) (target - n)
  else if ok = false then s.take.leave p (got ++ [s.cons.head]) (target - n)
  else if s.cons.head = newline then s.take.leave p (got ++ [s.cons.head]) (target - (n - 1 : Nat))
  else s.take.goto p (.loop target (n - 1) (got ++ [s.cons.head]))

/-- One step. -/
def step (s : State) : Action → Option State
  | .read p n => if s.pc p = .out then some (s.goto p (.enter n)) else none
  | .acquire p =>
    if s.lock = none then
      match s.pc p with
      | .enter n => some ({ s with lock := some (.reader p) }.goto p (.loop n.toNat n.toNat []))
      | .awake target n got => some ({ s with lock := some (.reader p) }.goto p (.loop target n got))
      | _ => none
    else none
  | .run p ok =>
    match s.pc p with
    | .loop target n got => some (s.turn p ok target n got)
    | .doze target n got => some ({ s with lock := none }.goto p (.fall target n got))
    | .fall target n got => some (s.goto p (.asleep target n got))
    | _ => none
  | .kill p =>
    match s.pc p with
    | .fall _ _ _ => none
    | x => some ({ s with killed := update s.killed p true }.goto p x.wake)
  | .born p => if s.pc p = .out then some { s with killed := update s.killed p false } else none
  | .input ch me =>
    if s.lock = none ∧ ∀ p, me = some p → (s.pc p).sleeps = false then
      some { s with
        cons := s.cons.intr ch
        typed := s.typed.key ch
        lock := if commits s.cons ch then some (.intr me 0) else none }
    else none
  | .wake =>
    match s.lock with
    | some (.intr me k) =>
      if h : k < NPROC then
        if me = some ⟨k, h⟩ then some { s with lock := some (.intr me (k + 1)) }
        else
          match s.pc ⟨k, h⟩ with
          | .fall _ _ _ => none
          | x => some ({ s with lock := some (.intr me (k + 1)) }.goto ⟨k, h⟩ x.wake)
      else some { s with lock := none }
    | _ => none

def start (buf : Fin INPUT_BUF_SIZE → UInt8) : State where
  cons := ⟨buf, 0, 0, 0⟩
  lock := none
  pc _ := .out
  killed _ := false
  typed := ⟨[], [], []⟩
  took := []
  returns := []

end State

/-- What a call that goes on has taken is from the inside of a line, and all of it was delivered. -/
def Pc.Good : Pc → Prop
  | .out | .enter _ => True
  | .loop target n got | .doze target n got | .fall target n got | .asleep target n got | .awake target n got =>
    n + got.length = target ∧ ∀ b ∈ got, b ≠ newline ∧ b ≠ ctrlD

/-- A call has taken bytes of at most one line, and the end of file only as its one byte; then it returns 0. -/
structure Return.OneLine (x : Return) : Prop where
  line : ∀ b ∈ x.got.dropLast, b ≠ newline ∧ b ≠ ctrlD
  eof : ctrlD ∈ x.got → x.got = [ctrlD] ∧ x.ret = 0

/-- What holds of process `q` at `x`, if `l` holds the lock and `drained` says that nothing can be taken. -/
structure Ok (l : Option Holder) (drained : Prop) (q : Fin NPROC) (x : Pc) : Prop where
  held : l = some (.reader q) ↔ x.holds = true
  doze : ∀ t n got, x = .doze t n got → drained
  sleep : (∀ me k, l ≠ some (.intr me k)) → x.sleeps = true → drained
  woken : ∀ me k, l = some (.intr me k) → q.val < k ∨ me = some q → x.sleeps = false
  good : x.Good

structure Inv (s : State) : Prop where
  shows : Shows s.cons s.typed
  took : s.took = s.typed.taken
  ok : ∀ q, Ok s.lock (s.cons.r = s.cons.w) q (s.pc q)
  returns : ∀ x ∈ s.returns, x.OneLine

section ok
variable {l : Option Holder} {d d' : Prop} {p q : Fin NPROC} {x y : Pc} {me : Option (Fin NPROC)} {k : Nat}

lemma Ok.move (h : Ok l d q x) (hh : y.holds = x.holds) (hs : y.sleeps = true → x.sleeps = true)
    (hd : ∀ t n got, y = .doze t n got → d) (hg : y.Good) : Ok l d q y := by
  refine ⟨hh ▸ h.held, hd, fun hl hy => h.sleep hl (hs hy), fun me k hl hq => ?_, hg⟩
  exact Bool.eq_false_iff.2 fun hy => Bool.false_ne_true ((h.woken me k hl hq).symm.trans (hs hy))

lemma Ok.acquired (h : Ok none d q x) (hqp : q ≠ p) : Ok (some (.reader p)) d q x := by
  refine ⟨⟨fun hl => ?_, fun hx => nomatch h.held.2 hx⟩, h.doze, fun _ => h.sleep nofun, nofun, h.good⟩
  cases hl
  exact absurd rfl hqp

lemma Ok.released (h : Ok (some (.reader p)) d q x) (hqp : q ≠ p) (hd : d → d') : Ok none d' q x := by
  have hx : ¬ x.holds = true := fun hx => by
    have := h.held.2 hx
    cases this
    exact hqp rfl
  refine ⟨⟨nofun, fun h' => absurd h' hx⟩, fun t n got he => ?_, fun _ hs => hd (h.sleep nofun hs), nofun, h.good⟩
  subst he
  exact absurd rfl hx

lemma Ok.kept (h : Ok (some (.reader p)) d q x) (hd : d → d') : Ok (some (.reader p)) d' q x :=
  ⟨h.held, fun t n got he => hd (h.doze t n got he), fun hl hs => hd (h.sleep hl hs), nofun, h.good⟩

lemma Ok.alarmed (h : Ok none d q x) (hme : me = some q → x.sleeps = false) : Ok (some (.intr me 0)) d' q x := by
  have hx : ¬ x.holds = true := fun hx => nomatch h.held.2 hx
  refine ⟨⟨nofun, fun h' => absurd h' hx⟩, fun t n got he => ?_, fun hl => absurd rfl (hl me 0), fun me' k hl hq => ?_, h.good⟩
  · subst he
    exact absurd rfl hx
  · cases hl
    exact hme (hq.resolve_left (Nat.not_lt_zero _))

lemma Ok.visited (h : Ok (some (.intr me k)) d q x) (hk : q.val = k → x.sleeps = false) :
    Ok (some (.intr me (k + 1))) d q x := by
  have hx : ¬ x.holds = true := fun hx => nomatch h.held.2 hx
  refine ⟨⟨nofun, fun h' => absurd h' hx⟩, h.doze, fun hl => absurd rfl (hl me (k + 1)), fun me' k' hl hq => ?_, h.good⟩
  cases hl
  rcases hq with hq | hq
  · rcases Nat.lt_succ_iff_lt_or_eq.1 hq with hq | hq
    · exact h.woken me k rfl (.inl hq)
    · exact hk hq
  · exact h.woken me k rfl (.inr hq)

lemma Ok.calmed (h : Ok (some (.intr me k)) d q x) (hk : NPROC ≤ k) : Ok none d q x := by
  have hx : ¬ x.holds = true := fun hx => nomatch h.held.2 hx
  have hs := h.woken me k rfl (.inl (q.isLt.trans_le hk))
  refine ⟨⟨nofun, fun h' => absurd h' hx⟩, h.doze, fun _ hs' => ?_, nofun, h.good⟩
  exact absurd (hs.symm.trans hs') nofun

end ok

section
variable {s s' : State} {p q : Fin NPROC} {x : Pc} {t n : Nat} {got : List UInt8} {ch : UInt8} {me : Option (Fin NPROC)}

lemma ok_update {l : Option Holder} {d : Prop} (hp : Ok l d p x) (ho : ∀ q ≠ p, Ok l d q (s.pc q)) (q : Fin NPROC) :
    Ok l d q (update s.pc p x q) := by
  by_cases hqp : q = p
  · subst hqp
    rwa [update_self]
  · rw [update_of_ne hqp]
    exact ho q hqp

lemma Pc.wake_holds : x.wake.holds = x.holds := by
  cases x <;> rfl

lemma Pc.wake_sleeps (h : x.wake.sleeps = true) : x.sleeps = true := by
  cases x <;> first | exact h | cases h

lemma Pc.wake_good (h : x.Good) : x.wake.Good := by
  cases x <;> exact h

lemma Pc.wake_ne_doze (h : x.wake = .doze t n got) : x = .doze t n got := by
  cases x <;> first | exact h | cases h

lemma Pc.wake_awake (h : ∀ t n got, x ≠ .fall t n got) : x.wake.sleeps = false := by
  cases x with
  | fall t n got => exact absurd rfl (h t n got)
  | _ => rfl

lemma Ok.wake {l : Option Holder} {d : Prop} (h : Ok l d q x) : Ok l d q x.wake :=
  h.move Pc.wake_holds Pc.wake_sleeps (fun t n got he => h.doze t n got (Pc.wake_ne_doze he)) (Pc.wake_good h.good)

lemma Inv.read {m : Int} (h : Inv s) (hst : s.step (.read p m) = some s') : Inv s' := by
  rw [State.step] at hst
  split at hst
  · rename_i hpc
    cases hst
    have hp := h.ok p
    rw [hpc] at hp
    exact ⟨h.shows, h.took, ok_update (hp.move rfl nofun nofun trivial) fun q _ => h.ok q, h.returns⟩
  · cases hst

lemma Inv.acquire (h : Inv s) (hst : s.step (.acquire p) = some s') : Inv s' := by
  rw [State.step] at hst
  split at hst
  · rename_i hl
    have hok := h.ok
    rw [hl] at hok
    split at hst
    · cases hst
      refine ⟨h.shows, h.took, ok_update ⟨⟨fun _ => rfl, fun _ => rfl⟩, nofun, nofun, nofun, ?_⟩ fun q hqp => (hok q).acquired hqp,
        h.returns⟩
      exact ⟨rfl, nofun⟩
    · rename_i t n got hpc
      cases hst
      have hp := (hok p).good
      rw [hpc] at hp
      exact ⟨h.shows, h.took, ok_update ⟨⟨fun _ => rfl, fun _ => rfl⟩, nofun, nofun, nofun, hp⟩ fun q hqp => (hok q).acquired hqp,
        h.returns⟩
    · cases hst
  · cases hst

lemma Inv.take (h : Inv s) (hne : s.cons.r ≠ s.cons.w) :
    Shows s.take.cons s.take.typed ∧ s.take.took = s.take.typed.taken := by
  obtain ⟨b, l, hq⟩ := List.exists_cons_of_ne_nil (mt h.shows.r_eq_w.2 hne)
  obtain ⟨hb, hs⟩ := h.shows.take (b := b) (by rw [hq, List.tail_cons])
  refine ⟨hs, ?_⟩
  rw [State.take_took, State.take_typed, Typed.take, hq, h.took, hb]
  rfl

lemma Inv.leave {s₁ : State} {ret : Int} (h : Inv s) (hl : s.lock = some (.reader p)) (hshows : Shows s₁.cons s₁.typed)
    (htook : s₁.took = s₁.typed.taken) (hpc : s₁.pc = s.pc) (hreturns : s₁.returns = s.returns)
    (hd : s.cons.r = s.cons.w → s₁.cons.r = s₁.cons.w) (hx : Return.OneLine ⟨got, ret⟩) : Inv (s₁.leave p got ret) := by
  have hok := h.ok
  rw [hl] at hok
  refine ⟨hshows, htook, ?_, fun y hy => ?_⟩
  · rw [State.leave_pc, hpc]
    exact ok_update ⟨⟨nofun, nofun⟩, nofun, nofun, nofun, trivial⟩ fun q hqp => (hok q).released hqp hd
  · rw [State.leave_returns, hreturns] at hy
    rcases List.mem_cons.1 hy with rfl | hy
    · exact hx
    · exact h.returns y hy

lemma oneLine_snoc {b : UInt8} {ret : Int} (hg : ∀ b ∈ got, b ≠ newline ∧ b ≠ ctrlD) (hb : b ≠ ctrlD) :
    Return.OneLine ⟨got ++ [b], ret⟩ := by
  refine ⟨?_, fun hm => ?_⟩
  · rw [List.dropLast_concat]
    exact hg
  · rcases List.mem_append.1 hm with hm | hm
    · exact absurd rfl (hg _ hm).2
    · exact absurd (List.mem_singleton.1 hm).symm hb

lemma oneLine_got {ret : Int} (hg : ∀ b ∈ got, b ≠ newline ∧ b ≠ ctrlD) : Return.OneLine ⟨got, ret⟩ :=
  ⟨fun b hb => hg b (List.dropLast_subset _ hb), fun hm => absurd rfl (hg _ hm).2⟩

lemma Inv.turn {ok : Bool} (h : Inv s) (hpc : s.pc p = .loop t n got) : Inv (s.turn p ok t n got) := by
  have hp := h.ok p
  rw [hpc] at hp
  have hl : s.lock = some (.reader p) := hp.held.2 rfl
  obtain ⟨hlen, hg⟩ := hp.good
  have hok := h.ok
  rw [hl] at hok
  unfold State.turn
  split
  · exact h.leave hl h.shows h.took rfl rfl id (oneLine_got hg)
  rename_i hn
  split
  · rename_i hrw
    split
    · exact h.leave hl h.shows h.took rfl rfl id (oneLine_got hg)
    · refine ⟨h.shows, h.took, ok_update (hp.move rfl nofun (fun _ _ _ _ => hrw) ⟨hlen, hg⟩) fun q _ => h.ok q, h.returns⟩
  rename_i hrw
  obtain ⟨hshows, htook⟩ := h.take hrw
  -- nobody sleeps while there is something to take
  have hd : s.cons.r = s.cons.w → s.take.cons.r = s.take.cons.w := fun he => absurd he hrw
  split
  · rename_i heof
    split
    · exact h.leave hl h.shows h.took rfl rfl id (oneLine_got hg)
    · rename_i hlt
      have hnil : got = [] := List.length_eq_zero_iff.1 (by omega)
      refine h.leave hl hshows htook rfl rfl hd ?_
      rw [hnil, heof, List.nil_append]
      refine ⟨nofun, fun _ => ⟨rfl, ?_⟩⟩
      rw [hnil, List.length_nil] at hlen
      dsimp only
      omega
  rename_i heof
  split
  · exact h.leave hl hshows htook rfl rfl hd (oneLine_snoc hg heof)
  split
  · exact h.leave hl hshows htook rfl rfl hd (oneLine_snoc hg heof)
  · rename_i hnl
    have hgood : (Pc.loop t (n - 1) (got ++ [s.cons.head])).Good := by
      refine ⟨?_, fun b hb => ?_⟩
      · rw [List.length_append, List.length_singleton]
        omega
      · rcases List.mem_append.1 hb with hb | hb
        · exact hg b hb
        · rw [List.mem_singleton.1 hb]
          exact ⟨hnl, heof⟩
    refine ⟨hshows, htook, ?_, h.returns⟩
    rw [State.goto_lock, State.take_lock, hl, State.goto_pc, State.take_pc]
    exact ok_update ⟨⟨fun _ => rfl, fun _ => rfl⟩, nofun, nofun, nofun, hgood⟩ fun q _ => (hok q).kept hd

lemma Inv.run {ok : Bool} (h : Inv s) (hst : s.step (.run p ok) = some s') : Inv s' := by
  rw [State.step] at hst
  have hp := h.ok p
  split at hst
  · cases hst
    exact h.turn ‹_›
  · -- the lock is given up while nothing can be taken
    rename_i hpc
    cases hst
    rw [hpc] at hp
    have hl : s.lock = some (.reader p) := hp.held.2 rfl
    have hok := h.ok
    rw [hl] at hok
    refine ⟨h.shows, h.took, ok_update ⟨⟨nofun, nofun⟩, nofun, fun _ _ => hp.doze _ _ _ rfl, nofun, hp.good⟩ fun q hqp => ?_,
      h.returns⟩
    exact (hok q).released hqp id
  · rename_i hpc
    cases hst
    rw [hpc] at hp
    exact ⟨h.shows, h.took, ok_update (hp.move rfl (fun _ => rfl) nofun hp.good) fun q _ => h.ok q, h.returns⟩
  · cases hst

lemma Inv.kill (h : Inv s) (hst : s.step (.kill p) = some s') : Inv s' := by
  rw [State.step] at hst
  split at hst
  · cases hst
  · cases hst
    exact ⟨h.shows, h.took, ok_update (h.ok p).wake fun q _ => h.ok q, h.returns⟩

lemma Inv.born (h : Inv s) (hst : s.step (.born p) = some s') : Inv s' := by
  rw [State.step] at hst
  split at hst
  · cases hst
    exact ⟨h.shows, h.took, h.ok, h.returns⟩
  · cases hst

lemma kill_counters {c : Cons} {m : Nat} : (c.kill m).r = c.r ∧ (c.kill m).w = c.w := by
  induction m generalizing c with
  | zero => exact ⟨rfl, rfl⟩
  | succ m ih =>
    rw [Cons.kill]
    split
    · exact ih
    · exact ⟨rfl, rfl⟩

lemma intr_counters {c : Cons} : (c.intr ch).r = c.r ∧ (commits c ch = false → (c.intr ch).w = c.w) := by
  unfold Cons.intr
  split
  · exact ⟨rfl, fun _ => rfl⟩
  split
  · exact ⟨kill_counters.1, fun _ => kill_counters.2⟩
  split
  · split <;> exact ⟨rfl, fun _ => rfl⟩
  split
  · dsimp only
    by_cases hend : (if ch = 13 then newline else ch) = newline ∨ (if ch = 13 then newline else ch) = ctrlD ∨
        ((c.e + 1) % 2 ^ 32 + 2 ^ 32 - c.r) % 2 ^ 32 = INPUT_BUF_SIZE
    · rw [if_pos hend]
      rename_i hP hU hH h0
      have htrue : commits c ch = true := decide_eq_true ⟨hP, hU, hH, h0.1, h0.2, hend⟩
      exact ⟨rfl, fun hc => absurd (hc.symm.trans htrue) nofun⟩
    · rw [if_neg hend]
      exact ⟨rfl, fun _ => rfl⟩
  · exact ⟨rfl, fun _ => rfl⟩

lemma Inv.input (h : Inv s) (hst : s.step (.input ch me) = some s') : Inv s' := by
  rw [State.step] at hst
  split at hst
  · rename_i hc
    cases hst
    have hok := h.ok
    rw [hc.1] at hok
    have htook : s.took = (s.typed.key ch).taken := by
      obtain ⟨-, -, ht⟩ := @Typed.key_queue s.typed ch
      rw [ht, h.took]
    refine ⟨h.shows.key, htook, fun q => ?_, h.returns⟩
    dsimp only
    split
    · exact (hok q).alarmed fun hq => hc.2 q hq
    · rename_i hnc
      obtain ⟨hr, hw⟩ := @intr_counters ch s.cons
      rw [hr, hw (Bool.eq_false_iff.2 hnc)]
      exact hok q
  · cases hst

lemma Inv.wake (h : Inv s) (hst : s.step .wake = some s') : Inv s' := by
  rw [State.step] at hst
  split at hst
  · rename_i me k hl
    have hok := h.ok
    rw [hl] at hok
    split at hst
    · rename_i hk
      split at hst
      · rename_i hme
        cases hst
        refine ⟨h.shows, h.took, fun q => (hok q).visited fun hq => ?_, h.returns⟩
        have hqk : q = ⟨k, hk⟩ := Fin.ext hq
        exact (hok q).woken me k rfl (.inr (hqk ▸ hme))
      · split at hst
        · cases hst
        · rename_i hnf
          cases hst
          refine ⟨h.shows, h.took, ok_update ((hok _).wake.visited fun _ => ?_) fun q hqp => (hok q).visited fun hq => ?_,
            h.returns⟩
          · exact Pc.wake_awake hnf
          · exact absurd (Fin.ext hq) hqp
    · cases hst
      exact ⟨h.shows, h.took, fun q => (hok q).calmed (Nat.le_of_not_lt ‹_›), h.returns⟩
  · cases hst

lemma Inv.step {a : Action} (h : Inv s) (hst : s.step a = some s') : Inv s' := by
  cases a with
  | read p n => exact h.read hst
  | acquire p => exact h.acquire hst
  | run p ok => exact h.run hst
  | kill p => exact h.kill hst
  | born p => exact h.born hst
  | input ch me => exact h.input hst
  | wake => exact h.wake hst

lemma Inv.start {buf : Fin INPUT_BUF_SIZE → UInt8} : Inv (State.start buf) := by
  refine ⟨⟨.nil (Nat.two_pow_pos 32), rfl, rfl, List.not_mem_nil⟩, rfl, fun q => ⟨⟨nofun, nofun⟩, nofun, nofun, nofun, trivial⟩, nofun⟩

end

/-- The discipline of the console in a state.
    * `order`: the counters are in order, and at most a buffer apart.
    * `took`: what readers have taken, and what is in the buffer up to the write counter, are the committed characters.
    * `keys`: a key changes nothing of that, and adds to what is committed.
    * `line`: calls take bytes of at most one line.
    * `eof`: an end of file is left to the next call, if there are bytes before it, and otherwise the call returns 0.
    * `sleep`: readers sleep only while there is nothing to take. -/
structure Disciplined (s : State) : Prop where
  order : ∃ a b, s.cons.w = (s.cons.r + a) % 2 ^ 32 ∧ s.cons.e = (s.cons.w + b) % 2 ^ 32 ∧ a + b ≤ INPUT_BUF_SIZE
  took : ∃ l, s.typed.committed = s.took ++ l ∧ s.cons.w = (s.cons.r + l.length) % 2 ^ 32 ∧
    ∀ k (h : k < l.length), s.cons.buf (Cons.ix (s.cons.r + k)) = l[k]
  keys : ∀ ch me s', s.step (.input ch me) = some s' → s'.cons.r = s.cons.r ∧ s'.took = s.took ∧
    s.typed.committed <+: s'.typed.committed
  line : ∀ x ∈ s.returns, x.OneLine
  eof : ∀ p ok t n got, s.pc p = .loop t n got → n ≠ 0 → s.cons.r ≠ s.cons.w → s.cons.head = ctrlD →
    ∃ s', s.step (.run p ok) = some s' ∧ s'.pc p = .out ∧
      (got ≠ [] → s'.cons = s.cons ∧ s'.returns = ⟨got, got.length⟩ :: s.returns) ∧
      (got = [] → s'.cons = s.cons.advance ∧ s'.returns = ⟨[ctrlD], 0⟩ :: s.returns)
  sleep : s.lock = none → ∀ p t n got, s.pc p = .asleep t n got → s.cons.r = s.cons.w

section
variable {s : State}

lemma Inv.eof {p : Fin NPROC} {ok : Bool} {t n : Nat} {got : List UInt8} (h : Inv s) (hpc : s.pc p = .loop t n got)
    (hn : n ≠ 0) (hrw : s.cons.r ≠ s.cons.w) (hd : s.cons.head = ctrlD) :
    ∃ s', s.step (.run p ok) = some s' ∧ s'.pc p = .out ∧
      (got ≠ [] → s'.cons = s.cons ∧ s'.returns = ⟨got, got.length⟩ :: s.returns) ∧
      (got = [] → s'.cons = s.cons.advance ∧ s'.returns = ⟨[ctrlD], 0⟩ :: s.returns) := by
  have hgood := (h.ok p).good
  rw [hpc] at hgood
  obtain ⟨hlen, -⟩ := hgood
  refine ⟨s.turn p ok t n got, by rw [State.step, hpc], ?_⟩
  rw [State.turn, if_neg hn, if_neg hrw, if_pos hd]
  by_cases hg : got = []
  · subst hg
    rw [List.length_nil, Nat.add_zero] at hlen
    subst hlen
    rw [if_neg (Nat.lt_irrefl n)]
    refine ⟨update_self _ _ _, fun hne => absurd rfl hne, fun _ => ⟨rfl, ?_⟩⟩
    rw [State.leave_returns, hd, Int.sub_self]
    rfl
  · have hpos := List.length_pos_of_ne_nil hg
    rw [if_pos (by omega)]
    refine ⟨update_self _ _ _, fun _ => ⟨rfl, ?_⟩, fun he => absurd he hg⟩
    rw [State.leave_returns, show (t - n : Int) = got.length by omega]

lemma Inv.keys {ch : UInt8} {me : Option (Fin NPROC)} {s' : State} (hst : s.step (.input ch me) = some s') :
    s'.cons.r = s.cons.r ∧ s'.took = s.took ∧ s.typed.committed <+: s'.typed.committed := by
  rw [State.step] at hst
  split at hst
  · cases hst
    obtain ⟨l, hq, ht⟩ := @Typed.key_queue s.typed ch
    refine ⟨intr_counters.1, rfl, l, ?_⟩
    rw [Typed.committed, Typed.committed, hq, ht, List.append_assoc]
  · cases hst

lemma Inv.disciplined (h : Inv s) : Disciplined s := by
  obtain ⟨hw, he, hle⟩ := h.shows.distances
  refine ⟨⟨_, _, hw, he, hle⟩, ⟨s.typed.queue, ?_, hw, fun k hk => ?_⟩, fun _ _ _ => Inv.keys, h.returns,
    fun p ok t n got => h.eof, fun hl p t n got hpc => ?_⟩
  · rw [h.took, Typed.committed]
  · have hc := h.shows.ring.cell k (by rw [List.length_append]; omega)
    rw [List.getElem_append_left hk] at hc
    exact hc
  · exact (h.ok p).sleep (by rw [hl]; nofun) (by rw [hpc]; rfl)

/-- The console keeps its discipline in every run: any keys, readers that read any number of bytes, and any interleaving of
them. -/
theorem console_disciplined {buf : Fin INPUT_BUF_SIZE → UInt8} {as : List Action}
    (h : exec State.step (State.start buf) as = some s) : Disciplined s :=
  (exec_invariant (fun hI hst => hI.step hst) .start h : Inv s).disciplined

/-- A reader waits for a line, and `a`, a backspace, `b` and a carriage return are typed. -/
theorem console_disciplined_line :
    ∃ s, exec State.step (State.start fun _ => 0)
        [.read 0 5, .acquire 0, .run 0 true, .run 0 true, .run 0 true, .input 97 none, .input 8 none, .input 98 none,
          .input 13 none, .wake] = some s ∧ s.typed.committed = [98, newline] ∧ Disciplined s := by
  obtain ⟨s, h⟩ : ∃ s, exec State.step (State.start fun _ => 0)
      [.read 0 5, .acquire 0, .run 0 true, .run 0 true, .run 0 true, .input 97 none, .input 8 none, .input 98 none,
        .input 13 none, .wake] = some s := ⟨_, rfl⟩
  refine ⟨s, h, ?_, console_disciplined h⟩
  cases h
  rfl

end

end Xv6n.Console
