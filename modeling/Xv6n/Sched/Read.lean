import Xv6n.Vm.Ownership
import Xv6n.Sched.Step

/-!
# Reads into user memory

`piperead` and `consoleread` take a byte out of their queue before they know whether it can be stored, so
a byte is lost when the destination is not mapped. `consoleread` also forgets what it has delivered when it
is killed while it waits for more. Otherwise exactly the bytes that were taken are stored and reported.
-/

namespace Xv6n.Sched
open Lib KernM Function

/-- How a wait for input ends: the process still sleeps, has been killed, or goes on. -/
inductive Waited (σ : Type) where
  | asleep
  | killed (q : σ)
  | ready (killed : Bool) (q : σ) (wakes : List (Bool × σ))

/-- Sleep while there is no input. `wakes` is what the process finds when it has been woken: whether it is
    killed, and the queue. -/
def await {σ : Type} (blocked : σ → Bool) (killed : Bool) (q : σ) (wakes : List (Bool × σ)) : Waited σ :=
  if blocked q then
    if killed then .killed q
    else
      match wakes with
      | [] => .asleep
      | (killed, q) :: wakes => await blocked killed q wakes
  else .ready killed q wakes

/-- What a read returns, the bytes that it has taken out of its queue, and the queue that it leaves. -/
structure Read (σ : Type) where
  ret : Int
  taken : List UInt8
  queue : σ

/-- The copy loop of C `piperead`, with `m` turns to go. -/
def pipereadLoop (pagetable addr : Nat) : Nat → Nat → Pipe → List UInt8 → KernM (Read Pipe)
  | 0, i, p, taken => return ⟨i, taken, p⟩
  | m + 1, i, p, taken => do
    if p.Empty then
      return ⟨i, taken, p⟩
    let ok ← copyout pagetable ((addr + i) % 2 ^ 64) [p.head]
    if ok then
      pipereadLoop pagetable addr m (i + 1) p.advance (taken ++ [p.head])
    else
      return ⟨i, taken ++ [p.head], p.advance⟩

/-- Read from a pipe; `none` if the process sleeps at the end of `wakes`. -/
def piperead (pagetable addr : Nat) (n : Int) (killed : Bool) (p : Pipe) (wakes : List (Bool × Pipe)) :
    KernM (Option (Read Pipe)) :=
  match await (fun p => p.Empty ∧ p.writeopen = true) killed p wakes with
  | .asleep => return none
  | .killed p => return some ⟨-1, [], p⟩
  | .ready _ p _ => return some (← pipereadLoop pagetable addr n.toNat 0 p [])

/-- The loop of C `consoleread`, with `n` bytes to go. An end of file that follows other bytes stays in the
    queue. -/
def consolereadLoop (pagetable target : Nat) : Nat → Nat → Bool → Cons → List (Bool × Cons) → List UInt8 →
    KernM (Option (Read Cons))
  | 0, _, _, c, _, taken => return some ⟨target, taken, c⟩
  | n + 1, dst, killed, c, wakes, taken =>
    match await (fun c => c.r = c.w) killed c wakes with
    | .asleep => return none
    | .killed c => return some ⟨-1, taken, c⟩
    | .ready killed c wakes => do
      if c.head = ctrlD then
        return some ⟨target - (n + 1), taken, if n + 1 < target then c else c.advance⟩
      let ok ← copyout pagetable dst [c.head]
      if ok then
        if c.head = newline then
          return some ⟨target - n, taken ++ [c.head], c.advance⟩
        else
          consolereadLoop pagetable target n ((dst + 1) % 2 ^ 64) killed c.advance wakes (taken ++ [c.head])
      else
        return some ⟨target - (n + 1), taken ++ [c.head], c.advance⟩

/-- Read from the console to user memory; `none` if the process sleeps at the end of
    `wakes`. -/
def consoleread (pagetable dst : Nat) (n : Int) (killed : Bool) (c : Cons) (wakes : List (Bool × Cons)) :
    KernM (Option (Read Cons)) :=
  consolereadLoop pagetable n.toNat n.toNat dst killed c wakes []

section
variable {t : State} {i : Fin NPROC} {n : Int} {k : Nat} {o : Outcome}

lemma step_readCopy (hrun : (t.slot i).state = .running) (hpc : t.pc i = .readCopy n k) :
    t.step (.run i o) = if (k : Int) < n ∧ ¬ t.pipe.Empty then
      if o.ok = true then some (({ t with pipe := t.pipe.advance }).goto i (.readCopy n (k + 1)))
      else some (({ t with pipe := t.pipe.advance }).goto i (.wakeup (some .nwrite) 0 (.readEnd n k true)))
    else some (t.goto i (.wakeup (some .nwrite) 0 (.readEnd n k false))) := by
  rw [State.step, if_pos hrun, State.run, hpc]
  dsimp only
  rw [State.runPipe, hpc]

/-- Steps of process `i` bring the concurrent model from `t` to the end of the read `res`. -/
def Reads (t : State) (i : Fin NPROC) (n : Int) (res : Read Pipe) : Prop :=
  ∃ os : List Outcome, ∃ t' f, exec State.step t (os.map (.run i)) = some t' ∧ t'.pipe = res.queue ∧
    t'.pc i = .wakeup (some .nwrite) 0 (.readEnd n res.ret.toNat f)

lemma Reads.last {t' : State} {res : Read Pipe} {f} (h : t.step (.run i o) = some t')
    (h1 : t'.pipe = res.queue) (h2 : t'.pc i = .wakeup (some .nwrite) 0 (.readEnd n res.ret.toNat f)) :
    Reads t i n res :=
  ⟨[o], t', f, exec_cons.2 ⟨t', h, rfl⟩, h1, h2⟩

lemma Reads.stop {l : List UInt8} (hrun : (t.slot i).state = .running) (hpc : t.pc i = .readCopy n k)
    (hn : ¬ ((k : Int) < n ∧ ¬ t.pipe.Empty)) : Reads t i n ⟨k, l, t.pipe⟩ := by
  have hst := step_readCopy (o := ⟨true, 0, 0, 0⟩) hrun hpc
  rw [if_neg hn] at hst
  refine .last (f := false) hst rfl ?_
  rw [State.goto_pc, update_self]
  rfl

end

/-- The byte of user memory at `va`. -/
def userByte (s : Kernel) (r va : Nat) : Option UInt8 :=
  (userPage s.mem r va).map fun pa => s.mem (pa + va % PGSIZE)

/-- The bytes `l` are in user memory from `addr` on, and nothing has been mapped or unmapped since `s`. -/
structure Stored (s s' : Kernel) (r addr : Nat) (l : List UInt8) : Prop where
  page : ∀ va, userPage s'.mem r va = userPage s.mem r va
  byte : ∀ k (h : k < l.length), userByte s' r ((addr + k) % 2 ^ 64) = some l[k]

section
variable {s s' s1 : Kernel} {r va addr : Nat} {b : UInt8} {l : List UInt8}

lemma Stored.nil : Stored s s r addr [] := ⟨fun _ => rfl, nofun⟩

lemma Stored.mapped (h : Stored s s' r addr l) {k : Nat} (hk : k < l.length) :
    (userPage s.mem r ((addr + k) % 2 ^ 64)).isSome := by
  have hb := h.byte k hk
  unfold userByte at hb
  rw [h.page] at hb
  obtain ⟨pa, hpa, -⟩ := Option.map_eq_some_iff.1 hb
  rw [hpa]
  rfl

lemma wp_copyout_byte {E} {Q : Bool → Kernel → Prop} (hva : va < 2 ^ 64) :
    wp (copyout r va [b]) Q E s ↔
      match userPage s.mem r va with
      | none => Q false s
      | some pa => Q true { s with mem := Lib.putBytes s.mem (pa + va % PGSIZE) [b] } := by
  have hlt : va % PGSIZE < PGSIZE := Nat.mod_lt _ (by decide)
  unfold copyout
  rw [List.length_singleton, copyoutLoop, List.length_singleton, if_neg (by decide)]
  rw [wp_bind, wp_walkaddr, userPage_roundDown hva, sub_pgRoundDown hva]
  cases userPage s.mem r va with
  | none =>
    dsimp only
    rw [wp_pure]
  | some pa =>
    dsimp only
    rw [wp_bind, wp_putBytes, show min (PGSIZE - va % PGSIZE) 1 = 1 by omega, copyoutLoop, wp_pure]
    rfl

end

section
variable [Layout] {s s1 : Kernel} {own : Nat → Owner} {held : List Nat} {extra : Fin NFILE → Nat}
  {i : Fin NPROC} {r addr va pa : Nat} {b : UInt8} {l : List UInt8}

lemma userPage_slot (hi : Inv s own held extra) (h0 : (s.proc i).pagetable ≠ 0)
    (hpa : userPage s.mem (s.proc i).pagetable va = some pa) :
    own pa = .slot (s.proc i).pagetable (leafPath (va / PGSIZE)) ∧ va / PGSIZE < NLEAF ∧
      pa % PGSIZE = 0 := by
  obtain ⟨_, sh⟩ := (hi.proc i).shape h0
  unfold userPage at hpa
  split at hpa
  · rename_i hc
    cases hpa
    have hlt : va / PGSIZE < NLEAF := by
      have := hc.1
      simp only [MAXVA, PGSIZE, NLEAF] at *
      omega
    refine ⟨(hi.heap.leaf_iff ⟨h0, i, rfl⟩ hlt fun ht => hc.2.2.1 (sh.hidden _ ht)).2 ⟨hc.2.1, rfl⟩, hlt, ?_⟩
    rw [pte2pa_eq]
    exact Nat.mul_mod_left ..
  · cases hpa

lemma userPage_inj {va' pa' : Nat} (hi : Inv s own held extra) (h0 : (s.proc i).pagetable ≠ 0)
    (hpa : userPage s.mem (s.proc i).pagetable va = some pa)
    (hpa' : userPage s.mem (s.proc i).pagetable va' = some pa')
    (h : pa + va % PGSIZE = pa' + va' % PGSIZE) : va = va' := by
  obtain ⟨h1, h2, h3⟩ := userPage_slot hi h0 hpa
  obtain ⟨h4, h5, h6⟩ := userPage_slot hi h0 hpa'
  have hmod : va % PGSIZE = va' % PGSIZE ∧ pa = pa' := by
    simp only [PGSIZE] at *
    omega
  obtain ⟨hm, rfl⟩ := hmod
  rw [h1] at h4
  have hd := leafPath_inj h2 h5 (Owner.slot.inj h4).2
  simp only [PGSIZE] at *
  omega

lemma Stored.snoc (st : Stored s s1 (s1.proc i).pagetable addr l) (hi : Inv s1 own held extra)
    (h0 : (s1.proc i).pagetable ≠ 0) (hl : l.length < 2 ^ 64)
    (hpa : userPage s1.mem (s1.proc i).pagetable ((addr + l.length) % 2 ^ 64) = some pa) :
    Inv { s1 with mem := Lib.putBytes s1.mem (pa + (addr + l.length) % 2 ^ 64 % PGSIZE) [b] }
        own held extra ∧
      Stored s { s1 with mem := Lib.putBytes s1.mem (pa + (addr + l.length) % 2 ^ 64 % PGSIZE) [b] }
        (s1.proc i).pagetable addr (l ++ [b]) := by
  generalize hva : (addr + l.length) % 2 ^ 64 = va at hpa ⊢
  generalize hs2 : { s1 with mem := Lib.putBytes s1.mem (pa + va % PGSIZE) [b] } = s2
  obtain ⟨hslot, -, hmod⟩ := userPage_slot hi h0 hpa
  have hoff : va % PGSIZE < PGSIZE := Nat.mod_lt _ (by decide)
  have w : Wrote (UserOf own (s1.proc i).pagetable) s1 s2 := by
    rw [← hs2]
    exact wrote_putBytes hmod hoff ⟨_, hslot⟩
  have hpage : ∀ va, userPage s2.mem (s1.proc i).pagetable va =
      userPage s1.mem (s1.proc i).pagetable va := by
    intro va
    unfold userPage
    rw [w.pteAt hi.heap (fun p => UserOf.not_links) fun _ => ⟨h0, i, rfl⟩]
  refine ⟨hi.writeUser w, fun va => (hpage va).trans (st.page va), fun k hk => ?_⟩
  unfold userByte
  rw [hpage]
  by_cases hkl : k < l.length
  · -- The byte was there before, at another physical address.
    have hb := st.byte k hkl
    unfold userByte at hb
    obtain ⟨pa', hpa', hb⟩ := Option.map_eq_some_iff.1 hb
    rw [hpa', Option.map_some, List.getElem_append_left hkl, Option.some_inj, ← hb, ← hs2]
    refine putBytes_of_out ?_
    have hne : pa' + (addr + k) % 2 ^ 64 % PGSIZE ≠ pa + va % PGSIZE := by
      intro e
      have := userPage_inj hi h0 hpa' hpa e
      rw [← hva] at this
      omega
    rw [List.length_singleton]
    omega
  · have hkl : k = l.length := by
      rw [List.length_append, List.length_singleton] at hk
      omega
    subst hkl
    rw [hva, hpa, Option.map_some, List.getElem_append_right (le_refl _), ← hs2]
    simp [Lib.putBytes]

/-- How a read ends: everything that was taken is stored and reported, or the last byte is lost because it
    could not be stored, or the process was killed. -/
inductive Outcomes {σ : Type} (s s' : Kernel) (r addr : Nat) (res : Read σ) : Prop where
  | all : res.ret = res.taken.length → Stored s s' r addr res.taken → Outcomes s s' r addr res
  | fault (l : List UInt8) (b : UInt8) : res.taken = l ++ [b] → res.ret = l.length →
    Stored s s' r addr l → userPage s.mem r ((addr + l.length) % 2 ^ 64) = none →
    Outcomes s s' r addr res
  | killed : res.ret = -1 → Stored s s' r addr res.taken → Outcomes s s' r addr res

lemma pipereadLoop_spec {m k p} (hi : Inv s1 own held extra) (h0 : (s1.proc i).pagetable ≠ 0)
    (st : Stored s s1 (s1.proc i).pagetable addr l) (hk : k = l.length) (hm : m + k ≤ 2 ^ 31) :
    wp (pipereadLoop (s1.proc i).pagetable addr m k p l)
      (fun res s' => Outcomes s s' (s1.proc i).pagetable addr res ∧ 0 ≤ res.ret) Never s1 := by
  induction m generalizing s1 k p l with
  | zero =>
    rw [pipereadLoop, wp_pure]
    subst hk
    exact ⟨.all rfl st, Int.natCast_nonneg _⟩
  | succ m ih =>
    subst hk
    rw [pipereadLoop, wp_ite]
    refine ⟨fun _ => ?_, fun _ => ?_⟩
    · rw [wp_pure]
      exact ⟨.all rfl st, Int.natCast_nonneg _⟩
    · rw [wp_bind, wp_copyout_byte (Nat.mod_lt _ (by decide))]
      cases hpa : userPage s1.mem (s1.proc i).pagetable ((addr + l.length) % 2 ^ 64) with
      | none =>
        dsimp only
        rw [if_neg (by decide), wp_pure]
        rw [st.page] at hpa
        exact ⟨.fault l p.head rfl rfl st hpa, Int.natCast_nonneg _⟩
      | some pa =>
        dsimp only
        rw [if_pos rfl]
        obtain ⟨hi2, st2⟩ := st.snoc (b := p.head) hi h0 (by omega) hpa
        refine ih hi2 h0 st2 ?_ (by omega)
        rw [List.length_append, List.length_singleton]

lemma consolereadLoop_spec {target n dst killed c wakes} (hi : Inv s1 own held extra)
    (h0 : (s1.proc i).pagetable ≠ 0) (st : Stored s s1 (s1.proc i).pagetable addr l)
    (hn : n + l.length = target) (ht : target ≤ 2 ^ 31) (hd : dst = (addr + l.length) % 2 ^ 64) :
    wp (consolereadLoop (s1.proc i).pagetable target n dst killed c wakes l)
      (fun a s' => ∀ res, a = some res → Outcomes s s' (s1.proc i).pagetable addr res) Never s1 := by
  induction n generalizing s1 dst killed c wakes l with
  | zero =>
    rw [consolereadLoop, wp_pure]
    intro res e
    cases e
    exact .all (by dsimp only; omega) st
  | succ n ih =>
    rw [consolereadLoop]
    cases await (fun c => decide (c.r = c.w)) killed c wakes with
    | asleep =>
      dsimp only
      rw [wp_pure]
      nofun
    | killed c =>
      dsimp only
      rw [wp_pure]
      intro res e
      cases e
      exact .killed rfl st
    | ready killed c wakes =>
      dsimp only
      rw [wp_ite]
      refine ⟨fun _ => ?_, fun _ => ?_⟩
      · rw [wp_pure]
        intro res e
        cases e
        exact .all (by dsimp only; omega) st
      · subst hd
        rw [wp_bind, wp_copyout_byte (Nat.mod_lt _ (by decide))]
        cases hpa : userPage s1.mem (s1.proc i).pagetable ((addr + l.length) % 2 ^ 64) with
        | none =>
          dsimp only
          rw [if_neg (by decide), wp_pure]
          rw [st.page] at hpa
          intro res e
          cases e
          exact .fault l c.head rfl (by dsimp only; omega) st hpa
        | some pa =>
          dsimp only
          obtain ⟨hi2, st2⟩ := st.snoc (b := c.head) hi h0 (by omega) hpa
          have hlen : (l ++ [c.head]).length = l.length + 1 := by
            rw [List.length_append, List.length_singleton]
          rw [if_pos rfl, wp_ite]
          refine ⟨fun _ => ?_, fun _ => ?_⟩
          · rw [wp_pure]
            intro res e
            cases e
            exact .all (by dsimp only; omega) st2
          · refine ih hi2 h0 st2 (by omega) ?_
            rw [hlen, Nat.mod_add_mod, Nat.add_assoc]

/-- The bytes taken are exactly the bytes stored from `addr` on, and as many are reported. -/
def Delivered {σ : Type} (s' : Kernel) (r addr : Nat) (res : Read σ) : Prop :=
  res.ret.toNat = res.taken.length ∧
    ∀ k (h : k < res.taken.length), userByte s' r ((addr + k) % 2 ^ 64) = some res.taken[k]

def Mapped {σ : Type} (s : Kernel) (r addr : Nat) (res : Read σ) : Prop :=
  ∀ k, k < res.taken.length → (userPage s.mem r ((addr + k) % 2 ^ 64)).isSome = true

omit [Layout] in
lemma Outcomes.delivered_iff {σ : Type} {s' : Kernel} {res : Read σ} (h : Outcomes s s' r addr res) :
    Delivered s' r addr res ↔ Mapped s r addr res ∧ ¬ (res.ret = -1 ∧ res.taken ≠ []) := by
  cases h with
  | all h1 st =>
    refine ⟨fun _ => ⟨fun k => st.mapped, fun e => ?_⟩, fun _ => ⟨?_, st.byte⟩⟩
    · omega
    · rw [h1, Int.toNat_natCast]
  | fault l b h1 h2 st hn =>
    have hlen : res.taken.length = l.length + 1 := by
      rw [h1, List.length_append, List.length_singleton]
    refine ⟨fun h => ?_, fun h => ?_⟩
    · have := h.1
      omega
    · have := h.1 l.length (by omega)
      rw [hn] at this
      cases this
  | killed h1 st =>
    refine ⟨fun h => ⟨fun k => st.mapped, fun e => e.2 ?_⟩, fun h => ⟨?_, st.byte⟩⟩
    · rw [← List.length_eq_zero_iff, ← h.1, h1]
      rfl
    · have : res.taken = [] := by
        by_contra hne
        exact h.2 ⟨h1, hne⟩
      rw [this, h1]
      rfl

end

end Xv6n.Sched
