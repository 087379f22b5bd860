import Xv6n.Bio.Txn

/-!
# Blocks of a transaction stay in the cache

What `log_write` pins stays in the cache until `install_trans` has written it home. Each process has a private
record of the buffers that it holds and, if it runs `commit`, of how far that is.
-/

namespace Xv6n.Bio.Txn
open Lib Function

/-- How far a `commit` is: the transaction, the blocks that are in the log and those that are installed. -/
structure Commit where
  block : List Nat
  latest : Nat → Block
  copied : Nat
  installed : Nat

/-- What a process knows: where it is in a call of the cache, the buffers that it holds, the contents of one
    of them, and its `commit`. -/
structure Local where
  pc : Pc
  held : BufId → Option Key
  knows : Option (BufId × Block)
  commit : Option Commit

variable {ι : Type} [Fintype ι] [DecidableEq ι]

/-- Buffer `b` has block `n` of the log's device, with what was last written to it and one pin. -/
structure State.Pinned (s : State ι) (b : BufId) (n : Nat) : Prop where
  has : (s.bio.cache.buf b).Has s.dev n
  valid : (s.bio.cache.buf b).valid = true
  data : (s.bio.cache.buf b).data = s.latest n
  pin : s.bio.pins b = 1

/-- The disk has `d` in block `n`, and so has the cache if it has the block. -/
def State.Clean (s : State ι) (n : Nat) (d : Block) : Prop :=
  s.bio.disk ⟨s.dev, n⟩ = d ∧
    ∀ b, (s.bio.cache.buf b).Has s.dev n → (s.bio.cache.buf b).valid = true → (s.bio.cache.buf b).data = d

/-- A `commit` is under way. -/
structure State.Committing (s : State ι) (c : Commit) : Prop where
  committing : s.log.committing = true
  outstanding : s.log.outstanding = 0
  block : c.block = s.log.block
  latest : c.latest = s.latest
  installed : c.installed = s.installed
  clean : ∀ k n, k < c.copied → s.log.block[k]? = some n → s.Clean (s.log.start + k + 1) (s.latest n)

structure Core (g : ι → Local) (s : State ι) : Prop where
  bio : Bio.Inv s.bio
  pc : ∀ i, s.bio.pc i = (g i).pc
  held : ∀ i, s.bio.held i = (g i).held
  valid : ∀ i b k, (g i).held b = some k → (s.bio.cache.buf b).valid = true
  knows : ∀ i b d, (g i).knows = some (b, d) → ((g i).held b).isSome ∧ (s.bio.cache.buf b).data = d

structure Ops (g : ι → Local) (s : State ι) : Prop where
  count : s.log.outstanding = (∑ i, (s.inOp i).toNat : Nat)
  busy : ∀ i c, (g i).commit = some c → s.Committing c
  one : ∀ i j, (g i).commit.isSome → (g j).commit.isSome → i = j
  quiet : (∀ i, (g i).commit = none) → s.log.committing = false ∧ s.installed = 0

/-- The blocks of the transaction and the pins. -/
structure Pins (s : State ι) : Prop where
  nodup : s.log.block.Nodup
  fits : s.log.block.length ≤ s.log.size - 1
  out : ∀ n ∈ s.log.block, ¬ s.InLog n
  pinned : ∀ n ∈ s.log.block.drop s.installed, ∃ b, s.Pinned b n
  free : ∀ b, s.bio.pins b ≠ 0 →
    (s.bio.cache.buf b).dev = s.dev ∧ (s.bio.cache.buf b).blockno ∈ s.log.block.drop s.installed

/-- What holds between any two actions; the log begins at block `start` of device `dev`. -/
structure Inv (dev start : Nat) (g : ι → Local) (s : State ι) : Prop where
  dev : s.dev = dev ∧ dev ≠ 0
  start : s.log.start = start
  core : Core g s
  ops : Ops g s
  pins : Pins s

/-- What every action guarantees: no pin is left when `commit` has returned, and when the header of a
    transaction is written the log has what was last written to each of its blocks. -/
structure Guar (s s' : State ι) : Prop where
  returns : s.log.committing = true → s'.log.committing = false → ∀ b, s.bio.pins b = 0
  head : s'.bio.disk ⟨s.dev, s.log.start⟩ ≠ s.bio.disk ⟨s.dev, s.log.start⟩ → ∀ k n,
    s.log.block[k]? = some n → s.bio.disk ⟨s.dev, s.log.start + k + 1⟩ = s.latest n

omit [Fintype ι] [DecidableEq ι] in
lemma Guar.of_eq {s s' : State ι} (hc : s'.log.committing = s.log.committing) (hd : s'.bio.disk = s.bio.disk) :
    Guar s s' where
  returns h1 h2 := by
    rw [hc, h1] at h2
    cases h2
  head h := absurd (by rw [hd]) h

/-- Process `i` with record `l` runs `p` and ends with `Q`. -/
abbrev Runs {α : Type} (dev start : Nat) (i : ι) (p : TxnM α) (l : Local) (Q : α → Local → Prop) : Prop :=
  Safe (fun i _ e => Act.run i e) (Inv dev start) Guar (fun _ => True) i p l Q

variable {dev start : Nat} {g : ι → Local} {s : State ι} {i j : ι} {l : Local} {b : BufId} {k : Key} {n : Nat}
  {d : Block} {x : Bio.State ι} {c : Commit} {m : Bio.Move ι} {b' : BufId} {lat : Nat → Block} {s' : State ι}

omit [Fintype ι] [DecidableEq ι] in
lemma Turns.same {disk : Key → Block} {x y : Buf ι} (h : x.Turns disk y) (hr : 0 < x.refcnt)
    (hv : x.valid = true) : y.Has x.dev x.blockno ∧ y.valid = true ∧ y.data = x.data := by
  cases h with
  | keep hk hv' hd => exact ⟨hk, hv'.trans hv, hd⟩
  | recycle h0 => omega
  | fill _ hf =>
    rw [hv] at hf
    cases hf

lemma Core.refcnt_pos (h : Core g s) (hb : ((g i).held b).isSome) : 0 < (s.bio.cache.buf b).refcnt := by
  obtain ⟨k, hk⟩ := Option.isSome_iff_exists.1 hb
  refine h.bio.refcnt_pos (j := i) (k := k) (.inr (.inr ?_))
  rw [h.held, hk]

section
omit [DecidableEq ι]

lemma Core.refcnt_of_pin (h : Core g s) (hb : s.bio.pins b ≠ 0) : 0 < (s.bio.cache.buf b).refcnt := by
  have := h.bio.count b
  omega

lemma Core.has (h : Core g s) (hb : (g i).held b = some k) : (s.bio.cache.buf b).Has k.dev k.blockno :=
  (h.bio.wants i b k (.inr (.inr (by rw [h.held, hb])))).1

lemma Core.holds (h : Core g s) (hb : ((g i).held b).isSome) : s.Holds i b :=
  (h.bio.lock i b).2 (.inr (by rwa [h.held]))

lemma Core.one (h : Core g s) (hi : ((g i).held b).isSome) (hj : ((g j).held b).isSome) : i = j :=
  Option.some.inj ((h.holds hi).symm.trans (h.holds hj))

lemma Core.held_of_holds (h : Core g s) (hl : (g i).pc = .idle) (hb : s.Holds i b) : ((g i).held b).isSome := by
  rcases (h.bio.lock i b).1 hb with ⟨k, hk⟩ | hk
  · rw [h.pc, hl] at hk
    cases hk
  · rwa [h.held] at hk

lemma Inv.unique (h : Inv dev start g s) (h1 : (s.bio.cache.buf b).Has dev n)
    (h2 : (s.bio.cache.buf b').Has dev n) : b = b' := by
  refine h.core.bio.wf.unique b b' ?_ ?_
  · rw [h1.1]
    exact h.dev.2
  · rw [h1.1, h1.2]
    exact h2

end

/-- A step of the cache by process `i`, after which it goes on with record `l`. -/
lemma Core.step (h : Core g s) (hst : Bio.Step s.bio m x)
    (hpc : x.pc = update s.bio.pc i l.pc) (hheld : x.held = update s.bio.held i l.held)
    (hv : ∀ b k, l.held b = some k → (g i).held b = some k ∨ (x.cache.buf b).valid = true)
    (hk : ∀ b d, l.knows = some (b, d) → (g i).knows = some (b, d) ∧ (l.held b).isSome) :
    Core (update g i l) { s with bio := x } := by
  have hsame : ∀ j b, ((g j).held b).isSome → (x.cache.buf b).valid = true ∧
      (x.cache.buf b).data = (s.bio.cache.buf b).data := by
    intro j b hj
    obtain ⟨k, hk⟩ := Option.isSome_iff_exists.1 hj
    exact (Turns.same (h.bio.buf_step hst b) (h.refcnt_pos hj) (h.valid j b k hk)).2
  have hknows : ∀ j b d, (g j).knows = some (b, d) → (x.cache.buf b).data = d := by
    intro j b d hb
    obtain ⟨h1, h2⟩ := h.knows j b d hb
    exact (hsame j b h1).2.trans h2
  refine ⟨h.bio.step hst, ?_, ?_, ?_, ?_⟩
  · refine (forall_update_iff g fun j l => x.pc j = l.pc).2 ⟨?_, fun j hj => ?_⟩
    · rw [hpc, update_self]
    · rw [hpc, update_of_ne hj, h.pc]
  · refine (forall_update_iff g fun j l => x.held j = l.held).2 ⟨?_, fun j hj => ?_⟩
    · rw [hheld, update_self]
    · rw [hheld, update_of_ne hj, h.held]
  · refine (forall_update_iff g fun j l => ∀ b k, l.held b = some k →
      (x.cache.buf b).valid = true).2 ⟨fun b k hb => ?_, fun j _ b k hb => ?_⟩
    · rcases hv b k hb with hb' | hb'
      · exact (hsame i b (by rw [hb']; rfl)).1
      · exact hb'
    · exact (hsame j b (by rw [hb]; rfl)).1
  · refine (forall_update_iff g fun j l => ∀ b d, l.knows = some (b, d) →
      (l.held b).isSome ∧ (x.cache.buf b).data = d).2 ⟨fun b d hb => ?_, fun j _ b d hb => ?_⟩
    · obtain ⟨h1, h2⟩ := hk b d hb
      exact ⟨h2, hknows i b d h1⟩
    · exact ⟨(h.knows j b d hb).1, hknows j b d hb⟩

lemma Core.step_pins (h : Core g s) (hst : Bio.Step s.bio m x)
    (hpc : x.pc = s.bio.pc) (hheld : x.held = s.bio.held) : Core g { s with bio := x } := by
  rcases isEmpty_or_nonempty ι with hι | ⟨⟨i⟩⟩
  · exact ⟨h.bio.step hst, hι.elim, hι.elim, fun i => hι.elim i, fun i => hι.elim i⟩
  · have := h.step (i := i) (l := g i) hst (by rw [hpc, ← h.pc, update_eq_self])
      (by rw [hheld, ← h.held, update_eq_self]) (fun _ _ hb => .inl hb)
      fun b d hk => ⟨hk, (h.knows i b d hk).1⟩
    rwa [update_eq_self] at this

lemma Core.commit (h : Core g s) (c : Option Commit) : Core (update g i { g i with commit := c }) s where
  bio := h.bio
  pc := (forall_update_iff g fun j l => s.bio.pc j = l.pc).2 ⟨h.pc i, fun j _ => h.pc j⟩
  held := (forall_update_iff g fun j l => s.bio.held j = l.held).2 ⟨h.held i, fun j _ => h.held j⟩
  valid := (forall_update_iff g fun _ l => ∀ b k, l.held b = some k →
    (s.bio.cache.buf b).valid = true).2 ⟨h.valid i, fun j _ => h.valid j⟩
  knows := (forall_update_iff g fun _ l => ∀ b d, l.knows = some (b, d) →
    (l.held b).isSome ∧ (s.bio.cache.buf b).data = d).2 ⟨h.knows i, fun j _ => h.knows j⟩

omit [DecidableEq ι] in
lemma Core.setDisk (h : Core g s) (f : Key → Block) : Core g { s with bio := { s.bio with disk := f } } where
  bio := ⟨h.bio.wf, h.bio.count, h.bio.lock, h.bio.apart, h.bio.wants⟩
  pc := h.pc
  held := h.held
  valid := h.valid
  knows := h.knows

omit [DecidableEq ι] in
lemma Core.setLog (h : Core g s) {a : Log} {x : ι → Bool} {y : Nat → Block} {m : Nat} :
    Core g { s with log := a, inOp := x, latest := y, installed := m } where
  bio := h.bio
  pc := h.pc
  held := h.held
  valid := h.valid
  knows := h.knows

omit [Fintype ι] [DecidableEq ι] in
lemma State.Clean.bio (h : s.Clean n d) (hd : x.disk = s.bio.disk)
    (ht : ∀ b, (s.bio.cache.buf b).Turns s.bio.disk (x.cache.buf b)) : State.Clean { s with bio := x } n d := by
  refine ⟨by rw [← h.1, ← hd], fun b hb hv => ?_⟩
  change (x.cache.buf b).Has s.dev n at hb
  change (x.cache.buf b).valid = true at hv
  cases ht b with
  | keep hk hv' hd' =>
    refine hd'.trans (h.2 b ⟨?_, ?_⟩ (hv'.symm.trans hv))
    · exact hk.1.symm.trans hb.1
    · exact hk.2.symm.trans hb.2
  | recycle _ hf =>
    rw [hv] at hf
    cases hf
  | fill hk _ _ hd' =>
    refine hd'.trans ?_
    rw [← hk.1, ← hk.2, hb.1, hb.2]
    exact h.1

lemma Ops.keep (h : Ops g s) (hlog : s'.log = s.log) (hop : s'.inOp = s.inOp)
    (hin : s'.installed = s.installed) (hc : l.commit = (g i).commit)
    (hb : ∀ j c, (g j).commit = some c → s.Committing c → s'.Committing c) :
    Ops (update g i l) s' := by
  have hcm : ∀ j, (update g i l j).commit = (g j).commit := congrFun (update_proj hc)
  refine ⟨by rw [hlog, hop]; exact h.count, fun j c hj => ?_, fun j j' h1 h2 => ?_, fun hq => ?_⟩
  · rw [hcm] at hj
    exact hb j c hj (h.busy j c hj)
  · rw [hcm] at h1 h2
    exact h.one j j' h1 h2
  · rw [hlog, hin]
    exact h.quiet fun j => (hcm j).symm.trans (hq j)

lemma Ops.advance (h : Ops g s) {c c' : Commit} (hc : (g i).commit = some c)
    (hc' : l.commit = some c') (hop : s'.inOp = s.inOp) (hout : s'.log.outstanding = s.log.outstanding)
    (hb : s'.Committing c') : Ops (update g i l) s' := by
  have hother : ∀ j, j ≠ i → (g j).commit = none := by
    intro j hj
    cases e : (g j).commit with
    | none => rfl
    | some x => exact absurd (h.one j i (by rw [e]; rfl) (by rw [hc]; rfl)) hj
  have hsome : ∀ j, (update g i l j).commit.isSome → j = i := by
    refine (forall_update_iff g fun j l => l.commit.isSome → j = i).2 ⟨fun _ => rfl, fun j hj hs => ?_⟩
    rw [hother j hj] at hs
    cases hs
  refine ⟨by rw [hop, hout]; exact h.count, fun j x hj => ?_, fun j j' h1 h2 => ?_, fun hq => ?_⟩
  · obtain rfl := hsome j (by rw [hj]; rfl)
    rw [update_self, hc'] at hj
    cases hj
    exact hb
  · rw [hsome j h1, hsome j' h2]
  · have := hq i
    rw [update_self, hc'] at this
    cases this

omit [DecidableEq ι] in
lemma Ops.no_commit (h : Ops g s) (hn : s.log.committing = false ∨ s.log.outstanding ≠ 0) (j : ι) :
    (g j).commit = none := by
  cases e : (g j).commit with
  | none => rfl
  | some c =>
    have hb := h.busy j c e
    rcases hn with hn | hn
    · rw [hb.committing] at hn
      cases hn
    · exact absurd hb.outstanding hn

omit [DecidableEq ι] in
lemma Ops.of_none (hq : ∀ j, (g j).commit = none) (hc : s'.log.committing = false)
    (hi : s'.installed = 0) (hcount : s'.log.outstanding = (∑ i, (s'.inOp i).toNat : Nat)) : Ops g s' := by
  refine ⟨hcount, fun j c hj => ?_, fun j j' hj => ?_, fun _ => ⟨hc, hi⟩⟩
  · rw [hq] at hj
    cases hj
  · rw [hq] at hj
    cases hj

lemma Ops.outstanding_pos (h : Ops g s) (hi : s.inOp i = true) : 0 < s.log.outstanding := by
  have h1 := h.count
  have h2 := le_sum (f := fun i => (s.inOp i).toNat) (i := i)
  rw [hi] at h2
  change 1 ≤ _ at h2
  omega

omit [Fintype ι] [DecidableEq ι] in
lemma State.Committing.bio (h : s.Committing c) (hd : x.disk = s.bio.disk)
    (ht : ∀ b, (s.bio.cache.buf b).Turns s.bio.disk (x.cache.buf b)) : State.Committing { s with bio := x } c :=
  ⟨h.committing, h.outstanding, h.block, h.latest, h.installed, fun k n h1 h2 => (h.clean k n h1 h2).bio hd ht⟩

omit [Fintype ι] [DecidableEq ι] in
lemma Pins.keep (h : Pins s) (hc : s'.bio.cache = s.bio.cache) (hp : s'.bio.pins = s.bio.pins)
    (hd : s'.dev = s.dev) (hl : s'.latest = s.latest) (hi : s'.installed = s.installed)
    (hb : s'.log.block = s.log.block) (hs : s'.log.start = s.log.start) (hz : s'.log.size = s.log.size) :
    Pins s' := by
  refine ⟨by rw [hb]; exact h.nodup, by rw [hb, hz]; exact h.fits, fun n hn => ?_, fun n hn => ?_, fun b h0 => ?_⟩
  · unfold State.InLog
    rw [hs, hz]
    exact h.out n (hb ▸ hn)
  · rw [hb, hi] at hn
    obtain ⟨b, h1⟩ := h.pinned n hn
    exact ⟨b, by rw [hc, hd]; exact h1.has, by rw [hc]; exact h1.valid, by rw [hc, hl]; exact h1.data,
      by rw [hp]; exact h1.pin⟩
  · rw [hp] at h0
    rw [hc, hd, hb, hi]
    exact h.free b h0

lemma Core.pinned_step (h : Core g s) (hst : Bio.Step s.bio m x)
    (hb : s.Pinned b n) (hp : x.pins b = 1) : State.Pinned { s with bio := x } b n := by
  obtain ⟨h1, h2, h3⟩ := Turns.same (h.bio.buf_step hst b)
    (h.refcnt_of_pin (by rw [hb.pin]; exact one_ne_zero)) hb.valid
  rw [hb.has.1, hb.has.2] at h1
  exact ⟨h1, h2, h3.trans hb.data, hp⟩

lemma Inv.step (h : Inv dev start g s) (hst : Bio.Step s.bio m x)
    (hpins : x.pins = s.bio.pins) (hpc : x.pc = update s.bio.pc i l.pc)
    (hheld : x.held = update s.bio.held i l.held) (hc : l.commit = (g i).commit)
    (hv : ∀ b k, l.held b = some k → (g i).held b = some k ∨ (x.cache.buf b).valid = true)
    (hk : ∀ b d, l.knows = some (b, d) → (g i).knows = some (b, d) ∧ (l.held b).isSome) :
    Inv dev start (update g i l) { s with bio := x } := by
  refine ⟨h.dev, h.start, h.core.step hst hpc hheld hv hk, ?_, h.pins.nodup, h.pins.fits, h.pins.out, ?_, ?_⟩
  · exact h.ops.keep rfl rfl rfl hc fun j c _ hb =>
      hb.bio (Bio.disk_step hst) fun b => h.core.bio.buf_step hst b
  · intro n hn
    obtain ⟨b, hb⟩ := h.pins.pinned n hn
    exact ⟨b, h.core.pinned_step hst hb ((congrFun hpins b).trans hb.pin)⟩
  · intro b hb
    change x.pins b ≠ 0 at hb
    rw [hpins] at hb
    have hk := h.core.bio.key_step hst (h.core.refcnt_of_pin hb)
    obtain ⟨h1, h2⟩ := h.pins.free b hb
    exact ⟨hk.1.trans h1, hk.2 ▸ h2⟩

lemma Inv.move (h : Inv dev start g s) {p : Pc} (hst : Bio.Step s.bio m x)
    (hpins : x.pins = s.bio.pins) (hpc : x.pc = update s.bio.pc i p) (hheld : x.held = s.bio.held) :
    Inv dev start (update g i { g i with pc := p }) { s with bio := x } := by
  refine h.step hst hpins hpc ?_ rfl (fun b k hb => .inl hb) fun b d hb => ⟨hb, (h.core.knows i b d hb).1⟩
  rw [hheld, ← h.core.held, update_eq_self]

lemma Inv.pins_append (h : Inv dev start g s) (hst : Bio.Step s.bio (.bpin i b) x)
    (hx : x.pins = update s.bio.pins b (s.bio.pins b + 1)) (hb : (s.bio.cache.buf b).Has s.dev n)
    (hr : 0 < (s.bio.cache.buf b).refcnt) (hv : (s.bio.cache.buf b).valid = true) (hn : s.log.n < s.log.size - 1)
    (hout : ¬ s.InLog n) (hmem : n ∉ s.log.block) (h0 : s.installed = 0) :
    Pins { s with
      bio := x
      log := { s.log with block := s.log.block ++ [n] }
      latest := update s.latest n (s.bio.cache.buf b).data } := by
  have hpin0 : s.bio.pins b = 0 := by
    by_contra hp
    exact hmem (hb.2 ▸ List.mem_of_mem_drop (h.pins.free b hp).2)
  have hother : ∀ b', s.bio.pins b' ≠ 0 → b' ≠ b ∧ x.pins b' = s.bio.pins b' := by
    intro b' hp
    have e : b' ≠ b := by
      rintro rfl
      exact hp hpin0
    exact ⟨e, by rw [hx, update_of_ne e]⟩
  refine ⟨?_, ?_, fun m hm => ?_, fun m hm => ?_, fun b' hb' => ?_⟩
  · exact List.nodup_append.2 ⟨h.pins.nodup, List.nodup_singleton n, fun a ha c hc => by
      rw [List.mem_singleton.1 hc]
      rintro rfl
      exact hmem ha⟩
  · show (s.log.block ++ [n]).length ≤ _
    rw [List.length_append]
    exact hn
  · rcases List.mem_append.1 hm with hm | hm
    · exact h.pins.out m hm
    · rw [List.mem_singleton.1 hm]
      exact hout
  · change m ∈ (s.log.block ++ [n]).drop s.installed at hm
    rw [h0, List.drop_zero] at hm
    rcases List.mem_append.1 hm with hm' | hm'
    · obtain ⟨b', hb'⟩ := h.pins.pinned m (by rwa [h0, List.drop_zero])
      have h1 := h.core.pinned_step hst hb' ((hother b' (by rw [hb'.pin]; exact one_ne_zero)).2.trans hb'.pin)
      refine ⟨b', h1.has, h1.valid, h1.data.trans ?_, h1.pin⟩
      have e : m ≠ n := by
        rintro rfl
        exact hmem hm'
      exact (update_of_ne e ..).symm
    · rw [List.mem_singleton.1 hm']
      obtain ⟨h1, h2, h3⟩ := Turns.same (h.core.bio.buf_step hst b) hr hv
      rw [hb.1, hb.2] at h1
      refine ⟨b, h1, h2, h3.trans ?_, ?_⟩
      · show _ = update s.latest n _ n
        rw [update_self]
      · show x.pins b = 1
        rw [hx, update_self, hpin0]
  · show _ ∧ _ ∈ (s.log.block ++ [n]).drop s.installed
    rw [h0, List.drop_zero]
    by_cases e : b' = b
    · subst e
      have hk := h.core.bio.key_step hst hr
      exact ⟨hk.1.trans hb.1, List.mem_append_right _ (by rw [hk.2, hb.2]; exact List.mem_singleton_self n)⟩
    · have hb0 : s.bio.pins b' ≠ 0 := by
        have : x.pins b' ≠ 0 := hb'
        rwa [hx, update_of_ne e] at this
      have hk := h.core.bio.key_step hst (h.core.refcnt_of_pin hb0)
      obtain ⟨h1, h2⟩ := h.pins.free b' hb0
      refine ⟨hk.1.trans h1, List.mem_append_left _ ?_⟩
      rw [hk.2]
      exact List.mem_of_mem_drop h2

section setData
omit [Fintype ι] [DecidableEq ι]

lemma setData_eq {α : Type} (f : Buf ι → α)
    (hf : f { s.bio.cache.buf b with data := d } = f (s.bio.cache.buf b)) :
    f ((s.setData b d).bio.cache.buf b') = f (s.bio.cache.buf b') := by
  show f (update s.bio.cache.buf b _ b') = _
  by_cases e : b' = b
  · subst e
    rw [update_self, hf]
  · rw [update_of_ne e]

lemma setData_valid :
    ((s.setData b d).bio.cache.buf b').valid = (s.bio.cache.buf b').valid := setData_eq Buf.valid rfl

lemma setData_dev :
    ((s.setData b d).bio.cache.buf b').dev = (s.bio.cache.buf b').dev := setData_eq Buf.dev rfl

lemma setData_blockno :
    ((s.setData b d).bio.cache.buf b').blockno = (s.bio.cache.buf b').blockno := setData_eq Buf.blockno rfl

lemma setData_has {x y : Nat} :
    ((s.setData b d).bio.cache.buf b').Has x y ↔ (s.bio.cache.buf b').Has x y := by
  unfold Buf.Has
  rw [setData_dev, setData_blockno]

lemma setData_self : ((s.setData b d).bio.cache.buf b).data = d := by
  show (update s.bio.cache.buf b _ b).data = d
  rw [update_self]

lemma setData_of_ne (e : b' ≠ b) :
    (s.setData b d).bio.cache.buf b' = s.bio.cache.buf b' := update_of_ne e ..

end setData

lemma Core.setData (h : Core g s) {x : Option (BufId × Block)} (hb : ((g i).held b).isSome)
    (hx : ∀ b' d', x = some (b', d') → b' = b ∧ d' = d) :
    Core (update g i { g i with knows := x }) { s.setData b d with latest := lat } := by
  refine ⟨h.bio.setData d, ?_, ?_, ?_, ?_⟩
  · exact (forall_update_iff g fun j l => s.bio.pc j = l.pc).2 ⟨h.pc i, fun j _ => h.pc j⟩
  · exact (forall_update_iff g fun j l => s.bio.held j = l.held).2 ⟨h.held i, fun j _ => h.held j⟩
  · have hv : ∀ j b' k, (g j).held b' = some k → ((s.setData b d).bio.cache.buf b').valid = true :=
      fun j b' k hk => setData_valid.trans (h.valid j b' k hk)
    exact (forall_update_iff g fun j l => ∀ b' k, l.held b' = some k →
      ((s.setData b d).bio.cache.buf b').valid = true).2 ⟨hv i, fun j _ => hv j⟩
  · refine (forall_update_iff g fun j l => ∀ b' d', l.knows = some (b', d') →
      (l.held b').isSome ∧ ((s.setData b d).bio.cache.buf b').data = d').2 ⟨?_, fun j hj b' d' hk => ?_⟩
    · intro b' d' hk
      obtain ⟨rfl, rfl⟩ := hx b' d' hk
      exact ⟨hb, setData_self⟩
    · obtain ⟨h1, h2⟩ := h.knows j b' d' hk
      have e : b' ≠ b := by
        rintro rfl
        exact hj (h.one h1 hb)
      rw [setData_of_ne e]
      exact ⟨h1, h2⟩

section
omit [Fintype ι] [DecidableEq ι]

lemma State.Pinned.setData (h : s.Pinned b' n)
    (hl : (if b' = b then d else s.latest n) = lat n) :
    State.Pinned { s.setData b d with latest := lat } b' n := by
  refine ⟨setData_has.2 h.has, setData_valid.trans h.valid, ?_, h.pin⟩
  show ((s.setData b d).bio.cache.buf b').data = lat n
  by_cases e : b' = b
  · subst e
    rw [setData_self, ← hl, if_pos rfl]
  · rw [setData_of_ne e, h.data, ← hl, if_neg e]

lemma State.Clean.setData {v : Block} (h : s.Clean n v)
    (hv : (s.bio.cache.buf b).Has s.dev n → d = v) : State.Clean { s.setData b d with latest := lat } n v := by
  refine ⟨h.1, fun b' hb' hval => ?_⟩
  have h1 : (s.bio.cache.buf b').Has s.dev n := setData_has.1 hb'
  show ((s.setData b d).bio.cache.buf b').data = v
  by_cases e : b' = b
  · subst e
    rw [setData_self, hv h1]
  · rw [setData_of_ne e]
    exact h.2 b' h1 (setData_valid.symm.trans hval)

lemma Pins.setData (h : Pins s)
    (hl : ∀ b' n, n ∈ s.log.block.drop s.installed → s.Pinned b' n → (if b' = b then d else s.latest n) = lat n) :
    Pins { s.setData b d with latest := lat } := by
  refine ⟨h.nodup, h.fits, h.out, fun n hn => ?_, fun b' hb' => ?_⟩
  · obtain ⟨b', hb'⟩ := h.pinned n hn
    exact ⟨b', hb'.setData (hl b' n hn hb')⟩
  · obtain ⟨h1, h2⟩ := h.free b' hb'
    refine ⟨setData_dev.trans h1, ?_⟩
    show ((s.setData b d).bio.cache.buf b').blockno ∈ _
    rw [setData_blockno]
    exact h2

end

omit [Fintype ι] in
lemma wp_runBio {Q : Unit → State ι → Prop} (hw : s.bio.cache.Wf)
    (h : ∀ x, Bio.Step s.bio m x → x.panicked = none → Q () { s with bio := x }) :
    wp (Act.runBio m) Q (fun _ _ => True) s := by
  unfold Act.runBio
  rw [wp_bind, wp_get]
  cases hst : s.bio.step m with
  | none => exact wp_throw.2 trivial
  | some x =>
    dsimp only
    cases hp : x.panicked with
    | none => exact wp_set.2 (h x (Bio.step_inv hw hst) hp)
    | some p => exact wp_throw.2 trivial

section calls
open Prog TxnM

lemma runs_bget (hl : l.pc = .idle) :
    Runs dev start i (perform (.bget k)) l fun b l' => l' = { l with pc := .wait b k } := by
  refine .perform ?_
  rintro g s hg rfl
  show wp (Act.runBget i k) _ _ s
  unfold Act.runBget
  rw [wp_bind]
  refine wp_runBio hg.core.bio.wf fun x hst hp => ?_
  cases hst with
  | panic p => cases hp
  | @bget _ _ b y h1 h2 h3 =>
    rw [wp_bind, wp_get]
    simp only [Bio.State.goto_pc, update_self]
    rw [wp_pure]
    exact ⟨.of_eq rfl rfl, _, hg.move (.bget h1 h2 h3) rfl rfl rfl, rfl⟩

lemma runs_acquiresleep (hl : l.pc = .wait b k) :
    Runs dev start i (perform .acquiresleep) l fun _ l' => l' = { l with pc := .fill b k } ∧ l.held b = none := by
  refine .perform ?_
  rintro g s hg rfl
  refine wp_runBio hg.core.bio.wf fun x hst hp => ?_
  cases hst with
  | panic p => cases hp
  | @acquiresleep _ k' b' h1 h2 =>
    rw [hg.core.pc, hl] at h1
    cases h1
    refine ⟨.of_eq rfl rfl, _, hg.move (.acquiresleep ((hg.core.pc i).trans hl) h2) rfl rfl rfl, rfl, ?_⟩
    cases hb : (g i).held b with
    | none => rfl
    | some k' =>
      have h3 := hg.core.holds (i := i) (b := b) (by rw [hb]; rfl)
      rw [State.Holds, h2] at h3
      cases h3

lemma runs_read (hl : l.pc = .fill b k) :
    Runs dev start i (perform .read) l fun _ l' =>
      l' = { l with pc := .idle, held := update l.held b (some k) } := by
  refine .perform ?_
  rintro g s hg rfl
  refine wp_runBio hg.core.bio.wf fun x hst hp => ?_
  cases hst with
  | panic p => cases hp
  | @read _ k' b' h1 =>
    rw [hg.core.pc, hl] at h1
    cases h1
    refine ⟨.of_eq rfl rfl, _, ?_, rfl⟩
    refine hg.step (.read ((hg.core.pc i).trans hl)) rfl rfl ?_ rfl ?_ ?_
    · show update s.bio.held i (update (s.bio.held i) b (some k)) = _
      rw [hg.core.held]
    · intro b' k' hb
      dsimp only at hb
      by_cases e : b' = b
      · subst e
        right
        show ((update s.bio.cache.buf b' (s.bio.fillBuf b')) b').valid = true
        rw [update_self]
        unfold Bio.State.fillBuf
        dsimp only
        split
        · assumption
        · rfl
      · rw [update_of_ne e] at hb
        exact .inl hb
    · intro b' d hb
      refine ⟨hb, ?_⟩
      dsimp only
      by_cases e : b' = b
      · subst e
        rw [update_self]
        rfl
      · rw [update_of_ne e]
        exact (hg.core.knows i b' d hb).1

lemma runs_bread (hl : l.pc = .idle) :
    Runs dev start i (bread k) l fun b l' => l' = { l with held := update l.held b (some k) } ∧ l.held b = none := by
  refine (runs_bget hl).next fun b => ?_
  refine (runs_acquiresleep rfl).bind ?_
  rintro _ _ ⟨rfl, hb⟩
  refine (runs_read rfl).next fun _ => Safe.ret ⟨?_, hb⟩
  rw [hl]

lemma runs_releasesleep (hl : l.pc = .idle) :
    Runs dev start i (perform (.releasesleep b)) l fun _ l' =>
      l' = { l with pc := .release b, held := update l.held b none, knows := none } := by
  refine .perform ?_
  rintro g s hg rfl
  refine wp_runBio hg.core.bio.wf fun x hst hp => ?_
  cases hst with
  | panic p => cases hp
  | brelse h1 h2 =>
    refine ⟨.of_eq rfl rfl, _, ?_, rfl⟩
    refine hg.step (.brelse h1 h2) rfl rfl ?_ rfl ?_ nofun
    · show update s.bio.held i (update (s.bio.held i) b none) = _
      rw [hg.core.held]
    · intro b' k' hb
      dsimp only at hb
      exact .inl (of_update hb nofun).2

lemma runs_unref (hl : l.pc = .release b) :
    Runs dev start i (perform .unref) l fun _ l' => l' = { l with pc := .idle } := by
  refine .perform ?_
  rintro g s hg rfl
  refine wp_runBio hg.core.bio.wf fun x hst hp => ?_
  cases hst with
  | panic p => cases hp
  | unref h1 => exact ⟨.of_eq rfl rfl, _, hg.move (.unref h1) rfl rfl rfl, rfl⟩

lemma runs_brelse (hl : l.pc = .idle) :
    Runs dev start i (brelse b) l fun _ l' => l' = { l with held := update l.held b none, knows := none } := by
  refine (runs_releasesleep hl).next fun _ => ?_
  refine (runs_unref rfl).mono ?_
  rintro _ _ rfl
  rw [hl]

lemma runs_data {Q : Block → Local → Prop}
    (h : ∀ g s, Inv dev start g s → g i = l → Q (s.bio.cache.buf b).data l) :
    Runs dev start i (perform (.data b)) l Q := by
  refine .perform fun g s hg hl => ?_
  show wp (do return ((← get).bio.cache.buf b).data) _ _ s
  rw [wp_bind, wp_get, wp_pure]
  refine ⟨.of_eq rfl rfl, l, ?_, h g s hg hl⟩
  rwa [← hl, update_eq_self]

lemma runs_data_pinned (hc : l.commit = some c) (hb : l.held b = some ⟨dev, n⟩)
    (hn : n ∈ c.block.drop c.installed) :
    Runs dev start i (perform (.data b)) l fun d l' => d = c.latest n ∧ l' = l := by
  refine runs_data ?_
  rintro g s hg rfl
  have hbusy := hg.ops.busy i c hc
  rw [hbusy.block, hbusy.installed] at hn
  obtain ⟨b', hb'⟩ := hg.pins.pinned n hn
  obtain rfl : b' = b := (hg.unique (hg.core.has hb) ⟨hb'.has.1.trans hg.dev.1, hb'.has.2⟩).symm
  exact ⟨by rw [hb'.data, hbusy.latest], rfl⟩

lemma runs_data_copied {j : Nat} (hc : l.commit = some c) (hb : l.held b = some ⟨dev, start + j + 1⟩)
    (hj : j < c.copied) (hn : c.block[j]? = some n) :
    Runs dev start i (perform (.data b)) l fun d l' => d = c.latest n ∧ l' = l := by
  refine runs_data ?_
  rintro g s hg rfl
  have hbusy := hg.ops.busy i c hc
  rw [hbusy.block] at hn
  have hclean := hbusy.clean j n hj hn
  have hkey := hg.core.has hb
  rw [← hg.dev.1, ← hg.start] at hkey
  exact ⟨by rw [hclean.2 b hkey (hg.core.valid i b _ hb), hbusy.latest], rfl⟩

/-- Inside a commit a buffer is overwritten, with the newest contents if it is one of the transaction. -/
lemma runs_memmove (hc : l.commit = some c) (hb : l.held b = some k)
    (h1 : ∀ n ∈ c.block.drop c.installed, k = ⟨dev, n⟩ → d = c.latest n)
    (h2 : ∀ j n, j < c.copied → c.block[j]? = some n → k = ⟨dev, start + j + 1⟩ → d = c.latest n) :
    Runs dev start i (perform (.memmove b d)) l fun _ l' => l' = { l with knows := some (b, d) } := by
  refine .perform ?_
  rintro g s hg rfl
  have hbusy := hg.ops.busy i c hc
  have hkey : ∀ n, (s.bio.cache.buf b).Has s.dev n → k = ⟨dev, n⟩ := by
    intro n hn
    have := hg.core.has hb
    rw [hg.dev.1] at hn
    cases k
    exact congrArg₂ Key.mk (this.1.symm.trans hn.1) (this.2.symm.trans hn.2)
  rw [hbusy.block, hbusy.latest, hbusy.installed] at h1
  rw [hbusy.block, hbusy.latest] at h2
  refine wp_modify.2 ⟨.of_eq rfl rfl, _, ⟨hg.dev, hg.start, hg.core.setData (by rw [hb]; rfl) ?_, ?_, ?_⟩, rfl⟩
  · intro b' d' h
    cases h
    exact ⟨rfl, rfl⟩
  · refine hg.ops.keep rfl rfl rfl rfl fun j c' hj hc' => ?_
    -- there is one commit at a time
    obtain rfl := hg.ops.one i j (by rw [hc]; rfl) (by rw [hj]; rfl)
    rw [hc] at hj
    cases hj
    refine ⟨hc'.committing, hc'.outstanding, hc'.block, hc'.latest, hc'.installed, fun k' n hk hn => ?_⟩
    refine (hc'.clean k' n hk hn).setData fun hh => h2 k' n hk hn ?_
    rw [← hg.start]
    exact hkey _ hh
  · refine hg.pins.setData fun b' n hn hp => ?_
    by_cases e : b' = b
    · subst e
      rw [if_pos rfl]
      exact h1 n hn (hkey n hp.has)
    · rw [if_neg e]

/-- Inside a commit a buffer is written to the disk, after which the first `m` blocks are in the log. -/
lemma runs_bwrite {m : Nat} (hc : l.commit = some c) (hb : l.held b = some k)
    (hk : l.knows = some (b, d))
    (hm : ∀ j n, j < m → c.block[j]? = some n →
      k = ⟨dev, start + j + 1⟩ ∧ d = c.latest n ∨ j < c.copied ∧ k ≠ ⟨dev, start + j + 1⟩)
    (hh : k = ⟨dev, start⟩ → c.block = [] ∨ c.copied = c.block.length) :
    Runs dev start i (perform (.bwrite b)) l fun _ l' => l' = { l with commit := some { c with copied := m } } := by
  refine .perform ?_
  rintro g s hg rfl
  have hbusy := hg.ops.busy i c hc
  have hkey := hg.core.has hb
  have hdata := (hg.core.knows i b d hk).2
  have hkeq : (⟨(s.bio.cache.buf b).dev, (s.bio.cache.buf b).blockno⟩ : Key) = k := by
    rw [hkey.1, hkey.2]
  show wp (Act.runBwrite i b) _ _ s
  unfold Act.runBwrite
  rw [wp_bind, wp_get]
  dsimp only
  rw [if_pos (hg.core.holds (by rw [hb]; rfl)), wp_set, hkeq, hdata]
  refine ⟨⟨fun h1 h2 => ?_, fun hne j n hj => ?_⟩, _, ⟨hg.dev, hg.start, (hg.core.setDisk _).commit _, ?_, ?_⟩, rfl⟩
  · change s.log.committing = false at h2
    rw [h1] at h2
    cases h2
  · -- only the buffer of the header changes the header
    have hke : k = ⟨dev, start⟩ := by
      by_contra hke
      refine hne (update_of_ne ?_ ..)
      rw [hg.dev.1, hg.start]
      exact Ne.symm hke
    have hlen : j < c.copied := by
      rw [← hbusy.block] at hj
      rcases hh hke with h | h
      · rw [h] at hj
        cases hj
      · rw [h]
        exact (List.getElem?_eq_some_iff.1 hj).1
    exact (hbusy.clean j n hlen hj).1
  · refine hg.ops.advance hc rfl rfl rfl
      ⟨hbusy.committing, hbusy.outstanding, hbusy.block, hbusy.latest, hbusy.installed, fun j n hj hn => ?_⟩
    change s.log.block[j]? = some n at hn
    unfold State.Clean
    show update s.bio.disk k d ⟨s.dev, s.log.start + j + 1⟩ = _ ∧ _
    have hm' := hm j n hj (by rwa [hbusy.block])
    rw [← hg.dev.1, ← hg.start] at hm'
    rcases hm' with ⟨h1, h2⟩ | ⟨h1, h2⟩
    · rw [h1, update_self, h2, hbusy.latest]
      refine ⟨rfl, fun b' hb' _ => ?_⟩
      have e : b' = b := by
        refine hg.unique (n := s.log.start + j + 1) (by rw [← hg.dev.1]; exact hb') ?_
        rw [h1] at hkey
        rw [← hg.dev.1]
        exact hkey
      subst e
      show (s.bio.cache.buf b').data = s.latest n
      rw [hdata, h2, hbusy.latest]
    · have h3 := hbusy.clean j n h1 hn
      rw [update_of_ne (Ne.symm h2)]
      exact h3
  · exact hg.pins.keep rfl rfl rfl rfl rfl rfl rfl rfl

lemma runs_bunpin (hc : l.commit = some c) (hb : l.held b = some ⟨dev, n⟩)
    (hn : c.block[c.installed]? = some n) :
    Runs dev start i (perform (.bunpin b)) l fun _ l' =>
      l' = { l with commit := some { c with installed := c.installed + 1 } } := by
  refine .perform ?_
  rintro g s hg rfl
  have hbusy := hg.ops.busy i c hc
  rw [hbusy.block, hbusy.installed] at hn
  have hlt := (List.getElem?_eq_some_iff.1 hn).1
  have hdrop : s.log.block.drop s.installed = n :: s.log.block.drop (s.installed + 1) := by
    rw [List.drop_eq_getElem_cons hlt, (List.getElem?_eq_some_iff.1 hn).2]
  have hnd : (n :: s.log.block.drop (s.installed + 1)).Nodup := hdrop ▸ hg.pins.nodup.sublist (List.drop_sublist ..)
  -- the pinned buffer is the one that the caller holds
  have hpin : s.Pinned b n := by
    obtain ⟨b', hb'⟩ := hg.pins.pinned n (by rw [hdrop]; exact List.mem_cons_self ..)
    have hkey := hg.core.has hb
    obtain rfl : b' = b := (hg.unique (n := n) hkey (by rw [← hg.dev.1]; exact hb'.has)).symm
    exact hb'
  show wp (Act.runBunpin i b) _ _ s
  unfold Act.runBunpin
  rw [wp_bind]
  refine wp_runBio hg.core.bio.wf fun x hst hp => wp_modify.2 ?_
  cases hst with
  | panic p => cases hp
  | bunpin h1 h2 =>
    have hst := Bio.Step.bunpin h1 h2
    refine ⟨.of_eq rfl rfl, _, ⟨hg.dev, hg.start, ?_, ?_, hg.pins.nodup, hg.pins.fits, hg.pins.out, ?_, ?_⟩, rfl⟩
    · exact ((hg.core.step_pins hst rfl rfl).setLog (a := s.log) (x := s.inOp) (y := s.latest)).commit _
    · refine hg.ops.advance hc rfl rfl rfl
        ⟨hbusy.committing, hbusy.outstanding, hbusy.block, hbusy.latest, by rw [hbusy.installed], fun j n hj hn => ?_⟩
      exact ((hbusy.clean j n hj hn).bio (x := _) rfl fun b => hg.core.bio.buf_step hst b)
    · intro n' hn'
      obtain ⟨b', hb'⟩ := hg.pins.pinned n' (by rw [hdrop]; exact List.mem_cons_of_mem _ hn')
      have e : b' ≠ b := by
        rintro rfl
        have : n' = n := hb'.has.2.symm.trans hpin.has.2
        exact (List.nodup_cons.1 hnd).1 (this ▸ hn')
      have := hg.core.pinned_step hst hb' ((update_of_ne e ..).trans hb'.pin)
      exact ⟨b', this.has, this.valid, this.data, this.pin⟩
    · intro b' hb'
      have e : b' ≠ b := by
        rintro rfl
        refine hb' ((update_self ..).trans ?_)
        rw [hpin.pin]
      have hb0 : s.bio.pins b' ≠ 0 := by
        rw [← update_of_ne e (s.bio.pins b - 1) s.bio.pins]
        exact hb'
      obtain ⟨h3, h4⟩ := hg.pins.free b' hb0
      have hk := hg.core.bio.key_step hst (hg.core.refcnt_of_pin hb0)
      refine ⟨hk.1.trans h3, ?_⟩
      rw [hdrop, List.mem_cons] at h4
      rcases h4 with h4 | h4
      · refine absurd (hg.unique (n := n) ?_ ?_) e
        · exact ⟨h3.trans hg.dev.1, h4⟩
        · exact ⟨hpin.has.1.trans hg.dev.1, hpin.has.2⟩
      · exact hk.2 ▸ h4

lemma runs_getLog {Q : Log → Local → Prop}
    (h : ∀ g s, Inv dev start g s → g i = l → Q s.log l) :
    Runs dev start i (perform .getLog) l Q := by
  refine .perform fun g s hg hl => ?_
  show wp (do return (← get).log) _ _ s
  rw [wp_bind, wp_get, wp_pure]
  refine ⟨.of_eq rfl rfl, l, ?_, h g s hg hl⟩
  rwa [← hl, update_eq_self]

lemma runs_clear (hc : l.commit = some c) (hn : c.installed = c.block.length) :
    Runs dev start i (perform .clear) l fun _ l' =>
      l' = { l with commit := some { c with block := [], copied := 0, installed := 0 } } := by
  refine .perform ?_
  rintro g s hg rfl
  have hbusy := hg.ops.busy i c hc
  have hdrop : s.log.block.drop s.installed = [] := by
    rw [← hbusy.block, ← hbusy.installed, hn, List.drop_length]
  refine wp_modify.2 ⟨.of_eq rfl rfl, _, ⟨hg.dev, hg.start, (hg.core.setLog (y := s.latest)).commit _, ?_, List.nodup_nil,
    Nat.zero_le _, nofun, nofun, fun b hb => ?_⟩, rfl⟩
  · exact hg.ops.advance hc rfl rfl rfl ⟨hbusy.committing, hbusy.outstanding, rfl, hbusy.latest, rfl, nofun⟩
  · have := (hg.pins.free b hb).2
    rw [hdrop] at this
    cases this

lemma runs_endCommit (hc : l.commit = some c) (hn : c.block = []) (h0 : c.installed = 0) :
    Runs dev start i (perform .endCommit) l fun _ l' => l' = { l with commit := none } := by
  refine .perform ?_
  rintro g s hg rfl
  have hbusy := hg.ops.busy i c hc
  have hcm : ∀ j, (update g i { g i with commit := none } j).commit = none := by
    refine (forall_update_iff g fun j l => l.commit = none).2 ⟨rfl, fun j hj => ?_⟩
    cases e : (g j).commit with
    | none => rfl
    | some x => exact absurd (hg.ops.one j i (by rw [e]; rfl) (by rw [hc]; rfl)) hj
  refine wp_modify.2 ⟨⟨fun _ _ b => ?_, fun h => absurd rfl h⟩, _, ⟨hg.dev, hg.start, ?_, ?_, ?_⟩, rfl⟩
  · by_contra hb
    have := (hg.pins.free b hb).2
    rw [← hbusy.block, hn, List.drop_nil] at this
    cases this
  · exact (hg.core.setLog (y := s.latest) (m := s.installed)).commit _
  · refine ⟨hg.ops.count, fun j c' hj => ?_, fun j j' hj => ?_, fun _ => ⟨rfl, hbusy.installed ▸ h0⟩⟩
    · rw [hcm] at hj
      cases hj
    · rw [hcm] at hj
      cases hj
  · exact hg.pins.keep rfl rfl rfl rfl rfl rfl rfl rfl

lemma runs_change (hl : l.pc = .idle) :
    Runs dev start i (perform (.change b d)) l fun _ l' => l' = { l with knows := none } := by
  refine .perform ?_
  rintro g s hg rfl
  show wp (Act.runChange i b d) _ _ s
  unfold Act.runChange
  rw [wp_bind, wp_get]
  dsimp only
  rw [wp_ite]
  refine ⟨fun hc => wp_set.2 ?_, fun _ => wp_throw.2 trivial⟩
  have hq := hg.ops.no_commit (.inr (hg.ops.outstanding_pos hc.2).ne')
  refine ⟨.of_eq rfl rfl, _, ⟨hg.dev, hg.start, hg.core.setData (hg.core.held_of_holds hl hc.1) (fun _ _ h => by cases h),
    ?_, ?_⟩, rfl⟩
  · refine hg.ops.keep rfl rfl rfl rfl fun j c hj => ?_
    rw [hq] at hj
    cases hj
  · refine hg.pins.setData fun b' n _ hp => ?_
    by_cases e : b' = b
    · subst e
      rw [if_pos rfl, if_pos hp.has.1, hp.has.2, update_self]
    · rw [if_neg e]
      split
      · rename_i hdev
        rw [update_of_ne]
        rintro rfl
        refine e (hg.unique (n := (s.bio.cache.buf b).blockno) ?_ ⟨hdev.trans hg.dev.1, rfl⟩)
        exact ⟨hp.has.1.trans hg.dev.1, hp.has.2⟩
      · rfl

lemma runs_beginOp : Runs dev start i (perform .beginOp) l fun _ l' => l' = l := by
  refine .perform ?_
  rintro g s hg rfl
  show wp (Act.runBeginOp i) _ _ s
  unfold Act.runBeginOp
  rw [wp_bind, wp_get, wp_ite]
  refine ⟨fun _ => wp_throw.2 trivial, fun hop => ?_⟩
  cases hlg : s.log.beginOp with
  | none => exact wp_throw.2 trivial
  | some lg =>
    obtain ⟨ha, rfl⟩ := Log.beginOp_eq_some.1 hlg
    have hq := hg.ops.no_commit (.inl ha.1)
    refine wp_set.2 ⟨.of_eq rfl rfl, g i, ?_, rfl⟩
    rw [update_eq_self]
    refine ⟨hg.dev, hg.start, hg.core.setLog, ?_, ?_⟩
    · refine .of_none hq ha.1 (hg.ops.quiet hq).2 ?_
      have h1 := hg.ops.count
      have h2 := sum_change (i := i) (f := fun j => (s.inOp j).toNat)
        (g := fun j => (update s.inOp i true j).toNat)
        fun j hj => by rw [update_of_ne hj]
      dsimp only at h2 ⊢
      rw [update_self] at h2
      simp only [Bool.not_eq_true] at hop
      rw [hop] at h2
      change _ + 0 = _ + 1 at h2
      omega
    · exact hg.pins.keep rfl rfl rfl rfl rfl rfl rfl rfl

lemma runs_endOp : Runs dev start i (perform .endOp) l fun last l' =>
    last = false ∧ l' = l ∨ last = true ∧ ∃ block latest, l' = { l with commit := some ⟨block, latest, 0, 0⟩ } := by
  refine .perform ?_
  rintro g s hg rfl
  show wp (Act.runEndOp i) _ _ s
  unfold Act.runEndOp
  rw [wp_bind, wp_get, wp_ite]
  refine ⟨fun hop => ?_, fun _ => wp_throw.2 trivial⟩
  have hsum : ((∑ j, (update s.inOp i false j).toNat : Nat) : Int) = s.log.outstanding - 1 := by
    have h1 := hg.ops.count
    have h2 := sum_change (i := i) (f := fun j => (s.inOp j).toNat)
      (g := fun j => (update s.inOp i false j).toNat)
      fun j hj => by rw [update_of_ne hj]
    rw [update_self, hop] at h2
    change _ + 1 = _ + 0 at h2
    omega
  cases hlg : s.log.endOp with
  | error e => exact wp_throw.2 trivial
  | ok r =>
    obtain ⟨lg, last⟩ := r
    obtain ⟨hcm, hcase⟩ := Log.endOp_ok hlg
    have hq := hg.ops.no_commit (.inl hcm)
    rw [wp_bind, wp_set, wp_pure]
    rcases hcase with ⟨ho, rfl, rfl⟩ | ⟨_, rfl, rfl⟩
    · refine ⟨⟨fun h => ?_, fun h => absurd rfl h⟩, { g i with commit := some ⟨s.log.block, s.latest, 0, 0⟩ },
        ⟨hg.dev, hg.start, (hg.core.setLog (y := s.latest) (m := s.installed)).commit _, ?_,
          hg.pins.keep rfl rfl rfl rfl rfl rfl rfl rfl⟩,
        .inr ⟨rfl, _, _, rfl⟩⟩
      · rw [hcm] at h
        cases h
      · have hsome : ∀ j, (update g i { g i with commit := some ⟨s.log.block, s.latest, 0, 0⟩ } j).commit.isSome
            → j = i := by
          refine (forall_update_iff g fun j l => l.commit.isSome → j = i).2 ⟨fun _ => rfl, fun j _ hs => ?_⟩
          rw [hq] at hs
          cases hs
        refine ⟨?_, fun j x hj => ?_, fun j j' h1 h2 => ?_, fun h => ?_⟩
        · show (0 : Int) = _
          rw [hsum, ho]
          rfl
        · obtain rfl := hsome j (by rw [hj]; rfl)
          rw [update_self] at hj
          cases hj
          exact ⟨rfl, rfl, rfl, rfl, (hg.ops.quiet hq).2.symm, nofun⟩
        · rw [hsome j h1, hsome j' h2]
        · have := h i
          rw [update_self] at this
          cases this
    · refine ⟨.of_eq rfl rfl, g i, ?_, .inl ⟨rfl, rfl⟩⟩
      rw [update_eq_self]
      exact ⟨hg.dev, hg.start, hg.core.setLog, .of_none hq hcm (hg.ops.quiet hq).2 hsum.symm,
        hg.pins.keep rfl rfl rfl rfl rfl rfl rfl rfl⟩

lemma runs_logWrite (hl : l.pc = .idle) : Runs dev start i (perform (.logWrite b)) l fun _ l' => l' = l := by
  refine .perform ?_
  rintro g s hg rfl
  show wp (Act.runLogWrite i b) _ _ s
  unfold Act.runLogWrite
  rw [wp_bind, wp_get]
  dsimp only
  rw [wp_ite]
  refine ⟨fun ⟨hh, hdev, hout⟩ => ?_, fun _ => wp_throw.2 trivial⟩
  cases hlg : s.log.logWrite (s.bio.cache.buf b).blockno with
  | error e => exact wp_throw.2 trivial
  | ok lg =>
    obtain ⟨_, hsz, hop, rfl⟩ := Log.logWrite_ok hlg
    rw [wp_ite]
    refine ⟨fun hmem => wp_set.2 ⟨.of_eq rfl rfl, g i, ?_, rfl⟩, fun hmem => ?_⟩
    · rw [update_eq_self, if_pos hmem]
      exact hg
    · have hq := hg.ops.no_commit (.inr (by omega))
      have h0 := (hg.ops.quiet hq).2
      have hheld := hg.core.held_of_holds hl hh
      obtain ⟨k, hk⟩ := Option.isSome_iff_exists.1 hheld
      rw [if_neg hmem, wp_bind]
      refine wp_runBio hg.core.bio.wf fun x hst hp => wp_modify.2 ?_
      cases hst with
      | panic p => cases hp
      | bpin h1 =>
        have hst := Bio.Step.bpin (b := b) h1
        refine ⟨.of_eq rfl rfl, g i, ?_, rfl⟩
        rw [update_eq_self]
        refine ⟨hg.dev, hg.start, (hg.core.step_pins hst rfl rfl).setLog, ?_, ?_⟩
        · exact .of_none hq (hg.ops.quiet hq).1 h0 hg.ops.count
        · exact hg.pins_append hst rfl ⟨hdev, rfl⟩ (hg.core.refcnt_pos hheld) (hg.core.valid i b k hk) hsz hout hmem h0

/-- The blocks of a transaction lie outside of the part of the log that it uses. -/
def Apart (start : Nat) (block : List Nat) : Prop := ∀ n ∈ block, n < start ∨ start + block.length < n

omit [Fintype ι] [DecidableEq ι] in
lemma Pins.apart (h : Pins s) : Apart s.log.start s.log.block := by
  intro n hn
  have h1 := h.out n hn
  have h2 := h.fits
  have h3 := List.length_pos_of_mem hn
  unfold State.InLog at h1
  omega

lemma held_back {f : BufId → Option Key} {b b' : BufId} {k k' : Key} (hb : f b = none)
    (hb' : update f b (some k) b' = none) :
    update (update (update (update f b (some k)) b' (some k')) b' none) b none
      = f := by
  have h1 : update (update (update f b (some k)) b' (some k')) b' none =
      update f b (some k) := by
    rw [update_idem, ← hb', update_eq_self]
  rw [h1, update_idem, ← hb, update_eq_self]

lemma held_back_swap {f : BufId → Option Key} {b b' : BufId} {k k' : Key} (hb : f b = none)
    (hb' : update f b (some k) b' = none) (hne : b ≠ b') :
    update (update (update (update f b (some k)) b' (some k')) b none) b' none
      = f :=
  (update_comm hne ..).trans (held_back hb hb')

/-- The loop of `write_log` puts what was last written to each block into the log. -/
lemma runs_writeLog {tail : Nat} {rest : List Nat} (hl : l.pc = .idle) (hk : l.knows = none)
    (hc : l.commit = some c) (h0 : c.installed = 0) (ha : Apart start c.block) (ht : c.copied = tail)
    (hr : c.block.drop tail = rest) (hlen : tail ≤ c.block.length) :
    Runs dev start i (writeLog dev start tail rest) l fun _ l' =>
      l' = { l with commit := some { c with copied := c.block.length } } := by
  induction rest generalizing tail l c with
  | nil =>
    have := List.drop_eq_nil_iff.1 hr
    refine .ret ?_
    have e : c.copied = c.block.length := by omega
    rw [← e, ← hc]
  | cons n rest ih =>
    have hlt : tail < c.block.length := by
      by_contra h
      rw [List.drop_eq_nil_of_le (by omega)] at hr
      cases hr
    have hn : c.block[tail]? = some n := by
      rw [← List.head?_drop, hr]
      rfl
    have hmem : n ∈ c.block := List.mem_of_getElem? hn
    refine .bind (runs_bread hl) ?_
    rintro dst _ ⟨rfl, hdst⟩
    refine .bind (runs_bread hl) ?_
    rintro src _ ⟨rfl, hsrc⟩
    have hne : dst ≠ src := by
      rintro rfl
      simp at hsrc
    refine .bind (runs_data_pinned hc (update_self ..) (by rw [h0]; exact hmem)) ?_
    rintro d _ ⟨rfl, rfl⟩
    have hheld : update (update l.held dst (some ⟨dev, start + tail + 1⟩)) src (some ⟨dev, n⟩) dst =
        some ⟨dev, start + tail + 1⟩ := by
      rw [update_of_ne hne, update_self]
    refine .next (runs_memmove hc hheld ?_ ?_) fun _ => ?_
    · intro n' hn' e
      cases e
      have := ha _ (List.mem_of_mem_drop hn')
      omega
    · intro j n' hj _ e
      simp only [Key.mk.injEq, true_and] at e
      omega
    refine .next (runs_bwrite (m := tail + 1) hc hheld rfl ?_ ?_) fun _ => ?_
    · intro j n' hj hn'
      by_cases e : j = tail
      · subst e
        rw [hn] at hn'
        cases hn'
        exact .inl ⟨rfl, rfl⟩
      · refine .inr ⟨by omega, fun e' => ?_⟩
        simp only [Key.mk.injEq, true_and] at e'
        omega
    · intro e
      simp only [Key.mk.injEq, true_and] at e
      omega
    refine .next (runs_brelse hl) fun _ => ?_
    refine .next (runs_brelse hl) fun _ => ?_
    dsimp only
    rw [held_back hdst hsrc]
    refine .mono (ih (c := { c with copied := tail + 1 }) hl rfl rfl h0 ha rfl ?_ hlt) ?_
    · rw [← List.drop_drop, hr]
      rfl
    · rintro _ _ rfl
      rw [hk]

lemma runs_writeHead (hl : l.pc = .idle) (hk : l.knows = none) (hc : l.commit = some c)
    (ha : Apart start c.block) (hfull : c.block = [] ∨ c.copied = c.block.length) :
    Runs dev start i (writeHead dev start) l fun _ l' => l' = l := by
  refine .bind (runs_bread hl) ?_
  rintro b _ ⟨rfl, hb⟩
  refine (runs_getLog (Q := fun _ l' => l' = _) fun g s _ _ => rfl).bind ?_
  rintro lg _ rfl
  refine (runs_data (Q := fun _ l' => l' = _) fun g s _ _ => rfl).bind ?_
  rintro d _ rfl
  refine .next (runs_memmove hc (update_self ..) ?_ ?_) fun _ => ?_
  · intro n hn e
    cases e
    have := ha _ (List.mem_of_mem_drop hn)
    omega
  · intro j n _ _ e
    simp only [Key.mk.injEq, true_and] at e
    omega
  refine .next (runs_bwrite (m := c.copied) hc (update_self ..) rfl ?_ fun _ => hfull) fun _ => ?_
  · intro j n hj _
    refine .inr ⟨hj, fun e => ?_⟩
    simp only [Key.mk.injEq, true_and] at e
    omega
  refine .mono (runs_brelse hl) ?_
  rintro _ _ rfl
  dsimp only
  rw [update_idem, ← hb, update_eq_self, ← hk, ← hc]

lemma runs_installTrans {tail : Nat} {rest : List Nat} (hl : l.pc = .idle) (hk : l.knows = none)
    (hc : l.commit = some c) (hcop : c.copied = c.block.length) (ha : Apart start c.block) (hnd : c.block.Nodup)
    (ht : c.installed = tail) (hr : c.block.drop tail = rest) (hlen : tail ≤ c.block.length) :
    Runs dev start i (installTrans dev start tail rest) l fun _ l' =>
      l' = { l with commit := some { c with installed := c.block.length } } := by
  induction rest generalizing tail l c with
  | nil =>
    have := List.drop_eq_nil_iff.1 hr
    refine .ret ?_
    have e : c.installed = c.block.length := by omega
    rw [← e, ← hc]
  | cons n rest ih =>
    have hlt : tail < c.block.length := by
      by_contra h
      rw [List.drop_eq_nil_of_le (by omega)] at hr
      cases hr
    have hn : c.block[tail]? = some n := by
      rw [← List.head?_drop, hr]
      rfl
    have hmem : n ∈ c.block := List.mem_of_getElem? hn
    refine .bind (runs_bread hl) ?_
    rintro lbuf _ ⟨rfl, hlbuf⟩
    refine .bind (runs_bread hl) ?_
    rintro dbuf _ ⟨rfl, hdbuf⟩
    have hne : lbuf ≠ dbuf := by
      rintro rfl
      simp at hdbuf
    refine .bind (runs_data_copied (j := tail) (n := n) hc ?_ (by omega) hn) ?_
    · dsimp only
      rw [update_of_ne hne, update_self]
    rintro d _ ⟨rfl, rfl⟩
    refine .next (runs_memmove hc (update_self ..) ?_ ?_) fun _ => ?_
    · intro n' _ e
      cases e
      rfl
    · intro j n' hj _ e
      simp only [Key.mk.injEq, true_and] at e
      have := ha n hmem
      omega
    refine .next (runs_bwrite (m := c.copied) hc (update_self ..) rfl ?_ fun _ => .inr hcop) fun _ => ?_
    · intro j n' hj _
      refine .inr ⟨hj, fun e => ?_⟩
      simp only [Key.mk.injEq, true_and] at e
      have := ha n hmem
      omega
    refine .next (runs_bunpin (n := n) rfl (update_self ..) (by dsimp only; rw [ht]; exact hn)) fun _ => ?_
    refine .next (runs_brelse hl) fun _ => ?_
    refine .next (runs_brelse hl) fun _ => ?_
    dsimp only
    rw [held_back_swap hlbuf hdbuf hne]
    refine .mono (ih (c := { c with installed := c.installed + 1 }) hl rfl rfl hcop ha hnd (by rw [ht]) ?_ hlt) ?_
    · rw [← List.drop_drop, hr]
      rfl
    · rintro _ _ rfl
      rw [hk]

lemma runs_commit {block : List Nat} {latest : Nat → Block} (hl : l.pc = .idle) (hk : l.knows = none)
    (hc : l.commit = some ⟨block, latest, 0, 0⟩) :
    Runs dev start i (commit dev start) l fun _ l' => l' = { l with commit := some ⟨[], latest, 0, 0⟩ } := by
  refine .bind (Q := fun lg l' => (lg.block = block ∧ Apart start block ∧ block.Nodup) ∧ l' = l)
    (runs_getLog ?_) ?_
  · rintro g s hg rfl
    have hbusy := hg.ops.busy i _ hc
    have e : block = s.log.block := hbusy.block
    have ha := hg.pins.apart
    rw [hg.start, ← e] at ha
    exact ⟨⟨e.symm, ha, e ▸ hg.pins.nodup⟩, rfl⟩
  rintro lg _ ⟨⟨rfl, ha, hnd⟩, rfl⟩
  refine .ite (fun _ => ?_) fun hn => Safe.ret ?_
  · refine .next (runs_writeLog hl hk hc rfl ha rfl rfl (Nat.zero_le _)) fun _ => ?_
    refine .next (m := fun _ => _) (runs_writeHead hl hk rfl ha (.inr rfl)) fun _ => ?_
    refine .next (runs_installTrans hl hk rfl rfl ha hnd rfl rfl (Nat.zero_le _)) fun _ => ?_
    refine .next (runs_clear rfl rfl) fun _ => ?_
    exact runs_writeHead hl hk rfl nofun (.inl rfl)
  · have e : lg.block = [] := List.length_eq_zero_iff.1 (by unfold Log.n at hn; omega)
    rw [← e, ← hc]

lemma runs_endOp_commit (hl : l.pc = .idle) (hk : l.knows = none) (hc : l.commit = none) :
    Runs dev start i (endOp dev start) l fun _ l' => l' = l := by
  refine .bind runs_endOp ?_
  rintro _ _ (⟨rfl, rfl⟩ | ⟨rfl, block, latest, rfl⟩)
  · exact .ret rfl
  · refine .next (runs_commit hl hk rfl) fun _ => ?_
    refine .mono (runs_endCommit rfl rfl rfl) ?_
    rintro _ _ rfl
    dsimp only
    rw [← hc]

end calls

/-- Between its calls a process is nowhere in the cache, and does not commit. -/
def Local.Rest (l : Local) : Prop := l.pc = .idle ∧ l.knows = none ∧ l.commit = none

lemma runs_call (hl : l.Rest) (c : Call) : Runs dev start i (c.prog dev start) l fun _ l' => l'.Rest := by
  obtain ⟨h1, h2, h3⟩ := hl
  cases c with
  | bread k =>
    refine .bind (runs_bread h1) ?_
    rintro b _ ⟨rfl, _⟩
    exact .ret ⟨h1, h2, h3⟩
  | change b d =>
    refine .mono (runs_change h1) ?_
    rintro _ _ rfl
    exact ⟨h1, rfl, h3⟩
  | logWrite b =>
    refine .mono (runs_logWrite h1) ?_
    rintro _ _ rfl
    exact ⟨h1, h2, h3⟩
  | brelse b =>
    refine .mono (runs_brelse h1) ?_
    rintro _ _ rfl
    exact ⟨h1, rfl, h3⟩
  | beginOp =>
    refine .mono runs_beginOp ?_
    rintro _ _ rfl
    exact ⟨h1, h2, h3⟩
  | endOp =>
    refine .mono (runs_endOp_commit h1 h2 h3) ?_
    rintro _ _ rfl
    exact ⟨h1, h2, h3⟩

/-- What holds of the blocks of the transaction: they are distinct, each that is not installed is in a valid
    buffer that is in use, with what was last written to it and one pin, and there are no other pins. -/
structure Kept (s : State ι) : Prop where
  nodup : s.log.block.Nodup
  pinned : ∀ n ∈ s.log.block.drop s.installed, ∃ b, s.Pinned b n ∧ 1 ≤ (s.bio.cache.buf b).refcnt
  free : ∀ b, s.bio.pins b ≠ 0 →
    (s.bio.cache.buf b).dev = s.dev ∧ (s.bio.cache.buf b).blockno ∈ s.log.block.drop s.installed
  installed : s.log.committing = false → s.installed = 0

omit [DecidableEq ι] in
lemma Inv.kept (h : Inv dev start g s) : Kept s where
  nodup := h.pins.nodup
  pinned n hn := by
    obtain ⟨b, hb⟩ := h.pins.pinned n hn
    exact ⟨b, hb, h.core.refcnt_of_pin (by rw [hb.pin]; exact one_ne_zero)⟩
  free := h.pins.free
  installed hc := (h.ops.quiet (h.ops.no_commit (.inl hc))).2

omit [DecidableEq ι] in
lemma inv_start {next prev : Ptr → Ptr} {data : BufId → Block} {disk : Key → Block} {nlog : Nat} (hd : dev ≠ 0) :
    Inv dev start (fun _ : ι => ⟨.idle, fun _ => none, none, none⟩)
      (Txn.start next prev data disk dev start nlog).st where
  dev := ⟨rfl, hd⟩
  start := rfl
  core := ⟨Bio.inv_start, fun _ => rfl, fun _ => rfl, nofun, nofun⟩
  ops := .of_none (fun _ => rfl) rfl rfl (by simp [Txn.start, Pool.rest, Log.initlog])
  pins := ⟨List.nodup_nil, Nat.zero_le _, nofun, nofun, fun b hb => absurd rfl hb⟩

/-- From `initlog` on, whatever the processes do, the blocks of the transaction stay in the cache until they are
    installed, no pin is left when `commit` has returned, and `write_log` has copied what was last written to
    each block when the header is written. -/
theorem transaction_kept {next prev : Ptr → Ptr} {data : BufId → Block} {disk : Key → Block} {nlog : Nat}
    {ms : List (Turn ι Call)} {s : Sys ι} (hd : dev ≠ 0)
    (h : exec step (Txn.start next prev data disk dev start nlog) ms = some s) :
    Kept s.st ∧ ∀ m s', step s m = some s' → Guar s.st s'.st := by
  have hs : Pool.Sound (fun i _ e => Act.run i e) (Inv dev start) Guar (fun _ => True) Local.Rest s := by
    refine Pool.Sound.run (fun g st i c p hg hr hp => ?_) (Pool.sound_rest (inv_start hd) fun _ => ⟨rfl, rfl, rfl⟩) h
    cases hp
    refine ⟨g i, by rwa [update_eq_self], ?_⟩
    rw [hg.dev.1, hg.start]
    exact runs_call hr c
  obtain ⟨⟨g, hg, _⟩, _⟩ := id hs
  exact ⟨hg.kept, fun m s' hst => hs.guarantee (fun st => .of_eq rfl rfl) hst⟩

/-- Two processes are in transactions, one logs a block, and the second `end_op` has begun to commit. -/
def commitRun : List (Turn (Fin 2) Call) :=
  [.call 0 .beginOp, .act 0, .act 0, .call 1 .beginOp, .act 1, .act 1, .call 0 (.bread ⟨1, 40⟩), .act 0, .act 0, .act 0,
    .act 0, .call 0 (.change 0 Block.zero), .act 0, .act 0, .call 0 (.logWrite 0), .act 0, .act 0,
    .call 0 (.brelse 0), .act 0, .act 0, .act 0, .call 1 .endOp, .act 1, .act 1, .call 0 .endOp, .act 0, .act 0,
    .act 0, .act 0, .act 0]

theorem transaction_kept_commit :
    ∃ s : Sys (Fin 2), exec step (Txn.start id id (fun _ => Block.zero) (fun _ => Block.zero) 1 2 30) commitRun = some s ∧
      s.st.log.block = [40] ∧ Kept s.st := by
  obtain ⟨s, h⟩ := Option.isSome_iff_exists.1 (show (exec step (Txn.start id id (fun _ => Block.zero)
    (fun _ => Block.zero) 1 2 30) commitRun).isSome by decide +kernel)
  have hb : (exec step (Txn.start id id (fun _ => Block.zero) (fun _ => Block.zero) 1 2 30) commitRun).map
      (fun s => s.st.log.block) = some [40] := by decide +kernel
  rw [h] at hb
  exact ⟨s, h, Option.some.inj hb, (transaction_kept one_ne_zero h).1⟩

end Xv6n.Bio.Txn
