import Xv6n.Fs.Bitmap
import Xv6n.Fs.Image

/-!
# Allocation in the free map

What `balloc` and `bfree` do to the free map as a whole, in a transaction with room for the two blocks that
an allocation logs.
-/

namespace Xv6n.Fs
open Lib Function

section
variable [Superblock] {i : Pid} {s : State} {a : Solo} {b c r k : Nat}

/-- A transaction is open and has room for `k` more blocks, and nobody holds a buffer. -/
structure InTxn (k : Nat) (s : State) : Prop where
  bufs : ∀ b, s.bufLock b = none
  size : s.log.size = Superblock.nlog
  idle : s.log.committing = false
  op : 1 ≤ s.log.outstanding
  nodup : s.log.block.Nodup
  room : s.log.n + k < min LOGSIZE (Superblock.nlog - 1)

lemma InTxn.start_is (h : InTxn k s) : (Solo.start s).Is i s :=
  ⟨rfl, rfl, rfl, rfl, h.bufs, h.size, rfl, h.idle, fun _ hb => .inl (List.mem_toFinset.2 hb), h.nodup, [], rfl, rfl⟩

lemma InTxn.start_room (h : InTxn k s) : (Solo.start s).Room k := by
  have hold : (Solo.start s).old.card = s.log.n := List.toFinset_card_of_nodup h.nodup
  have hlogged : (Solo.start s).logged.card = 0 := rfl
  have := h.room
  unfold Solo.Room
  omega

lemma Solo.busy_of_empty (h : a.bufs = ∅) : a.Busy := by
  intro b hb
  rw [h] at hb
  exact absurd hb (Finset.notMem_empty b)

lemma used_alloc (hr : datastart ≤ r) (hc : bblock c < datastart) : Used (a.alloc r).disk c ↔ c = r ∨ Used a.disk c := by
  have hne : bblock c ≠ r := by omega
  show Used (allocated a.disk r) c ↔ _
  rw [← used_setBit, allocated]
  unfold Used
  rw [update_of_ne hne]

/-- What `balloc` has done when it returns `r`. -/
structure Allocated (s s' : State) (r : Nat) : Prop where
  lt : r < size
  free : ¬ Used s.view r
  least : ∀ c < r, Used s.view c
  zero : s'.view r = .zero
  used : ∀ c, bblock c < datastart → (Used s'.view c ↔ c = r ∨ Used s.view c)
  others : ∀ b, b ≠ r → b ≠ bblock r → s'.view b = s.view b

/-- `balloc` takes the first free block of the disk, sets its bit and no other, and zeroes it; `bfree` undoes
    it. If there is no free block then nothing changes. -/
theorem balloc_bfree (h : InTxn 2 s) (hres : Reserved s.view) :
    (∃ r s', balloc.run (Act.run i) s = .ok r s' ∧
      (Full s.view → r = 0 ∧ s'.view = s.view ∧ ∃ es, s'.trace = es ++ s.trace ∧ touched es = ∅) ∧
      (¬ Full s.view → Allocated s s' r ∧ ∃ s'', (bfree r).run (Act.run i) s' = .ok () s'' ∧
        ∀ c, bblock c < datastart → (Used s''.view c ↔ Used s.view c))) ∧
    ∀ b < size, Used s.view b → ∃ s', (bfree b).run (Act.run i) s = .ok () s' ∧
      (∀ c, Used s'.view c ↔ c ≠ b ∧ Used s.view c) ∧ ∀ d, d ≠ bblock b → s'.view d = s.view d := by
  have hroom := h.start_room
  refine ⟨?_, fun b _ hu => ?_⟩
  · have hran := ran_balloc (i := i) (F := fun _ => False) (Solo.busy_of_empty (a := Solo.start s) rfl) h.op
      (.inr (hroom.mono (by decide)))
    obtain ⟨r, s', hrun, a, ha, hs'⟩ := (hran s h.start_is).returns
    refine ⟨r, s', hrun, ?_⟩
    cases ha with
    | full hf =>
      obtain ⟨es, htrace, htouched⟩ := hs'.trace
      exact ⟨fun _ => ⟨rfl, hs'.disk, es, htrace, htouched⟩, fun hn => absurd hf hn⟩
    | found hlt hfree hleast =>
      refine ⟨fun hf => absurd (hf r hlt) hfree, fun _ => ⟨⟨hlt, hfree, hleast, ?_, fun c hc => ?_, fun b h1 h2 => ?_⟩, ?_⟩⟩
      · rw [hs'.disk]
        exact allocated_self
      · rw [hs'.disk]
        exact used_alloc (hres.le hfree) hc
      · rw [hs'.disk]
        exact allocated_of_ne h1 h2
      · have hused : Used ((Solo.start s).alloc r).disk r :=
          (used_alloc (hres.le hfree) (bblock_lt hlt)).2 (.inl rfl)
        have hbfree := ran_bfree (i := i) (F := fun _ => False) hused (Finset.notMem_empty _) h.op
          (.inr hroom.log.log)
        obtain ⟨_, s'', hrun', a', ⟨-, rfl⟩, hs''⟩ := (hbfree s' hs').returns
        refine ⟨s'', hrun', fun c hc => ?_⟩
        rw [hs''.disk]
        refine used_clearBit.trans ?_
        rw [used_alloc (hres.le hfree) hc]
        constructor
        · rintro ⟨h1, h2⟩
          exact h2.resolve_left h1
        · intro hu
          exact ⟨fun e => hfree (e ▸ hu), .inr hu⟩
  · have hbfree := ran_bfree (i := i) (F := fun _ => False) (a := Solo.start s) hu (Finset.notMem_empty _) h.op
      (.inr (hroom.mono (by decide)))
    obtain ⟨_, s', hrun, a', ⟨-, rfl⟩, hs'⟩ := (hbfree s h.start_is).returns
    refine ⟨s', hrun, fun c => ?_, fun d hd => ?_⟩
    · rw [hs'.disk]
      exact used_clearBit
    · rw [hs'.disk]
      exact update_of_ne hd ..

end

section sample
attribute [local instance] Sample.superblock

def Sample.begun : State := { start with log := { start.log with outstanding := 1 } }

/-- A block of the small disk is allocated, and freed. -/
theorem balloc_bfree_sample : ∃ r s', balloc.run (Act.run 0) Sample.begun = .ok r s' ∧
    Allocated Sample.begun s' r ∧ ∃ s'', (bfree r).run (Act.run 0) s' = .ok () s'' ∧
      ∀ c, bblock c < datastart → (Used s''.view c ↔ Used Sample.begun.view c) := by
  have hin : InTxn 2 Sample.begun := ⟨fun _ => rfl, rfl, rfl, by decide, by decide, by decide⟩
  have hres : Reserved Sample.begun.view := by
    unfold Reserved
    decide +kernel
  have hfull : ¬ Full Sample.begun.view := by
    unfold Full
    decide +kernel
  obtain ⟨⟨r, s', hrun, -, h⟩, -⟩ := balloc_bfree (i := 0) hin hres
  exact ⟨r, s', hrun, h hfull⟩

end sample

end Xv6n.Fs
