import Xv6n.Block
import Xv6n.Lib.DList

/-!
# The buffer cache

`kernel/bio.c`: the buffers, and the ring through which `bget` looks for a block and `brelse` moves a buffer
that is no longer used to the front. The functions here are the critical sections of `bcache.lock`; the
sleep-lock of a buffer is taken and released outside of them. `ι` are the processes.
-/

namespace Xv6n

abbrev NBUF : Nat := MAXOPBLOCKS * 3

instance neZero_NBUF : NeZero NBUF := ⟨by decide⟩

namespace Bio
open Lib Function

/-- An element of `bcache.buf`. -/
abbrev BufId : Type := Fin NBUF

/-- A pointer of the ring; `none` is `&bcache.head`. -/
abbrev Ptr : Type := Option BufId

variable {ι : Type}

/-- A buffer (C `struct buf`); `lock` is the process that holds the sleep-lock. -/
structure Buf (ι : Type) where
  valid : Bool
  dev : Nat
  blockno : Nat
  lock : Option ι
  refcnt : Nat
  data : Block

def Buf.Has (x : Buf ι) (dev blockno : Nat) : Prop := x.dev = dev ∧ x.blockno = blockno

instance (x : Buf ι) (dev blockno : Nat) : Decidable (x.Has dev blockno) := inferInstanceAs (Decidable (_ ∧ _))

/-- The buffers and the links of the ring (C `bcache`). -/
structure Cache (ι : Type) where
  buf : BufId → Buf ι
  next : Ptr → Ptr
  prev : Ptr → Ptr

namespace Cache

def setBuf (c : Cache ι) (b : BufId) (x : Buf ι) : Cache ι := { c with buf := update c.buf b x }

def insert (c : Cache ι) (b : BufId) : Cache ι :=
  let c := { c with next := update c.next (some b) (c.next none) }
  let c := { c with prev := update c.prev (some b) none }
  let c := { c with prev := update c.prev (c.next none) (some b) }
  { c with next := update c.next none (some b) }

def remove (c : Cache ι) (b : BufId) : Cache ι :=
  let c := { c with prev := update c.prev (c.next (some b)) (c.prev (some b)) }
  { c with next := update c.next (c.prev (some b)) (c.next (some b)) }

def binit (next prev : Ptr → Ptr) (data : BufId → Block) : Cache ι :=
  (List.finRange NBUF).foldl insert
    { buf := fun b => ⟨false, 0, 0, none, 0, data b⟩
      next := update next none none
      prev := update prev none none }

/-- The first loop of `bget`: the buffer that has the block. -/
def lookup (c : Cache ι) (dev blockno : Nat) : Ptr :=
  (follow c.next none (fun p => p.any fun b => (c.buf b).Has dev blockno) (NBUF + 1) (c.next none)).join

/-- The second loop of `bget`: the least recently used buffer that nobody uses. -/
def victim (c : Cache ι) : Ptr :=
  (follow c.prev none (fun p => p.any fun b => (c.buf b).refcnt = 0) (NBUF + 1) (c.prev none)).join

/-- The section of `bget`: the buffer for a block; `none` is the panic "bget: no buffers". -/
def bget (c : Cache ι) (dev blockno : Nat) : Option (BufId × Cache ι) :=
  match c.lookup dev blockno with
  | some b => some (b, c.setBuf b { c.buf b with refcnt := (c.buf b).refcnt + 1 })
  | none =>
    match c.victim with
    | some b => some (b, c.setBuf b { c.buf b with dev, blockno, valid := false, refcnt := 1 })
    | none => none

/-- The section of `brelse` (C `brelse`). -/
def unref (c : Cache ι) (b : BufId) : Cache ι :=
  let c := c.setBuf b { c.buf b with refcnt := (c.buf b).refcnt - 1 }
  if (c.buf b).refcnt = 0 then (c.remove b).insert b else c

def bpin (c : Cache ι) (b : BufId) : Cache ι := c.setBuf b { c.buf b with refcnt := (c.buf b).refcnt + 1 }

def bunpin (c : Cache ι) (b : BufId) : Cache ι := c.setBuf b { c.buf b with refcnt := (c.buf b).refcnt - 1 }

@[simp] lemma setBuf_buf (c : Cache ι) (b : BufId) (x : Buf ι) :
    (c.setBuf b x).buf = update c.buf b x := rfl

variable {c : Cache ι} {l : List BufId} {b : BufId} {dev blockno : Nat}

/-- The buffers on the ring, from the most to the least recently used. -/
def Ring (c : Cache ι) (l : List BufId) : Prop := DRing c.next c.prev none (l.map some)

lemma Ring.nodup (h : c.Ring l) : l.Nodup := ((List.nodup_cons.1 (DRing.nodup h)).2).of_map _

lemma Ring.insert (h : c.Ring l) (hb : b ∉ l) : (c.insert b).Ring (b :: l) := by
  have h1 := DRing.link (x := some b) h (by simpa using hb)
  unfold Cache.Ring Cache.insert
  rw [List.map_cons]
  simpa using h1

lemma Ring.remove (h : c.Ring l) (hb : b ∈ l) : (c.remove b).Ring (l.erase b) := by
  obtain ⟨l₁, l₂, rfl⟩ := List.append_of_mem hb
  have hn := h.nodup
  rw [List.nodup_append] at hn
  have hb1 : b ∉ l₁ := fun hm => hn.2.2 b hm b (List.mem_cons_self ..) rfl
  have herase : (l₁ ++ b :: l₂).erase b = l₁ ++ l₂ := by
    rw [List.erase_append_right _ hb1, List.erase_cons_head]
  unfold Cache.Ring at h
  rw [List.map_append, List.map_cons] at h
  have hne : c.next (some b) ≠ some b := h.next_ne
  have h1 := h.unlink
  unfold Cache.Ring Cache.remove
  rw [herase, List.map_append]
  simpa [update_of_ne hne.symm] using h1

/-- The ring holds every buffer, and no two buffers have the same block of a device. -/
structure Wf (c : Cache ι) : Prop where
  ring : ∃ l, c.Ring l ∧ ∀ b, b ∈ l
  unique : ∀ b b', (c.buf b).dev ≠ 0 → (c.buf b').Has (c.buf b).dev (c.buf b).blockno → b = b'

lemma Ring.length (h : c.Ring l) (hl : ∀ b, b ∈ l) : l.length = NBUF := by
  have hp : l.Perm (List.finRange NBUF) :=
    (List.perm_ext_iff_of_nodup h.nodup (List.nodup_finRange _)).2 fun b => by simp [hl b]
  rw [hp.length_eq, List.length_finRange]

lemma Ring.follow_next {p : BufId → Bool} (h : c.Ring l) (hl : ∀ b, b ∈ l) :
    (follow c.next none (fun x => x.any p) (NBUF + 1) (c.next none)).join = l.find? p := by
  rw [DRing.follow h (by rw [List.length_map, h.length hl]; exact Nat.lt_succ_self _), List.find?_map]
  show (Option.map some (l.find? p)).join = _
  cases l.find? p <;> rfl

lemma Ring.follow_prev {p : BufId → Bool} (h : c.Ring l) (hl : ∀ b, b ∈ l) :
    (follow c.prev none (fun x => x.any p) (NBUF + 1) (c.prev none)).join = l.reverse.find? p := by
  have hr := DRing.reverse h
  rw [← List.map_reverse] at hr
  exact Ring.follow_next (c := ⟨c.buf, c.prev, c.next⟩) hr fun b => List.mem_reverse.2 (hl b)

lemma Wf.lookup_some (h : c.Wf) (e : c.lookup dev blockno = some b) : (c.buf b).Has dev blockno := by
  obtain ⟨l, hr, hl⟩ := h.ring
  unfold lookup at e
  rw [hr.follow_next hl] at e
  simpa using List.find?_some e

lemma Wf.lookup_none (h : c.Wf) (e : c.lookup dev blockno = none) : ¬ (c.buf b).Has dev blockno := by
  obtain ⟨l, hr, hl⟩ := h.ring
  unfold lookup at e
  rw [hr.follow_next hl, List.find?_eq_none] at e
  simpa using e b (hl b)

lemma Wf.victim_some (h : c.Wf) (e : c.victim = some b) : (c.buf b).refcnt = 0 := by
  obtain ⟨l, hr, hl⟩ := h.ring
  unfold victim at e
  rw [hr.follow_prev hl] at e
  simpa using List.find?_some e

/-- What `bget` does to the buffer that it returns: it had the block before, or nobody used it. -/
structure Got (c : Cache ι) (dev blockno : Nat) (b : BufId) (x : Buf ι) : Prop where
  has : x.Has dev blockno
  refcnt : x.refcnt = (c.buf b).refcnt + 1
  lock : x.lock = (c.buf b).lock
  data : x.data = (c.buf b).data
  hit_or_miss : (c.buf b).Has dev blockno ∧ x.valid = (c.buf b).valid ∨
    (∀ b', ¬ (c.buf b').Has dev blockno) ∧ (c.buf b).refcnt = 0 ∧ x.valid = false

lemma Wf.bget (h : c.Wf) {c' : Cache ι} (e : c.bget dev blockno = some (b, c')) :
    ∃ x, Got c dev blockno b x ∧ c' = c.setBuf b x := by
  unfold Cache.bget at e
  split at e
  · rename_i b' hb
    cases e
    have hhas := h.lookup_some hb
    exact ⟨{ c.buf b with refcnt := (c.buf b).refcnt + 1 }, ⟨hhas, rfl, rfl, rfl, .inl ⟨hhas, rfl⟩⟩, rfl⟩
  · rename_i hnone
    split at e
    · rename_i b' hb
      cases e
      have hfree := h.victim_some hb
      exact ⟨{ c.buf b with dev, blockno, valid := false, refcnt := 1 },
        ⟨⟨rfl, rfl⟩, by rw [hfree], rfl, rfl, .inr ⟨fun b' => h.lookup_none hnone, hfree, rfl⟩⟩, rfl⟩
    · cases e

lemma Wf.setBuf (h : c.Wf) {x : Buf ι} (hx : x.Has (c.buf b).dev (c.buf b).blockno) : (c.setBuf b x).Wf := by
  refine ⟨h.ring, fun b₁ b₂ => ?_⟩
  have hkey : ∀ b', (update c.buf b x b').Has (c.buf b').dev (c.buf b').blockno := by
    intro b'
    by_cases e : b' = b
    · subst e
      rwa [update_self]
    · rw [update_of_ne e]
      exact ⟨rfl, rfl⟩
  unfold Buf.Has at hkey ⊢
  rw [setBuf_buf, (hkey b₁).1, (hkey b₁).2, (hkey b₂).1, (hkey b₂).2]
  exact h.unique b₁ b₂

lemma Wf.got (h : c.Wf) {x : Buf ι} (hg : Got c dev blockno b x) : (c.setBuf b x).Wf := by
  rcases hg.hit_or_miss with ⟨hb, _⟩ | ⟨hb, _⟩
  · refine h.setBuf ?_
    rw [hb.1, hb.2]
    exact hg.has
  · refine ⟨h.ring, fun b₁ b₂ h0 hh => ?_⟩
    rw [setBuf_buf] at h0 hh
    by_cases e₁ : b₁ = b
    · by_cases e₂ : b₂ = b
      · rw [e₁, e₂]
      · rw [e₁, update_self, update_of_ne e₂, hg.has.1, hg.has.2] at hh
        exact absurd hh (hb b₂)
    · rw [update_of_ne e₁] at h0 hh
      by_cases e₂ : b₂ = b
      · rw [e₂, update_self] at hh
        exact absurd ⟨hh.1.symm.trans hg.has.1, hh.2.symm.trans hg.has.2⟩ (hb b₁)
      · rw [update_of_ne e₂] at hh
        exact h.unique b₁ b₂ h0 hh

lemma Wf.unref (h : c.Wf) : (c.unref b).Wf ∧
    (c.unref b).buf = update c.buf b { c.buf b with refcnt := (c.buf b).refcnt - 1 } := by
  have h1 : (c.setBuf b { c.buf b with refcnt := (c.buf b).refcnt - 1 }).Wf := h.setBuf ⟨rfl, rfl⟩
  unfold Cache.unref
  dsimp only
  split
  · refine ⟨⟨?_, h1.unique⟩, rfl⟩
    obtain ⟨l, hr, hl⟩ := h1.ring
    refine ⟨b :: l.erase b, (hr.remove (hl b)).insert (hr.nodup.not_mem_erase), fun b' => ?_⟩
    by_cases e : b' = b
    · exact e ▸ List.mem_cons_self ..
    · exact List.mem_cons_of_mem _ ((List.mem_erase_of_ne e).2 (hl b'))
  · exact ⟨h1, rfl⟩

lemma Ring.foldl_insert {l l' : List BufId} (h : c.Ring l') (hn : (l.reverse ++ l').Nodup) :
    (l.foldl Cache.insert c).Ring (l.reverse ++ l') ∧ (l.foldl Cache.insert c).buf = c.buf := by
  induction l generalizing c l' with
  | nil => exact ⟨h, rfl⟩
  | cons b l ih =>
    rw [List.reverse_cons, List.append_assoc] at hn ⊢
    have hb : b ∉ l' := (List.nodup_cons.1 (List.nodup_append.1 hn).2.1).1
    exact ih (h.insert hb) hn

lemma binit_ring {next prev : Ptr → Ptr} {data : BufId → Block} :
    (binit next prev data : Cache ι).Ring (List.finRange NBUF).reverse ∧
      (binit next prev data : Cache ι).buf = fun b => ⟨false, 0, 0, none, 0, data b⟩ := by
  have h0 : (⟨fun b => ⟨false, 0, 0, none, 0, data b⟩, update next none none,
      update prev none none⟩ : Cache ι).Ring [] := DRing.nil (by simp) (by simp)
  have := h0.foldl_insert (l := List.finRange NBUF) (by simpa using List.nodup_finRange NBUF)
  rw [List.append_nil] at this
  exact this

lemma binit_buf {next prev : Ptr → Ptr} {data : BufId → Block} :
    (binit next prev data : Cache ι).buf = fun b => ⟨false, 0, 0, none, 0, data b⟩ := binit_ring.2

lemma wf_binit {next prev : Ptr → Ptr} {data : BufId → Block} : (binit next prev data : Cache ι).Wf := by
  refine ⟨⟨_, binit_ring.1, fun b => by simp⟩, fun b b' h0 => ?_⟩
  rw [binit_buf] at h0
  exact absurd rfl h0

end Cache

end Bio

end Xv6n
