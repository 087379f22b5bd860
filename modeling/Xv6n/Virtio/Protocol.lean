import Mathlib.Data.Fintype.Card
import Xv6n.Lib.Exec
import Xv6n.Lib.Ring
import Xv6n.Lib.Safe
import Xv6n.Virtio.Disk

/-!
# The protocol between driver and device

The events of each head come in rounds: it is issued for a buffer, taken, completed on that buffer, the
buffer's caller is told, and the chain is freed. The invariant ties the round that a head is in to the rings,
the device and the process that has the chain.
-/

namespace Xv6n.Virtio
open Lib Function
variable {d : DescId}

inductive Phase (β : Type) where
  | free
  | issued (b : β)
  | taken (b : β)
  | completed (b : β)
  | finished (b : β)

inductive Stage where
  | free
  | issued
  | taken
  | completed
  | finished
deriving DecidableEq

def Phase.stage {β : Type} : Phase β → Stage
  | .free => .free
  | .issued _ => .issued
  | .taken _ => .taken
  | .completed _ => .completed
  | .finished _ => .finished

/-- The next event of a head; `none` if it is out of order or for another buffer. -/
def Phase.next {β : Type} [DecidableEq β] : Phase β → Event β → Option (Phase β)
  | .free, .issue b => some (.issued b)
  | .issued b, .take => some (.taken b)
  | .taken b, .complete b' => if b = b' then some (.completed b) else none
  | .completed b, .finish b' => if b = b' then some (.finished b) else none
  | .finished _, .free => some .free
  | _, _ => none

/-- Where head `h` is after all events of a trace, if they are in order. -/
def phase {β : Type} [DecidableEq β] (h : DescId) : List (DescId × Event β) → Option (Phase β)
  | [] => some .free
  | (h', e) :: l => if h' = h then (phase h l).bind (·.next e) else phase h l

def set3 {α : Type} (f : DescId → α) (l : List DescId) (v : α) : DescId → α := fun d => if d ∈ l then v else f d

lemma update_eq_set3 {α : Type} {f : DescId → α} {i0 i1 i2 : DescId} {v : α} :
    update (update (update f i0 v) i1 v) i2 v = set3 f [i0, i1, i2] v := by
  funext d
  unfold set3
  simp only [update_apply, List.mem_cons, List.not_mem_nil, or_false]
  by_cases e2 : d = i2
  · simp [e2]
  · by_cases e1 : d = i1
    · simp [e1]
    · simp [e2, e1]

lemma set3_mem {α : Type} {f : DescId → α} {l : List DescId} {v : α} (h : d ∈ l) : set3 f l v d = v :=
  if_pos h

lemma set3_of_notMem {α : Type} {f : DescId → α} {l : List DescId} {v : α} (h : d ∉ l) :
    set3 f l v d = f d := if_neg h

namespace Disk
variable {β : Type} {s s' : Disk β} {i : DescId} {c : Chain β} {n : Nat}

lemma allocDesc_some (h : s.allocDesc = some (i, s')) :
    s.free i = true ∧ s' = { s with free := update s.free i false } := by
  unfold allocDesc at h
  obtain ⟨j, hj, e⟩ := Option.map_eq_some_iff.1 h
  cases e
  exact ⟨by simpa using List.find?_some hj, rfl⟩

lemma freeDesc_ok (h : s.free i = false) :
    s.freeDesc i = .ok { s with desc := update s.desc i noDesc, free := update s.free i true } := by
  unfold freeDesc
  rw [dif_pos i.isLt, if_neg (by simpa using h)]

lemma free_back {f : DescId → Bool} {i j : DescId} (hi : f i = true) (hj : f j = true) :
    update (update (update (update f i false) j false) i true) j true = f := by
  funext k
  by_cases e : k = j
  · rw [e, update_self, hj]
  · rw [update_of_ne e]
    by_cases e' : k = i
    · rw [e', update_self, hi]
    · rw [update_of_ne e', update_of_ne e, update_of_ne e']

/-- `alloc3_desc` gets three descriptors that were free, or leaves the free ones free. -/
lemma alloc3Desc_spec (s : Disk β) :
    (∃ desc, (∀ i, s.free i = false → desc i = s.desc i) ∧ s.alloc3Desc = .ok (none, { s with desc := desc })) ∨
    ∃ i0 i1 i2, [i0, i1, i2].Nodup ∧ (∀ i ∈ [i0, i1, i2], s.free i = true) ∧
      s.alloc3Desc = .ok (some (i0, i1, i2), { s with free := set3 s.free [i0, i1, i2] false }) := by
  unfold alloc3Desc
  cases h0 : s.allocDesc with
  | none => exact .inl ⟨s.desc, fun _ _ => rfl, rfl⟩
  | some r =>
    obtain ⟨i0, s0⟩ := r
    obtain ⟨f0, rfl⟩ := allocDesc_some h0
    dsimp only
    cases h1 : allocDesc { s with free := update s.free i0 false } with
    | none =>
      left
      refine ⟨update s.desc i0 noDesc, fun i hi => update_of_ne ?_ .., ?_⟩
      · rintro rfl
        rw [f0] at hi
        cases hi
      · dsimp only
        rw [freeDesc_ok (update_self ..)]
        show Except.ok _ = _
        congr 3
        rw [update_idem, ← f0, update_eq_self]
    | some r =>
      obtain ⟨i1, s1⟩ := r
      obtain ⟨f1, rfl⟩ := allocDesc_some h1
      dsimp only at f1 ⊢
      obtain ⟨e1, f1⟩ := of_update f1 nofun
      cases h2 : allocDesc { s with free := update (update s.free i0 false) i1 false } with
      | none =>
        left
        refine ⟨update (update s.desc i0 noDesc) i1 noDesc, fun i hi => ?_, ?_⟩
        · have n0 : i ≠ i0 := by
            rintro rfl
            rw [f0] at hi
            cases hi
          have n1 : i ≠ i1 := by
            rintro rfl
            rw [f1] at hi
            cases hi
          rw [update_of_ne n1, update_of_ne n0]
        · dsimp only
          rw [freeDesc_ok (by simp [e1.symm])]
          show (freeDesc _ _ >>= _) = _
          rw [freeDesc_ok (by simp [e1])]
          show Except.ok _ = _
          congr 3
          exact free_back f0 f1
      | some r =>
        obtain ⟨i2, s2⟩ := r
        obtain ⟨f2, rfl⟩ := allocDesc_some h2
        dsimp only at f2 ⊢
        obtain ⟨e2, f2⟩ := of_update f2 nofun
        obtain ⟨e3, f2⟩ := of_update f2 nofun
        right
        refine ⟨i0, i1, i2, by simp [e1.symm, e2.symm, e3.symm], fun i hi => ?_, by rw [← update_eq_set3]⟩
        simp only [List.mem_cons, List.not_mem_nil, or_false] at hi
        rcases hi with rfl | rfl | rfl <;> assumption

lemma desc?_eq (s : Disk β) (i : DescId) : s.desc? i = some (s.desc i) := dif_pos i.isLt

lemma desc0_next (c : Chain β) : (desc0 c).flags &&& VRING_DESC_F_NEXT ≠ 0 := by
  show 1 &&& 1 ≠ 0
  decide

lemma desc2_next (c : Chain β) : ¬ (desc2 c).flags &&& VRING_DESC_F_NEXT ≠ 0 := by
  show ¬ 2 &&& 1 ≠ 0
  decide

lemma desc1_next (c : Chain β) : (desc1 c).flags &&& VRING_DESC_F_NEXT ≠ 0 := by
  show ((if c.write then 0 else 2) ||| 1) &&& 1 ≠ 0
  cases c.write <;> decide

lemma freeChain_ok (hd : c.descs.Nodup) (hf : ∀ d ∈ c.descs, s.free d = false)
    (h0 : s.desc c.d0 = desc0 c) (h1 : s.desc c.d1 = desc1 c) (h2 : s.desc c.d2 = desc2 c) :
    s.freeChain (n + 3) c.d0 = .ok { s with
      desc := set3 s.desc c.descs noDesc
      free := set3 s.free c.descs true } := by
  unfold Chain.descs
  rw [← update_eq_set3, ← update_eq_set3]
  obtain ⟨e1, e2, e3⟩ : c.d0 ≠ c.d1 ∧ c.d0 ≠ c.d2 ∧ c.d1 ≠ c.d2 := by
    simpa [Chain.descs, not_or, and_assoc] using hd
  have f0 := hf c.d0 (by simp [Chain.descs])
  have f1 := hf c.d1 (by simp [Chain.descs])
  have f2 := hf c.d2 (by simp [Chain.descs])
  unfold freeChain
  rw [desc?_eq, Option.getD_some, h0, freeDesc_ok f0]
  show (if _ then _ else _) = _
  rw [if_pos (desc0_next c)]
  show freeChain (n + 2) _ (c.d1 : Nat) = _
  unfold freeChain
  rw [desc?_eq, Option.getD_some]
  dsimp only
  rw [update_of_ne e1.symm, h1, freeDesc_ok (by simp [e1.symm, f1])]
  show (if _ then _ else _) = _
  rw [if_pos (desc1_next c)]
  show freeChain (n + 1) _ (c.d2 : Nat) = _
  unfold freeChain
  rw [desc?_eq, Option.getD_some]
  dsimp only
  rw [update_of_ne e3.symm, update_of_ne e2.symm, h2, freeDesc_ok (by simp [e2.symm, e3.symm, f2])]
  show (if _ then _ else _) = _
  rw [if_neg (desc2_next c)]

end Disk

variable {ι κ β : Type}

/-- Who is inside of the lock, and which buffers are in calls. -/
structure Users (lock : Option (ι ⊕ κ)) (pc : ι → Pc β) : Prop where
  lock : ∀ i, (pc i).locked = true → lock = some (.inl i)
  bufs : ∀ i j b, (pc i).buf = some b → (pc j).buf = some b → i = j

/-- The descriptors of a request, its header and its buffer are where the device and the interrupt find them. -/
structure Disk.Formatted (s : Disk β) (blockno : Nat) (c : Chain β) : Prop where
  desc0 : s.desc c.d0 = Disk.desc0 c
  desc1 : s.desc c.d1 = Disk.desc1 c
  desc2 : s.desc c.d2 = Disk.desc2 c
  ops : s.ops c.d0 = Disk.req blockno c.write
  info : (s.info c.d0).b = some c.b

/-- The free descriptors and those of the chains are a partition, and the chains are formatted. -/
structure Chains (disk : Disk β) (blockno : β → Nat) (ch : ι → Option (Chain β)) : Prop where
  nodup : ∀ i c, ch i = some c → c.descs.Nodup
  disjoint : ∀ i j c c' d, ch i = some c → ch j = some c' → d ∈ c.descs → d ∈ c'.descs → i = j
  free : ∀ d, disk.free d = false ↔ ∃ i c, ch i = some c ∧ d ∈ c.descs
  formatted : ∀ i c, ch i = some c → disk.Formatted (blockno c.b) c

/-- The rings and the device have the heads that are between `issue` and `finish`; `A` and `U` are the entries
    of the available and the used ring. -/
structure Queues (disk : Disk β) (dev : Device) (ph : DescId → Phase β) (A U : List DescId) : Prop where
  avail : Ring 65536 disk.availRing dev.seen.toNat disk.availIdx.toNat A
  used : Ring 65536 disk.usedRing disk.seenIdx.toNat disk.usedIdx.toNat U
  done : ∀ h, dev.done = some h → disk.usedRing (State.slot disk.usedIdx) = h
  nodupA : A.Nodup
  nodupT : dev.taken.Nodup
  nodupU : (U ++ dev.done.toList).Nodup
  memA : ∀ h, h ∈ A ↔ (ph h).stage = .issued
  memT : ∀ h, h ∈ dev.taken ↔ (ph h).stage = .taken
  memU : ∀ h, h ∈ U ++ dev.done.toList ↔ (ph h).stage = .completed

/-- The phase of a head that a process has published for a buffer, by `b->disk`. -/
def Phase.Flies (b : β) : Bool → Phase β → Prop
  | true, p => p = .issued b ∨ p = .taken b ∨ p = .completed b
  | false, p => p = .finished b

/-- The processes and the phases of the heads. -/
structure Flights (pc : ι → Pc β) (busy : β → Bool) (status : DescId → UInt8) (ph : DescId → Phase β) : Prop where
  quiet : ∀ i c, (pc i).chain = some c → (pc i).published = false → ph c.d0 = .free ∧ busy c.b = true
  flies : ∀ i c, (pc i).chain = some c → (pc i).published = true → (ph c.d0).Flies c.b (busy c.b)
  owner : ∀ h, ph h ≠ .free → ∃ i c, (pc i).chain = some c ∧ (pc i).published = true ∧ c.d0 = h
  status : ∀ h, (ph h).stage = .completed → status h = 0

structure Inv [DecidableEq β] (s : State ι κ β) (ph : DescId → Phase β) (A U : List DescId) : Prop where
  users : Users s.lock s.pc
  chains : Chains s.disk s.blockno fun i => (s.pc i).chain
  queues : Queues s.disk s.dev ph A U
  flights : Flights s.pc s.busy (fun h => (s.disk.info h).status) ph
  slot : ∀ i c, s.pc i = .publish c → s.disk.availRing (State.slot s.disk.availIdx) = c.d0
  trace : ∀ h, phase h s.trace = some (ph h)
  ok : s.panicked = none

def Unread (s s' : State ι κ β) : Prop :=
  ∀ k, k < s.unread → s'.disk.availRing (Fin.ofNat NUM (s.dev.seen.toNat + k)) =
    s.disk.availRing (Fin.ofNat NUM (s.dev.seen.toNat + k))

variable [DecidableEq ι] {s s' : State ι κ β} {ph : DescId → Phase β} {A U : List DescId} {i j : ι} {c : Chain β}
  {x : Pc β} {blockno : β → Nat} {disk : Disk β} {ch : ι → Option (Chain β)} {busy : β → Bool} {pc : ι → Pc β}

lemma Chains.goto
    (h : Chains disk blockno fun i => (pc i).chain) (hx : x.chain = (pc i).chain) :
    Chains disk blockno fun j => (update pc i x j).chain := by
  rwa [update_proj hx]

lemma Flights.goto {status : DescId → UInt8} (h : Flights pc busy status ph)
    (hx : x.chain = (pc i).chain) (hp : x.published = (pc i).published) :
    Flights (update pc i x) busy status ph := by
  have e1 : ∀ j, (update pc i x j).chain = (pc j).chain := congrFun (update_proj hx)
  have e2 : ∀ j, (update pc i x j).published = (pc j).published := congrFun (update_proj hp)
  refine ⟨fun j c => ?_, fun j c => ?_, fun d hd => ?_, h.status⟩
  · rw [e1, e2]
    exact h.quiet j c
  · rw [e1, e2]
    exact h.flies j c
  · obtain ⟨j, c, h1, h2, h3⟩ := h.owner d hd
    exact ⟨j, c, by rwa [e1], by rwa [e2], h3⟩

lemma Users.goto {lock lock' : Option (ι ⊕ κ)} (h : Users lock pc)
    (hl : lock = none ∨ lock = some (.inl i)) (hx : x.locked = true → lock' = some (.inl i))
    (hb : x.buf = (pc i).buf) : Users lock' (update pc i x) := by
  refine ⟨fun j hj => ?_, fun j j' b => ?_⟩
  · by_cases e : j = i
    · subst e
      rw [update_self] at hj
      exact hx hj
    · rw [update_of_ne e] at hj
      have := h.lock j hj
      rcases hl with hl | hl
      · rw [hl] at this
        cases this
      · rw [hl] at this
        cases this
        exact absurd rfl e
  · have e1 : ∀ j, (update pc i x j).buf = (pc j).buf := congrFun (update_proj hb)
    rw [e1, e1]
    exact h.bufs j j' b

lemma Inv.goto [DecidableEq β] (h : Inv s ph A U) {lock : Option (ι ⊕ κ)} (hl : s.lock = none ∨ s.lock = some (.inl i))
    (hx : x.locked = true → lock = some (.inl i)) (hb : x.buf = (s.pc i).buf) (hc : x.chain = (s.pc i).chain)
    (hp : x.published = (s.pc i).published) (hs : ∀ c, x ≠ .publish c) :
    Inv ({ s with lock := lock }.goto i x) ph A U where
  users := h.users.goto hl hx hb
  chains := h.chains.goto hc
  queues := h.queues
  flights := h.flights.goto hc hp
  slot := (forall_update_iff s.pc fun _ p => ∀ c, p = .publish c →
    s.disk.availRing (State.slot s.disk.availIdx) = c.d0).2 ⟨fun c e => absurd e (hs c), fun j _ => h.slot j⟩
  trace := h.trace
  ok := h.ok

lemma Disk.Formatted.congr {disk disk' : Disk β} (h : disk.Formatted n c)
    (hc : ∀ d ∈ c.descs, disk'.desc d = disk.desc d ∧ disk'.ops d = disk.ops d ∧
      (disk'.info d).b = (disk.info d).b) : disk'.Formatted n c := by
  obtain ⟨h0, h1, h2⟩ : c.d0 ∈ c.descs ∧ c.d1 ∈ c.descs ∧ c.d2 ∈ c.descs := by simp [Chain.descs]
  exact ⟨(hc _ h0).1.trans h.desc0, (hc _ h1).1.trans h.desc1, (hc _ h2).1.trans h.desc2,
    (hc _ h0).2.1.trans h.ops, (hc _ h0).2.2.trans h.info⟩

lemma Disk.formatted_format (hd : c.descs.Nodup) : (disk.format n c).Formatted n c := by
  obtain ⟨e1, e2, e3⟩ : c.d0 ≠ c.d1 ∧ c.d0 ≠ c.d2 ∧ c.d1 ≠ c.d2 := by
    simpa [Chain.descs, not_or, and_assoc] using hd
  refine ⟨?_, ?_, ?_, ?_, ?_⟩
  · show update _ c.d2 _ c.d0 = _
    rw [update_of_ne e2, update_of_ne e1, update_self]
  · show update _ c.d2 _ c.d1 = _
    rw [update_of_ne e3, update_self]
  · show update _ c.d2 _ c.d2 = _
    rw [update_self]
  · show update _ c.d0 _ c.d0 = _
    rw [update_self]
  · show (update disk.info c.d0 _ c.d0).b = _
    rw [update_self]

lemma Disk.format_of_notMem {s : Disk β} (h : d ∉ c.descs) :
    (s.format n c).desc d = s.desc d ∧ (s.format n c).ops d = s.ops d ∧ (s.format n c).info d = s.info d := by
  obtain ⟨n0, n1, n2⟩ : d ≠ c.d0 ∧ d ≠ c.d1 ∧ d ≠ c.d2 := by simpa [Chain.descs, not_or] using h
  refine ⟨?_, update_of_ne n0 .., update_of_ne n0 ..⟩
  show update _ c.d2 _ d = _
  rw [update_of_ne n2, update_of_ne n1, update_of_ne n0]

omit [DecidableEq ι] in
lemma Chains.notMem
    (h : Chains disk blockno ch) (hi : ch i = some c) (hf : disk.free d = true) : d ∉ c.descs := by
  intro hd
  have := (h.free d).2 ⟨i, c, hi, hd⟩
  rw [hf] at this
  cases this

omit [DecidableEq ι] in
lemma Chains.congr {disk t : Disk β} (h : Chains disk blockno ch)
    (hf : t.free = disk.free) (hc : ∀ d, disk.free d = false → t.desc d = disk.desc d ∧
      t.ops d = disk.ops d ∧ (t.info d).b = (disk.info d).b) : Chains t blockno ch where
  nodup := h.nodup
  disjoint := h.disjoint
  free := by rw [hf]; exact h.free
  formatted i c hi := (h.formatted i c hi).congr fun d hd => hc d ((h.free d).2 ⟨i, c, hi, hd⟩)

lemma Chains.alloc (h : Chains disk blockno ch)
    (hi : ch i = none) (hd : c.descs.Nodup) (hf : ∀ d ∈ c.descs, disk.free d = true) :
    Chains (Disk.format { disk with free := set3 disk.free c.descs false } (blockno c.b) c) blockno
      (update ch i (some c)) := by
  have hcase : ∀ j c', update ch i (some c) j = some c' → j = i ∧ c' = c ∨ j ≠ i ∧ ch j = some c' := by
    intro j c' hj
    by_cases e : j = i
    · subst e
      rw [update_self] at hj
      cases hj
      exact .inl ⟨rfl, rfl⟩
    · rw [update_of_ne e] at hj
      exact .inr ⟨e, hj⟩
  -- the descriptors of the other chains are not free, so none of them is one of `c`
  have hne : ∀ j c', ch j = some c' → ∀ d ∈ c'.descs, d ∉ c.descs :=
    fun j c' hj d hd' hd => h.notMem hj (hf d hd) hd'
  refine ⟨fun j c' hj => ?_, fun j j' c' c'' d hj hj' hd' hd'' => ?_, fun d => ?_, fun j c' hj => ?_⟩
  · rcases hcase j c' hj with ⟨rfl, rfl⟩ | ⟨_, hj⟩
    · exact hd
    · exact h.nodup j c' hj
  · rcases hcase j c' hj with ⟨rfl, rfl⟩ | ⟨_, h1⟩
    · rcases hcase j' c'' hj' with ⟨rfl, rfl⟩ | ⟨_, h2⟩
      · rfl
      · exact absurd hd' (hne j' c'' h2 d hd'')
    · rcases hcase j' c'' hj' with ⟨rfl, rfl⟩ | ⟨_, h2⟩
      · exact absurd hd'' (hne j c' h1 d hd')
      · exact h.disjoint j j' c' c'' d h1 h2 hd' hd''
  · show set3 disk.free c.descs false d = false ↔ _
    by_cases e : d ∈ c.descs
    · rw [set3_mem e]
      exact ⟨fun _ => ⟨i, c, update_self .., e⟩, fun _ => rfl⟩
    · rw [set3_of_notMem e, h.free d]
      constructor
      · rintro ⟨j, c', hj, hd'⟩
        refine ⟨j, c', ?_, hd'⟩
        rw [update_of_ne]
        · exact hj
        · rintro rfl
          rw [hi] at hj
          cases hj
      · rintro ⟨j, c', hj, hd'⟩
        rcases hcase j c' hj with ⟨rfl, rfl⟩ | ⟨_, hj⟩
        · exact absurd hd' e
        · exact ⟨j, c', hj, hd'⟩
  · rcases hcase j c' hj with ⟨rfl, rfl⟩ | ⟨_, hj⟩
    · exact Disk.formatted_format hd
    · refine (h.formatted j c' hj).congr fun d hd' => ?_
      obtain ⟨h1, h2, h3⟩ := Disk.format_of_notMem (s := { disk with free := set3 disk.free c.descs false })
        (n := blockno c.b) (hne j c' hj d hd')
      exact ⟨h1, h2, by rw [h3]⟩

lemma Chains.release {m : DescId → Info β}
    (h : Chains disk blockno ch) (hi : ch i = some c)
    (hinfo : ∀ d, d ≠ c.d0 → m d = disk.info d) :
    Chains { disk with
      info := m
      desc := set3 disk.desc c.descs Disk.noDesc
      free := set3 disk.free c.descs true } blockno (update ch i none) := by
  have hcase : ∀ j c', update ch i none j = some c' → j ≠ i ∧ ch j = some c' := fun j c' hj => of_update hj nofun
  have hne : ∀ j c', j ≠ i → ch j = some c' → ∀ d ∈ c'.descs, d ∉ c.descs :=
    fun j c' e hj d hd' hd => e (h.disjoint j i c' c d hj hi hd' hd)
  refine ⟨fun j c' hj => ?_, fun j j' c' c'' d hj hj' => ?_, fun d => ?_, fun j c' hj => ?_⟩
  · exact h.nodup j c' (hcase j c' hj).2
  · exact h.disjoint j j' c' c'' d (hcase j c' hj).2 (hcase j' c'' hj').2
  · show set3 disk.free c.descs true d = false ↔ _
    by_cases e : d ∈ c.descs
    · rw [set3_mem e]
      refine ⟨nofun, ?_⟩
      rintro ⟨j, c', hj, hd'⟩
      obtain ⟨e', hj⟩ := hcase j c' hj
      exact absurd e (hne j c' e' hj d hd')
    · rw [set3_of_notMem e, h.free d]
      constructor
      · rintro ⟨j, c', hj, hd'⟩
        refine ⟨j, c', ?_, hd'⟩
        rw [update_of_ne]
        · exact hj
        · rintro rfl
          rw [hi] at hj
          cases hj
          exact e hd'
      · rintro ⟨j, c', hj, hd'⟩
        exact ⟨j, c', (hcase j c' hj).2, hd'⟩
  · obtain ⟨e, hj⟩ := hcase j c' hj
    refine (h.formatted j c' hj).congr fun d hd' => ?_
    have hd := hne j c' e hj d hd'
    have hd0 : d ≠ c.d0 := by
      rintro rfl
      exact hd (by simp [Chain.descs])
    exact ⟨set3_of_notMem hd, rfl, congrArg Info.b (hinfo d hd0)⟩

lemma Flights.set {busy u : β → Bool} {status v : DescId → UInt8} {h : DescId}
    {p : Phase β} (hf : Flights pc busy status ph)
    (hother : ∀ j c', j ≠ i → (pc j).chain = some c' → c'.d0 ≠ h ∧ u c'.b = busy c'.b)
    (hold : ∀ c, (pc i).chain = some c → (pc i).published = true → c.d0 = h)
    (hnew : ∀ c, x.chain = some c → c.d0 = h)
    (hquiet : ∀ c, x.chain = some c → x.published = false → p = .free ∧ u c.b = true)
    (hflies : ∀ c, x.chain = some c → x.published = true → p.Flies c.b (u c.b))
    (howner : p ≠ .free → ∃ c, x.chain = some c ∧ x.published = true)
    (hstatus : ∀ d, (update ph h p d).stage = .completed → v d = 0) :
    Flights (update pc i x) u v (update ph h p) := by
  refine ⟨?_, ?_, fun d hd => ?_, hstatus⟩
  · refine (forall_update_iff pc fun j p' => ∀ c, p'.chain = some c → p'.published = false →
      update ph h p c.d0 = .free ∧ u c.b = true).2 ⟨fun c hc hp => ?_, fun j hj c hc hp => ?_⟩
    · rw [hnew c hc, update_self]
      exact hquiet c hc hp
    · obtain ⟨h1, h2⟩ := hother j c hj hc
      rw [update_of_ne h1, h2]
      exact hf.quiet j c hc hp
  · refine (forall_update_iff pc fun j p' => ∀ c, p'.chain = some c → p'.published = true →
      (update ph h p c.d0).Flies c.b (u c.b)).2 ⟨fun c hc hp => ?_, fun j hj c hc hp => ?_⟩
    · rw [hnew c hc, update_self]
      exact hflies c hc hp
    · obtain ⟨h1, h2⟩ := hother j c hj hc
      rw [update_of_ne h1, h2]
      exact hf.flies j c hc hp
  · by_cases e : d = h
    · subst e
      rw [update_self] at hd
      obtain ⟨c, hc, hp⟩ := howner hd
      exact ⟨i, c, by rwa [update_self], by rwa [update_self], hnew c hc⟩
    · rw [update_of_ne e] at hd
      obtain ⟨j, c, hc, hp, rfl⟩ := hf.owner d hd
      have hj : j ≠ i := by
        rintro rfl
        exact e (hold c hc hp)
      exact ⟨j, c, by rwa [update_of_ne hj], by rwa [update_of_ne hj], rfl⟩

section stage
variable {t : Stage} {l l' : List DescId} {h : DescId} {p : Phase β}

lemma mem_keep (hl : ∀ d, d ∈ l ↔ (ph d).stage = t) (h1 : (ph h).stage ≠ t) (h2 : p.stage ≠ t) (d : DescId) :
    d ∈ l ↔ (update ph h p d).stage = t := by
  by_cases e : d = h
  · subst e
    rw [update_self, hl d]
    exact ⟨fun h => absurd h h1, fun h => absurd h h2⟩
  · rw [update_of_ne e]
    exact hl d

lemma mem_add (hl : ∀ d, d ∈ l ↔ (ph d).stage = t) (h2 : p.stage = t) (hl' : ∀ d, d ∈ l' ↔ d ∈ l ∨ d = h)
    (d : DescId) : d ∈ l' ↔ (update ph h p d).stage = t := by
  rw [hl' d]
  by_cases e : d = h
  · subst e
    rw [update_self]
    exact ⟨fun _ => h2, fun _ => .inr rfl⟩
  · rw [update_of_ne e, hl d]
    exact or_iff_left e

lemma mem_del (hl : ∀ d, d ∈ l ↔ (ph d).stage = t) (h2 : p.stage ≠ t) (hl' : ∀ d, d ∈ l' ↔ d ∈ l ∧ d ≠ h)
    (d : DescId) : d ∈ l' ↔ (update ph h p d).stage = t := by
  rw [hl' d]
  by_cases e : d = h
  · subst e
    rw [update_self]
    exact ⟨fun h => absurd rfl h.2, fun h => absurd h h2⟩
  · rw [update_of_ne e, hl d]
    exact and_iff_left e

lemma phase_emit [DecidableEq β] {tr : List (DescId × Event β)} {e : Event β} (ht : ∀ d, phase d tr = some (ph d))
    (hn : (ph h).next e = some p) (d : DescId) : phase d ((h, e) :: tr) = some (update ph h p d) := by
  unfold phase
  by_cases e : d = h
  · subst e
    rw [if_pos rfl, ht, update_self]
    exact hn
  · rw [if_neg (Ne.symm e), update_of_ne e]
    exact ht d

lemma length_lt (hl : l.Nodup) (hh : h ∉ l) : l.length < NUM := by
  have h1 : (h :: l).Nodup := List.nodup_cons.2 ⟨hh, hl⟩
  have h2 := h1.length_le_card
  rw [Fintype.card_fin, List.length_cons] at h2
  omega

end stage

section steps
variable [DecidableEq β] (h : Inv s ph A U)
include h

lemma Inv.call {b : β} {w : Bool} (hi : s.pc i = .idle) (hb : ∀ j, (s.pc j).buf ≠ some b) :
    Inv (s.goto i (.enter b w)) ph A U where
  users := by
    refine ⟨?_, fun j j' b' hj hj' => ?_⟩
    · exact (forall_update_iff s.pc fun j p => p.locked = true → s.lock = some (.inl j)).2
        ⟨nofun, fun j _ => h.users.lock j⟩
    · have hcase : ∀ j, (update s.pc i (.enter b w) j).buf = some b' → j = i ∧ b' = b ∨
          (s.pc j).buf = some b' := by
        refine (forall_update_iff s.pc fun j p => p.buf = some b' → j = i ∧ b' = b ∨
          (s.pc j).buf = some b').2 ⟨fun e => .inl ⟨rfl, (Option.some.inj e).symm⟩, fun j _ e => .inr e⟩
      rcases hcase j hj with ⟨rfl, rfl⟩ | h1
      · rcases hcase j' hj' with ⟨rfl, _⟩ | h2
        · rfl
        · exact absurd h2 (hb j')
      · rcases hcase j' hj' with ⟨rfl, rfl⟩ | h2
        · exact absurd h1 (hb j)
        · exact h.users.bufs j j' b' h1 h2
  chains := h.chains.goto (by rw [hi]; rfl)
  queues := h.queues
  flights := h.flights.goto (by rw [hi]; rfl) (by rw [hi]; rfl)
  slot := (forall_update_iff s.pc fun j p => ∀ c, p = .publish c →
    s.disk.availRing (State.slot s.disk.availIdx) = c.d0).2 ⟨nofun, fun j _ => h.slot j⟩
  trace := h.trace
  ok := h.ok

section
omit [DecidableEq ι]

lemma Inv.setLock {lock : Option (ι ⊕ κ)} (hl : ∀ i, s.lock ≠ some (.inl i)) : Inv { s with lock := lock } ph A U where
  users := ⟨fun i hi => absurd (h.users.lock i hi) (hl i), h.users.bufs⟩
  chains := h.chains
  queues := h.queues
  flights := h.flights
  slot := h.slot
  trace := h.trace
  ok := h.ok

lemma Inv.setDesc {desc : DescId → Desc β} (hd : ∀ d, s.disk.free d = false → desc d = s.disk.desc d) :
    Inv { s with disk := { s.disk with desc := desc } } ph A U where
  users := h.users
  chains := h.chains.congr rfl fun d hf => ⟨hd d hf, rfl, rfl⟩
  queues := ⟨h.queues.avail, h.queues.used, h.queues.done, h.queues.nodupA, h.queues.nodupT, h.queues.nodupU,
    h.queues.memA, h.queues.memT, h.queues.memU⟩
  flights := h.flights
  slot := h.slot
  trace := h.trace
  ok := h.ok

lemma Inv.head_ne {c' : Chain β} (hi : (s.pc i).chain = some c) (hj : (s.pc j).chain = some c') (e : j ≠ i) :
    c'.d0 ≠ c.d0 := by
  intro e'
  exact e (h.chains.disjoint j i c' c c.d0 hj hi (by simp [Chain.descs, e']) (by simp [Chain.descs]))

lemma Inv.buf_ne {b b' : β} (hi : (s.pc i).buf = some b) (hj : (s.pc j).buf = some b') (e : j ≠ i) : b' ≠ b := by
  rintro rfl
  exact e (h.users.bufs j i b' hj hi)

end

omit h [DecidableEq β] in
lemma Pc.buf_of_chain {x : Pc β} (hx : x.chain = some c) : x.buf = some c.b := by
  cases x <;> first | cases hx; rfl | cases hx

omit [DecidableEq ι] in
lemma Inv.phase_free (hf : s.disk.free d = true) : ph d = .free := by
  by_contra hp
  obtain ⟨j, c, hc, _, rfl⟩ := h.flights.owner d hp
  exact h.chains.notMem hc hf (by simp [Chain.descs])

lemma Inv.alloc (hi : s.pc i = .alloc c.b c.write) (hd : c.descs.Nodup) (hf : ∀ d ∈ c.descs, s.disk.free d = true) :
    Inv ({ s with
      disk := Disk.format { s.disk with free := set3 s.disk.free c.descs false } (s.blockno c.b) c
      busy := update s.busy c.b true }.goto i (.ring c)) ph A U := by
  have hfree : ph c.d0 = .free := h.phase_free (hf c.d0 (by simp [Chain.descs]))
  have hch : (s.pc i).chain = none := by rw [hi]; rfl
  refine ⟨?_, ?_, ?_, ?_, ?_, h.trace, h.ok⟩
  · exact h.users.goto (.inr (h.users.lock i (by rw [hi]; rfl))) (fun _ => h.users.lock i (by rw [hi]; rfl))
      (by rw [hi]; rfl)
  · have := h.chains.alloc hch hd hf
    rw [show (some c : Option (Chain β)) = (Pc.ring c).chain from rfl, ← update_field] at this
    exact this
  · exact ⟨h.queues.avail, h.queues.used, h.queues.done, h.queues.nodupA, h.queues.nodupT, h.queues.nodupU,
      h.queues.memA, h.queues.memT, h.queues.memU⟩
  · have hset : Flights (update s.pc i (.ring c)) (update s.busy c.b true)
        (fun d => (update s.disk.info c.d0 ⟨some c.b, 0xff⟩ d).status) (update ph c.d0 .free) := by
      refine h.flights.set (fun j c' hj hc' => ⟨?_, ?_⟩) (fun c' hc' => ?_) (fun c' hc' => ?_) (fun c' hc' _ => ?_)
        nofun nofun fun d hs => ?_
      · intro e
        exact h.chains.notMem hc' (hf c.d0 (by simp [Chain.descs])) (by simp [Chain.descs, e])
      · exact update_of_ne (h.buf_ne (i := i) (b := c.b) (by rw [hi]; rfl) (Pc.buf_of_chain hc') hj) ..
      · rw [hch] at hc'
        cases hc'
      · cases hc'
        rfl
      · cases hc'
        exact ⟨rfl, update_self ..⟩
      · obtain ⟨hd0, hs⟩ := of_update_proj Phase.stage hs nofun
        rw [update_of_ne hd0]
        exact h.flights.status d hs
    rwa [← hfree, update_eq_self] at hset
  · exact (forall_update_iff s.pc fun j p => ∀ c, p = .publish c →
      s.disk.availRing (State.slot s.disk.availIdx) = c.d0).2 ⟨nofun, fun j _ => h.slot j⟩

omit [DecidableEq ι] in
lemma Inv.locked_eq (hi : (s.pc i).locked = true) (hj : (s.pc j).locked = true) : j = i := by
  have h1 := (h.users.lock i hi).symm.trans (h.users.lock j hj)
  cases h1
  rfl

lemma Inv.ring (hi : s.pc i = .ring c) :
    Inv ({ s with disk := { s.disk with
      availRing := update s.disk.availRing (State.slot s.disk.availIdx) c.d0 } }.goto i (.publish c)) ph A U := by
  have hch : (s.pc i).chain = some c := by rw [hi]; rfl
  have hlk : (s.pc i).locked = true := by rw [hi]; rfl
  have hfree := (h.flights.quiet i c hch (by rw [hi]; rfl)).1
  have hmem : c.d0 ∉ A := by
    rw [h.queues.memA, hfree]
    nofun
  refine ⟨?_, ?_, ?_, ?_, ?_, h.trace, h.ok⟩
  · exact h.users.goto (.inr (h.users.lock i hlk)) (fun _ => h.users.lock i hlk) (by rw [hi]; rfl)
  · exact (h.chains.congr (t := { s.disk with
      availRing := update s.disk.availRing (State.slot s.disk.availIdx) c.d0 }) rfl
      fun _ _ => ⟨rfl, rfl, rfl⟩).goto hch.symm
  · exact { h.queues with avail := h.queues.avail.write (by decide) (length_lt h.queues.nodupA hmem) _ }
  · exact h.flights.goto hch.symm (by rw [hi]; rfl)
  · refine (forall_update_iff s.pc fun j p => ∀ c', p = .publish c' →
      update s.disk.availRing (State.slot s.disk.availIdx) c.d0 (State.slot s.disk.availIdx) = c'.d0).2
      ⟨fun c' e => ?_, fun j hj c' e => ?_⟩
    · cases e
      rw [update_self]
    · exact absurd (h.locked_eq hlk (by rw [e]; rfl)) hj

omit h in
lemma toNat_succ (x : UInt16) : (x + 1).toNat = (x.toNat + 1) % 65536 := UInt16.toNat_add ..

lemma Inv.publish (hi : s.pc i = .publish c) :
    Inv (({ s with disk := { s.disk with availIdx := s.disk.availIdx + 1 } }.goto i (.check c)).emit c.d0 (.issue c.b))
      (update ph c.d0 (.issued c.b)) (A ++ [c.d0]) U := by
  have hch : (s.pc i).chain = some c := by rw [hi]; rfl
  have hlk : (s.pc i).locked = true := by rw [hi]; rfl
  obtain ⟨hfree, hbusy⟩ := h.flights.quiet i c hch (by rw [hi]; rfl)
  have hmem : c.d0 ∉ A := by
    rw [h.queues.memA, hfree]
    nofun
  refine ⟨?_, ?_, ?_, ?_, ?_, ?_, h.ok⟩
  · exact h.users.goto (.inr (h.users.lock i hlk)) (fun _ => h.users.lock i hlk) (by rw [hi]; rfl)
  · exact (h.chains.congr (t := { s.disk with availIdx := s.disk.availIdx + 1 }) rfl
      fun _ _ => ⟨rfl, rfl, rfl⟩).goto hch.symm
  · refine { h.queues with avail := ?_, nodupA := ?_, memA := ?_, memT := ?_, memU := ?_ }
    · have := h.queues.avail.push (by decide) (length_lt h.queues.nodupA hmem)
      rw [← toNat_succ] at this
      have hslot := h.slot i c hi
      unfold State.slot at hslot
      rwa [hslot] at this
    · exact List.nodup_append.2 ⟨h.queues.nodupA, List.nodup_singleton _, fun a ha b hb => by
        rw [List.mem_singleton.1 hb]
        rintro rfl
        exact hmem ha⟩
    · exact mem_add h.queues.memA rfl fun d => by simp
    · exact mem_keep h.queues.memT (by rw [hfree]; nofun) nofun
    · exact mem_keep h.queues.memU (by rw [hfree]; nofun) nofun
  · refine h.flights.set (fun j c' hj hc' => ⟨h.head_ne hch hc' hj, rfl⟩) (fun c' hc' _ => ?_) (fun c' hc' => ?_)
      (fun c' _ hp => ?_) (fun c' hc' _ => ?_) (fun _ => ⟨c, rfl, rfl⟩) fun d hd => ?_
    · rw [hch] at hc'
      cases hc'
      rfl
    · cases hc'
      rfl
    · cases hp
    · cases hc'
      show Phase.Flies c.b (s.busy c.b) _
      rw [hbusy]
      exact .inl rfl
    · obtain ⟨hd0, hd⟩ := of_update_proj Phase.stage hd nofun
      exact h.flights.status d hd
  · refine (forall_update_iff s.pc fun j p => ∀ c', p = .publish c' →
      s.disk.availRing (State.slot (s.disk.availIdx + 1)) = c'.d0).2 ⟨nofun, fun j hj c' e => ?_⟩
    exact absurd (h.locked_eq hlk (by rw [e]; rfl)) hj
  · exact phase_emit h.trace (by rw [hfree]; rfl)

lemma Inv.free (hi : s.pc i = .check c) (hb : s.busy c.b = false) :
    ∃ d, Disk.freeChain (NUM + 1) { s.disk with
        info := update s.disk.info c.d0 { s.disk.info c.d0 with b := none } } c.d0 = .ok d ∧
      d.availRing = s.disk.availRing ∧
      Inv ((({ s with disk := d, lock := none } : State ι κ β).goto i .idle).emit c.d0 .free)
        (update ph c.d0 .free) A U := by
  have hch : (s.pc i).chain = some c := by rw [hi]; rfl
  have hlk : (s.pc i).locked = true := by rw [hi]; rfl
  have hfin : ph c.d0 = .finished c.b := by
    have := h.flights.flies i c hch (by rw [hi]; rfl)
    rwa [hb] at this
  have hfm := h.chains.formatted i c hch
  refine ⟨_, Disk.freeChain_ok (n := 6) (h.chains.nodup i c hch) (fun d hd => (h.chains.free d).2 ⟨i, c, hch, hd⟩)
    hfm.desc0 hfm.desc1 hfm.desc2, rfl, ?_⟩
  refine ⟨?_, ?_, ?_, ?_, ?_, ?_, h.ok⟩
  · refine ⟨?_, ?_⟩
    · exact (forall_update_iff s.pc fun j p => p.locked = true →
        (none : Option (ι ⊕ κ)) = some (.inl j)).2 ⟨fun e => (by cases e), fun j hj hl => absurd (h.locked_eq hlk hl) hj⟩
    · have hbuf : ∀ j b, (update s.pc i .idle j).buf = some b → (s.pc j).buf = some b := by
        intro j b
        exact (forall_update_iff s.pc fun j p => p.buf = some b → (s.pc j).buf = some b).2
          ⟨fun e => (by cases e), fun j _ e => e⟩ j
      exact fun j j' b h1 h2 => h.users.bufs j j' b (hbuf j b h1) (hbuf j' b h2)
  · have := h.chains.release (m := update s.disk.info c.d0 { s.disk.info c.d0 with b := none }) hch
      fun d hd => update_of_ne hd ..
    rw [show (none : Option (Chain β)) = (Pc.idle : Pc β).chain from rfl, ← update_field] at this
    exact this
  · exact { h.queues with
      memA := mem_keep h.queues.memA (by rw [hfin]; nofun) nofun
      memT := mem_keep h.queues.memT (by rw [hfin]; nofun) nofun
      memU := mem_keep h.queues.memU (by rw [hfin]; nofun) nofun }
  · refine h.flights.set (fun j c' hj hc' => ⟨h.head_ne hch hc' hj, rfl⟩) (fun c' hc' _ => ?_) nofun nofun nofun
      (fun hp => absurd rfl hp) fun d hd => ?_
    · rw [hch] at hc'
      cases hc'
      rfl
    · obtain ⟨hd0, hd⟩ := of_update_proj Phase.stage hd nofun
      show (update s.disk.info c.d0 _ d).status = 0
      rw [update_of_ne hd0]
      exact h.flights.status d hd
  · exact (forall_update_iff s.pc fun j p => ∀ c', p = .publish c' →
      s.disk.availRing (State.slot s.disk.availIdx) = c'.d0).2 ⟨nofun, fun j _ => h.slot j⟩
  · exact phase_emit h.trace (by rw [hfin]; rfl)

omit [DecidableEq ι] in
lemma Inv.fly (hst : (ph d).stage ≠ .free) (hst' : (ph d).stage ≠ .finished) :
    ∃ i c, (s.pc i).chain = some c ∧ (s.pc i).published = true ∧ c.d0 = d ∧ s.busy c.b = true ∧
      (ph d = .issued c.b ∨ ph d = .taken c.b ∨ ph d = .completed c.b) := by
  obtain ⟨i, c, hc, hp, rfl⟩ := h.flights.owner d (by rintro e; rw [e] at hst; exact hst rfl)
  have hfly := h.flights.flies i c hc hp
  cases hb : s.busy c.b with
  | false =>
    rw [hb] at hfly
    rw [show ph c.d0 = .finished c.b from hfly] at hst'
    exact absurd rfl hst'
  | true =>
    rw [hb] at hfly
    exact ⟨i, c, hc, hp, rfl, hb, hfly⟩

lemma Inv.advance {p : Phase β} {status : DescId → UInt8} (hc : (s.pc i).chain = some c)
    (hp : (s.pc i).published = true) (hbusy : ∀ b, b ≠ c.b → busy b = s.busy b) (hfly : p.Flies c.b (busy c.b))
    (hst : ∀ d, (update ph c.d0 p d).stage = .completed → status d = 0) :
    Flights s.pc busy status (update ph c.d0 p) := by
  have := h.flights.set (i := i) (x := s.pc i) (u := busy) (v := status) (h := c.d0) (p := p)
    (fun j c' hj hc' => ⟨h.head_ne hc hc' hj, hbusy _ (h.buf_ne (Pc.buf_of_chain hc) (Pc.buf_of_chain hc') hj)⟩)
    (fun c' hc' _ => by rw [hc] at hc'; cases hc'; rfl) (fun c' hc' => by rw [hc] at hc'; cases hc'; rfl)
    (fun c' _ hp' => by rw [hp] at hp'; cases hp') (fun c' hc' _ => by rw [hc] at hc'; cases hc'; exact hfly)
    (fun _ => ⟨c, hc, hp⟩) hst
  rwa [update_eq_self] at this

lemma Inv.take (hne : s.dev.seen ≠ s.disk.availIdx) : ∃ ph' A',
    Inv ({ s with dev := { s.dev with
        seen := s.dev.seen + 1
        taken := s.disk.availRing (State.slot s.dev.seen) :: s.dev.taken } }.emit
      (s.disk.availRing (State.slot s.dev.seen)) .take) ph' A' U := by
  cases A with
  | nil => exact absurd (UInt16.toNat_inj.1 ((h.queues.avail.empty_iff (by decide)).2 rfl)) hne
  | cons d A =>
    obtain ⟨hd, hring⟩ := h.queues.avail.pop (by decide)
    change s.disk.availRing (State.slot s.dev.seen) = d at hd
    rw [hd]
    have hst : (ph d).stage = .issued := (h.queues.memA d).1 List.mem_cons_self
    obtain ⟨i, c, hc, hp, rfl, hb, hph⟩ := h.fly (by rw [hst]; nofun) (by rw [hst]; nofun)
    have hph : ph c.d0 = .issued c.b := by
      rcases hph with e | e | e
      · exact e
      · rw [e] at hst
        cases hst
      · rw [e] at hst
        cases hst
    obtain ⟨hnA, hnd⟩ := List.nodup_cons.1 h.queues.nodupA
    refine ⟨update ph c.d0 (.taken c.b), A, h.users, h.chains, ?_, ?_, h.slot,
      phase_emit h.trace (by rw [hph]; rfl), h.ok⟩
    · refine { h.queues with avail := ?_, nodupA := hnd, nodupT := ?_, memA := ?_, memT := ?_, memU := ?_ }
      · rwa [← toNat_succ] at hring
      · exact List.nodup_cons.2 ⟨by rw [h.queues.memT, hst]; nofun, h.queues.nodupT⟩
      · refine mem_del h.queues.memA nofun fun d => ?_
        rw [List.mem_cons]
        constructor
        · intro hd
          refine ⟨.inr hd, ?_⟩
          rintro rfl
          exact hnA hd
        · rintro ⟨rfl | hd, hne⟩
          · exact absurd rfl hne
          · exact hd
      · exact mem_add h.queues.memT rfl fun d => List.mem_cons.trans or_comm
      · exact mem_keep h.queues.memU (by rw [hst]; nofun) nofun
    · refine h.advance hc hp (fun _ _ => rfl) ?_ fun d hd => ?_
      · show Phase.Flies c.b (s.busy c.b) _
        rw [hb]
        exact .inr (.inl rfl)
      · refine h.flights.status d ?_
        exact (of_update_proj Phase.stage hd nofun).2

lemma Inv.finish (hne : s.disk.seenIdx ≠ s.disk.usedIdx) : ∃ b ph' U',
    (s.disk.info (s.disk.usedRing (State.slot s.disk.seenIdx))).status = 0 ∧
    (s.disk.info (s.disk.usedRing (State.slot s.disk.seenIdx))).b = some b ∧
    Inv ({ s with
        busy := update s.busy b false
        disk := { s.disk with seenIdx := s.disk.seenIdx + 1 } }.emit
      (s.disk.usedRing (State.slot s.disk.seenIdx)) (.finish b)) ph' A U' := by
  cases U with
  | nil => exact absurd (UInt16.toNat_inj.1 ((h.queues.used.empty_iff (by decide)).2 rfl)) hne
  | cons d U =>
    obtain ⟨hd, hring⟩ := h.queues.used.pop (by decide)
    change s.disk.usedRing (State.slot s.disk.seenIdx) = d at hd
    rw [hd]
    have hst : (ph d).stage = .completed := (h.queues.memU d).1 List.mem_cons_self
    obtain ⟨i, c, hc, hp, rfl, hb, hph⟩ := h.fly (by rw [hst]; nofun) (by rw [hst]; nofun)
    have hph : ph c.d0 = .completed c.b := by
      rcases hph with e | e | e
      · rw [e] at hst
        cases hst
      · rw [e] at hst
        cases hst
      · exact e
    obtain ⟨hnU, hnd⟩ := List.nodup_cons.1 h.queues.nodupU
    refine ⟨c.b, update ph c.d0 (.finished c.b), U, h.flights.status _ hst, (h.chains.formatted i c hc).info,
      h.users, h.chains.congr rfl fun _ _ => ⟨rfl, rfl, rfl⟩, ?_, ?_, h.slot,
      phase_emit h.trace (by rw [hph]; exact if_pos rfl), h.ok⟩
    · refine { h.queues with used := ?_, nodupU := hnd, memA := ?_, memT := ?_, memU := ?_ }
      · rwa [← toNat_succ] at hring
      · exact mem_keep h.queues.memA (by rw [hst]; nofun) nofun
      · exact mem_keep h.queues.memT (by rw [hst]; nofun) nofun
      · refine mem_del h.queues.memU nofun fun d => ?_
        rw [List.cons_append, List.mem_cons]
        constructor
        · intro hd
          refine ⟨.inr hd, ?_⟩
          rintro rfl
          exact hnU hd
        · rintro ⟨rfl | hd, hne⟩
          · exact absurd rfl hne
          · exact hd
    · refine h.advance hc hp (fun b hb => update_of_ne hb ..) ?_ fun d hd => ?_
      · show Phase.Flies c.b (update s.busy c.b false c.b) _
        rw [update_self]
        rfl
      · refine h.flights.status d ?_
        exact (of_update_proj Phase.stage hd nofun).2

omit [DecidableEq ι] in
lemma Inv.publishUsed (hd : s.dev.done = some d) : Inv { s with
      disk := { s.disk with usedIdx := s.disk.usedIdx + 1 }
      dev := { s.dev with done := none } } ph A (U ++ [d]) where
  users := h.users
  chains := h.chains.congr rfl fun _ _ => ⟨rfl, rfl, rfl⟩
  queues := by
    have hnd := h.queues.nodupU
    have hmem := h.queues.memU
    rw [hd] at hnd hmem
    refine { h.queues with used := ?_, done := nofun, nodupU := ?_, memU := ?_ }
    · have hlt : U.length < NUM := by
        refine length_lt (h := d) (hnd.sublist (List.sublist_append_left ..)) fun hU => ?_
        exact (List.nodup_append.1 hnd).2.2 d hU d List.mem_cons_self rfl
      have := h.queues.used.push (by decide) hlt
      rw [← toNat_succ] at this
      have hslot := h.queues.done d hd
      unfold State.slot at hslot
      rwa [hslot] at this
    · simpa using hnd
    · simpa using hmem
  flights := h.flights
  slot := h.slot
  trace := h.trace
  ok := h.ok

omit h [DecidableEq ι] [DecidableEq β] in
lemma bind_guard {α : Type} {q : Prop} [Decidable q] (hq : q) (k : Unit → Option α) : (guard q >>= k) = k () := by
  rw [guard, if_pos hq]
  rfl

omit h [DecidableEq ι] [DecidableEq β] in
lemma request_eq (hf : s.disk.Formatted n c) : s.request c.d0 = some (Disk.req n c.write, c.b, c.d0) := by
  have h1 : s.disk.desc? (Disk.desc0 c).next = some (Disk.desc1 c) := by
    rw [← hf.desc1]
    exact Disk.desc?_eq ..
  have h2 : s.disk.desc? (Disk.desc1 c).next = some (Disk.desc2 c) := by
    rw [← hf.desc2]
    exact Disk.desc?_eq ..
  have h3 : (Disk.desc1 c).flags &&& VRING_DESC_F_WRITE ≠ 0 ↔ (Disk.req n c.write).type = VIRTIO_BLK_T_IN := by
    show ((if c.write then 0 else 2) ||| 1) &&& 2 ≠ 0 ↔ (if c.write then 1 else 0) = 0
    cases c.write <;> decide
  unfold State.request
  rw [hf.desc0]
  refine (bind_guard (q := (Disk.desc0 c).flags = VRING_DESC_F_NEXT) rfl _).trans ?_
  rw [h1]
  refine (bind_guard (Disk.desc1_next c) _).trans ?_
  rw [h2, Option.bind_eq_bind, Option.bind_some]
  refine (bind_guard (q := (Disk.desc2 c).flags = VRING_DESC_F_WRITE) rfl _).trans ?_
  show (guard (_ ↔ (s.disk.ops c.d0).type = _) >>= fun _ => some (s.disk.ops c.d0, c.b, c.d0)) = _
  rw [hf.ops]
  exact bind_guard h3 _

lemma Inv.complete (hd : d ∈ s.dev.taken) (hnone : s.dev.done = none) :
    ∃ ph', Inv (s.complete d) ph' A U := by
  have hst := (h.queues.memT d).1 hd
  obtain ⟨i, c, hc, hp, rfl, hb, hph⟩ := h.fly (by rw [hst]; nofun) (by rw [hst]; nofun)
  have hph : ph c.d0 = .taken c.b := by
    rcases hph with e | e | e
    · rw [e] at hst
      cases hst
    · exact e
    · rw [e] at hst
      cases hst
  have hmem : c.d0 ∉ U := by
    intro hU
    have := (h.queues.memU c.d0).1 (List.mem_append_left _ hU)
    rw [hst] at this
    cases this
  have hnd := h.queues.nodupU
  have hmemU := h.queues.memU
  rw [hnone] at hnd hmemU
  simp only [Option.toList_none, List.append_nil] at hnd hmemU
  unfold State.complete
  rw [request_eq (h.chains.formatted i c hc)]
  refine ⟨update ph c.d0 (.completed c.b), h.users, ?_, ?_, ?_, h.slot,
    phase_emit h.trace (by rw [hph]; exact if_pos rfl), h.ok⟩
  · refine h.chains.congr rfl fun d _ => ⟨rfl, rfl, ?_⟩
    show (update s.disk.info c.d0 _ d).b = _
    by_cases e : d = c.d0
    · rw [e, update_self]
    · rw [update_of_ne e]
  · refine { h.queues with used := ?_, done := ?_, nodupT := ?_, nodupU := ?_, memA := ?_, memT := ?_, memU := ?_ }
    · exact h.queues.used.write (by decide) (length_lt hnd hmem) _
    · intro d' e
      cases e
      exact update_self ..
    · exact h.queues.nodupT.erase _
    · refine List.nodup_append.2 ⟨hnd, List.nodup_singleton _, fun a ha b hb => ?_⟩
      rw [List.mem_singleton.1 hb]
      rintro rfl
      exact hmem ha
    · exact mem_keep h.queues.memA (by rw [hst]; nofun) nofun
    · refine mem_del h.queues.memT nofun fun d => ?_
      show d ∈ s.dev.taken.erase c.d0 ↔ _
      rw [h.queues.nodupT.mem_erase_iff]
      exact and_comm
    · refine mem_add hmemU rfl fun d => ?_
      show d ∈ U ++ [c.d0] ↔ _
      rw [List.mem_append, List.mem_singleton]
  · refine h.advance hc hp (fun _ _ => rfl) ?_ fun d hd => ?_
    · show Phase.Flies c.b (s.busy c.b) _
      rw [hb]
      exact .inr (.inr rfl)
    · show (update s.disk.info c.d0 _ d).status = 0
      by_cases e : d = c.d0
      · rw [e, update_self]
      · rw [update_of_ne e] at hd ⊢
        exact h.flights.status d hd

omit h [DecidableEq ι] [DecidableEq β] in
lemma Unread.of_eq (he : s'.disk.availRing = s.disk.availRing) : Unread s s' := fun _ _ => by rw [he]

omit [DecidableEq ι] in
lemma Inv.unread : s.unread = A.length := by
  have h1 := h.queues.avail.sub (by decide)
  unfold State.unread
  rw [UInt16.toNat_sub, ← h1]
  congr 1
  have := s.dev.seen.toNat_lt
  omega

omit h [DecidableEq ι] in
lemma State.complete_availRing (d : DescId) : (s.complete d).disk.availRing = s.disk.availRing := by
  unfold State.complete
  split <;> rfl

lemma Inv.runRw (hr : s.runRw i = some s') : (∃ ph' A', Inv s' ph' A' U) ∧ Unread s s' := by
  unfold State.runRw at hr
  split at hr
  · rename_i b w hi
    have hlk := h.users.lock i (by rw [hi]; rfl)
    rcases s.disk.alloc3Desc_spec with ⟨desc, hd, e⟩ | ⟨i0, i1, i2, hnd, hf, e⟩
    · rw [e] at hr
      cases hr
      exact ⟨⟨ph, A, (h.setDesc hd).goto (.inr hlk) nofun (by rw [hi]; rfl) (by rw [hi]; rfl) (by rw [hi]; rfl) nofun⟩,
        .of_eq rfl⟩
    · rw [e] at hr
      cases hr
      exact ⟨⟨ph, A, h.alloc (c := ⟨i0, i1, i2, b, w⟩) hi hnd hf⟩, .of_eq rfl⟩
  · cases hr
    have h' := h.ring ‹_›
    refine ⟨⟨ph, A, h'⟩, fun k hk => ?_⟩
    rw [h.unread] at hk
    exact (h'.queues.avail.cell k hk).trans (h.queues.avail.cell k hk).symm
  · cases hr
    exact ⟨⟨_, _, h.publish ‹_›⟩, .of_eq rfl⟩
  · rename_i c hi
    split at hr
    · cases hr
      have hlk := h.users.lock i (by rw [hi]; rfl)
      exact ⟨⟨ph, A, h.goto (.inr hlk) nofun (by rw [hi]; rfl) (by rw [hi]; rfl) (by rw [hi]; rfl) nofun⟩, .of_eq rfl⟩
    · rename_i hb
      obtain ⟨d, hd, hring, hinv⟩ := h.free hi (by simpa using hb)
      dsimp only at hr hd
      rw [hd] at hr
      cases hr
      exact ⟨⟨_, _, hinv⟩, .of_eq hring⟩
  · cases hr

lemma Inv.runIntr {k : κ} (hl : s.lock = some (.inr k)) : (∃ ph' U', Inv s.runIntr ph' A U') ∧ Unread s s.runIntr := by
  unfold State.runIntr
  split
  · rename_i hne
    obtain ⟨b, ph', U', h1, h2, hinv⟩ := h.finish hne
    dsimp only
    rw [if_neg (by rw [h1]; simp), h2]
    exact ⟨⟨ph', U', hinv⟩, .of_eq rfl⟩
  · refine ⟨⟨ph, U, h.setLock fun i => ?_⟩, .of_eq rfl⟩
    rw [hl]
    nofun

variable [Fintype ι] [DecidableEq κ]

lemma Inv.step {m : Move ι κ β} (hs : s.step m = some s') : (∃ ph' A' U', Inv s' ph' A' U') ∧ Unread s s' := by
  unfold State.step at hs
  split at hs
  · cases hs
  cases m with
  | call i b w =>
    dsimp only at hs
    split at hs
    · rename_i hi
      split at hs
      · cases hs
        exact ⟨⟨ph, A, U, h.call hi ‹_›⟩, .of_eq rfl⟩
      · cases hs
    · cases hs
  | acquire i =>
    dsimp only at hs
    split at hs
    · rename_i hl hi
      cases hs
      exact ⟨⟨ph, A, U, h.goto (.inl hl) (fun _ => rfl) (by rw [hi]; rfl) (by rw [hi]; rfl) (by rw [hi]; rfl) nofun⟩,
        .of_eq rfl⟩
    · rename_i hl hi
      cases hs
      exact ⟨⟨ph, A, U, h.goto (.inl hl) (fun _ => rfl) (by rw [hi]; rfl) (by rw [hi]; rfl) (by rw [hi]; rfl) nofun⟩,
        .of_eq rfl⟩
    · cases hs
  | run i =>
    dsimp only at hs
    split at hs
    · obtain ⟨⟨ph', A', hinv⟩, hu⟩ := h.runRw hs
      exact ⟨⟨ph', A', U, hinv⟩, hu⟩
    · cases hs
  | intr k =>
    dsimp only at hs
    split at hs
    · rename_i hl
      cases hs
      refine ⟨⟨ph, A, U, h.setLock fun i => ?_⟩, .of_eq rfl⟩
      rw [hl]
      nofun
    · cases hs
  | intrRun k =>
    dsimp only at hs
    split at hs
    · cases hs
      obtain ⟨⟨ph', U', hinv⟩, hu⟩ := h.runIntr ‹_›
      exact ⟨⟨ph', A, U', hinv⟩, hu⟩
    · cases hs
  | take =>
    dsimp only at hs
    split at hs
    · cases hs
      obtain ⟨ph', A', hinv⟩ := h.take ‹_›
      exact ⟨⟨ph', A', U, hinv⟩, .of_eq rfl⟩
    · cases hs
  | complete d =>
    dsimp only at hs
    split at hs
    · rename_i hc
      cases hs
      obtain ⟨ph', hinv⟩ := h.complete hc.1 hc.2
      exact ⟨⟨ph', A, U, hinv⟩, .of_eq (State.complete_availRing ..)⟩
    · cases hs
  | publish =>
    dsimp only at hs
    split at hs
    · cases hs
      exact ⟨⟨ph, A, _, h.publishUsed ‹_›⟩, .of_eq rfl⟩
    · cases hs

end steps

/-- What driver and device keep to: the free descriptors and those of the chains are a partition, a chain has
    three descriptors, every head goes through its rounds in order, what a process waits for is completed when
    `b->disk` is 0, a chain is not freed while it is in flight, an entry of the available ring is not overwritten
    before it is read, and nothing panics. -/
structure Protocol [DecidableEq ι] [DecidableEq β] [Fintype ι] [DecidableEq κ] (s : State ι κ β) : Prop where
  partition : ∀ d, s.disk.free d = true ↔ ∀ i c, (s.pc i).chain = some c → d ∉ c.descs
  disjoint : ∀ i j c c' d, (s.pc i).chain = some c → (s.pc j).chain = some c' → d ∈ c.descs → d ∈ c'.descs → i = j
  three : ∀ i c, (s.pc i).chain = some c → c.descs.Nodup
  rounds : ∀ h, (phase h s.trace).isSome
  told : ∀ i c, (s.pc i).chain = some c → (s.pc i).published = true →
    (s.busy c.b = false ↔ phase c.d0 s.trace = some (.finished c.b))
  flight : ∀ h p, phase h s.trace = some p → p.stage ≠ .free → p.stage ≠ .finished →
    ∃ i c, (s.pc i).chain = some c ∧ c.d0 = h ∧ p.Flies c.b true ∧ ∀ d ∈ c.descs, s.disk.free d = false
  unread : ∀ m s', s.step m = some s' → Unread s s'
  ok : s.panicked = none

section protocol
variable [Fintype ι] [DecidableEq κ] [DecidableEq β]

lemma Inv.protocol (h : Inv s ph A U) : Protocol s where
  partition d := by
    rw [← Bool.not_eq_false, h.chains.free d]
    push Not
    rfl
  disjoint := h.chains.disjoint
  three := h.chains.nodup
  rounds d := by rw [h.trace]; rfl
  told i c hc hp := by
    have hfly := h.flights.flies i c hc hp
    rw [h.trace, Option.some_inj]
    constructor
    · intro hb
      rwa [hb] at hfly
    · intro hf
      cases hb : s.busy c.b with
      | false => rfl
      | true =>
        rw [hb, hf] at hfly
        rcases hfly with e | e | e <;> cases e
  flight d p hp h1 h2 := by
    rw [h.trace] at hp
    cases hp
    obtain ⟨i, c, hc, _, rfl, _, hph⟩ := h.fly h1 h2
    exact ⟨i, c, hc, rfl, hph, fun d hd => (h.chains.free d).2 ⟨i, c, hc, hd⟩⟩
  unread m s' hs := (h.step hs).2
  ok := h.ok

omit [Fintype ι] [DecidableEq κ] [DecidableEq ι] in
lemma inv_start {data : β → Block} {platter : Nat → Block} :
    Inv (State.start busy data blockno platter : State ι κ β) (fun _ => .free) [] [] where
  users := ⟨nofun, nofun⟩
  chains := ⟨nofun, nofun, fun d => ⟨nofun, fun ⟨_, _, h, _⟩ => by cases h⟩, nofun⟩
  queues :=
    { avail := Ring.nil (UInt16.toNat_lt 0)
      used := Ring.nil (UInt16.toNat_lt 0)
      done := nofun
      nodupA := List.nodup_nil
      nodupT := List.nodup_nil
      nodupU := List.nodup_nil
      memA := fun _ => ⟨nofun, nofun⟩
      memT := fun _ => ⟨nofun, nofun⟩
      memU := fun _ => ⟨nofun, nofun⟩ }
  flights := ⟨nofun, nofun, fun _ h => absurd rfl h, nofun⟩
  slot := nofun
  trace _ := rfl
  ok := rfl

/-- From `virtio_disk_init` on, whatever processes, interrupts and the device do, they keep to the protocol. -/
theorem disk_protocol {busy : β → Bool} {data : β → Block} {blockno : β → Nat} {platter : Nat → Block}
    {ms : List (Move ι κ β)} (h : exec State.step (State.start busy data blockno platter) ms = some s) :
    Protocol s := by
  obtain ⟨ph, A, U, hinv⟩ := exec_invariant (I := fun s : State ι κ β => ∃ ph A U, Inv s ph A U)
    (fun ⟨_, _, _, hi⟩ hs => (hi.step hs).1) ⟨_, _, _, inv_start⟩ h
  exact hinv.protocol

end protocol

def swappedRun : List (Move (Fin 2) Unit (Fin 2)) :=
  [.call 0 0 false, .acquire 0, .run 0, .run 0, .run 0, .run 0, .call 1 1 true, .acquire 1, .run 1, .run 1, .run 1,
    .run 1, .take, .take, .complete 3, .publish, .complete 0, .publish, .intr (), .intrRun (), .intrRun (), .intrRun (),
    .acquire 0, .run 0]

theorem disk_protocol_swapped :
    ∃ s, exec State.step (State.start (fun _ => false) (fun _ => Block.zero) Fin.val fun _ => Block.zero) swappedRun
      = some s ∧ Protocol s := by
  obtain ⟨s, h⟩ := Option.isSome_iff_exists.1 (show (exec State.step (State.start (fun _ => false)
    (fun _ => Block.zero) Fin.val fun _ => Block.zero) swappedRun).isSome by decide +kernel)
  exact ⟨s, h, disk_protocol h⟩

end Xv6n.Virtio
