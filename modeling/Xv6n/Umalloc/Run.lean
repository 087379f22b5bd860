import Xv6n.Umalloc.Malloc

/-!
# Runs of the user-level allocator

A run is any sequence of calls of `malloc` and of `free` for blocks in use, with stores of the program into its
blocks in between. As long as no free joins blocks to one of 2 ^ 32 units or more, every call returns, and the heap
keeps its shape.
-/

namespace Xv6n.Umalloc

open Lib

variable {im : Image} {env : Env} {s s' : State} {N L R : List Block} {b c : Block} {n r : Nat}

/-- The block of a pointer that `malloc` returned for a number of bytes. -/
def blockOf (u : Nat × Nat) : Block := ⟨u.1 - HEADER, nunits u.2⟩

def State.used (s : State) : List Block := s.live.map blockOf

inductive Act where
  | malloc (nbytes : Nat)
  | free (ap : Nat)
  | store (mem : Nat → UInt8)

/-- What the program may do: `nbytes` is a 32-bit number, it frees blocks in use, and it stores into the bytes that it
    has asked for. -/
def Allowed (s : State) : Act → Prop
  | .malloc nbytes => nbytes < 2 ^ 32
  | .free ap => ∃ nbytes, (ap, nbytes) ∈ s.live
  | .store mem => ∀ x, (∀ u ∈ s.live, ¬ (u.1 ≤ x ∧ x < u.1 + u.2)) → mem x = s.mem x

/-- A call returns, with enough turns of its loops. -/
inductive Step (im : Image) (env : Env) (s : State) : Act → Nat → State → Prop
  | malloc {nbytes fuel r s'} (h : malloc im env fuel nbytes s = some (r, s')) : Step im env s (.malloc nbytes) r s'
  | free {ap fuel s'} (h : free fuel ap s = some s') : Step im env s (.free ap) 0 s'
  | store {mem} : Step im env s (.store mem) 0 { s with mem := mem }

def OnList (s : State) (b : Block) : Prop := (∃ k, (ptr s.mem)^[k] s.freep = b.addr) ∧ size s.mem b.addr = b.units

/-- A block and the free blocks that it borders on have less than 2 ^ 32 units together. -/
def Joinable (s : State) (b : Block) : Prop :=
  ∀ u v, (u = 0 ∨ ∃ p, OnList s p ∧ p.stop = b.addr ∧ u = p.units) →
    (v = 0 ∨ ∃ c, OnList s c ∧ b.stop = c.addr ∧ v = c.units) → u + b.units + v < 2 ^ 32

/-- No block becomes too large for its size field: not the one that is freed, and not the new memory when no block is
    large enough. -/
def Small (env : Env) (s : State) : Act → Prop
  | .malloc nbytes => (∀ b, OnList s b → b.units < nunits nbytes) →
      ∀ hp, (sbrk env (coreUnits (nunits nbytes) * HEADER) s).1 = some hp →
        Joinable s ⟨hp, coreUnits (nunits nbytes)⟩
  | .free ap => Joinable s ⟨ap - HEADER, size s.mem (ap - HEADER)⟩
  | .store _ => True

/-- A run whose steps all meet a condition. -/
inductive Run (im : Image) (env : Env) (ok : State → Act → Prop) (s₀ : State) : State → Prop
  | refl : Run im env ok s₀ s₀
  | step {s act r s'} (h : Run im env ok s₀ s) (ha : Allowed s act) (hok : ok s act) (hs : Step im env s act r s') :
      Run im env ok s₀ s'

def WellFormed (im : Image) (s : State) : Prop :=
  (s.freep = 0 ∧ s.live = [] ∧ s.regions = [] ∧ im.base + HEADER ≤ s.brk ∧ s.brk < 2 ^ 64) ∨
    ∃ N, Heap im s.mem s.freep N s.used s.regions s.brk

section Fuel

lemma freeLoop_mono {m : Nat → UInt8} {bp p q k k' : Nat} (h : freeLoop m bp k p = some q) (hk : k ≤ k') :
    freeLoop m bp k' p = some q := by
  induction k generalizing p k' with
  | zero => cases h
  | succ k ih =>
    obtain ⟨k', rfl⟩ := Nat.exists_eq_add_one.2 (Nat.zero_lt_of_lt hk)
    rw [freeLoop] at h ⊢
    split at h
    · next hb => rw [if_pos hb, ← h]
    · next hb =>
      rw [if_neg hb]
      exact ih h (Nat.le_of_succ_le_succ hk)

lemma freeBlock_mono {ap k k' : Nat} (h : freeBlock k ap s = some s') (hk : k ≤ k') : freeBlock k' ap s = some s' := by
  simp only [freeBlock] at h ⊢
  cases hl : freeLoop s.mem (ap - HEADER) k s.freep with
  | none =>
    rw [hl] at h
    cases h
  | some p => rwa [hl, ← freeLoop_mono hl hk] at h

lemma morecore_mono {nu k k' : Nat} {x : Nat × State} (h : morecore env k nu s = some x) (hk : k ≤ k') :
    morecore env k' nu s = some x := by
  simp only [morecore] at h ⊢
  split at h
  · exact h
  · split at h
    · cases h
    · next hb => rw [freeBlock_mono hb hk, ← h]

lemma mallocLoop_mono {nu k k' p : Nat} {x : Nat × State} (h : mallocLoop env nu k p s = some x) (hk : k ≤ k') :
    mallocLoop env nu k' p s = some x := by
  induction k generalizing p s k' with
  | zero => cases h
  | succ k ih =>
    obtain ⟨k', rfl⟩ := Nat.exists_eq_add_one.2 (Nat.zero_lt_of_lt hk)
    have hk' := Nat.le_of_succ_le_succ hk
    simp only [mallocLoop] at h ⊢
    split at h
    · next hs => rw [if_pos hs, h]
    · next hs =>
      rw [if_neg hs]
      split at h
      · next hf =>
        rw [if_pos hf]
        split at h
        · cases h
        · next p' s₁ hm =>
          rw [morecore_mono hm hk']
          simp only
          split at h
          · next hz => rw [if_pos hz, h]
          · next hz =>
            rw [if_neg hz]
            exact ih h hk'
      · next hf =>
        rw [if_neg hf]
        exact ih h hk'

lemma malloc_mono {nbytes k k' : Nat} {x : Nat × State} (h : malloc im env k nbytes s = some x) (hk : k ≤ k') :
    malloc im env k' nbytes s = some x := by
  simp only [malloc] at h ⊢
  split at h
  · cases h
  · next hl => rw [mallocLoop_mono hl hk, ← h]

lemma free_mono {ap k k' : Nat} (h : free k ap s = some s') (hk : k ≤ k') : free k' ap s = some s' := by
  obtain ⟨s₁, h₁, rfl⟩ := Option.map_eq_some_iff.1 h
  rw [free, freeBlock_mono h₁ hk]
  rfl

lemma malloc_unique {nbytes k F : Nat} {x y : Nat × State} (h : malloc im env k nbytes s = some x)
    (hF : ∀ fuel, F ≤ fuel → malloc im env fuel nbytes s = some y) : x = y :=
  Option.some.inj ((malloc_mono h (Nat.le_max_left k F)).symm.trans (hF _ (Nat.le_max_right k F)))

lemma free_unique {ap k F : Nat} {x y : State} (h : free k ap s = some x)
    (hF : ∀ fuel, F ≤ fuel → free fuel ap s = some y) : x = y :=
  Option.some.inj ((free_mono h (Nat.le_max_left k F)).symm.trans (hF _ (Nat.le_max_right k F)))

end Fuel

section Units

lemma nunits_pos (nbytes : Nat) : 0 < nunits nbytes := Nat.succ_pos _

lemma le_nunits (nbytes : Nat) : nbytes + HEADER ≤ HEADER * nunits nbytes := by
  unfold nunits HEADER
  omega

lemma coreUnits_nunits_lt {nbytes : Nat} (h : nbytes < 2 ^ 32) : coreUnits (nunits nbytes) < 2 ^ 32 := by
  unfold coreUnits nunits HEADER
  split <;> omega

end Units

section Heap

variable {m m' : Nat → UInt8} {freep brk : Nat} {L' : List Block}

lemma Heap.perm (h : Heap im m freep N L R brk) (hL : L.Perm L') : Heap im m freep N L' R brk := by
  refine ⟨⟨h.head, h.sorted, h.free, fun b hb => h.used b (hL.mem_iff.2 hb), fun x => ?_, h.once, h.below, h.base_le,
    h.brk_lt⟩, h.rep, fun b hb => h.sizes b (hL.mem_iff.2 hb), h.start⟩
  rw [← h.tile x]
  exact ((hL.append_left N).countP_eq _).symm

lemma Heap.congr (h : Heap im m freep N L R brk)
    (hm : ∀ b ∈ N ++ L, ∀ x, b.addr ≤ x → x < b.addr + HEADER → m' x = m x) : Heap im m' freep N L R brk := by
  have hptr : ∀ b ∈ N ++ L, ptr m' b.addr = ptr m b.addr := fun b hb =>
    le_congr fun x h1 h2 => hm b hb x h1 (by simp only [HEADER]; omega)
  have hsize : ∀ b ∈ N ++ L, size m' b.addr = size m b.addr := fun b hb =>
    le_congr fun x h1 h2 => hm b hb x (by omega) (by simp only [HEADER]; omega)
  refine ⟨h.toTiles, ⟨h.rep.links.congr fun y hy => ?_, fun b hb => ?_⟩, fun b hb => ?_, h.start⟩
  · obtain ⟨b, hb, rfl⟩ := List.mem_map.1 hy
    exact hptr b (List.mem_append_left _ hb)
  · rw [hsize b (List.mem_append_left _ hb), h.rep.sizes b hb]
  · rw [hsize b (List.mem_append_right _ hb), h.sizes b hb]

lemma Heap.onList_iff (h : Heap im s.mem s.freep N L R brk) : OnList s b ↔ b ∈ N := by
  obtain ⟨l₁, l₂, hN, hl⟩ := h.circle
  obtain ⟨-, -, hmem⟩ := h.around_freep hN
  rw [← List.append_assoc] at hl
  constructor
  · rintro ⟨⟨k, hk⟩, hz⟩
    have hm : b.addr ∈ s.freep :: (l₂ ++ l₁) := hk ▸ hl.iterate_mem k
    have hm' : b.addr ∈ N.map Block.addr := by
      refine (hmem _).1 ?_
      rcases List.mem_cons.1 hm with hm | hm
      · simp [hm]
      · exact List.mem_append_left _ hm
    obtain ⟨c, hc, e⟩ := List.mem_map.1 hm'
    have hu := h.rep.sizes c hc
    rw [e, hz] at hu
    obtain rfl : c = b := by
      cases b
      cases c
      simp_all
    exact hc
  · intro hb
    refine ⟨hl.reaches ?_, h.rep.sizes b hb⟩
    exact List.mem_cons_of_mem _ ((hmem b.addr).2 (List.mem_map_of_mem hb))

lemma Heap.fits (h : Heap im s.mem s.freep N L R brk) (hj : Joinable s b) : Fits N b := by
  intro u v hu hv
  refine hj u v (hu.imp_right ?_) (hv.imp_right ?_)
  · rintro ⟨p, hp, e⟩
    exact ⟨p, h.onList_iff.2 hp, e⟩
  · rintro ⟨p, hp, e⟩
    exact ⟨p, h.onList_iff.2 hp, e⟩

end Heap

section Calls

lemma heap_first {m : Nat → UInt8} {brk : Nat} (hb : im.base + HEADER ≤ brk) (hlt : brk < 2 ^ 64) :
    Heap im (setSize (setPtr m im.base im.base) im.base 0) im.base [⟨im.base, 0⟩] [] [] brk := by
  refine ⟨⟨rfl, List.IsChain.singleton _, fun b hb => .inl (List.mem_singleton.1 hb), nofun, fun x => ?_, fun x => ?_,
    nofun, hb, hlt⟩, rep_cons.2 ⟨?_, ?_, rep_nil⟩, nofun, List.mem_singleton.2 rfl⟩
  · have : ¬ covers x ⟨im.base, 0⟩ = true := by
      simp only [covers_iff, Block.stop]
      omega
    simp [this]
  · simp
  · rw [ptr_setSize (.inl rfl), ptr_setPtr_self, Nat.mod_eq_of_lt (by omega)]
    rfl
  · rw [size_setSize_self]
    rfl

lemma WellFormed.prepare (h : WellFormed im s) :
    ∃ N, Heap im (prepare im s).mem (prepare im s).freep N (prepare im s).used (prepare im s).regions
      (prepare im s).brk ∧ (prepare im s = s ∨ s.freep = 0 ∧ N = [⟨im.base, 0⟩]) := by
  rcases h with ⟨h0, hl, hr, hb, hlt⟩ | ⟨N, h⟩
  · refine ⟨[⟨im.base, 0⟩], ?_, .inr ⟨h0, rfl⟩⟩
    simp only [Umalloc.prepare, h0, if_true, State.used, hl, hr, List.map_nil]
    exact heap_first hb hlt
  · have hp : Umalloc.prepare im s = s := if_neg h.freep_ne
    exact ⟨N, by rwa [hp], .inl hp⟩

lemma prepare_fields (im : Image) (s : State) :
    (prepare im s).live = s.live ∧ (prepare im s).regions = s.regions ∧ (prepare im s).brk = s.brk ∧
      (prepare im s).calls = s.calls := by
  unfold prepare
  split <;> exact ⟨rfl, rfl, rfl, rfl⟩

lemma sbrk_congr {k : Nat} (hb : s'.brk = s.brk) (hc : s'.calls = s.calls) :
    (sbrk env k s').1 = (sbrk env k s).1 := by
  cases he : env s.calls with
  | none => simp only [sbrk, hc, he]
  | some gap =>
    simp only [sbrk, hc, he, hb]
    split <;> rfl

lemma malloc_eq {fuel nbytes : Nat}
    (h : mallocLoop env (nunits nbytes) fuel (prepare im s).freep (prepare im s) = some (r, s')) :
    malloc im env fuel nbytes s = some (r, if r = 0 then s' else { s' with live := (r, nbytes) :: s'.live }) := by
  simp only [malloc, h]

/-- What a call of `malloc` does. -/
structure Mallocs (im : Image) (env : Env) (s : State) (nbytes r : Nat) (s' : State) : Prop where
  wf : WellFormed im s'
  failed : r = 0 → s'.live = s.live ∧ (sbrk env (coreUnits (nunits nbytes) * HEADER) s).1 = none ∧
    ∀ b, s.freep ≠ 0 → OnList s b → b.units < nunits nbytes
  live : r ≠ 0 → s'.live = (r, nbytes) :: s.live

lemma fits_first {hp u brk : Nat} (hb : im.base + HEADER ≤ brk) (hp' : brk ≤ hp) (hu : u < 2 ^ 32) :
    Fits [⟨im.base, 0⟩] ⟨hp, u⟩ := by
  rintro u' v (rfl | ⟨p, hp, e, -⟩) (rfl | ⟨c, hc, e', -⟩)
  · simpa using hu
  all_goals
    simp only [List.mem_singleton] at *
    subst_vars
    simp only [Block.stop, HEADER] at *
    omega

lemma WellFormed.malloc {nbytes : Nat} (h : WellFormed im s) (hn : nbytes < 2 ^ 32)
    (hsmall : Small env s (.malloc nbytes)) :
    ∃ r s' F, (∀ fuel, F ≤ fuel → malloc im env fuel nbytes s = some (r, s')) ∧ Mallocs im env s nbytes r s' := by
  obtain ⟨N, hheap, hcase⟩ := h.prepare
  obtain ⟨hlive, -, hbrk, hcalls⟩ := prepare_fields im s
  have hcore := coreUnits_nunits_lt hn
  have hfit : (∀ c ∈ N, c.units < nunits nbytes) →
      ∀ hp, (sbrk env (coreUnits (nunits nbytes) * HEADER) (Umalloc.prepare im s)).1 = some hp →
        Fits N ⟨hp, coreUnits (nunits nbytes)⟩ := by
    intro hno hp hs
    rcases hcase with e | ⟨-, rfl⟩
    · rw [e] at hheap hs
      exact hheap.fits (hsmall (fun b hb => hno b (hheap.onList_iff.1 hb)) hp hs)
    · exact fits_first hheap.base_le (sbrk_some hs).2.1 hcore
  obtain ⟨r, s', F, hloop, hlive', hcases⟩ := hheap.mallocLoop env (nunits_pos nbytes) hcore hfit
  refine ⟨r, _, F, fun fuel hf => malloc_eq (hloop fuel hf), ?_⟩
  rcases hcases with ⟨rfl, hno, hs, rfl⟩ | ⟨-, a, N', rfl, hheap'⟩
  · rw [if_pos rfl]
    refine ⟨.inr ⟨N, hheap⟩, fun _ => ⟨hlive, (sbrk_congr hbrk hcalls).symm.trans hs, fun b h0 hb => ?_⟩, fun h => absurd rfl h⟩
    rcases hcase with e | ⟨e, -⟩
    · rw [e] at hheap
      exact hno b (hheap.onList_iff.1 hb)
    · exact absurd e h0
  · have hne : a + HEADER ≠ 0 := Nat.succ_ne_zero _
    rw [if_neg hne]
    refine ⟨.inr ⟨N', ?_⟩, fun h => absurd h hne, fun _ => ?_⟩
    · have hu : State.used { s' with live := (a + HEADER, nbytes) :: s'.live } =
          ⟨a, nunits nbytes⟩ :: (Umalloc.prepare im s).used := by
        simp only [State.used, List.map_cons, hlive', blockOf, Nat.add_sub_cancel]
      rw [hu]
      exact hheap'
    · simp only [hlive', hlive]

lemma Heap.live_nodup {brk : Nat} (h : Heap im s.mem s.freep N s.used R brk) : (s.live.map Prod.fst).Nodup := by
  have hap := (List.pairwise_append.1 h.apart).2.1
  rw [State.used, List.pairwise_map] at hap
  refine List.pairwise_map.2 (hap.imp fun {u v} ha e => ha.off.2 ?_)
  simp only [blockOf, e]

lemma perm_filter {l : List (Nat × Nat)} {u : Nat × Nat} (hn : (l.map Prod.fst).Nodup) (hu : u ∈ l) :
    l.Perm (u :: l.filter fun v => v.1 ≠ u.1) := by
  obtain ⟨l₁, l₂, rfl⟩ := List.append_of_mem hu
  rw [List.map_append, List.map_cons] at hn
  have hnot := (List.nodup_cons.1 (List.nodup_middle.1 hn)).1
  have hkeep : ∀ v ∈ l₁ ++ l₂, v.1 ≠ u.1 := by
    intro v hv e
    refine hnot (e ▸ ?_)
    rw [← List.map_append]
    exact List.mem_map_of_mem hv
  rw [List.filter_append, List.filter_cons_of_neg (by simp),
    List.filter_eq_self.2 fun v hv => by simpa using hkeep v (List.mem_append_left _ hv),
    List.filter_eq_self.2 fun v hv => by simpa using hkeep v (List.mem_append_right _ hv)]
  exact List.perm_middle

lemma Heap.split_live {brk : Nat} {u : Nat × Nat} (h : Heap im s.mem s.freep N s.used R brk) (hu : u ∈ s.live) :
    Heap im s.mem s.freep N (blockOf u :: (s.live.filter fun v => v.1 ≠ u.1).map blockOf) R brk :=
  h.perm ((perm_filter h.live_nodup hu).map blockOf)

lemma WellFormed.free_returns {ap nbytes : Nat} (h : WellFormed im s) (hu : (ap, nbytes) ∈ s.live) :
    ∃ N pre p post, Heap im s.mem s.freep N s.used s.regions s.brk ∧ Place N (blockOf (ap, nbytes)) pre p post ∧
      ∀ fuel, N.length ≤ fuel → free fuel ap s = some { s with
        mem := join (join s.mem (ap - HEADER) (ptr s.mem p.addr)) p.addr (ap - HEADER)
        freep := p.addr
        live := s.live.filter fun v => v.1 ≠ ap } := by
  rcases h with ⟨-, hl, -⟩ | ⟨N, h⟩
  · rw [hl] at hu
    cases hu
  · have hsplit := h.split_live hu
    obtain ⟨pre, p, post, hp⟩ := hsplit.place
    refine ⟨N, pre, p, post, h, hp, fun fuel hf => ?_⟩
    have hloop : freeLoop s.mem (ap - HEADER) fuel s.freep = some p.addr := hsplit.freeLoop_eq hp hf
    simp only [Umalloc.free, freeBlock, hloop, Option.map_some]

lemma WellFormed.free {ap nbytes : Nat} (h : WellFormed im s) (hu : (ap, nbytes) ∈ s.live)
    (hsmall : Small env s (.free ap)) :
    ∃ s' F, (∀ fuel, F ≤ fuel → free fuel ap s = some s') ∧ WellFormed im s' ∧
      s'.live = s.live.filter fun v => v.1 ≠ ap := by
  obtain ⟨N, pre, p, post, hheap, hp, hfree⟩ := h.free_returns hu
  have hsplit := hheap.split_live hu
  have hsize : size s.mem (ap - HEADER) = nunits nbytes := hsplit.sizes (blockOf (ap, nbytes)) List.mem_cons_self
  have hfits : Fits N (blockOf (ap, nbytes)) := by
    refine hheap.fits ?_
    have := hsmall
    rwa [Small, hsize] at this
  have hjoin := hsplit.join hp hfits
  dsimp only [blockOf] at hjoin
  refine ⟨_, N.length, hfree, .inr ⟨insert (blockOf (ap, nbytes)) pre p post, ?_⟩, rfl⟩
  dsimp only [State.used]
  exact hjoin

lemma WellFormed.store {mem : Nat → UInt8} (h : WellFormed im s) (ha : Allowed s (.store mem)) :
    WellFormed im { s with mem := mem } := by
  rcases h with h | ⟨N, h⟩
  · exact .inl h
  · refine .inr ⟨N, h.congr fun b hb x h1 h2 => ha x fun u hu hx => ?_⟩
    have hle := le_nunits u.2
    have hpos := (h.used (blockOf u) (List.mem_map_of_mem hu)).base_le
    by_cases e : b = blockOf u
    · subst e
      simp only [blockOf, HEADER] at *
      omega
    · have hap := h.apart.forall hb (List.mem_append_right _ (List.mem_map_of_mem hu)) e
      simp only [Apart, Block.stop, blockOf, HEADER] at *
      omega

def Returns (im : Image) (env : Env) (s : State) (r : Nat) (s' : State) : Act → Prop
  | .malloc nbytes => Mallocs im env s nbytes r s'
  | .free ap => WellFormed im s' ∧ s'.live = s.live.filter fun v => v.1 ≠ ap
  | .store _ => WellFormed im s'

lemma WellFormed.step (h : WellFormed im s) {act : Act} (ha : Allowed s act) (hs : Small env s act) :
    (∃ r s', Step im env s act r s') ∧ ∀ r s', Step im env s act r s' → Returns im env s r s' act := by
  cases act with
  | malloc nbytes =>
    obtain ⟨r, s', F, hF, hm⟩ := h.malloc ha hs
    refine ⟨⟨r, s', .malloc (hF F (Nat.le_refl F))⟩, fun r₁ s₁ h₁ => ?_⟩
    cases h₁ with
    | malloc h₁ =>
      cases malloc_unique h₁ hF
      exact hm
  | free ap =>
    obtain ⟨nbytes, hu⟩ := ha
    obtain ⟨s', F, hF, hwf⟩ := h.free hu hs
    refine ⟨⟨0, s', .free (hF F (Nat.le_refl F))⟩, fun r₁ s₁ h₁ => ?_⟩
    cases h₁ with
    | free h₁ =>
      cases free_unique h₁ hF
      exact hwf
  | store mem =>
    refine ⟨⟨0, _, .store⟩, fun r₁ s₁ h₁ => ?_⟩
    cases h₁ with
    | store => exact h.store ha

lemma Returns.wf {act : Act} (h : Returns im env s r s' act) : WellFormed im s' := by
  cases act with
  | malloc nbytes => exact Mallocs.wf h
  | free ap => exact h.1
  | store mem => exact h

lemma Run.wf {mem : Nat → UInt8} (h : Run im env (Small env) (init im mem) s) : WellFormed im s := by
  induction h with
  | refl => exact .inl ⟨rfl, rfl, rfl, im.le_brk, im.brk_lt⟩
  | step _ ha hok hs ih => exact ((ih.step ha hok).2 _ _ hs).wf

end Calls

/-- The bytes of two blocks in use, and the memory they are in. -/
structure Usable (s : State) : Prop where
  apart : s.live.Pairwise fun u v => u.1 + u.2 ≤ v.1 ∨ v.1 + v.2 ≤ u.1
  inside : ∀ u ∈ s.live, ∀ x, u.1 ≤ x → x < u.1 + u.2 → ∃ r ∈ s.regions, covers x r = true

lemma WellFormed.usable (h : WellFormed im s) : Usable s := by
  rcases h with ⟨-, hl, -⟩ | ⟨N, h⟩
  · constructor <;> simp [hl]
  · have hpos : ∀ u ∈ s.live, HEADER ≤ u.1 := by
      intro u hu
      have := (h.used (blockOf u) (List.mem_map_of_mem hu)).base_le
      have := im.base_pos
      simp only [blockOf, HEADER] at *
      omega
    refine ⟨?_, fun u hu x h1 h2 => ?_⟩
    · have hap := (List.pairwise_append.1 h.apart).2.1
      rw [State.used, List.pairwise_map] at hap
      refine hap.imp_of_mem fun {u v} hu hv ha => ?_
      have h1 := le_nunits u.2
      have h2 := le_nunits v.2
      have h3 := hpos u hu
      have h4 := hpos v hv
      simp only [Apart, Block.stop, blockOf, HEADER] at *
      omega
    · have hcov : covers x (blockOf u) = true := by
        have h3 := le_nunits u.2
        have h4 := hpos u hu
        simp only [covers_iff, Block.stop, blockOf, HEADER] at *
        omega
      have : 0 < s.regions.countP (covers x) := by
        rw [← h.tile x]
        exact List.countP_pos_iff.2 ⟨_, List.mem_append_right _ (List.mem_map_of_mem hu), hcov⟩
      exact List.countP_pos_iff.1 this

/-- In every run in which no block becomes too large for its size field: the heap keeps its shape, blocks in use share
    no byte, every further call returns, and `malloc` returns 0 only when no block is large enough and `sbrk` has
    failed. -/
theorem umalloc_safe (im : Image) (env : Env) (mem : Nat → UInt8) {s : State}
    (h : Run im env (Small env) (init im mem) s) :
    WellFormed im s ∧ Usable s ∧ ∀ act, Allowed s act → Small env s act →
      (∃ r s', Step im env s act r s') ∧
      ∀ r s', Step im env s act r s' → Returns im env s r s' act ∧ Usable s' := by
  refine ⟨h.wf, h.wf.usable, fun act ha hs => ?_⟩
  obtain ⟨hex, hall⟩ := h.wf.step ha hs
  exact ⟨hex, fun r s' hst => ⟨hall r s' hst, (hall r s' hst).wf.usable⟩⟩

end Xv6n.Umalloc
