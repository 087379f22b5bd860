import Xv6n.Umalloc.Heap

/-!
# Allocation

The loop of `malloc` goes once around the free list from `freep`. It takes what it needs from the end of the first
block that is large enough; when there is none it asks for more memory, and the next turn finds that.
-/

namespace Xv6n.Umalloc

open Lib

variable {im : Image} {env : Env} {s : State} {m : Nat → UInt8} {N L R pre post : List Block} {b c p q : Block}
variable {n brk freep : Nat}

section Search

lemma mallocLoop_found (env : Env) {x : Nat} {r : List Nat} (hl : Leads (ptr s.mem) (x :: (r ++ [s.freep]))) (hr : s.freep ∉ r)
    (hn : ∃ y ∈ r ++ [s.freep], n ≤ size s.mem y) :
    ∃ u a c v, x :: (r ++ [s.freep]) = u ++ a :: c :: v ∧ n ≤ size s.mem c ∧
      ∀ fuel, r.length < fuel → mallocLoop env n fuel x s = some (take n a c s) := by
  induction r generalizing x with
  | nil =>
    obtain ⟨y, hy, hn⟩ := hn
    obtain rfl := List.mem_singleton.1 hy
    obtain ⟨hx, -⟩ := List.isChain_cons_cons.1 hl
    refine ⟨[], x, s.freep, [], rfl, hn, fun fuel hf => ?_⟩
    obtain ⟨fuel, rfl⟩ := Nat.exists_eq_add_one.2 hf
    simp only [mallocLoop, hx, if_pos hn]
  | cons z r ih =>
    obtain ⟨hx, hl⟩ := List.isChain_cons_cons.1 hl
    by_cases hz : n ≤ size s.mem z
    · refine ⟨[], x, z, r ++ [s.freep], rfl, hz, fun fuel hf => ?_⟩
      obtain ⟨fuel, rfl⟩ := Nat.exists_eq_add_one.2 (Nat.zero_lt_of_lt hf)
      simp only [mallocLoop, hx, if_pos hz]
    · obtain ⟨hne, hr⟩ := not_or.1 (List.mem_cons.not.1 hr)
      obtain ⟨y, hy, hyn⟩ := hn
      have hy' : y ∈ r ++ [s.freep] := by
        rcases List.mem_cons.1 hy with rfl | hy
        · exact absurd hyn hz
        · exact hy
      obtain ⟨u, a, c, v, e, hc, hloop⟩ := ih hl hr ⟨y, hy', hyn⟩
      refine ⟨x :: u, a, c, v, by rw [List.cons_append, List.cons_append, e], hc, fun fuel hf => ?_⟩
      obtain ⟨fuel, rfl⟩ := Nat.exists_eq_add_one.2 (Nat.zero_lt_of_lt hf)
      simp only [mallocLoop, hx, if_neg hz, if_neg (Ne.symm hne)]
      exact hloop fuel (by simpa using hf)

lemma mallocLoop_none (env : Env) (fuel : Nat) {x : Nat} {r : List Nat} (hl : Leads (ptr s.mem) (x :: (r ++ [s.freep])))
    (hr : s.freep ∉ r) (hn : ∀ y ∈ r ++ [s.freep], size s.mem y < n) :
    mallocLoop env n (fuel + r.length + 1) x s =
      match morecore env fuel n s with
      | none => none
      | some (p, s) => if p = 0 then some (0, s) else mallocLoop env n fuel p s := by
  induction r generalizing x with
  | nil =>
    obtain ⟨hx, -⟩ := List.isChain_cons_cons.1 hl
    have := hn s.freep (by simp)
    cases hm : morecore env fuel n s with
    | none | some p => simp only [mallocLoop, hx, if_neg this.not_ge, List.length_nil, Nat.add_zero, if_true, hm]
  | cons z r ih =>
    obtain ⟨hx, hl⟩ := List.isChain_cons_cons.1 hl
    obtain ⟨hne, hr⟩ := not_or.1 (List.mem_cons.not.1 hr)
    have := hn z List.mem_cons_self
    rw [List.length_cons, ← Nat.add_assoc, mallocLoop]
    simp only [hx, if_neg this.not_ge, if_neg (Ne.symm hne)]
    exact ih hl hr fun y hy => hn y (List.mem_cons_of_mem _ hy)

lemma Tiles.nodup (h : Tiles im N L R brk) : (N.map Block.addr).Nodup := by
  refine List.pairwise_map.2 (h.sorted_pairwise.imp fun {b c} hlt => ?_)
  have := b.addr_le
  omega

lemma Heap.neighbours {l₁ l₂ u v : List Nat} {a c : Nat} (h : Heap im m freep N L R brk)
    (hN : N.map Block.addr = l₁ ++ freep :: l₂) (he : freep :: l₂ ++ (l₁ ++ [freep]) = u ++ a :: c :: v)
    (hc : c ≠ im.base) : ∃ pre q p post, N = pre ++ q :: p :: post ∧ q.addr = a ∧ p.addr = c := by
  have hmap : ∃ u v, N.map Block.addr = u ++ a :: c :: v := by
    rcases neighbours_append he with ⟨v', hv⟩ | ⟨u', hu⟩ | ⟨-, hv⟩
    · exact ⟨l₁ ++ u, v', by rw [hN, hv, List.append_assoc]⟩
    · refine ⟨u', v ++ l₂, ?_⟩
      rw [hN, ← List.singleton_append, ← List.append_assoc, hu]
      simp
    · have hhead := h.map_head
      rw [hN] at hhead
      cases l₁ with
      | nil | cons d l₁ =>
        obtain ⟨rfl, -⟩ := List.cons.inj hv
        exact absurd (Option.some.inj hhead) hc
  obtain ⟨u, v, huv⟩ := hmap
  obtain ⟨pre, rest, rfl, -, hrest⟩ := List.map_eq_append_iff.1 huv
  obtain ⟨q, rest, rfl, hq, hrest⟩ := List.map_eq_cons_iff.1 hrest
  obtain ⟨p, post, rfl, hp, -⟩ := List.map_eq_cons_iff.1 hrest
  exact ⟨pre, q, p, post, rfl, hq, hp⟩

lemma Heap.around_freep {l₁ l₂ : List Nat} (h : Heap im m freep N L R brk)
    (hN : N.map Block.addr = l₁ ++ freep :: l₂) :
    freep ∉ l₂ ++ l₁ ∧ (l₂ ++ l₁).length + 1 = N.length ∧ ∀ y, y ∈ l₂ ++ l₁ ++ [freep] ↔ y ∈ N.map Block.addr := by
  have hnd := h.nodup
  rw [hN] at hnd ⊢
  refine ⟨fun hm => ?_, ?_, fun y => ?_⟩
  · refine (List.nodup_cons.1 (List.nodup_middle.1 hnd)).1 ?_
    simpa [or_comm] using hm
  · have := congrArg List.length hN
    simp only [List.length_map, List.length_append, List.length_cons] at this ⊢
    omega
  · simp only [List.mem_append, List.mem_cons, List.not_mem_nil, or_false]
    grind

lemma Heap.found (env : Env) (h : Heap im s.mem s.freep N L R brk) (hn : 0 < n) (hc : ∃ c ∈ N, n ≤ c.units) :
    ∃ pre q p post, N = pre ++ q :: p :: post ∧ n ≤ p.units ∧
      ∀ fuel, N.length ≤ fuel → mallocLoop env n fuel s.freep s = some (take n q.addr p.addr s) := by
  obtain ⟨l₁, l₂, hN, hl⟩ := h.circle
  obtain ⟨hr, hlen, hmem⟩ := h.around_freep hN
  obtain ⟨c, hc, hcn⟩ := hc
  have hfit : ∃ y ∈ l₂ ++ l₁ ++ [s.freep], n ≤ size s.mem y :=
    ⟨c.addr, (hmem _).2 (List.mem_map_of_mem hc), (h.rep.sizes c hc).symm ▸ hcn⟩
  rw [List.cons_append, ← List.append_assoc] at hl
  obtain ⟨u, a, c, v, e, hcn, hloop⟩ := mallocLoop_found env hl hr hfit
  have hbase : c ≠ im.base := by
    rintro rfl
    have := h.rep.sizes ⟨im.base, 0⟩ (List.mem_of_mem_head? h.head)
    simp only at this
    omega
  rw [List.append_assoc, ← List.cons_append] at e
  obtain ⟨pre, q, p, post, rfl, rfl, rfl⟩ := h.neighbours hN e hbase
  refine ⟨pre, q, p, post, rfl, ?_, fun fuel hf => hloop fuel (by omega)⟩
  rwa [h.rep.sizes p (by simp)] at hcn

end Search

section Take

def rest (p : Block) (n : Nat) : List Block := if p.units = n then [] else [⟨p.addr, p.units - n⟩]

lemma mem_rest (h : c ∈ rest p n) (hn : n ≤ p.units) : c.addr = p.addr ∧ c.units = p.units - n ∧ n < p.units := by
  unfold rest at h
  split at h
  · cases h
  · obtain rfl := List.mem_singleton.1 h
    exact ⟨rfl, rfl, by omega⟩

lemma countP_rest (x : Nat) (hn : n ≤ p.units) :
    (rest p n).countP (covers x) + [Block.mk (p.addr + HEADER * (p.units - n)) n].countP (covers x) =
      [p].countP (covers x) := by
  have hstop : Block.stop ⟨p.addr + HEADER * (p.units - n), n⟩ = p.stop := by
    simp only [Block.stop, HEADER]
    omega
  unfold rest
  split
  · next he =>
    subst he
    simp
  · have h1 : Block.stop ⟨p.addr, p.units - n⟩ = p.addr + HEADER * (p.units - n) := rfl
    have h2 : p.addr + HEADER * (p.units - n) ≤ p.stop := by
      rw [← hstop]
      exact Nat.le_add_right ..
    have h3 : p.addr ≤ p.addr + HEADER * (p.units - n) := Nat.le_add_right ..
    simp only [List.countP_singleton, covers_iff, hstop, h1]
    generalize p.addr + HEADER * (p.units - n) = k at *
    split_ifs <;> omega

lemma isChain_rest (h : (pre ++ q :: p :: post).IsChain fun b c => b.stop < c.addr) :
    (pre ++ q :: (rest p n ++ post)).IsChain fun b c => b.stop < c.addr := by
  obtain ⟨h1, h2, h3⟩ := List.isChain_append_cons_cons.1 h
  obtain ⟨h4, h5⟩ := List.isChain_cons.1 h3
  unfold rest
  split
  · refine List.isChain_split.2 ⟨h1, List.isChain_cons.2 ⟨fun c hc => ?_, h5⟩⟩
    exact h2.trans (p.addr_le.trans_lt (h4 c hc))
  · refine List.isChain_append_cons_cons.2 ⟨h1, h2, List.isChain_cons.2 ⟨fun c hc => ?_, h5⟩⟩
    have := h4 c hc
    simp only [Block.stop, HEADER] at this ⊢
    omega

lemma Tiles.take (h : Tiles im N L R brk) (hN : N = pre ++ q :: p :: post) (hn : n ≤ p.units) (h0 : 0 < n) :
    Tiles im (pre ++ q :: (rest p n ++ post)) (⟨p.addr + HEADER * (p.units - n), n⟩ :: L) R brk := by
  have hfree := h.free
  have hhead := h.head
  rw [hN] at hfree hhead
  have hp : Pos im p := by
    rcases hfree p (by simp) with rfl | hp
    · exact absurd (h0.trans_le hn) (Nat.lt_irrefl 0)
    · exact hp
  refine ⟨?_, isChain_rest (hN ▸ h.sorted), fun c hc => ?_, fun c hc => ?_, fun x => ?_, h.once, h.below, h.base_le,
    h.brk_lt⟩
  · cases pre with
    | nil => exact hhead
    | cons d pre => exact hhead
  · have hmem : c ∈ rest p n ∨ c ∈ pre ++ q :: p :: post := by
      simp only [List.mem_append, List.mem_cons] at hc ⊢
      grind
    rcases hmem with hc | hc
    · obtain ⟨ha, hu, hlt⟩ := mem_rest hc hn
      exact .inr ⟨by have := hp.units_lt; omega, by omega, ha ▸ hp.base_le⟩
    · exact hfree c hc
  · rcases List.mem_cons.1 hc with rfl | hc
    · exact ⟨hn.trans_lt hp.units_lt, h0, hp.base_le.trans (Nat.le_add_right ..)⟩
    · exact h.used c hc
  · have hcount := countP_rest x hn
    rw [← h.tile x, hN]
    simp only [List.countP_append, List.countP_cons, List.countP_nil] at hcount ⊢
    omega

lemma Tiles.two {l : List Block} (h : Tiles im N L R brk) (hperm : (N ++ L).Perm (b :: c :: l)) :
    Apart b c ∧ ∀ d ∈ l, Apart b d ∧ Apart c d := by
  obtain ⟨h1, h2⟩ := List.pairwise_cons.1 ((hperm.pairwise_iff fun hbc => Apart.symm hbc).1 h.apart)
  exact ⟨h1 c List.mem_cons_self, fun d hd => ⟨h1 d (List.mem_cons_of_mem _ hd), (List.pairwise_cons.1 h2).1 d hd⟩⟩

lemma Heap.unlink (h : Heap im m freep N L R brk) (hN : N = pre ++ q :: p :: post) (h0 : 0 < p.units) :
    Heap im (setPtr m q.addr (ptr m p.addr)) q.addr (pre ++ q :: post) (p :: L) R brk := by
  have ht := h.toTiles.take hN (Nat.le_refl _) h0
  rw [rest, if_pos rfl, Nat.sub_self, Nat.mul_zero, Nat.add_zero, List.nil_append] at ht
  have hperm : (pre ++ q :: post ++ p :: L).Perm (q :: p :: (pre ++ post ++ L)) := by
    refine List.perm_middle.trans ?_
    rw [List.append_assoc, List.append_assoc, List.cons_append]
    exact (List.perm_middle.cons p).trans (.swap ..)
  obtain ⟨hqp, haway⟩ := ht.two hperm
  have hrep := h.rep
  rw [hN] at hrep
  obtain ⟨hpre, hrep⟩ := rep_append.1 hrep
  obtain ⟨-, hqz, hrep⟩ := rep_cons.1 hrep
  obtain ⟨hptr, hpz, hpost⟩ := rep_cons.1 hrep
  refine ⟨ht, rep_append.2 ⟨?_, rep_cons.2 ⟨?_, ?_, ?_⟩⟩, fun c hc => ?_, by simp⟩
  · exact hpre.congr sameBut_setPtr fun c hc => (haway c (by simp [hc])).1.off
  · rw [ptr_setPtr_self, Nat.mod_eq_of_lt (ptr_lt ..), hptr]
  · rw [size_setPtr (.inl rfl), hqz]
  · exact hpost.congr sameBut_setPtr fun c hc => (haway c (by simp [hc])).1.off
  · rcases List.mem_cons.1 hc with rfl | hc
    · rw [size_setPtr hqp.sep, hpz]
    · rw [size_setPtr (haway c (by simp [hc])).1.sep, h.sizes c hc]

lemma Heap.cut (h : Heap im m freep N L R brk) (hN : N = pre ++ q :: p :: post) (hn : n < p.units) (h0 : 0 < n) :
    Heap im (setSize (setSize m p.addr (p.units - n)) (p.addr + HEADER * (p.units - n)) n) q.addr
      (pre ++ q :: (⟨p.addr, p.units - n⟩ :: post)) (⟨p.addr + HEADER * (p.units - n), n⟩ :: L) R brk := by
  have ht := h.toTiles.take hN hn.le h0
  rw [rest, if_neg hn.ne', List.singleton_append] at ht
  generalize ha : p.addr + HEADER * (p.units - n) = a at ht ⊢
  have hperm : (pre ++ q :: (⟨p.addr, p.units - n⟩ :: post) ++ ⟨a, n⟩ :: L).Perm
      (⟨a, n⟩ :: ⟨p.addr, p.units - n⟩ :: (pre ++ q :: post ++ L)) := by
    refine List.perm_middle.trans (.cons _ ?_)
    rw [show pre ++ q :: (⟨p.addr, p.units - n⟩ :: post) ++ L =
        (pre ++ [q]) ++ ⟨p.addr, p.units - n⟩ :: (post ++ L) by simp]
    refine List.perm_middle.trans (.cons _ ?_)
    simp
  obtain ⟨hnp, haway⟩ := ht.two hperm
  have hpz : size m p.addr = p.units := h.rep.sizes p (by rw [hN]; simp)
  have hlt : p.units < 2 ^ 32 := hpz ▸ le_lt
  have hm : SameBut p.addr m (setSize m p.addr (p.units - n)) := sameBut_setSize
  have hm' : SameBut a (setSize m p.addr (p.units - n)) (setSize (setSize m p.addr (p.units - n)) a n) :=
    sameBut_setSize
  have hold : ∀ c ∈ pre ++ q :: post ++ L, ∀ k, size m c.addr = k →
      size (setSize (setSize m p.addr (p.units - n)) a n) c.addr = k := by
    intro c hc k hk
    obtain ⟨h1, h2⟩ := haway c hc
    rw [(hm' c.addr h1.off.1 h1.off.2).2, (hm c.addr h2.off.1 h2.off.2).2, hk]
  have hnode : ∀ c ∈ pre ++ q :: (⟨p.addr, p.units - n⟩ :: post),
      c = ⟨p.addr, p.units - n⟩ ∨ c ∈ pre ++ q :: post := by
    intro c hc
    simp only [List.mem_append, List.mem_cons] at hc ⊢
    grind
  have hlinks := h.rep.links
  rw [hN] at hlinks
  refine ⟨ht, ⟨?_, fun c hc => ?_⟩, fun c hc => ?_, by simp⟩
  · have haddr : (pre ++ q :: p :: post).map Block.addr =
        (pre ++ q :: ⟨p.addr, p.units - n⟩ :: post).map Block.addr := by simp
    rw [haddr] at hlinks
    refine hlinks.congr fun y hy => ?_
    obtain ⟨c, hc, rfl⟩ := List.mem_map.1 hy
    rcases hnode c hc with rfl | hc
    · rw [ptr_setSize hnp.sep, ptr_setSize (.inl rfl)]
    · obtain ⟨h1, h2⟩ := haway c (List.mem_append_left _ hc)
      rw [ptr_setSize h1.sep, ptr_setSize h2.sep]
  · rcases hnode c hc with rfl | hc
    · rw [size_setSize hnp.sep hnp.off.2, size_setSize_self, Nat.mod_eq_of_lt (by omega)]
    · refine hold c (List.mem_append_left _ hc) c.units (h.rep.sizes c ?_)
      rw [hN]
      simp only [List.mem_append, List.mem_cons] at hc ⊢
      grind
  · rcases List.mem_cons.1 hc with rfl | hc
    · rw [size_setSize_self, Nat.mod_eq_of_lt (by omega)]
    · exact hold c (List.mem_append_right _ hc) _ (h.sizes c hc)

lemma Heap.take (h : Heap im s.mem s.freep N L R brk) (hN : N = pre ++ q :: p :: post) (hn : n ≤ p.units)
    (h0 : 0 < n) :
    (take n q.addr p.addr s).1 = p.addr + HEADER * (p.units - n) + HEADER ∧
    Heap im (take n q.addr p.addr s).2.mem (take n q.addr p.addr s).2.freep (pre ++ q :: (rest p n ++ post))
      (⟨p.addr + HEADER * (p.units - n), n⟩ :: L) R brk := by
  have hpz : size s.mem p.addr = p.units := h.rep.sizes p (by rw [hN]; simp)
  have hlt : p.units < 2 ^ 32 := hpz ▸ le_lt
  unfold Umalloc.take rest
  rw [hpz]
  by_cases he : p.units = n
  · subst he
    rw [if_pos rfl, if_pos rfl, Nat.sub_self, Nat.mul_zero, Nat.add_zero, List.nil_append]
    exact ⟨rfl, h.unlink hN h0⟩
  · rw [if_neg he, if_neg he]
    simp only [size_setSize_self, Nat.mod_eq_of_lt (Nat.lt_of_le_of_lt (Nat.sub_le ..) hlt)]
    exact ⟨trivial, h.cut hN (by omega) h0⟩

end Take

section More

lemma Heap.grow (h : Heap im m freep N L R brk) {hp nu : Nat} (hbrk : brk ≤ hp) (hu : 0 < nu) (hlt : nu < 2 ^ 32)
    (hend : hp + HEADER * nu < 2 ^ 64) :
    Heap im (setSize m hp nu) freep N (⟨hp, nu⟩ :: L) (⟨hp, nu⟩ :: R) (hp + HEADER * nu) := by
  have hpos : Pos im ⟨hp, nu⟩ := ⟨hlt, hu, h.base_le.trans hbrk⟩
  have hbelow : ∀ b ∈ N ++ L, b.addr + HEADER ≤ hp := by
    intro b hb
    rcases List.mem_append.1 hb with hb' | hb'
    · rcases h.free b hb' with rfl | hpos
      · exact h.base_le.trans hbrk
      · exact hpos.lt_stop.trans ((h.stop_le hb hpos).trans hbrk)
    · exact (h.used b hb').lt_stop.trans ((h.stop_le hb (h.used b hb')).trans hbrk)
  have hoff : ∀ b ∈ N ++ L, Sep hp b.addr ∧ b.addr ≠ hp := by
    intro b hb
    have := hbelow b hb
    refine ⟨.inr (.inr this), ?_⟩
    simp only [HEADER] at this
    omega
  refine ⟨⟨h.head, h.sorted, h.free, ?_, fun x => ?_, fun x => ?_, ?_, ?_, hend⟩, ?_, fun c hc => ?_, h.start⟩
  · exact List.forall_mem_cons.2 ⟨hpos, h.used⟩
  · have := h.tile x
    simp only [List.countP_append, List.countP_cons] at this ⊢
    omega
  · by_cases hx : covers x ⟨hp, nu⟩ = true
    · rw [List.countP_cons_of_pos hx, List.countP_eq_zero.2 fun r hr hxr => ?_]
      have h1 := (covers_iff.1 hx).1
      have h2 := (covers_iff.1 hxr).2
      have h3 := h.below r hr
      simp only at h1
      omega
    · rw [List.countP_cons_of_neg hx]
      exact h.once x
  · refine List.forall_mem_cons.2 ⟨Nat.le_refl _, fun r hr => ?_⟩
    exact (h.below r hr).trans (hbrk.trans (Nat.le_add_right ..))
  · exact h.base_le.trans (hbrk.trans (Nat.le_add_right ..))
  · exact h.rep.congr sameBut_setSize fun b hb => hoff b (List.mem_append_left _ hb)
  · rcases List.mem_cons.1 hc with rfl | hc
    · rw [size_setSize_self, Nat.mod_eq_of_lt hlt]
    · obtain ⟨h1, h2⟩ := hoff c (List.mem_append_right _ hc)
      rw [size_setSize h1 h2, h.sizes c hc]

lemma length_joinFirst (b : Block) (N : List Block) : (joinFirst b N).length ≤ N.length + 1 := by
  cases N with
  | nil => exact Nat.le_refl _
  | cons c N =>
    rw [joinFirst]
    split <;> simp

lemma length_insert (b p : Block) (pre post : List Block) :
    (insert b pre p post).length ≤ (pre ++ p :: post).length + 1 := by
  have h1 := length_joinFirst p (joinFirst b post)
  have h2 := length_joinFirst b post
  rw [insert, List.length_append, List.length_append, List.length_cons]
  omega

lemma exists_joinFirst (b : Block) (N : List Block) : ∃ c ∈ joinFirst b N, b.units ≤ c.units := by
  cases N with
  | nil => exact ⟨b, List.mem_cons_self, Nat.le_refl _⟩
  | cons c N =>
    rw [joinFirst]
    split
    · exact ⟨_, List.mem_cons_self, Nat.le_add_right ..⟩
    · exact ⟨b, List.mem_cons_self, Nat.le_refl _⟩

lemma exists_joinFirst_of_mem (b : Block) (h : c ∈ N) : ∃ d ∈ joinFirst b N, c.units ≤ d.units := by
  cases N with
  | nil => cases h
  | cons a N =>
    rw [joinFirst]
    split
    · rcases List.mem_cons.1 h with rfl | h
      · exact ⟨_, List.mem_cons_self, Nat.le_add_left ..⟩
      · exact ⟨c, List.mem_cons_of_mem _ h, Nat.le_refl _⟩
    · exact ⟨c, List.mem_cons_of_mem _ h, Nat.le_refl _⟩

lemma exists_insert (b p : Block) (pre post : List Block) : ∃ c ∈ insert b pre p post, b.units ≤ c.units := by
  obtain ⟨c, hc, hbc⟩ := exists_joinFirst b post
  obtain ⟨d, hd, hcd⟩ := exists_joinFirst_of_mem p hc
  exact ⟨d, List.mem_append_right _ hd, hbc.trans hcd⟩

lemma le_coreUnits (n : Nat) : n ≤ coreUnits n := by
  unfold coreUnits
  split <;> omega

lemma sbrk_none {k : Nat} (h : (sbrk env k s).1 = none) : sbrk env k s = (none, { s with calls := s.calls + 1 }) := by
  unfold sbrk at h ⊢
  split at h
  · rfl
  · split at h
    · cases h
    · next hlt => rw [if_neg hlt]

lemma sbrk_some {k hp : Nat} (h : (sbrk env k s).1 = some hp) :
    sbrk env k s = (some hp, { s with brk := hp + k, calls := s.calls + 1 }) ∧ s.brk ≤ hp ∧ hp + k < 2 ^ 64 := by
  unfold sbrk at h ⊢
  split at h
  · cases h
  · next gap _ =>
    split at h
    · next hlt =>
      cases h
      exact ⟨by rw [if_pos hlt], Nat.le_add_right .., hlt⟩
    · cases h

lemma morecore_none {fuel : Nat} (hs : (sbrk env (coreUnits n * HEADER) s).1 = none) :
    morecore env fuel n s = some (0, { s with calls := s.calls + 1 }) := by
  simp only [morecore, sbrk_none hs]

lemma Heap.morecore (h : Heap im s.mem s.freep N L s.regions s.brk) {hp : Nat} (hn : coreUnits n < 2 ^ 32)
    (h0 : 0 < n) (hs : (sbrk env (coreUnits n * HEADER) s).1 = some hp) (hf : Fits N ⟨hp, coreUnits n⟩) :
    ∃ s' N', (∀ fuel, N.length ≤ fuel → morecore env fuel n s = some (s'.freep, s')) ∧
      Heap im s'.mem s'.freep N' L s'.regions s'.brk ∧ s'.live = s.live ∧
      (s'.regions = ⟨hp, coreUnits n⟩ :: s.regions ∧ s'.brk = hp + HEADER * coreUnits n) ∧
      N'.length ≤ N.length + 1 ∧ ∃ c ∈ N', n ≤ c.units := by
  obtain ⟨e, hbrk, hend⟩ := sbrk_some hs
  rw [Nat.mul_comm] at hend
  have hgrow := h.grow hbrk (h0.trans_le (le_coreUnits n)) hn hend
  obtain ⟨pre, p, post, hp'⟩ := hgrow.place
  have hjoin := hgrow.join hp' hf
  dsimp only at hjoin
  obtain ⟨c, hc, hcn⟩ := exists_insert ⟨hp, coreUnits n⟩ p pre post
  refine ⟨{ s with
    mem := Umalloc.join (Umalloc.join (setSize s.mem hp (coreUnits n)) hp
      (ptr (setSize s.mem hp (coreUnits n)) p.addr)) p.addr hp
    freep := p.addr
    brk := hp + HEADER * coreUnits n
    calls := s.calls + 1
    regions := ⟨hp, coreUnits n⟩ :: s.regions },
    insert ⟨hp, coreUnits n⟩ pre p post, ?_, ?_, rfl, ⟨rfl, rfl⟩, ?_, c, hc, (le_coreUnits n).trans hcn⟩
  · intro fuel hfuel
    have hloop := hgrow.freeLoop_eq hp' hfuel
    simp only [Umalloc.morecore, e, freeBlock, Nat.add_sub_cancel]
    rw [hloop, Nat.mul_comm]
  · dsimp only
    exact hjoin
  · exact (length_insert ..).trans (hp'.split ▸ Nat.le_refl _)

end More

section Malloc

lemma take_fields (n a c : Nat) (s : State) :
    (take n a c s).2.live = s.live ∧ (take n a c s).2.regions = s.regions ∧ (take n a c s).2.brk = s.brk := by
  unfold take
  split <;> exact ⟨rfl, rfl, rfl⟩

lemma Heap.mallocLoop_take (env : Env) (h : Heap im s.mem s.freep N L s.regions s.brk) (hn : 0 < n) (hc : ∃ c ∈ N, n ≤ c.units) :
    ∃ r s' a N', (∀ fuel, N.length ≤ fuel → mallocLoop env n fuel s.freep s = some (r, s')) ∧ s'.live = s.live ∧
      (s'.regions = s.regions ∧ s'.brk = s.brk) ∧
      r = a + HEADER ∧ Heap im s'.mem s'.freep N' (⟨a, n⟩ :: L) s'.regions s'.brk := by
  obtain ⟨pre, q, p, post, hN, hp, hloop⟩ := h.found env hn hc
  obtain ⟨hr, ht⟩ := h.take hN hp hn
  obtain ⟨h1, h2, h3⟩ := take_fields n q.addr p.addr s
  refine ⟨(Umalloc.take n q.addr p.addr s).1, (Umalloc.take n q.addr p.addr s).2, p.addr + HEADER * (p.units - n),
    pre ++ q :: (rest p n ++ post), hloop, h1, ⟨h2, h3⟩, hr, ?_⟩
  rw [h2, h3]
  exact ht

lemma Heap.freep_ne (h : Heap im m freep N L R brk) : freep ≠ 0 := by
  obtain ⟨b, hb, rfl⟩ := List.mem_map.1 h.start
  have := im.base_pos
  rcases h.free b hb with rfl | hb
  · exact this.ne'
  · have := hb.base_le
    omega

/-- What the loop of `malloc` does: it uses a free block or new memory, or there is neither. -/
lemma Heap.mallocLoop (env : Env) (h : Heap im s.mem s.freep N L s.regions s.brk) (hn : 0 < n) (hlt : coreUnits n < 2 ^ 32)
    (hfit : (∀ c ∈ N, c.units < n) → ∀ hp, (sbrk env (coreUnits n * HEADER) s).1 = some hp →
      Fits N ⟨hp, coreUnits n⟩) :
    ∃ r s' F, (∀ fuel, F ≤ fuel → mallocLoop env n fuel s.freep s = some (r, s')) ∧ s'.live = s.live ∧
      ((r = 0 ∧ (∀ c ∈ N, c.units < n) ∧ (sbrk env (coreUnits n * HEADER) s).1 = none ∧
          s' = { s with calls := s.calls + 1 }) ∨
        ((s'.regions = s.regions ∧ s'.brk = s.brk ∧ ∃ c ∈ N, n ≤ c.units) ∨
          ∃ hp, (sbrk env (coreUnits n * HEADER) s).1 = some hp ∧
            s'.regions = ⟨hp, coreUnits n⟩ :: s.regions ∧ s'.brk = hp + HEADER * coreUnits n) ∧
        ∃ a N', r = a + HEADER ∧ Heap im s'.mem s'.freep N' (⟨a, n⟩ :: L) s'.regions s'.brk) := by
  by_cases hc : ∃ c ∈ N, n ≤ c.units
  · obtain ⟨r, s', a, N', hloop, hlive, ⟨hreg, hbrk⟩, hr, ht⟩ := h.mallocLoop_take env hn hc
    exact ⟨r, s', N.length, hloop, hlive, .inr ⟨.inl ⟨hreg, hbrk, hc⟩, a, N', hr, ht⟩⟩
  · have hno : ∀ c ∈ N, c.units < n := fun c hc' => Nat.lt_of_not_le fun hle => hc ⟨c, hc', hle⟩
    obtain ⟨l₁, l₂, hN, hl⟩ := h.circle
    obtain ⟨hr, hlen, hmem⟩ := h.around_freep hN
    rw [List.cons_append, ← List.append_assoc] at hl
    have hsmall : ∀ y ∈ l₂ ++ l₁ ++ [s.freep], size s.mem y < n := by
      intro y hy
      obtain ⟨c, hc, rfl⟩ := List.mem_map.1 ((hmem y).1 hy)
      rw [h.rep.sizes c hc]
      exact hno c hc
    have hloop := fun fuel => mallocLoop_none env fuel hl hr hsmall
    cases hs : (sbrk env (coreUnits n * HEADER) s).1 with
    | none =>
      refine ⟨0, { s with calls := s.calls + 1 }, N.length, fun fuel hf => ?_, rfl, .inl ⟨rfl, hno, rfl, rfl⟩⟩
      obtain ⟨k, rfl⟩ := Nat.exists_eq_add_of_le' hf
      rw [← hlen, ← Nat.add_assoc, hloop, morecore_none hs]
      rfl
    | some hp =>
      obtain ⟨s₁, N₁, hmore, h₁, hlive₁, ⟨hreg₁, hbrk₁⟩, hlen₁, hc₁⟩ := h.morecore hlt hn hs (hfit hno hp hs)
      obtain ⟨r, s', a, N', hloop', hlive, ⟨hreg, hbrk⟩, hr, ht⟩ := h₁.mallocLoop_take env hn hc₁
      refine ⟨r, s', N.length + (N.length + 1), fun fuel hf => ?_, hlive.trans hlive₁,
        .inr ⟨.inr ⟨hp, rfl, hreg.trans hreg₁, hbrk.trans hbrk₁⟩, a, N', hr, ht⟩⟩
      obtain ⟨k, rfl⟩ := Nat.exists_eq_add_of_le' (Nat.le_of_add_right_le hf)
      rw [← hlen, ← Nat.add_assoc, hloop, hmore k (by omega)]
      simp only [if_neg h₁.freep_ne]
      exact hloop' k (by omega)

end Malloc

end Xv6n.Umalloc
