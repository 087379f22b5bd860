import Xv6n.Vm.Map

/-!
# Specification of `freewalk`

`freewalk` takes a page table apart from its leaves up. The places below the part that is done are no
longer in use: the entries that still point there are cleared only after the pages have been freed.
-/

namespace Xv6n
open Lib KernM Function
variable [Layout] {s s' : Kernel} {own own' : Nat → Owner} {live live' : Nat → List Nat → Prop}
  {r t k level : Nat} {path : List Nat}

lemma Heap.drop (h : Heap s own live) (hsub : ∀ r path, live' r path → live r path)
    (hown : ∀ p r path, own p = .slot r path → live' r path)
    (hup : ∀ r i path, live' r (i :: path) → live' r path) : Heap s own live' :=
  ⟨h.managed, h.free, fun r hl => h.root r (hsub _ _ hl),
    fun r i path hl => h.sub r i path (hsub _ _ hl),
    fun p r path hp => ⟨hown p r path hp, (h.owned p r path hp).2⟩, hup,
    fun r i path t hl => h.entry r i path t (hsub _ _ hl)⟩

lemma Heap.none_below (h : Heap s own live) (hno : ∀ p, own p ≠ .slot r path) {path'}
    (hsuf : path <:+ path') (p : Nat) : own p ≠ .slot r path' := by
  induction path' generalizing p with
  | nil =>
    rw [List.eq_nil_of_suffix_nil hsuf] at hno
    exact hno p
  | cons j path' ih =>
    obtain rfl | hsuf := List.suffix_cons_iff.1 hsuf
    · exact hno p
    · intro hp
      obtain ⟨hl, hs⟩ := h.owned p r _ hp
      obtain ⟨t, ht, _⟩ := (h.sub r j path' hl hs p).1 hp
      exact ih hsuf t ht

/-- The owner is a place below `path`. -/
def Owner.Below (r : Nat) (path : List Nat) (o : Owner) : Prop :=
  ∃ path', o = .slot r path' ∧ path <:+ path'

/-- The places below `path` have been freed and nothing else has changed. -/
structure Gone (r : Nat) (path : List Nat) (s : Kernel) (own : Nat → Owner) (s' : Kernel)
    (own' : Nat → Owner) : Prop where
  tables : Tables s s'
  keep : ∀ p, ¬ (own p).Below r path → (∀ k, own p ≠ .free k) → own' p = own p
  same : ∀ p, p % PGSIZE = 0 → ¬ (own p).Below r path → (∀ k, own p ≠ .free k) →
    Same s.mem s'.mem p
  freed : ∀ p, (own p).Below r path ∨ (∃ k, own p = .free k) → ∃ k, own' p = .free k

/-- The owner is a place below one of the first `k` entries. -/
def Owner.Done (r : Nat) (path : List Nat) (k : Nat) (o : Owner) : Prop :=
  ∃ i, i < k ∧ o.Below r (i :: path)

omit [Layout] in
lemma Owner.done_succ {o : Owner} : o.Done r path (k + 1) ↔ o.Done r path k ∨ o.Below r (k :: path) := by
  constructor
  · rintro ⟨i, hi, h⟩
    obtain hi | rfl := Nat.lt_succ_iff_lt_or_eq.1 hi
    · exact .inl ⟨i, hi, h⟩
    · exact .inr h
  · rintro (⟨i, hi, h⟩ | h)
    · exact ⟨i, Nat.lt_succ_of_lt hi, h⟩
    · exact ⟨k, Nat.lt_succ_self k, h⟩

/-- The places in use after the first `k` entries. -/
def Rest (live : Nat → List Nat → Prop) (r : Nat) (path : List Nat) (k : Nat) :
    Nat → List Nat → Prop :=
  fun r' path' => live r' path' ∧ ¬ ((Owner.slot r' path').Done r path k)

omit [Layout] in
lemma below_slot {r' path'} : (Owner.slot r' path').Below r path ↔ r' = r ∧ path <:+ path' := by
  constructor
  · rintro ⟨π, h1, h2⟩
    cases h1
    exact ⟨rfl, h2⟩
  · rintro ⟨rfl, h⟩
    exact ⟨path', rfl, h⟩

omit [Layout] in
lemma Rest.up (hup : ∀ r i path, live r (i :: path) → live r path) {r' i path'}
    (h : Rest live r path k r' (i :: path')) : Rest live r path k r' path' := by
  refine ⟨hup r' i path' h.1, ?_⟩
  rintro ⟨j, hj, hb⟩
  obtain ⟨rfl, hs⟩ := below_slot.1 hb
  exact h.2 ⟨j, hj, below_slot.2 ⟨rfl, hs.trans (List.suffix_cons ..)⟩⟩

/-- The state of `freewalk` after the first `k` entries of the page-table page `t`. -/
structure FreeLoop (r t : Nat) (path : List Nat) (live : Nat → List Nat → Prop) (s : Kernel)
    (own : Nat → Owner) (k : Nat) (s' : Kernel) (own' : Nat → Owner) : Prop where
  heap : Heap s' own' (Rest live r path k)
  tables : Tables s s'
  self : own' t = .slot r path
  keep : ∀ p, p ≠ t → ¬ (own p).Done r path k → (∀ j, own p ≠ .free j) → own' p = own p
  same : ∀ p, p ≠ t → p % PGSIZE = 0 → ¬ (own p).Done r path k → (∀ j, own p ≠ .free j) →
    Same s.mem s'.mem p
  freed : ∀ p, (own p).Done r path k ∨ (∃ j, own p = .free j) → ∃ j, own' p = .free j
  left : ∀ i, k ≤ i → i < 512 → ent s'.mem t i = ent s.mem t i

lemma FreeLoop.back (f : FreeLoop r t path live s own k s' own') (ht : own t = .slot r path) {p r' path'}
    (hp : own' p = .slot r' path') : own p = .slot r' path' ∧ (p ≠ t → ¬ (own p).Done r path k) := by
  by_cases hpt : p = t
  · subst hpt
    rw [ht, ← f.self]
    exact ⟨hp, fun e => absurd rfl e⟩
  · have hfree : ∀ j, own p ≠ .free j := by
      intro j e
      obtain ⟨j', e'⟩ := f.freed p (.inr ⟨j, e⟩)
      rw [hp] at e'
      cases e'
    have hdone : ¬ (own p).Done r path k := by
      intro e
      obtain ⟨j', e'⟩ := f.freed p (.inl e)
      rw [hp] at e'
      cases e'
    rw [← f.keep p hpt hdone hfree]
    refine ⟨hp, fun _ => ?_⟩
    rw [f.keep p hpt hdone hfree]
    exact hdone

section
omit [Layout]

lemma eq_of_suffix {i j : Nat} {path'} (hi : i :: path <:+ path') (hj : j :: path <:+ path') : i = j := by
  have e := (List.suffix_of_suffix_length_le hi hj (Nat.le_refl _)).eq_of_length rfl
  rw [List.cons.injEq] at e
  exact e.1

lemma not_done_slot {path'} (h : k :: path <:+ path') : ¬ (Owner.slot r path').Done r path k := by
  rintro ⟨i, hi, hb⟩
  have := eq_of_suffix (below_slot.1 hb).2 h
  omega

lemma not_below_self : ¬ (Owner.slot r path).Below r (k :: path) := by
  intro h
  have := (below_slot.1 h).2.length_le
  rw [List.length_cons] at this
  omega

lemma without_rest : Without (Rest live r path k) r (k :: path) = Rest live r path (k + 1) := by
  funext r' path'
  unfold Without Rest
  rw [Owner.done_succ, below_slot, and_assoc, not_or]

end

lemma FreeLoop.skip (f : FreeLoop r t path live s own k s' own') (hup : ∀ r i path, live r (i :: path) →
    live r path) (ht : own t = .slot r path) (hz : ent s'.mem t k = 0) :
    FreeLoop r t path live s own (k + 1) s' own' := by
  have hno : ∀ p, own' p ≠ .slot r (k :: path) := by
    intro p hp
    obtain ⟨hl, hs⟩ := f.heap.owned p r _ hp
    obtain ⟨t', ht', hc⟩ := (f.heap.sub r k path hl hs p).1 hp
    rw [f.heap.unique ht' f.self, child_of_zero hz] at hc
    cases hc
  refine ⟨?_, f.tables, f.self, ?_, ?_, ?_, ?_⟩
  · refine f.heap.drop ?_ ?_ fun _ _ _ => Rest.up hup
    · intro r' path' h
      refine ⟨h.1, fun e => h.2 ?_⟩
      exact Owner.done_succ.2 (.inl e)
    · intro p r' path' hp
      obtain ⟨h1, h2⟩ := (f.heap.owned p r' path' hp).1
      refine ⟨h1, fun e => ?_⟩
      obtain e | e := Owner.done_succ.1 e
      · exact h2 e
      · obtain ⟨rfl, hsuf⟩ := below_slot.1 e
        exact f.heap.none_below hno hsuf p hp
  · intro p hpt hd
    exact f.keep p hpt fun e => hd (Owner.done_succ.2 (.inl e))
  · intro p hpt hpm hd
    exact f.same p hpt hpm fun e => hd (Owner.done_succ.2 (.inl e))
  · rintro p (hd | hf)
    · obtain e | ⟨path', e, hsuf⟩ := Owner.done_succ.1 hd
      · exact f.freed p (.inl e)
      · have hpt : p ≠ t := by
          rintro rfl
          rw [ht] at hd e
          cases e
          exact not_below_self (r := r) (below_slot.2 ⟨rfl, hsuf⟩)
        have hk := f.keep p hpt (by rw [e]; exact not_done_slot hsuf) (by rw [e]; nofun)
        rw [e] at hk
        exact absurd hk (f.heap.none_below hno hsuf p)
    · exact f.freed p (.inr hf)
  · intro i hi
    exact f.left i (by omega)

lemma FreeLoop.sub {s1 own1 s2 own2} (f : FreeLoop r t path live s own k s1 own1)
    (ht : own t = .slot r path) (hk : k < 512)
    (h2 : Heap s2 own2 (Without (Rest live r path k) r (k :: path)))
    (g : Gone r (k :: path) s1 own1 s2 own2) :
    FreeLoop r t path live s own (k + 1) { s2 with mem := putLe s2.mem (t + 8 * k) 8 0 } own2 := by
  have htm := f.heap.slot_mod f.self
  have hb : ¬ (own1 t).Below r (k :: path) := by
    rw [f.self]
    exact not_below_self
  have hfr : ∀ j, own1 t ≠ .free j := by
    rw [f.self]
    nofun
  have hself : own2 t = .slot r path := (g.keep t hb hfr).trans f.self
  refine ⟨?_, f.tables.trans g.tables.mem, hself, ?_, ?_, ?_, ?_⟩
  · rw [← without_rest]
    exact h2.putDead hself (fun e => e.1.2 ⟨rfl, List.suffix_refl _⟩) hk
  · intro p hpt hd hf
    rw [Owner.done_succ, not_or] at hd
    have e := f.keep p hpt hd.1 hf
    rw [g.keep p (by rw [e]; exact hd.2) (by rw [e]; exact hf), e]
  · intro p hpt hpm hd hf
    rw [Owner.done_succ, not_or] at hd
    have e := f.keep p hpt hd.1 hf
    exact ((f.same p hpt hpm hd.1 hf).trans
      (g.same p hpm (by rw [e]; exact hd.2) (by rw [e]; exact hf))).trans (same_putLe htm hk hpm hpt)
  · intro p hp
    by_cases hd : (own p).Done r path k ∨ ∃ j, own p = .free j
    · exact g.freed p (.inr (f.freed p hd))
    · rw [not_or, not_exists] at hd
      obtain hp | hp := hp
      · have hbel := (Owner.done_succ.1 hp).resolve_left hd.1
        have hpt : p ≠ t := by
          rintro rfl
          rw [ht] at hbel
          exact not_below_self hbel
        rw [← f.keep p hpt hd.1 hd.2] at hbel
        exact g.freed p (.inl hbel)
      · exact absurd hp (not_exists.2 hd.2)
  · intro i hi hi'
    dsimp only
    rw [ent_putLe_of_ne (by omega) htm htm, (g.same t htm hb hfr).ent hi', f.left i (by omega) hi']

lemma freeEntry_spec {s1 own1} (f : FreeLoop r t path live s own k s1 own1)
    (hup : ∀ r i path, live r (i :: path) → live r path) (ht : own t = .slot r path)
    (hp : IsTable path) (hk : k < 512) (hlive : ∀ path', path <:+ path' → live r path')
    (hz : ∀ t' path' i, own t' = .slot r path' → path'.length = 2 → path <:+ path' → i < 512 →
      ent s.mem t' i = 0)
    (hsub : path.length < 2 → ∀ c, own1 c = .slot r (k :: path) →
      wp (freewalk level c) (fun _ s2 => ∃ own2,
        Heap s2 own2 (Without (Rest live r path k) r (k :: path)) ∧
        Gone r (k :: path) s1 own1 s2 own2) Never s1) :
    wp (freeEntry (freewalk level) t k)
      (fun _ s2 => ∃ own2, FreeLoop r t path live s own (k + 1) s2 own2) Never s1 := by
  have hlk : Rest live r path k r (k :: path) :=
    ⟨hlive _ (List.suffix_cons ..), not_done_slot (List.suffix_refl _)⟩
  have hent : ent s1.mem t k = 0 ∨ path.length < 2 ∧ pteFlags (ent s1.mem t k) = PTE_V := by
    by_cases hlen : path.length < 2
    · obtain e | e := f.heap.entry r k path t hlk (hp.cons hlen hk) f.self
      · exact .inl e
      · exact .inr ⟨hlen, e⟩
    · left
      rw [f.left k (Nat.le_refl _) hk]
      have := hp.length
      exact hz t path k ht (by omega) (List.suffix_refl _) hk
  have hle : le s1.mem (t + 8 * k) 8 = ent s1.mem t k := rfl
  unfold freeEntry
  rw [wp_bind, wp_load64, hle]
  obtain e | ⟨hlen, e⟩ := hent
  · rw [e, if_neg (by decide), if_neg (by decide), wp_pure]
    exact ⟨own1, f.skip hup ht e⟩
  · have hv : ent s1.mem t k &&& PTE_V ≠ 0 := by
      rw [and_of_flags (by decide), e]
      decide
    have hrwx : ent s1.mem t k &&& (PTE_R ||| PTE_W ||| PTE_X) = 0 := by
      rw [and_of_flags (by decide), e]
      decide
    rw [if_pos ⟨hv, hrwx⟩, wp_bind]
    have hc : own1 (pte2pa (ent s1.mem t k)) = .slot r (k :: path) := by
      apply (f.heap.sub r k path hlk (hp.cons hlen hk).slot _).2
      refine ⟨t, f.self, ?_⟩
      unfold child
      rw [if_pos hv]
    apply wp_mono (hsub hlen _ hc)
    rintro _ s2 ⟨own2, h2, g⟩
    rw [wp_store64]
    exact ⟨own2, f.sub ht hk h2 g⟩

lemma freewalk_spec (h : Heap s own live) (ht : own t = .slot r path) (hp : IsTable path)
    (hlevel : path.length + level = 3) (hlive : ∀ path', path <:+ path' → live r path')
    (hz : ∀ t' path' i, own t' = .slot r path' → path'.length = 2 → path <:+ path' → i < 512 →
      ent s.mem t' i = 0) :
    wp (freewalk level t) (fun _ s' => ∃ own', Heap s' own' (Without live r path) ∧
      Gone r path s own s' own') Never s := by
  induction level generalizing s own live t path with
  | zero =>
    have := hp.length
    omega
  | succ level ih =>
    rw [freewalk, wp_bind]
    refine wp_mono (wp_forIn
      (I := fun k s' => ∃ own', FreeLoop r t path live s own k s' own') ?_ ?_) ?_
    · refine ⟨own, ?_, .refl, ht, fun _ _ _ _ => rfl, fun _ _ _ _ _ => .refl, ?_, fun _ _ _ => rfl⟩
      · have e : Rest live r path 0 = live := by
          funext r' path'
          simp [Rest, Owner.Done]
        rwa [e]
      · rintro p (⟨_, hi, _⟩ | hf)
        · omega
        · exact hf
    · rintro k b s1 hb ⟨own1, f⟩
      obtain ⟨hk, rfl⟩ := List.getElem?_eq_some_iff.1 hb
      rw [List.length_range] at hk
      rw [List.getElem_range, wp_bind]
      apply wp_mono (freeEntry_spec f h.up ht hp hk hlive hz ?_)
      · rintro _ s2 h2
        rw [wp_pure]
        exact ⟨rfl, h2⟩
      · intro hlen c hc
        apply ih f.heap hc (hp.cons hlen hk)
        · rw [List.length_cons]
          omega
        · intro path' hsuf
          exact ⟨hlive _ ((List.suffix_cons ..).trans hsuf), not_done_slot hsuf⟩
        · intro t' path' i ht' hlen' hsuf hi
          obtain ⟨h1, h2⟩ := f.back ht ht'
          have hne : t' ≠ t := by
            rintro rfl
            rw [ht, Owner.slot.injEq] at h1
            rw [← h1.2] at hlen'
            omega
          rw [(f.same t' hne (h.slot_mod h1) (h2 hne) (by rw [h1]; nofun)).ent hi]
          exact hz t' path' i h1 hlen' ((List.suffix_cons ..).trans hsuf) hi
    · rintro _ s1 ⟨own1, f⟩
      rw [List.length_range] at f
      refine wp_mono (kfree_spec (L := Without live r path) f.heap (by rw [f.self]; nofun)
        (by rw [f.self]; nofun) ?_ ?_ ?_ fun _ _ _ => Without.up h.up) ?_
      · intro r' path' hl
        refine ⟨hl.1, ?_⟩
        rintro ⟨i, hi, hb⟩
        obtain ⟨rfl, hsuf⟩ := below_slot.1 hb
        exact hl.2 ⟨rfl, (List.suffix_cons ..).trans hsuf⟩
      · intro p r' path' hp' hpt
        obtain ⟨hl, hs⟩ := f.heap.owned p r' path' hp'
        refine ⟨hl.1, ?_⟩
        rintro ⟨rfl, hsuf⟩
        -- a place below this page-table page is below one of its 512 entries
        obtain ⟨l, rfl⟩ := hsuf
        obtain rfl | ⟨l, i, rfl⟩ := List.eq_nil_or_concat' l
        · exact hpt (f.heap.unique hp' f.self)
        · rw [List.append_assoc] at hl hs
          have hi : i < 512 := hs.lt i (by simp)
          exact hl.2 ⟨i, hi, below_slot.2 ⟨rfl, List.suffix_append ..⟩⟩
      · intro r' path' hp' hl
        rw [f.self, Owner.slot.injEq] at hp'
        exact hl.2 ⟨hp'.1.symm, by rw [hp'.2]⟩
      · rintro _ s2 ⟨j, h2, h3, h4⟩
        have htm := h.slot_mod ht
        have hdone : ∀ p, ¬ (own p).Below r path → p ≠ t ∧ ¬ (own p).Done r path 512 := by
          intro p hb
          refine ⟨?_, ?_⟩
          · rintro rfl
            exact hb (by rw [ht]; exact below_slot.2 ⟨rfl, List.suffix_refl _⟩)
          · rintro ⟨i, _, path', e, hsuf⟩
            exact hb ⟨path', e, (List.suffix_cons ..).trans hsuf⟩
        refine ⟨_, h2, f.tables.trans h3, ?_, ?_, ?_⟩
        · intro p hb hf
          obtain ⟨h5, h6⟩ := hdone p hb
          rw [update_of_ne h5]
          exact f.keep p h5 h6 hf
        · intro p hpm hb hf
          obtain ⟨h5, h6⟩ := hdone p hb
          exact (f.same p h5 hpm h6 hf).trans (h4 p hpm h5)
        · intro p hp'
          by_cases hpt : p = t
          · subst hpt
            exact ⟨j, update_self ..⟩
          · rw [update_of_ne hpt]
            apply f.freed p
            obtain ⟨path', e, hsuf⟩ | hf := hp'
            · left
              obtain ⟨hl, hs⟩ := h.owned p r path' e
              obtain ⟨l, rfl⟩ := hsuf
              obtain rfl | ⟨l, i, rfl⟩ := List.eq_nil_or_concat' l
              · exact absurd (h.unique e ht) hpt
              · rw [List.append_assoc] at hs e
                exact ⟨i, hs.lt i (by simp), _, e, List.suffix_append ..⟩
            · exact .inr hf

end Xv6n
