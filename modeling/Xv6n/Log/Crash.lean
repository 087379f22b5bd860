import Xv6n.Log.Disk

/-!
# Crash atomicity of the log

`Pend d h bs` says that a disk `d` recovers to the home blocks `h`: its header lists `bs`, the log
holds what `h` has at these blocks, and `d` already agrees with `h` at every other home block. Once a
transaction is committed, every further write of `install_trans` keeps `Pend`, and so does every
write of `recover_from_log`, which is why a crash inside either is harmless. Before the commit the
disk still satisfies `Pend` with the old image and an empty header. `crash_atomic` puts the two
together over a whole run.
-/

namespace Xv6n
open Lib Function
variable {m : Machine} {buf : Block}

/-- Block `b` is not part of the log area. -/
def Home (start size b : Nat) : Prop := b < start ∨ start + size ≤ b

/-- A header block that lists exactly `bs`. -/
def HeadIs (buf : Block) (bs : List Nat) : Prop :=
  buf.headN = bs.length ∧ ∀ i b, bs[i]? = some b → buf.le (4 * (i + 1)) 4 = b

lemma HeadIs.getHead {bs} (h : HeadIs buf bs) : buf.getHead = bs := by
  unfold Block.getHead
  rw [h.1, Int.toNat_natCast]
  apply List.ext_getElem
  · simp
  · intro i h1 h2
    rw [List.getElem_map, List.getElem_range]
    exact h.2 i _ (List.getElem?_eq_getElem h2)

lemma head_fits {i : Nat} (h : i ≤ LOGSIZE) : 4 * i + 4 ≤ BSIZE := by
  simp only [LOGSIZE, MAXOPBLOCKS, BSIZE] at h ⊢
  omega

lemma le_putBlocks_of_lt {i k bs} (hk : k < i + 1) (hlen : i + bs.length ≤ LOGSIZE) :
    (buf.putBlocks i bs).le (4 * k) 4 = buf.le (4 * k) 4 := by
  induction bs generalizing buf i with
  | nil => rfl
  | cons b bs ih =>
    simp only [List.length_cons] at hlen
    rw [Block.putBlocks, ih (by omega) (by omega)]
    exact Block.le_putLe_of_disjoint (head_fits (by omega)) (by omega)

lemma le_putBlocks {i j b bs} (hlen : i + bs.length ≤ LOGSIZE)
    (hb : bs[j]? = some b) (hlt : b < 2 ^ 32) :
    (buf.putBlocks i bs).le (4 * (i + j + 1)) 4 = b := by
  induction bs generalizing buf i j with
  | nil => simp at hb
  | cons x bs ih =>
    simp only [List.length_cons] at hlen
    rw [Block.putBlocks]
    cases j with
    | zero =>
      rw [List.getElem?_cons_zero, Option.some.injEq] at hb
      subst hb
      rw [Nat.add_zero, le_putBlocks_of_lt (by omega) (by omega),
        Block.le_putLe (head_fits (by omega))]
      exact Nat.mod_eq_of_lt hlt
    | succ j =>
      rw [List.getElem?_cons_succ] at hb
      rw [show i + (j + 1) + 1 = i + 1 + j + 1 from by omega]
      exact ih (by omega) hb

lemma headIs_putHead {bs} (hlen : bs.length ≤ LOGSIZE) (hlt : ∀ b ∈ bs, b < 2 ^ 32) :
    HeadIs (buf.putHead bs) bs := by
  have hsmall : bs.length < 2 ^ 31 := lt_of_le_of_lt hlen (by decide)
  constructor
  · have h : (buf.putHead bs).le 0 4 = bs.length := by
      unfold Block.putHead
      rw [show (0 : Nat) = 4 * 0 from rfl, le_putBlocks_of_lt (by omega) (by omega), Nat.mul_zero,
        Block.le_putLe (head_fits (i := 0) (by omega))]
      apply Nat.mod_eq_of_lt
      omega
    unfold Block.headN
    rw [h]
    apply Int.bmod_eq_of_le <;> omega
  · intro i b hb
    unfold Block.putHead
    have h : ((buf.putLe 0 4 bs.length).putBlocks 0 bs).le (4 * (0 + i + 1)) 4 = b :=
      le_putBlocks (by omega) hb (hlt b (List.mem_of_getElem? hb))
    rwa [Nat.zero_add] at h

/-- The disk `d` recovers to the home blocks `h` by replaying the blocks `bs`. -/
structure Pend (start size : Nat) (d h : Nat → Block) (bs : List Nat) : Prop where
  head : HeadIs (d start) bs
  fits : bs.length ≤ size - 1
  home : ∀ b ∈ bs, Home start size b
  logged : ∀ i b, bs[i]? = some b → d (start + i + 1) = h b
  rest : ∀ b, Home start size b → b ∉ bs → d b = h b

/-- A cached block holds the disk's contents or those of the image that is being installed. -/
def CacheOk (start size : Nat) (m : Machine) (h : Nat → Block) : Prop :=
  ∀ b d, m.cache b = some d → d = m.disk b ∨ (Home start size b ∧ d = h b)

section bread
variable {start size : Nat} {h : Nat → Block}

lemma loaded_cache {b} :
    (m.loaded b).cache = update m.evicted b (some (m.view b)) := rfl

lemma evicted_cases {b d} (e : m.evicted b = some d) : m.cache b = some d := by
  unfold Machine.evicted at e
  split at e
  · cases e
  · exact e

lemma view_cases {b} : m.view b = m.disk b ∨ m.cache b = some (m.view b) := by
  unfold Machine.view
  cases e : m.evicted b with
  | none => exact .inl rfl
  | some d => exact .inr (evicted_cases e)

@[simp] lemma wp_bread {b} {Q : Block → Machine → Prop} {E : Stop → Machine → Prop} :
    wp (LogM.bread b) Q E m ↔ Q (m.view b) (m.loaded b) := by
  unfold wp
  rfl

@[simp] lemma wp_bwrite {b d} {Q : PUnit → Machine → Prop} {E : Stop → Machine → Prop} :
    wp (LogM.bwrite b d) Q E m ↔ (m.budget = 0 → E .crash m) ∧ (m.budget ≠ 0 → Q ⟨⟩ { m with
      budget := m.budget - 1
      disk := update m.disk b d
      cache := update m.cache b (some d) }) := by
  unfold wp LogM.bwrite
  by_cases h : m.budget = 0
  · simp [h]
  · simp [h]

lemma CacheOk.view {b} (c : CacheOk start size m h) (hb : ¬ Home start size b) :
    m.view b = m.disk b := by
  obtain e | e := view_cases (m := m) (b := b)
  · exact e
  · obtain e | ⟨h, _⟩ := c b _ e
    · exact e
    · exact absurd h hb

lemma CacheOk.loaded {b} (c : CacheOk start size m h) : CacheOk start size (m.loaded b) h := by
  intro x d e
  by_cases hx : x = b
  · subst hx
    rw [loaded_cache, update_self, Option.some.injEq] at e
    subst e
    obtain e | e := view_cases (m := m) (b := x)
    · exact .inl e
    · exact c x _ e
  · rw [loaded_cache, update_of_ne hx] at e
    exact c x d (evicted_cases e)

end bread

section install
variable {start size : Nat} {h : Nat → Block} {all : List Nat}

/-- The state from which `install_trans` and `recover_from_log` continue. -/
structure Installing (start size : Nat) (h : Nat → Block) (all : List Nat) (m : Machine) : Prop where
  layout : m.log.start = start ∧ m.log.size = size
  cache : CacheOk start size m h
  pend : Pend start size m.disk h all

lemma Installing.write {b} (i : Installing start size h all m) (hb : b ∈ all)
    (hsize : 0 < size) {k} :
    Installing start size h all { m with
      budget := k
      disk := update m.disk b (h b)
      cache := update m.cache b (some (h b)) } := by
  have hhome := i.pend.home b hb
  have hne : ∀ x, start ≤ x → x < start + size → x ≠ b := by
    intro x h1 h2 e
    unfold Home at hhome
    omega
  refine ⟨i.layout, ?_, ?_⟩
  · intro x d e
    dsimp only at e ⊢
    by_cases hx : x = b
    · subst hx
      rw [update_self, Option.some.injEq] at e
      exact .inr ⟨hhome, e.symm⟩
    · rw [update_of_ne hx] at e
      rw [update_of_ne hx]
      exact i.cache x d e
  · dsimp only
    refine ⟨?_, i.pend.fits, i.pend.home, ?_, ?_⟩
    · rw [update_of_ne (hne start (by omega) (by omega))]
      exact i.pend.head
    · intro j x hx
      have hj : j < all.length := (List.getElem?_eq_some_iff.1 hx).1
      have := i.pend.fits
      rw [update_of_ne (hne (start + j + 1) (by omega) (by omega))]
      exact i.pend.logged j x hx
    · intro x hx hn
      have hxb : x ≠ b := by
        rintro rfl
        exact hn hb
      rw [update_of_ne hxb]
      exact i.pend.rest x hx hn

lemma Installing.loaded {b} (i : Installing start size h all m) :
    Installing start size h all (m.loaded b) :=
  ⟨i.layout, i.cache.loaded, i.pend⟩

lemma Installing.unpin {p} (i : Installing start size h all m) :
    Installing start size h all { m with pin := p } :=
  ⟨i.layout, i.cache, i.pend⟩

/-- `install_trans` writes the image it installs, and the disk recovers to that image wherever the
    power fails. -/
lemma wp_installLoop {r tail bs} (hsize : 0 < size)
    (i : Installing start size h all m) (hbs : ∀ j b, bs[j]? = some b → all[tail + j]? = some b)
    (hdone : ∀ b ∈ all.take tail, m.disk b = h b) :
    wp (LogM.installLoop r tail bs)
      (fun _ m' => Installing start size h all m' ∧ m'.log = m.log ∧ m'.commits = m.commits ∧
        m.budget = m'.budget + bs.length ∧ ∀ b ∈ all.take (tail + bs.length), m'.disk b = h b)
      (fun _ m' => Installing start size h all m' ∧ m'.commits = m.commits ∧
        m.budget < bs.length) m := by
  induction bs generalizing tail m with
  | nil =>
    rw [LogM.installLoop, wp_pure]
    exact ⟨i, rfl, rfl, rfl, by simpa using hdone⟩
  | cons b bs ih =>
    have hb : all[tail]? = some b := hbs 0 b rfl
    have hmem : b ∈ all := List.mem_of_getElem? hb
    have hlt : tail < all.length := (List.getElem?_eq_some_iff.1 hb).1
    have hfits := i.pend.fits
    -- the log block is read from disk and holds the new contents
    have hlog : m.view (start + tail + 1) = h b := by
      have : ¬ Home start size (start + tail + 1) := by
        unfold Home
        omega
      rw [i.cache.view this]
      exact i.pend.logged tail b hb
    rw [LogM.installLoop]
    simp only [wp_bind, wp_get, i.layout.1, wp_bread, wp_bwrite]
    rw [hlog]
    have i1 := (i.loaded (b := start + tail + 1)).loaded (b := b)
    refine ⟨fun hz => ⟨i1, rfl, ?_⟩, fun hz => ?_⟩
    · have hbud : m.budget = 0 := hz
      rw [hbud, List.length_cons]
      exact Nat.succ_pos _
    have hbud : m.budget ≠ 0 := hz
    have i2 := i1.write (k := m.budget - 1) hmem hsize
    have hd2 : ∀ x ∈ all.take (tail + 1), update m.disk b (h b) x = h x := by
      intro x hx
      by_cases hxb : x = b
      · subst hxb
        rw [update_self]
      · rw [update_of_ne hxb]
        rw [List.take_add_one, hb, List.mem_append] at hx
        obtain hx | hx := hx
        · exact hdone x hx
        · simp only [Option.toList_some, List.mem_singleton] at hx
          exact absurd hx hxb
    have hnext : ∀ j x, bs[j]? = some x → all[tail + 1 + j]? = some x := by
      intro j x hx
      rw [show tail + 1 + j = tail + (j + 1) from by omega]
      exact hbs (j + 1) x hx
    have hlen : tail + (bs.length + 1) = tail + 1 + bs.length := by omega
    have rest : ∀ m', m'.log = m.log → m'.commits = m.commits → m'.budget = m.budget - 1 →
        m'.disk = update m.disk b (h b) → Installing start size h all m' →
        wp (LogM.installLoop r (tail + 1) bs)
          (fun _ m'' => Installing start size h all m'' ∧ m''.log = m.log ∧
            m''.commits = m.commits ∧ m.budget = m''.budget + (b :: bs).length ∧
            ∀ x ∈ all.take (tail + (b :: bs).length), m''.disk x = h x)
          (fun _ m'' => Installing start size h all m'' ∧ m''.commits = m.commits ∧
            m.budget < (b :: bs).length) m' := by
      intro m' hl hc hb' hd i'
      apply wp_conseq (ih i' hnext (by rwa [hd]))
      · rintro _ m'' ⟨i'', hl', hc', hb'', hd'⟩
        rw [List.length_cons, hlen]
        exact ⟨i'', hl'.trans hl, hc'.trans hc, by omega, hd'⟩
      · rintro _ m'' ⟨i'', hc', hb''⟩
        rw [List.length_cons]
        exact ⟨i'', hc'.trans hc, by omega⟩
    cases r with
    | true =>
      rw [if_neg (by simp)]
      exact rest _ rfl rfl rfl rfl i2
    | false =>
      rw [if_pos rfl, wp_bind, LogM.bunpin, wp_modify]
      exact rest _ rfl rfl rfl rfl i2.unpin

lemma wp_writeHead {g : Nat → Block} {l : List Nat} (hst : m.log.start = start)
    (hl : m.log.block = l) (hlen : l.length ≤ LOGSIZE) (hlt : ∀ b ∈ l, b < 2 ^ 32)
    (hp : ∀ buf, HeadIs buf l → Pend start size (update m.disk start buf) g l) :
    wp LogM.writeHead
      (fun _ m' => m'.log = m.log ∧ m'.commits = m.commits ∧ Pend start size m'.disk g l ∧
        (∀ b d, m'.cache b = some d → b ≠ start → m.cache b = some d) ∧
        (∀ d, m'.cache start = some d → d = m'.disk start) ∧
        ∀ b, b ≠ start → m'.disk b = m.disk b)
      (fun _ m' => m'.disk = m.disk ∧ m'.commits = m.commits ∧ m.budget = 0) m := by
  unfold LogM.writeHead
  simp only [wp_bind, wp_get, hst, hl, wp_bread, wp_bwrite]
  refine ⟨fun hz => ⟨rfl, rfl, hz⟩, fun _ => ⟨rfl, rfl, hp _ (headIs_putHead hlen hlt), ?_, ?_, ?_⟩⟩
  · intro b d hd hb
    rw [update_of_ne hb, loaded_cache, update_of_ne hb] at hd
    exact evicted_cases hd
  · intro d hd
    rw [update_self, Option.some.injEq] at hd
    rw [update_self, hd]
  · intro b hb
    rw [update_of_ne hb]
    rfl

lemma Installing.erase (i : Installing start size h all m)
    (hdone : ∀ b ∈ all, m.disk b = h b) (hsize : 0 < size) (hb : HeadIs buf []) :
    Pend start size (update m.disk start buf) h [] := by
  refine ⟨by rwa [update_self], by simp, by simp, by simp, ?_⟩
  intro b hhome _
  have hne : b ≠ start := by
    unfold Home at hhome
    omega
  rw [update_of_ne hne]
  by_cases h : b ∈ all
  · exact hdone b h
  · exact i.pend.rest b hhome h

lemma wp_eraseHead (hsize : 0 < size) (i : Installing start size h all m)
    (hdone : ∀ b ∈ all, m.disk b = h b) :
    wp (do LogM.clearHead; LogM.writeHead)
      (fun _ m' => m'.log = { m.log with block := [] } ∧ m'.commits = m.commits ∧
        Pend start size m'.disk h [] ∧ ∀ b d, m'.cache b = some d → d = m'.disk b)
      (fun _ m' => Pend start size m'.disk h all ∧ m'.commits = m.commits ∧ m.budget = 0) m := by
  unfold LogM.clearHead
  rw [wp_bind, wp_modify]
  apply wp_conseq (wp_writeHead (m := { m with log := { m.log with block := [] } }) (g := h)
    (l := []) i.layout.1 rfl (by simp) (by simp) fun buf hb => i.erase hdone hsize hb)
  · rintro _ m' ⟨hl, hc, hp, h1, h2, h3⟩
    refine ⟨hl, hc, hp, ?_⟩
    intro b d e
    by_cases hb : b = start
    · subst hb
      exact h2 d e
    · rw [h3 b hb]
      obtain e | ⟨hhome, e⟩ := i.cache b d (h1 b d e hb)
      · exact e
      · rw [e]
        by_cases hm : b ∈ all
        · exact (hdone b hm).symm
        · exact (i.pend.rest b hhome hm).symm
  · rintro _ m' ⟨hd, hc, hz⟩
    refine ⟨?_, hc, hz⟩
    rw [hd]
    exact i.pend

def powerUp (start size budget : Nat) (evict : Nat → Nat → Bool) (disk : Nat → Block) : Machine :=
  { disk := disk, cache := fun _ => none, pin := fun _ => 0, log := .initlog start size,
    budget := budget, evict := evict, clock := 0, commits := 0 }

lemma wp_readHead {budget evict d} (hp : Pend start size d h all) {E : Stop → Machine → Prop} :
    wp LogM.readHead
      (fun _ m' => Installing start size h all m' ∧ m'.log.block = all ∧ m'.budget = budget) E
      (powerUp start size budget evict d) := by
  have hv : (powerUp start size budget evict d).view start = d start := by
    unfold Machine.view Machine.evicted
    split <;> rfl
  have hs : (powerUp start size budget evict d).log.start = start := rfl
  unfold LogM.readHead
  rw [wp_bind, wp_get, wp_bind, wp_bread, wp_modify, hs, hv, hp.head.getHead]
  refine ⟨⟨⟨rfl, rfl⟩, ?_, hp⟩, rfl, rfl⟩
  apply CacheOk.loaded
  nofun

lemma wp_recoverFromLog {k e d} (hsize : 0 < size) (hp : Pend start size d h all) :
    wp LogM.recoverFromLog (fun _ m' => Pend start size m'.disk h [])
      (fun _ m' => Pend start size m'.disk h all ∧ k ≤ all.length)
      (powerUp start size k e d) := by
  unfold LogM.recoverFromLog
  rw [wp_bind]
  apply wp_mono (wp_readHead hp)
  rintro _ m ⟨i, hb, rfl⟩
  unfold LogM.installTrans
  rw [wp_bind, wp_bind, wp_get, hb]
  apply wp_conseq (wp_installLoop hsize i (by simp) (by simp))
  · rintro _ m' ⟨i', _, _, hbud, hdone⟩
    rw [Nat.zero_add, List.take_length] at hdone
    apply wp_conseq (wp_eraseHead hsize i' hdone)
    · rintro _ m'' ⟨_, _, hpend, _⟩
      exact hpend
    · rintro _ m'' ⟨hpend, _, hz⟩
      exact ⟨hpend, by omega⟩
  · rintro _ m' ⟨i', _, hbud⟩
    exact ⟨i'.pend, by omega⟩

end install

section transaction
variable {start size : Nat} {h hc : Nat → Block}

/-- Inside a transaction: the disk holds `h`, the cache the current image `hc`. -/
structure TxInv (start size : Nat) (h hc : Nat → Block) (m : Machine) : Prop where
  layout : m.log.start = start ∧ m.log.size = size
  clean : Pend start size m.disk h []
  cache : ∀ b d, m.cache b = some d → d = m.disk b ∨ (b ∈ m.log.block ∧ d = hc b)
  pinned : ∀ b ∈ m.log.block, m.cache b = some (hc b) ∧ 0 < m.pin b
  rest : ∀ b, b ∉ m.log.block → hc b = h b
  home : ∀ b ∈ m.log.block, Home start size b ∧ b < 2 ^ 32
  len : m.log.n ≤ LOGSIZE ∧ m.log.n ≤ size - 1

lemma TxInv.evicted {b} (t : TxInv start size h hc m) (hb : b ∈ m.log.block) :
    m.evicted b = some (hc b) := by
  obtain ⟨e, hp⟩ := t.pinned b hb
  unfold Machine.evicted
  rw [if_neg (by omega), e]

lemma TxInv.view {b} (t : TxInv start size h hc m) (hb : b ∈ m.log.block) :
    m.view b = hc b := by
  unfold Machine.view
  rw [t.evicted hb, Option.getD_some]

lemma TxInv.loaded {b} (t : TxInv start size h hc m) :
    TxInv start size h hc (m.loaded b) := by
  refine ⟨t.layout, t.clean, ?_, ?_, t.rest, t.home, t.len⟩
  · intro x d e
    by_cases hx : x = b
    · subst hx
      rw [loaded_cache, update_self, Option.some.injEq] at e
      subst e
      obtain e | e := view_cases (m := m) (b := x)
      · exact .inl e
      · exact t.cache x _ e
    · rw [loaded_cache, update_of_ne hx] at e
      exact t.cache x d (evicted_cases e)
  · intro x hx
    refine ⟨?_, (t.pinned x hx).2⟩
    by_cases hxb : x = b
    · subst hxb
      rw [loaded_cache, update_self, t.view hx]
    · rw [loaded_cache, update_of_ne hxb]
      exact t.evicted hx

lemma TxInv.write {b d p l} (t : TxInv start size h hc m)
    (hb : Home start size b ∧ b < 2 ^ 32) (hmem : ∀ x, x ∈ l ↔ x = b ∨ x ∈ m.log.block)
    (hlen : l.length ≤ LOGSIZE ∧ l.length ≤ size - 1) (hpin : ∀ x ∈ l, 0 < p x) :
    TxInv start size h (update hc b d) { m with
      cache := update m.cache b (some d)
      pin := p
      log := { m.log with block := l } } := by
  refine ⟨t.layout, t.clean, ?_, ?_, ?_, ?_, hlen⟩
  · intro x y e
    dsimp only at e ⊢
    by_cases hx : x = b
    · subst hx
      rw [update_self, Option.some.injEq] at e
      exact .inr ⟨(hmem x).2 (.inl rfl), by rw [update_self, e]⟩
    · rw [update_of_ne hx] at e
      obtain e | ⟨hm, e⟩ := t.cache x y e
      · exact .inl e
      · exact .inr ⟨(hmem x).2 (.inr hm), by rw [update_of_ne hx, e]⟩
  · intro x hx
    refine ⟨?_, hpin x hx⟩
    dsimp only
    by_cases hxb : x = b
    · subst hxb
      rw [update_self, update_self]
    · obtain h | h := (hmem x).1 hx
      · exact absurd h hxb
      · rw [update_of_ne hxb, update_of_ne hxb]
        exact (t.pinned x h).1
  · intro x hx
    have hx' := (hmem x).not.1 hx
    rw [not_or] at hx'
    rw [update_of_ne hx'.1]
    exact t.rest x hx'.2
  · intro x hx
    obtain rfl | h := (hmem x).1 hx
    · exact hb
    · exact t.home x h

/-- One update of a transaction. A panic in `log_write` leaves the disk as it was. -/
lemma wp_update {b d} (t : TxInv start size h hc m)
    (hb : Home start size b ∧ b < 2 ^ 32) :
    wp (LogM.update b d)
      (fun _ m' => TxInv start size h (update hc b d) m' ∧
        m'.log.outstanding = m.log.outstanding ∧ m'.log.committing = m.log.committing ∧
        m'.commits = m.commits)
      (fun _ m' => m'.disk = m.disk ∧ m'.commits = m.commits) m := by
  have t1 := t.loaded (b := b)
  have hlog : (m.loaded b).log = m.log := rfl
  unfold LogM.update LogM.logWrite
  simp only [wp_bind, wp_bread, wp_modify, wp_get]
  rw [hlog]
  cases hw : m.log.logWrite b with
  | error e =>
    rw [wp_throw]
    exact ⟨rfl, rfl⟩
  | ok lg =>
    obtain ⟨h1, h2, _, rfl⟩ := Log.logWrite_ok hw
    rw [t.layout.2] at h2
    by_cases hin : b ∈ m.log.block
    · -- absorbed: the block is already logged and pinned
      simp only [hin, if_true, not_true, if_false, wp_modify]
      refine ⟨t1.write (p := m.pin) (l := m.log.block) hb ?_ t.len ?_, trivial, trivial, rfl⟩
      · intro x
        exact ⟨.inr, fun h => h.elim (fun e => e ▸ hin) id⟩
      · intro x hx
        exact (t.pinned x hx).2
    · simp only [hin, if_false, not_false_iff, if_true, LogM.bpin, wp_bind, wp_modify]
      refine ⟨t1.write (p := update m.pin b (m.pin b + 1))
        (l := m.log.block ++ [b]) hb ?_ ?_ ?_, trivial, trivial, rfl⟩
      · intro x
        simp [hlog, or_comm]
      · unfold Log.n at h1 h2
        simp only [List.length_append, List.length_cons, List.length_nil]
        omega
      · intro x hx
        by_cases hxb : x = b
        · subst hxb
          rw [update_self]
          omega
        · rw [update_of_ne hxb]
          simp only [List.mem_append, List.mem_singleton, hxb, or_false] at hx
          exact (t.pinned x hx).2

/-- `write_log` copies the newest contents of the logged blocks into the log; until the header is
    written the disk still holds the old image. -/
lemma wp_writeLogLoop {tail bs} (t : TxInv start size h hc m)
    (hbs : ∀ j b, bs[j]? = some b → m.log.block[tail + j]? = some b)
    (hdone : ∀ j b, j < tail → m.log.block[j]? = some b → m.disk (start + j + 1) = hc b) :
    wp (LogM.writeLogLoop tail bs)
      (fun _ m' => TxInv start size h hc m' ∧ m'.log = m.log ∧ m'.commits = m.commits ∧
        ∀ j b, j < tail + bs.length → m.log.block[j]? = some b → m'.disk (start + j + 1) = hc b)
      (fun _ m' => Pend start size m'.disk h [] ∧ m'.commits = m.commits) m := by
  induction bs generalizing tail m with
  | nil =>
    rw [LogM.writeLogLoop, wp_pure]
    exact ⟨t, rfl, rfl, by simpa using hdone⟩
  | cons b bs ih =>
    have hb : m.log.block[tail]? = some b := hbs 0 b rfl
    have hmem : b ∈ m.log.block := List.mem_of_getElem? hb
    have hlt : tail < m.log.block.length := (List.getElem?_eq_some_iff.1 hb).1
    have hlen := t.len.2
    unfold Log.n at hlen
    have t1 := t.loaded (b := start + tail + 1)
    have t2 := t1.loaded (b := b)
    rw [LogM.writeLogLoop]
    simp only [wp_bind, wp_get, t.layout.1, wp_bread, wp_bwrite]
    rw [t1.view hmem]
    refine ⟨fun _ => ⟨t2.clean, rfl⟩, fun _ => ?_⟩
    have hk : ∀ x, Home start size x → x ≠ start + tail + 1 := by
      intro x hx e
      unfold Home at hx
      omega
    have t3 : TxInv start size h hc { (m.loaded (start + tail + 1)).loaded b with
        budget := m.budget - 1
        disk := update m.disk (start + tail + 1) (hc b)
        cache := update ((m.loaded (start + tail + 1)).loaded b).cache (start + tail + 1)
          (some (hc b)) } := by
      refine ⟨t2.layout, ⟨?_, by simp, by simp, by simp, ?_⟩, ?_, ?_, t2.rest, t2.home, t2.len⟩
      · dsimp only
        rw [update_of_ne (by omega)]
        exact t.clean.head
      · intro x hx _
        dsimp only
        rw [update_of_ne (hk x hx)]
        exact t.clean.rest x hx (by simp)
      · intro x d e
        dsimp only at e ⊢
        by_cases hx : x = start + tail + 1
        · subst hx
          rw [update_self, Option.some.injEq] at e
          exact .inl (by rw [update_self, e])
        · rw [update_of_ne hx] at e ⊢
          exact t2.cache x d e
      · intro x hx
        dsimp only
        rw [update_of_ne (hk x (t.home x hx).1)]
        exact t2.pinned x hx
    have hd3 : ∀ j x, j < tail + 1 → m.log.block[j]? = some x →
        update m.disk (start + tail + 1) (hc b) (start + j + 1) = hc x := by
      intro j x hj hx
      by_cases e : j = tail
      · subst e
        rw [hb, Option.some.injEq] at hx
        rw [update_self, hx]
      · rw [update_of_ne (by omega)]
        exact hdone j x (by omega) hx
    have hnext : ∀ j x, bs[j]? = some x → m.log.block[tail + 1 + j]? = some x := by
      intro j x hx
      rw [show tail + 1 + j = tail + (j + 1) from by omega]
      exact hbs (j + 1) x hx
    rw [List.length_cons, show tail + (bs.length + 1) = tail + 1 + bs.length from by omega]
    exact ih t3 hnext hd3

/-- The machine between transactions, with image `h` on disk. -/
structure Idle (start size : Nat) (h : Nat → Block) (m : Machine) : Prop where
  log : m.log = .initlog start size
  clean : Pend start size m.disk h []
  cache : ∀ b d, m.cache b = some d → d = m.disk b

/-- `commit` makes the current image durable. If the power fails on the way, the disk recovers to the
    old image or to the new one. -/
lemma wp_commit (hsize : 0 < size) (t : TxInv start size h hc m) :
    wp LogM.commit
      (fun _ m' => m'.log = { m.log with block := [] } ∧ m'.commits = m.commits ∧
        Pend start size m'.disk hc [] ∧ ∀ b d, m'.cache b = some d → d = m'.disk b)
      (fun _ m' => m'.commits = m.commits ∧
        ((∃ bs, Pend start size m'.disk h bs) ∨ ∃ bs, Pend start size m'.disk hc bs)) m := by
  unfold LogM.commit
  rw [wp_bind, wp_get]
  by_cases hn : 0 < m.log.n
  · rw [if_pos hn]
    unfold LogM.writeLog LogM.installTrans
    simp only [wp_bind, wp_get]
    apply wp_conseq (wp_writeLogLoop t (by simp) (by simp))
    · rintro _ m1 ⟨t1, hl1, hc1, hd1⟩
      rw [Nat.zero_add] at hd1
      -- the header is the commit point
      apply wp_conseq (wp_writeHead (g := hc) (l := m1.log.block) t1.layout.1 rfl t1.len.1
        (fun b hb => (t1.home b hb).2) ?_)
      · rintro _ m2 ⟨hl2, hc2, hp2, ho2, hs2, hd2⟩
        have i2 : Installing start size hc m1.log.block m2 := by
          refine ⟨by rw [hl2]; exact t1.layout, ?_, hp2⟩
          intro b d e
          by_cases hb : b = start
          · subst hb
            exact .inl (hs2 d e)
          · rw [hd2 b hb]
            obtain e | ⟨hm, e⟩ := t1.cache b d (ho2 b d e hb)
            · exact .inl e
            · exact .inr ⟨(t1.home b hm).1, e⟩
        rw [hl2]
        apply wp_conseq (wp_installLoop hsize i2 (by simp) (by simp))
        · rintro _ m3 ⟨i3, hl3, hc3, _, hd3⟩
          rw [Nat.zero_add, List.take_length] at hd3
          rw [← wp_bind]
          apply wp_conseq (wp_eraseHead hsize i3 hd3)
          · rintro _ m4 ⟨hl4, hc4, hp4, hd4⟩
            refine ⟨?_, ?_, hp4, hd4⟩
            · rw [hl4, hl3, hl2, hl1]
            · rw [hc4, hc3, hc2, hc1]
          · rintro _ m4 ⟨hp4, hc4, _⟩
            exact ⟨by rw [hc4, hc3, hc2, hc1], .inr ⟨_, hp4⟩⟩
        · rintro _ m3 ⟨i3, hc3, _⟩
          exact ⟨by rw [hc3, hc2, hc1], .inr ⟨_, i3.pend⟩⟩
      · rintro _ m2 ⟨hd2, hc2, _⟩
        exact ⟨by rw [hc2, hc1], .inl ⟨[], by rw [hd2]; exact t1.clean⟩⟩
      · intro buf hbuf
        have hlen := t1.len.2
        unfold Log.n at hlen
        refine ⟨by rwa [update_self], hlen, fun b hb => (t1.home b hb).1, ?_, ?_⟩
        · intro j b hb
          have hj : j < m1.log.block.length := (List.getElem?_eq_some_iff.1 hb).1
          rw [update_of_ne (by omega)]
          rw [hl1] at hb hj
          exact hd1 j b hj hb
        · intro b hb hn
          have hne : b ≠ start := by
            unfold Home at hb
            omega
          rw [update_of_ne hne, t1.rest b hn]
          exact t1.clean.rest b hb (by simp)
    · rintro _ m1 ⟨hp, hc1⟩
      exact ⟨hc1, .inl ⟨[], hp⟩⟩
  · rw [if_neg hn, wp_pure]
    -- an empty transaction changes nothing
    have hb : m.log.block = [] := List.length_eq_zero_iff.1 (by unfold Log.n at hn; omega)
    have hh : hc = h := by
      funext b
      exact t.rest b (by simp [hb])
    refine ⟨by rw [← hb], rfl, by rw [hh]; exact t.clean, ?_⟩
    intro b d e
    obtain e | ⟨hm, _⟩ := t.cache b d e
    · exact e
    · simp [hb] at hm

def applyTx (tx : List (Nat × Block)) (h : Nat → Block) : Nat → Block :=
  tx.foldl (fun h u => update h u.1 u.2) h

def applyTxs (txs : List (List (Nat × Block))) (h : Nat → Block) : Nat → Block :=
  txs.foldl (fun h tx => applyTx tx h) h

/-- A transaction only updates blocks outside the log area; block numbers are 32-bit. -/
def HomeTx (start size : Nat) (tx : List (Nat × Block)) : Prop :=
  ∀ u ∈ tx, Home start size u.1 ∧ u.1 < 2 ^ 32

lemma wp_updates {us} (t : TxInv start size h hc m) (hus : HomeTx start size us) :
    wp (LogM.updates us)
      (fun _ m' => TxInv start size h (applyTx us hc) m' ∧
        m'.log.outstanding = m.log.outstanding ∧ m'.log.committing = m.log.committing ∧
        m'.commits = m.commits)
      (fun _ m' => Pend start size m'.disk h [] ∧ m'.commits = m.commits) m := by
  induction us generalizing m hc with
  | nil =>
    rw [LogM.updates, wp_pure]
    exact ⟨t, rfl, rfl, rfl⟩
  | cons u us ih =>
    obtain ⟨b, d⟩ := u
    rw [LogM.updates, wp_bind]
    apply wp_conseq (wp_update t (hus _ (List.mem_cons_self ..)))
    · rintro _ m1 ⟨t1, ho, hcm, hcs⟩
      apply wp_conseq (ih t1 fun u hu => hus u (List.mem_cons_of_mem _ hu))
      · rintro _ m2 ⟨t2, ho2, hcm2, hcs2⟩
        exact ⟨t2, ho2.trans ho, hcm2.trans hcm, hcs2.trans hcs⟩
      · rintro _ m2 ⟨hp, hcs2⟩
        exact ⟨hp, hcs2.trans hcs⟩
    · rintro _ m1 ⟨hd, hcs⟩
      exact ⟨by rw [hd]; exact t.clean, hcs⟩

lemma Idle.begin (i : Idle start size h m) {o} :
    TxInv start size h h { m with log := { m.log with outstanding := o } } := by
  have hb : m.log.block = [] := by
    rw [i.log]
    rfl
  refine ⟨by rw [i.log]; exact ⟨rfl, rfl⟩, i.clean, ?_, ?_, fun _ _ => rfl, ?_, ?_⟩
  · intro b d e
    exact .inl (i.cache b d e)
  · simp [hb]
  · simp [hb]
  · simp [hb, Log.n]

/-- One transaction: it either completes and its image is on disk, or the disk recovers to the image
    before it or after it. -/
lemma wp_runTx {tx} (hsize : 0 < size) (i : Idle start size h m)
    (htx : HomeTx start size tx) :
    wp (LogM.runTx tx)
      (fun _ m' => Idle start size (applyTx tx h) m' ∧ m'.commits = m.commits + 1)
      (fun _ m' => m'.commits = m.commits ∧
        ((∃ bs, Pend start size m'.disk h bs) ∨ ∃ bs, Pend start size m'.disk (applyTx tx h) bs))
      m := by
  have ha : m.log.beginOp = some { m.log with outstanding := 1 } := by
    rw [Log.beginOp_eq_some, i.log]
    exact ⟨⟨rfl, by simp [Log.initlog, Log.n, MAXOPBLOCKS, LOGSIZE]⟩, rfl⟩
  unfold LogM.runTx LogM.beginOp
  simp only [wp_bind, wp_get, ha, wp_set]
  apply wp_conseq (wp_updates (i.begin (o := 1)) htx)
  · rintro _ m1 ⟨t1, ho, hcm, hcs⟩
    have hcm' : m1.log.committing = false := by
      rw [hcm, i.log]
      rfl
    have he : m1.log.endOp = .ok ({ m1.log with outstanding := 0, committing := true }, true) := by
      unfold Log.endOp
      simp [ho, hcm']
    unfold LogM.endOp
    simp only [wp_bind, wp_get, he, wp_set, if_true]
    have t2 : TxInv start size h (applyTx tx h)
        { m1 with log := { m1.log with outstanding := 0, committing := true } } :=
      ⟨t1.layout, t1.clean, t1.cache, t1.pinned, t1.rest, t1.home, t1.len⟩
    apply wp_conseq (wp_commit hsize t2)
    · rintro _ m3 ⟨hl3, hc3, hp3, hd3⟩
      rw [wp_modify]
      refine ⟨⟨?_, hp3, hd3⟩, ?_⟩
      · dsimp only
        rw [hl3]
        unfold Log.endCommit Log.initlog
        simp [t1.layout]
      · dsimp only
        rw [hc3]
        dsimp only
        rw [hcs]
    · rintro _ m3 ⟨hc3, hp⟩
      exact ⟨hc3.trans hcs, hp⟩
  · rintro _ m1 ⟨hp, hcs⟩
    exact ⟨hcs, .inl ⟨[], hp⟩⟩

/-- Many transactions: wherever the run stops, the disk recovers to the image of the transactions
    whose `commit` has returned, or of one more. -/
lemma wp_runTxs {txs} (hsize : 0 < size) (i : Idle start size h m)
    (htxs : ∀ tx ∈ txs, HomeTx start size tx) :
    wp (LogM.runTxs txs)
      (fun _ m' => Idle start size (applyTxs txs h) m' ∧ m'.commits = m.commits + txs.length)
      (fun _ m' => ∃ j, m'.commits ≤ m.commits + j ∧ m.commits + j ≤ m'.commits + 1 ∧
        j ≤ txs.length ∧ ∃ bs, Pend start size m'.disk (applyTxs (txs.take j) h) bs) m := by
  induction txs generalizing m h with
  | nil =>
    rw [LogM.runTxs, wp_pure]
    exact ⟨i, rfl⟩
  | cons tx txs ih =>
    rw [LogM.runTxs, wp_bind]
    apply wp_conseq (wp_runTx hsize i (htxs tx (List.mem_cons_self ..)))
    · rintro _ m1 ⟨i1, hc1⟩
      apply wp_conseq (ih i1 fun t ht => htxs t (List.mem_cons_of_mem _ ht))
      · rintro _ m2 ⟨i2, hc2⟩
        refine ⟨i2, ?_⟩
        rw [hc2, hc1, List.length_cons]
        omega
      · rintro _ m2 ⟨j, h1, h2, h3, bs, hp⟩
        refine ⟨j + 1, by omega, by omega, ?_, bs, hp⟩
        rw [List.length_cons]
        omega
    · rintro _ m1 ⟨hc1, hp | hp⟩
      · exact ⟨0, by omega, by omega, by omega, hp⟩
      · refine ⟨1, by omega, by omega, ?_, ?_⟩
        · rw [List.length_cons]
          omega
        · exact hp

end transaction

/-- A disk after any number of interrupted recoveries and one that ran to completion. -/
inductive Recovers (start size : Nat) : (Nat → Block) → (Nat → Block) → Prop where
  | done {d budget evict m} :
    LogM.recoverFromLog (powerUp start size budget evict d) = .ok ⟨⟩ m →
    Recovers start size d m.disk
  | crash {d d' budget evict e m} :
    LogM.recoverFromLog (powerUp start size budget evict d) = .error e m →
    Recovers start size m.disk d' →
    Recovers start size d d'

lemma Pend.recovers {start size d d' h bs} (hp : Pend start size d h bs) (hsize : 0 < size)
    (hr : Recovers start size d d') : Pend start size d' h [] := by
  induction hr with
  | done e => exact (wp_def.1 (wp_recoverFromLog hsize hp)).1 _ _ e
  | crash e _ ih => exact ih ((wp_def.1 (wp_recoverFromLog hsize hp)).2 _ _ e).1

def stopped {α : Type} : EStateM.Result Stop Machine α → Machine
  | .ok _ m => m
  | .error _ m => m

lemma Pend.exists_recovers {start size d h bs} (hp : Pend start size d h bs) (hsize : 0 < size) :
    ∃ d', Recovers start size d d' := by
  have hw := wp_def.1 (wp_recoverFromLog (k := bs.length + 1) (e := fun _ _ => false) hsize hp)
  cases e : LogM.recoverFromLog (powerUp start size (bs.length + 1) (fun _ _ => false) d) with
  | ok _ m => exact ⟨m.disk, .done e⟩
  | error x m =>
    have := (hw.2 x m e).2
    omega

lemma pend_stopped {start size txs} (hsize : 0 < size) (i : Idle start size m.disk m)
    (hcommits : m.commits = 0) (htxs : ∀ tx ∈ txs, HomeTx start size tx) :
    ∃ j, (stopped (LogM.runTxs txs m)).commits ≤ j ∧
      j ≤ (stopped (LogM.runTxs txs m)).commits + 1 ∧ j ≤ txs.length ∧
      ∃ bs, Pend start size (stopped (LogM.runTxs txs m)).disk
        (applyTxs (txs.take j) m.disk) bs := by
  have hw := wp_def.1 (wp_runTxs hsize i htxs)
  cases e : LogM.runTxs txs m with
  | ok a m' =>
    obtain ⟨i', hc⟩ := hw.1 a m' e
    rw [hcommits, Nat.zero_add] at hc
    refine ⟨txs.length, by simp [stopped, hc], by simp [stopped, hc], Nat.le_refl _, [], ?_⟩
    rw [List.take_length]
    exact i'.clean
  | error x m' =>
    obtain ⟨j, h1, h2, h3, hp⟩ := hw.2 x m' e
    rw [hcommits, Nat.zero_add] at h1 h2
    exact ⟨j, h1, h2, h3, hp⟩

/-- Crash atomicity of the log (C `commit`, `install_trans`, `write_log`, `recover_from_log`): start
    from a disk with an empty log, run any transactions until the power fails, the kernel panics or
    they are done, and recover, however often that is interrupted. The home blocks are then those of a
    prefix of the transactions, which has every transaction whose `commit` had returned and at most
    one more, and the log is empty again. -/
theorem crash_atomic {start size txs} {m : Machine} (hsize : 0 < size)
    (hlog : m.log = .initlog start size) (hhead : (m.disk start).headN = 0)
    (hcache : ∀ b x, m.cache b = some x → x = m.disk b) (hcommits : m.commits = 0)
    (htxs : ∀ tx ∈ txs, HomeTx start size tx) :
    (∃ d, Recovers start size (stopped (LogM.runTxs txs m)).disk d) ∧
    ∀ d, Recovers start size (stopped (LogM.runTxs txs m)).disk d →
      ∃ j, (stopped (LogM.runTxs txs m)).commits ≤ j ∧
        j ≤ (stopped (LogM.runTxs txs m)).commits + 1 ∧ j ≤ txs.length ∧
        (∀ b, Home start size b → d b = applyTxs (txs.take j) m.disk b) ∧
        (d start).headN = 0 := by
  have i : Idle start size m.disk m := by
    refine ⟨hlog, ⟨⟨by simpa using hhead, by simp⟩, by simp, by simp, by simp, ?_⟩, hcache⟩
    intro b _ _
    rfl
  obtain ⟨j, h1, h2, h3, bs, hp⟩ := pend_stopped hsize i hcommits htxs
  refine ⟨hp.exists_recovers hsize, fun d hrec => ?_⟩
  have hp' := hp.recovers hsize hrec
  refine ⟨j, h1, h2, h3, ?_, by simpa using hp'.head.1⟩
  intro b hb
  exact hp'.rest b hb (by simp)

/-- On a blank disk the power fails right after the header of the second of two transactions has been
    written. -/
theorem crash_atomic_blank :
    let m := powerUp 2 30 7 (fun _ _ => true) fun _ => .zero
    let txs := [[(40, Block.ofFn fun _ => 1)], [(40, Block.ofFn fun _ => 2), (41, .zero)]]
    (∃ d, Recovers 2 30 (stopped (LogM.runTxs txs m)).disk d) ∧
    ∀ d, Recovers 2 30 (stopped (LogM.runTxs txs m)).disk d →
      ∃ j, (stopped (LogM.runTxs txs m)).commits ≤ j ∧
        j ≤ (stopped (LogM.runTxs txs m)).commits + 1 ∧ j ≤ txs.length ∧
        (∀ b, Home 2 30 b → d b = applyTxs (txs.take j) m.disk b) ∧ (d 2).headN = 0 := by
  intro m txs
  refine crash_atomic (by decide) rfl ?_ (by nofun) rfl ?_
  · show Int.bmod (Block.zero.le 0 4) (2 ^ 32) = 0
    rw [Block.le_zero]
    rfl
  · simp only [txs, HomeTx, Home, List.forall_mem_cons]
    decide

end Xv6n
