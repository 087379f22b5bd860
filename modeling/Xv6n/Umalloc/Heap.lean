import Xv6n.Umalloc.Basic
import Xv6n.Lib.Circle

/-!
# The heap of the user-level allocator

`Tiles` is the geometry: the free blocks are in the order of their addresses with a gap between any two, and every
byte that came from `sbrk` belongs to one block, free or in use. `Rep` says that a list of free blocks is linked in
memory. `free` puts a block between its neighbours, joined to those that it borders on.
-/

namespace Xv6n.Umalloc

open Lib

def Block.stop (b : Block) : Nat := b.addr + HEADER * b.units

def covers (x : Nat) (b : Block) : Bool := b.addr ≤ x ∧ x < b.stop

lemma covers_iff {x : Nat} {b : Block} : covers x b = true ↔ b.addr ≤ x ∧ x < b.stop := decide_eq_true_iff

variable {im : Image} {m m' : Nat → UInt8} {N L R : List Block} {b c p : Block} {x a v brk : Nat}
  {pre post : List Block}

section Geometry

structure Pos (im : Image) (b : Block) : Prop where
  units_lt : b.units < 2 ^ 32
  units_pos : 0 < b.units
  base_le : im.base + HEADER ≤ b.addr

/-- The free blocks `N`, the static header first, and the blocks `L` in use make up the memory `R` from `sbrk`. -/
structure Tiles (im : Image) (N L R : List Block) (brk : Nat) : Prop where
  head : N.head? = some ⟨im.base, 0⟩
  sorted : N.IsChain fun b c => b.stop < c.addr
  free : ∀ b ∈ N, b = ⟨im.base, 0⟩ ∨ Pos im b
  used : ∀ b ∈ L, Pos im b
  tile : ∀ x, (N ++ L).countP (covers x) = R.countP (covers x)
  once : ∀ x, R.countP (covers x) ≤ 1
  below : ∀ r ∈ R, r.stop ≤ brk
  base_le : im.base + HEADER ≤ brk
  brk_lt : brk < 2 ^ 64

def Apart (b c : Block) : Prop :=
  b.stop ≤ c.addr ∧ b.addr + HEADER ≤ c.addr ∨ c.stop ≤ b.addr ∧ c.addr + HEADER ≤ b.addr

lemma Apart.symm (h : Apart b c) : Apart c b := Or.symm h

instance : Std.Symm Apart := ⟨fun _ _ => Apart.symm⟩

lemma Block.addr_le (b : Block) : b.addr ≤ b.stop := Nat.le_add_right ..

lemma Pos.lt_stop (h : Pos im b) : b.addr + HEADER ≤ b.stop :=
  Nat.add_le_add_left (Nat.le_mul_of_pos_right _ h.units_pos) _

lemma pairwise_of_count {G : List Block} (h : ∀ x, G.countP (covers x) ≤ 1) :
    G.Pairwise fun b c => ∀ x, ¬ (covers x b ∧ covers x c) := by
  induction G with
  | nil => exact .nil
  | cons b G ih =>
    refine List.pairwise_cons.2 ⟨fun c hc x hx => ?_, ih fun x => ?_⟩
    · have h1 := h x
      have h2 : 0 < G.countP (covers x) := List.countP_pos_iff.2 ⟨c, hc, hx.2⟩
      rw [List.countP_cons_of_pos hx.1] at h1
      omega
    · exact (List.sublist_cons_self b G).countP_le.trans (h x)

lemma Pos.apart (hb : Pos im b) (hc : Pos im c) (h : ∀ x, ¬ (covers x b ∧ covers x c)) : Apart b c := by
  have h1 := hb.lt_stop
  have h2 := hc.lt_stop
  have h3 := h b.addr
  have h4 := h c.addr
  simp only [covers_iff] at h3 h4
  simp only [Apart, HEADER] at *
  omega

lemma Pos.apart_base (hc : Pos im c) : Apart ⟨im.base, 0⟩ c := by
  have := hc.base_le
  refine .inl ⟨?_, hc.base_le⟩
  simp only [Block.stop]
  omega

lemma Tiles.sorted_pairwise (h : Tiles im N L R brk) : N.Pairwise fun b c => b.stop < c.addr := by
  have htrans : IsTrans Block fun b c => b.stop < c.addr :=
    ⟨fun b c d h1 h2 => h1.trans (c.addr_le.trans_lt h2)⟩
  exact h.sorted.pairwise

lemma Tiles.apart (h : Tiles im N L R brk) : (N ++ L).Pairwise Apart := by
  have hd := pairwise_of_count fun x => (h.tile x).trans_le (h.once x)
  obtain ⟨-, hL, hNL⟩ := List.pairwise_append.1 hd
  refine List.pairwise_append.2 ⟨h.sorted_pairwise.imp_of_mem fun {b c} hb hc hlt => ?_, ?_, fun b hb c hc => ?_⟩
  · rcases h.free b hb with rfl | hb
    · rcases h.free c hc with rfl | hc
      · exact absurd hlt (Nat.lt_irrefl _)
      · exact hc.apart_base
    · have := hb.lt_stop
      exact .inl ⟨hlt.le, by omega⟩
  · exact hL.imp_of_mem fun {b c} hb hc hx => (h.used b hb).apart (h.used c hc) hx
  · rcases h.free b hb with rfl | hb'
    · exact (h.used c hc).apart_base
    · exact hb'.apart (h.used c hc) (hNL b hb c hc)

end Geometry

section Memory

def Sep (a c : Nat) : Prop := c = a ∨ a + HEADER ≤ c ∨ c + HEADER ≤ a

lemma Apart.sep (h : Apart b c) : Sep b.addr c.addr := by
  rcases h with h | h
  · exact .inr (.inl h.2)
  · exact .inr (.inr h.2)

lemma ptr_setPtr_self : ptr (setPtr m a v) a = v % 2 ^ 64 := le_putLe

lemma ptr_setPtr {c : Nat} (hs : Sep a c) (hne : c ≠ a) : ptr (setPtr m a v) c = ptr m c :=
  le_putLe_of_disjoint (by simp only [Sep, HEADER] at hs; omega)

lemma size_setPtr {c : Nat} (hs : Sep a c) : size (setPtr m a v) c = size m c :=
  le_putLe_of_disjoint (by simp only [Sep, HEADER] at hs; omega)

lemma size_setSize_self : size (setSize m a v) a = v % 2 ^ 32 := le_putLe

lemma size_setSize {c : Nat} (hs : Sep a c) (hne : c ≠ a) : size (setSize m a v) c = size m c :=
  le_putLe_of_disjoint (by simp only [Sep, HEADER] at hs; omega)

lemma ptr_setSize {c : Nat} (hs : Sep a c) : ptr (setSize m a v) c = ptr m c :=
  le_putLe_of_disjoint (by simp only [Sep, HEADER] at hs; omega)

def SameBut (a : Nat) (m m' : Nat → UInt8) : Prop :=
  ∀ c, Sep a c → c ≠ a → ptr m' c = ptr m c ∧ size m' c = size m c

lemma sameBut_setPtr : SameBut a m (setPtr m a v) := fun _ hs hne => ⟨ptr_setPtr hs hne, size_setPtr hs⟩

lemma sameBut_setSize : SameBut a m (setSize m a v) := fun _ hs hne => ⟨ptr_setSize hs, size_setSize hs hne⟩

lemma SameBut.trans {m'' : Nat → UInt8} (h1 : SameBut a m m') (h2 : SameBut a m' m'') : SameBut a m m'' :=
  fun c hs hne => ⟨(h2 c hs hne).1.trans (h1 c hs hne).1, (h2 c hs hne).2.trans (h1 c hs hne).2⟩

/-- The blocks are linked in this order, the last one to the address `e`, and have these sizes. -/
structure Rep (m : Nat → UInt8) (N : List Block) (e : Nat) : Prop where
  links : Leads (ptr m) (N.map Block.addr ++ [e])
  sizes : ∀ b ∈ N, size m b.addr = b.units

/-- The first address of a list of blocks that ends at `e`. -/
def first (N : List Block) (e : Nat) : Nat := (N.head?.map Block.addr).getD e

variable {e : Nat} {N₁ N₂ : List Block}

lemma rep_nil : Rep m [] e := ⟨List.IsChain.singleton e, nofun⟩

lemma rep_cons : Rep m (b :: N) e ↔ ptr m b.addr = first N e ∧ size m b.addr = b.units ∧ Rep m N e := by
  have hfirst : ∀ y ∈ (N.map Block.addr ++ [e]).head?, y = first N e := by
    cases N <;> simp [first]
  have hne : first N e ∈ (N.map Block.addr ++ [e]).head? := by
    cases N <;> simp [first]
  constructor
  · rintro ⟨hl, hs⟩
    obtain ⟨h1, h2⟩ := List.isChain_cons.1 hl
    exact ⟨h1 _ hne, hs b List.mem_cons_self, h2, fun c hc => hs c (List.mem_cons_of_mem _ hc)⟩
  · rintro ⟨hp, hs, hl, hss⟩
    refine ⟨List.isChain_cons.2 ⟨fun y hy => hp.trans (hfirst y hy).symm, hl⟩, fun c hc => ?_⟩
    rcases List.mem_cons.1 hc with rfl | hc
    · exact hs
    · exact hss c hc

lemma rep_append : Rep m (N₁ ++ N₂) e ↔ Rep m N₁ (first N₂ e) ∧ Rep m N₂ e := by
  induction N₁ with
  | nil => exact ⟨fun h => ⟨rep_nil, h⟩, fun h => h.2⟩
  | cons b N₁ ih =>
    have hf : first (N₁ ++ N₂) e = first N₁ (first N₂ e) := by
      cases N₁ <;> simp [first]
    rw [List.cons_append, rep_cons, rep_cons, ih, hf]
    exact ⟨fun ⟨h1, h2, h3, h4⟩ => ⟨⟨h1, h2, h3⟩, h4⟩, fun ⟨⟨h1, h2, h3⟩, h4⟩ => ⟨h1, h2, h3, h4⟩⟩

lemma Rep.congr (h : Rep m N e) (hm : SameBut a m m') (hs : ∀ b ∈ N, Sep a b.addr ∧ b.addr ≠ a) : Rep m' N e := by
  induction N with
  | nil => exact rep_nil
  | cons b N ih =>
    obtain ⟨hp, hz, hr⟩ := rep_cons.1 h
    obtain ⟨h1, h2⟩ := hs b List.mem_cons_self
    obtain ⟨e1, e2⟩ := hm b.addr h1 h2
    exact rep_cons.2 ⟨e1.trans hp, e2.trans hz, ih hr fun c hc => hs c (List.mem_cons_of_mem _ hc)⟩

/-- A block before others, joined to the first one if it borders on it. -/
def joinFirst (b : Block) : List Block → List Block
  | [] => [b]
  | c :: N => if b.stop = c.addr then ⟨b.addr, b.units + c.units⟩ :: N else b :: c :: N

lemma first_joinFirst (b : Block) (N : List Block) (e : Nat) : first (joinFirst b N) e = b.addr := by
  cases N with
  | nil => rfl
  | cons c N =>
    rw [joinFirst]
    split <;> rfl

lemma joinFirst_of_ne (h : ∀ c ∈ N.head?, b.stop ≠ c.addr) : joinFirst b N = b :: N := by
  cases N with
  | nil => rfl
  | cons c N => exact if_neg (h c rfl)

lemma head_joinFirst : ∃ c, (joinFirst b N).head? = some c ∧ c.addr = b.addr := by
  cases N with
  | nil => exact ⟨b, rfl, rfl⟩
  | cons c N =>
    rw [joinFirst]
    split <;> exact ⟨_, rfl, rfl⟩

lemma ptr_lt (m : Nat → UInt8) (a : Nat) : ptr m a < 2 ^ 64 := le_lt

lemma Rep.join (hN : Rep m N e) (hb : size m b.addr = b.units)
    (hsep : ∀ c ∈ N, Sep b.addr c.addr ∧ c.addr ≠ b.addr) (he : first N e < 2 ^ 64)
    (hfit : ∀ c ∈ N.head?, b.stop = c.addr → b.units + c.units < 2 ^ 32) (hstop : N = [] → b.stop ≠ e) :
    Rep (join m b.addr (first N e)) (joinFirst b N) e ∧ SameBut b.addr m (join m b.addr (first N e)) := by
  have hstop' : b.addr + HEADER * size m b.addr = b.stop := by rw [hb]; rfl
  rw [Umalloc.join, hstop']
  by_cases hj : b.stop = first N e
  · rw [if_pos hj]
    cases N with
    | nil => exact absurd hj (hstop rfl)
    | cons c N =>
      obtain ⟨hp, hz, hr⟩ := rep_cons.1 hN
      obtain ⟨hs, hne⟩ := hsep c List.mem_cons_self
      have hu := hfit c rfl hj
      replace hj : b.stop = c.addr := hj
      rw [show first (c :: N) e = c.addr from rfl, hb, hz]
      have hm := (sameBut_setSize (m := m) (a := b.addr) (v := b.units + c.units)).trans
        (sameBut_setPtr (v := ptr (setSize m b.addr (b.units + c.units)) c.addr))
      refine ⟨?_, hm⟩
      rw [joinFirst, if_pos hj, rep_cons]
      refine ⟨?_, ?_, hr.congr hm fun d hd => hsep d (List.mem_cons_of_mem _ hd)⟩
      · rw [ptr_setPtr_self, Nat.mod_eq_of_lt (ptr_lt ..), ptr_setSize hs, hp]
      · rw [size_setPtr (.inl rfl), size_setSize_self, Nat.mod_eq_of_lt hu]
  · rw [if_neg hj]
    refine ⟨?_, sameBut_setPtr⟩
    have hl : joinFirst b N = b :: N := by
      refine joinFirst_of_ne fun c hc => ?_
      cases N <;> cases hc
      exact hj
    rw [hl, rep_cons]
    refine ⟨ptr_setPtr_self.trans (Nat.mod_eq_of_lt he), (size_setPtr (.inl rfl)).trans hb, hN.congr sameBut_setPtr hsep⟩

end Memory

section Insert

lemma countP_joinFirst (x : Nat) (b : Block) (N : List Block) :
    (joinFirst b N).countP (covers x) = (b :: N).countP (covers x) := by
  cases N with
  | nil => rfl
  | cons c N =>
    rw [joinFirst]
    split
    · next hj =>
      have hs : Block.stop ⟨b.addr, b.units + c.units⟩ = c.stop := by
        simp only [Block.stop, HEADER] at hj ⊢
        omega
      have hb := b.addr_le
      have hc := c.addr_le
      simp only [List.countP_cons, covers_iff, hs, hj] at *
      split_ifs <;> omega
    · rfl

lemma isChain_joinFirst (hN : N.IsChain fun b c => b.stop < c.addr) (hb : ∀ c ∈ N.head?, b.stop ≤ c.addr) :
    (joinFirst b N).IsChain fun b c => b.stop < c.addr := by
  cases N with
  | nil => exact List.IsChain.singleton b
  | cons c N =>
    have hle := hb c rfl
    rw [joinFirst]
    split
    · next hj =>
      obtain ⟨h1, h2⟩ := List.isChain_cons.1 hN
      refine List.isChain_cons.2 ⟨fun d hd => ?_, h2⟩
      have := h1 d hd
      simp only [Block.stop, HEADER] at this hj ⊢
      omega
    · exact List.isChain_cons_cons.2 ⟨by omega, hN⟩

lemma pos_joinFirst (hb : Pos im b) (hN : ∀ c ∈ N, Pos im c)
    (hfit : ∀ c ∈ N.head?, b.stop = c.addr → b.units + c.units < 2 ^ 32) : ∀ c ∈ joinFirst b N, Pos im c := by
  cases N with
  | nil => simpa [joinFirst] using hb
  | cons c N =>
    rw [joinFirst]
    split
    · next hj =>
      refine List.forall_mem_cons.2 ⟨⟨hfit c rfl hj, ?_, hb.base_le⟩, fun d hd => hN d (List.mem_cons_of_mem _ hd)⟩
      exact Nat.add_pos_left hb.units_pos _
    · exact List.forall_mem_cons.2 ⟨hb, hN⟩

/-- Where a block belongs among the free ones. -/
structure Place (N : List Block) (b : Block) (pre : List Block) (p : Block) (post : List Block) : Prop where
  split : N = pre ++ p :: post
  lt : p.stop ≤ b.addr ∧ p.addr < b.addr
  gt : ∀ c ∈ post, b.stop ≤ c.addr ∧ b.addr < c.addr

lemma exists_place (hs : N.Pairwise fun b c => b.stop < c.addr) (ha : ∀ c ∈ N, Apart c b)
    (hh : ∃ c ∈ N.head?, c.addr < b.addr) : ∃ pre p post, Place N b pre p post := by
  induction N with
  | nil => simp at hh
  | cons c N ih =>
    obtain ⟨_, ⟨⟩, hc⟩ := hh
    obtain ⟨h1, h2⟩ := List.pairwise_cons.1 hs
    have hcb : c.stop ≤ b.addr := by
      rcases ha c List.mem_cons_self with h | h
      · exact h.1
      · exact absurd (h.2.trans_lt hc) (by omega)
    by_cases hN : ∃ d ∈ N.head?, d.addr < b.addr
    · obtain ⟨pre, p, post, hp⟩ := ih h2 (fun d hd => ha d (List.mem_cons_of_mem _ hd)) hN
      exact ⟨c :: pre, p, post, by rw [hp.split]; rfl, hp.lt, hp.gt⟩
    · refine ⟨[], c, N, rfl, ⟨hcb, hc⟩, fun d hd => ?_⟩
      -- the first block that is not below `b` is above it, and so are all behind that one
      have hd' : ¬ d.addr < b.addr := by
        intro hlt
        cases N with
        | nil => cases hd
        | cons d' N =>
          refine hN ⟨d', rfl, ?_⟩
          rcases List.mem_cons.1 hd with rfl | hd
          · exact hlt
          · have := (List.pairwise_cons.1 h2).1 d hd
            have := d'.addr_le
            omega
      rcases ha d (List.mem_cons_of_mem _ hd) with h | h
      · exact absurd (h.2.trans' (Nat.lt_add_of_pos_right (by decide))) hd'
      · exact ⟨h.1, h.2.trans' (Nat.lt_add_of_pos_right (by decide))⟩

lemma Tiles.place (h : Tiles im N (b :: L) R brk) : ∃ pre p post, Place N b pre p post := by
  obtain ⟨-, -, hNL⟩ := List.pairwise_append.1 h.apart
  refine exists_place h.sorted_pairwise (fun c hc => hNL c hc b List.mem_cons_self) ⟨_, h.head, ?_⟩
  exact (Nat.lt_add_of_pos_right (by decide)).trans_le (h.used b List.mem_cons_self).base_le

/-- The block and the free blocks that it borders on are small enough to be joined. -/
def Fits (N : List Block) (b : Block) : Prop :=
  ∀ u v, (u = 0 ∨ ∃ p ∈ N, p.stop = b.addr ∧ u = p.units) → (v = 0 ∨ ∃ c ∈ N, b.stop = c.addr ∧ v = c.units) →
    u + b.units + v < 2 ^ 32

def insert (b : Block) (pre : List Block) (p : Block) (post : List Block) : List Block :=
  pre ++ joinFirst p (joinFirst b post)

lemma Place.fits_next (hp : Place N b pre p post) (hf : Fits N b) :
    ∀ c ∈ post.head?, b.stop = c.addr → b.units + c.units < 2 ^ 32 := by
  intro c hc hj
  have hmem : c ∈ N := by
    rw [hp.split]
    exact List.mem_append_right _ (.tail _ (List.mem_of_mem_head? hc))
  have := hf 0 c.units (.inl rfl) (.inr ⟨c, hmem, hj, rfl⟩)
  omega

lemma Place.fits_prev (hp : Place N b pre p post) (hf : Fits N b) :
    ∀ c ∈ (joinFirst b post).head?, p.stop = c.addr → p.units + c.units < 2 ^ 32 := by
  intro c hc hj
  have hpN : p ∈ N := by
    rw [hp.split]
    exact List.mem_append_right _ List.mem_cons_self
  cases post with
  | nil =>
    cases hc
    have := hf p.units 0 (.inr ⟨p, hpN, hj, rfl⟩) (.inl rfl)
    omega
  | cons d post =>
    rw [joinFirst] at hc
    have hd : d ∈ N := by
      rw [hp.split]
      exact List.mem_append_right _ (.tail _ List.mem_cons_self)
    split at hc
    · next hbd =>
      cases hc
      have := hf p.units d.units (.inr ⟨p, hpN, hj, rfl⟩) (.inr ⟨d, hd, hbd, rfl⟩)
      simp only
      omega
    · cases hc
      have := hf p.units 0 (.inr ⟨p, hpN, hj, rfl⟩) (.inl rfl)
      omega

lemma Pos.joinFirst_base (hb : Pos im b) :
    joinFirst ⟨im.base, 0⟩ (joinFirst b N) = ⟨im.base, 0⟩ :: joinFirst b N := by
  refine joinFirst_of_ne fun c hc => ?_
  obtain ⟨d, hd, ha⟩ := head_joinFirst (b := b) (N := N)
  obtain rfl : d = c := Option.some.inj (hd.symm.trans hc)
  have := hb.base_le
  simp only [Block.stop, HEADER, ha] at *
  omega

lemma Tiles.free_insert (h : Tiles im N (b :: L) R brk) (hp : Place N b pre p post)
    (hf : Fits N b) : ∀ c ∈ insert b pre p post, c = ⟨im.base, 0⟩ ∨ Pos im c := by
  have hb := h.used b List.mem_cons_self
  have hN := h.free
  rw [hp.split] at hN
  have hsorted := h.sorted_pairwise
  rw [hp.split] at hsorted
  have hpost : ∀ c ∈ post, Pos im c := by
    intro c hc
    rcases hN c (List.mem_append_right _ (.tail _ hc)) with rfl | hc'
    · have := (hp.gt _ hc).2
      have := hb.base_le
      simp only [HEADER] at *
      omega
    · exact hc'
  have hrest := pos_joinFirst hb hpost (hp.fits_next hf)
  intro c hc
  rcases List.mem_append.1 hc with hc | hc
  · exact hN c (List.mem_append_left _ hc)
  · rcases hN p (List.mem_append_right _ List.mem_cons_self) with rfl | hp'
    · rw [hb.joinFirst_base] at hc
      rcases List.mem_cons.1 hc with rfl | hc
      · exact .inl rfl
      · exact .inr (hrest c hc)
    · exact .inr (pos_joinFirst hp' hrest (hp.fits_prev hf) c hc)

lemma Tiles.insert (h : Tiles im N (b :: L) R brk) (hp : Place N b pre p post)
    (hf : Fits N b) : Tiles im (insert b pre p post) L R brk := by
  have hhead := h.head
  have hsorted := h.sorted
  rw [hp.split] at hhead hsorted
  obtain ⟨hpre, hpp, hlast⟩ := List.isChain_append.1 hsorted
  obtain ⟨c, hc, hca⟩ := head_joinFirst (b := p) (N := joinFirst b post)
  refine ⟨?_, ?_, h.free_insert hp hf, fun c hc => h.used c (List.mem_cons_of_mem _ hc), fun x => ?_, h.once, h.below,
    h.base_le, h.brk_lt⟩
  · cases pre with
    | nil =>
      obtain rfl : p = ⟨im.base, 0⟩ := by simpa using hhead
      rw [Umalloc.insert, List.nil_append, (h.used b List.mem_cons_self).joinFirst_base]
      rfl
    | cons d pre => exact hhead
  · refine List.isChain_append.2 ⟨hpre, ?_, fun d hd e he => ?_⟩
    · refine isChain_joinFirst (isChain_joinFirst (List.isChain_cons.1 hpp).2 fun c hc => ?_) fun c hc => ?_
      · exact (hp.gt c (List.mem_of_mem_head? hc)).1
      · obtain ⟨d, hd, hda⟩ := head_joinFirst (b := b) (N := post)
        obtain rfl : d = c := Option.some.inj (hd.symm.trans hc)
        rw [hda]
        exact hp.lt.1
    · obtain rfl : c = e := Option.some.inj (hc.symm.trans he)
      rw [hca]
      exact hlast d hd p rfl
  · rw [← h.tile x, hp.split, Umalloc.insert]
    simp only [List.countP_append, countP_joinFirst, List.countP_cons]
    omega

end Insert

/-- The whole heap: the free list in memory, and the sizes of the blocks in use. -/
structure Heap (im : Image) (m : Nat → UInt8) (freep : Nat) (N L R : List Block) (brk : Nat) : Prop
    extends Tiles im N L R brk where
  rep : Rep m N im.base
  sizes : ∀ b ∈ L, size m b.addr = b.units
  start : freep ∈ N.map Block.addr

section Free

variable {freep : Nat}

lemma Tiles.map_head (h : Tiles im N L R brk) : (N.map Block.addr).head? = some im.base := by
  rw [List.head?_map, h.head]
  rfl

lemma Heap.circle (h : Heap im m freep N L R brk) :
    ∃ l₁ l₂, N.map Block.addr = l₁ ++ freep :: l₂ ∧ Leads (ptr m) (freep :: l₂ ++ (l₁ ++ [freep])) := by
  obtain ⟨l₁, l₂, hN⟩ := List.append_of_mem h.start
  refine ⟨l₁, l₂, hN, ?_⟩
  have hl := h.rep.links
  have hhead := h.map_head
  rw [hN] at hl hhead
  cases l₁ with
  | nil =>
    obtain rfl := Option.some.inj hhead
    exact hl
  | cons a l₁ =>
    obtain rfl := Option.some.inj hhead
    rw [List.append_assoc, List.cons_append] at hl
    exact leads_rotate hl

lemma Heap.between (h : Heap im m freep N L R brk) (hN : N = pre ++ p :: post) {bp : Nat} (hb : im.base < bp) :
    between m bp p.addr = true ↔ p.addr < bp ∧ ∀ c ∈ post.head?, bp < c.addr := by
  have hrep := h.rep
  have hsorted := h.sorted
  rw [hN] at hrep hsorted
  have hptr := (rep_cons.1 (rep_append.1 hrep).2).1
  have hbase : im.base ≤ p.addr := by
    rcases h.free p (hN ▸ List.mem_append_right _ List.mem_cons_self) with rfl | hp
    · exact Nat.le_refl _
    · exact Nat.le_of_add_right_le hp.base_le
  rw [Umalloc.between, decide_eq_true_iff, hptr]
  cases post with
  | nil => simp [first]; omega
  | cons c post =>
    have hlt := (List.isChain_cons_cons.1 (List.isChain_append.1 hsorted).2.1).1
    have := p.addr_le
    simp [first]
    omega

lemma freeLoop_spec {bp x q : Nat} {r : List Nat} (hl : Leads (ptr m) (x :: r)) (hq : q ∈ x :: r)
    (hb : Umalloc.between m bp q = true) (hu : ∀ y ∈ x :: r, Umalloc.between m bp y = true → y = q) {fuel : Nat}
    (hf : (x :: r).length ≤ fuel) : freeLoop m bp fuel x = some q := by
  induction r generalizing x fuel with
  | nil =>
    obtain rfl := List.mem_singleton.1 hq
    obtain ⟨fuel, rfl⟩ := Nat.exists_eq_add_one.2 hf
    rw [freeLoop, if_pos hb]
  | cons y r ih =>
    obtain ⟨fuel, rfl⟩ := Nat.exists_eq_add_one.2 (Nat.zero_lt_of_lt hf)
    rw [freeLoop]
    split
    · next hx => rw [hu x List.mem_cons_self hx]
    · next hx =>
      obtain ⟨hxy, hl⟩ := List.isChain_cons_cons.1 hl
      rw [hxy]
      refine ih hl ?_ (fun z hz => hu z (List.mem_cons_of_mem _ hz)) (by simpa using hf)
      rcases List.mem_cons.1 hq with rfl | hq
      · exact absurd hb hx
      · exact hq

lemma Heap.freeLoop_eq (h : Heap im m freep N (b :: L) R brk) (hp : Place N b pre p post) {fuel : Nat}
    (hfuel : N.length ≤ fuel) : freeLoop m b.addr fuel freep = some p.addr := by
  have hb : im.base < b.addr :=
    (Nat.lt_add_of_pos_right (by decide)).trans_le (h.used b List.mem_cons_self).base_le
  obtain ⟨l₁, l₂, hl₁, hl⟩ := h.circle
  rw [← List.append_assoc] at hl
  have hperm : (freep :: (l₂ ++ l₁)).Perm (N.map Block.addr) := by
    rw [hl₁]
    exact @List.perm_append_comm _ (freep :: l₂) _
  have hlen : (freep :: (l₂ ++ l₁)).length = N.length := by rw [hperm.length_eq, List.length_map]
  refine freeLoop_spec (List.isChain_append.1 hl).1 (hperm.mem_iff.2 ?_) ?_ (fun y hy hbt => ?_) (hlen ▸ hfuel)
  · rw [hp.split]
    simp
  · refine (h.between hp.split hb).2 ⟨hp.lt.2, fun c hc => (hp.gt c (List.mem_of_mem_head? hc)).2⟩
  · -- a node before `p` has a successor below the block, one behind `p` is itself above it
    obtain ⟨c, hc, rfl⟩ := List.mem_map.1 (hperm.mem_iff.1 hy)
    obtain ⟨l₁, l₂, hN⟩ := List.append_of_mem hc
    obtain ⟨hlt, hnext⟩ := (h.between hN hb).1 hbt
    have hsorted := h.sorted_pairwise
    rw [hN] at hsorted
    rw [hp.split] at hN
    rcases List.append_eq_append_iff.1 hN with ⟨a, -, ha⟩ | ⟨a, -, ha⟩
    · cases a with
      | nil => rw [(List.cons.inj ha).1]
      | cons d a =>
        have hc : c ∈ post := by
          rw [(List.cons.inj ha).2]
          exact List.mem_append_right _ List.mem_cons_self
        exact absurd hlt (hp.gt c hc).2.not_gt
    · cases a with
      | nil => rw [(List.cons.inj ha).1]
      | cons d a =>
        obtain ⟨rfl, rfl⟩ := List.cons.inj ha
        have hmono := (List.pairwise_append.1 hsorted).2.1
        exfalso
        cases a with
        | nil => exact absurd (hnext p rfl) hp.lt.2.not_gt
        | cons d a =>
          have h1 := hnext d rfl
          have h2 := (List.pairwise_cons.1 (List.pairwise_cons.1 hmono).2).1 p
            (List.mem_append_right _ List.mem_cons_self)
          have h3 := d.addr_le
          have h4 := hp.lt.2
          omega

lemma mem_joinFirst (h : c ∈ joinFirst b N) : c.addr = b.addr ∨ c ∈ N := by
  cases N with
  | nil =>
    obtain rfl := List.mem_singleton.1 h
    exact .inl rfl
  | cons d N =>
    rw [joinFirst] at h
    split at h
    · rcases List.mem_cons.1 h with rfl | h
      · exact .inl rfl
      · exact .inr (List.mem_cons_of_mem _ h)
    · rcases List.mem_cons.1 h with rfl | h
      · exact .inl rfl
      · exact .inr h

lemma Tiles.stop_le (h : Tiles im N L R brk) (hb : b ∈ N ++ L) (hpos : Pos im b) : b.stop ≤ brk := by
  have hlt := hpos.lt_stop
  have hx : covers (b.stop - 1) b = true := covers_iff.2 (by simp only [HEADER] at hlt; omega)
  have hcount : 0 < R.countP (covers (b.stop - 1)) := by
    rw [← h.tile]
    exact List.countP_pos_iff.2 ⟨b, hb, hx⟩
  obtain ⟨r, hr, hxr⟩ := List.countP_pos_iff.1 hcount
  have := (covers_iff.1 hxr).2
  have := h.below r hr
  omega

lemma Apart.off (h : Apart b c) : Sep b.addr c.addr ∧ c.addr ≠ b.addr := by
  refine ⟨h.sep, fun e => ?_⟩
  simp only [Apart, HEADER] at h
  omega

lemma Heap.around (h : Heap im m freep N (b :: L) R brk) (hp : Place N b pre p post) :
    Apart p b ∧ ∀ c, c ∈ pre ∨ c ∈ post ∨ c ∈ L → Apart p c ∧ Apart b c := by
  have hperm : (N ++ b :: L).Perm (p :: b :: (pre ++ (post ++ L))) := by
    rw [hp.split, List.append_assoc, List.cons_append]
    refine List.perm_middle.trans (.cons p ?_)
    rw [← List.append_assoc, ← List.append_assoc]
    exact List.perm_middle
  have hpw := (hperm.pairwise_iff fun hbc => Apart.symm hbc).1 h.apart
  obtain ⟨h1, h2⟩ := List.pairwise_cons.1 hpw
  refine ⟨h1 b List.mem_cons_self, fun c hc => ?_⟩
  have hc' : c ∈ pre ++ (post ++ L) := by simpa using hc
  exact ⟨h1 c (List.mem_cons_of_mem _ hc'), (List.pairwise_cons.1 h2).1 c hc'⟩

/-- What `free` does with a block: the block is free and joined to its neighbours. -/
lemma Heap.join (h : Heap im m freep N (b :: L) R brk) (hp : Place N b pre p post) (hf : Fits N b) :
    Heap im (join (join m b.addr (ptr m p.addr)) p.addr b.addr) p.addr (Umalloc.insert b pre p post) L R brk := by
  have hb := h.used b List.mem_cons_self
  obtain ⟨hpb, haway⟩ := h.around hp
  have hrep := h.rep
  rw [hp.split] at hrep
  obtain ⟨hpre, hrep⟩ := rep_append.1 hrep
  obtain ⟨hptr, hpz, hpost⟩ := rep_cons.1 hrep
  have hblt : b.addr < 2 ^ 64 := by
    have := h.stop_le (List.mem_append_right _ List.mem_cons_self) hb
    exact (hb.lt_stop.trans this).trans_lt' (Nat.lt_add_of_pos_right (by decide)) |>.trans h.brk_lt
  rw [hptr]
  obtain ⟨hrep1, hm1⟩ := hpost.join (h.sizes b List.mem_cons_self) (fun c hc => (haway c (.inr (.inl hc))).2.off)
    (hptr ▸ ptr_lt ..) (hp.fits_next hf) fun _ => by
      have := hb.base_le
      have := b.addr_le
      simp only [HEADER] at *
      omega
  generalize Umalloc.join m b.addr (first post im.base) = m1 at hrep1 hm1 ⊢
  have hpz1 : size m1 p.addr = p.units := (hm1 p.addr hpb.symm.off.1 hpb.symm.off.2).2.trans hpz
  have hjoin := hrep1.join hpz1 (fun c hc => ?_) (by rwa [first_joinFirst]) (hp.fits_prev hf) fun hnil => ?_
  · rw [first_joinFirst] at hjoin
    obtain ⟨hrep2, hm2⟩ := hjoin
    generalize Umalloc.join m1 p.addr b.addr = m2 at hrep2 hm2 ⊢
    refine ⟨h.insert hp hf, ?_, fun c hc => ?_, ?_⟩
    · refine rep_append.2 ⟨?_, hrep2⟩
      rw [first_joinFirst]
      refine (hpre.congr hm1 fun c hc => ?_).congr hm2 fun c hc => ?_
      · exact (haway c (.inl hc)).2.off
      · exact (haway c (.inl hc)).1.off
    · obtain ⟨h1, h2⟩ := haway c (.inr (.inr hc))
      rw [(hm2 c.addr h1.off.1 h1.off.2).2, (hm1 c.addr h2.off.1 h2.off.2).2]
      exact h.sizes c (List.mem_cons_of_mem _ hc)
    · obtain ⟨c, hc, ha⟩ := head_joinFirst (b := p) (N := joinFirst b post)
      exact List.mem_map.2 ⟨c, List.mem_append_right _ (List.mem_of_mem_head? hc), ha⟩
  · rcases mem_joinFirst hc with ha | hc
    · rw [ha]
      exact hpb.off
    · exact (haway c (.inr (.inl hc))).1.off
  · obtain ⟨c, hc, -⟩ := head_joinFirst (b := b) (N := post)
    rw [hnil] at hc
    cases hc

end Free

end Xv6n.Umalloc
