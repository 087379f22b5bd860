import Xv6n.Fs.Uses

/-!
# Reading outside of a transaction

`fileread` calls `readi`, and with it `bmap`, without a transaction. That is right as long as `bmap` has
nothing to allocate: the blocks below the size of the file are there.
-/

namespace Xv6n.Fs
open Lib Function
variable [Superblock] {i : Pid} {s0 s : State} {h : Held} {v : Nat → Block} {d : Dinode} {ip : Slot}
  {b bn : Nat}

omit [Superblock] in
lemma wp_look {α : Type} {e : Act α} {g : State → α} {Q : α → State → Prop} {E : Stop → State → Prop}
    (he : e.run i = get >>= fun s => pure (g s)) :
    wp ((perform e).run (Act.run i)) Q E s ↔ Q (g s) s := by
  unfold perform
  rw [Prog.run_perform, he, wp_bind, wp_get, wp_pure]

/-- The contents of an inode: the copy in memory, or the inode on disk if there is none. -/
def State.dinode (s : State) (ip : Slot) : Dinode :=
  if (s.inode ip).valid then (s.inode ip).d
  else Dinode.load (s.view (iblock (s.inode ip).inum)) (ioff (s.inode ip).inum)

/-- The address of block `bn` of an inode, 0 if it has none; `v` are the contents of the disk. -/
def Dinode.block (d : Dinode) (v : Nat → Block) (bn : Nat) : Nat :=
  if bn < NDIRECT then d.addr bn
  else if bn - NDIRECT < NINDIRECT then
    if d.addr NDIRECT = 0 then 0 else (v (d.addr NDIRECT)).le (4 * (bn - NDIRECT)) 4
  else 0

def Dinode.Whole (d : Dinode) (v : Nat → Block) : Prop :=
  ∀ bn, bn * BSIZE < d.size.toNat → d.block v bn ≠ 0

def State.Whole (s : State) : Prop := ∀ ip, 0 < (s.inode ip).ref → (s.dinode ip).Whole s.view

/-- Process `i` reads: it holds `h`, and neither the disk nor the inode changes. -/
structure Reading (i : Pid) (s0 : State) (v : Nat → Block) (ip : Slot) (d : Dinode) (h : Held) (s : State) :
    Prop where
  account : Account i s0 h s
  view : s.view = v
  inode : (s.inode ip).d = d

/-- Run by a process that reads, `p` returns with `Q` and changes neither the disk nor the inode. -/
abbrev Reads {α : Type} (i : Pid) (s0 : State) (v : Nat → Block) (ip : Slot) (d : Dinode) (p : FsM α) (h : Held)
    (Q : α → Held → Prop) : Prop :=
  Tracks (Act.run i) (Reading i s0 v ip d) (fun _ => True) p h Q

section rules
variable {α β : Type} {p : FsM α} {Q : α → Held → Prop}

omit [Superblock] in
lemma reads_panic {e : Panic} : Reads i s0 v ip d (panic e : FsM α) h Q := by
  intro s _
  show wp (Act.run i (.panic e) >>= _) _ _ _
  rw [wp_bind]
  exact wp_throw.2 trivial

omit [Superblock] in
lemma reads_panicIf {c : Prop} [Decidable c] {e : Panic} : Reads i s0 v ip d (panicIf c e) h fun _ h' => h' = h :=
  .ite (fun _ => reads_panic) fun _ => .ret rfl

omit [Superblock] in
lemma reads_perform {e : Act α} {R : α → Prop} (hu : Uses i s0 (perform e) h Q)
    (he : ∀ s, s.view = v → (s.inode ip).d = d →
      wp (e.run i) (fun a s' => R a ∧ s'.view = v ∧ (s'.inode ip).d = d) (fun _ _ => True) s) :
    Reads i s0 v ip d (perform e) h fun a h' => R a ∧ Q a h' := by
  intro s hs
  have h1 := hu s hs.account
  have h2 := he s hs.view hs.inode
  unfold perform at h1 ⊢
  rw [Prog.run_perform] at h1 ⊢
  apply wp_mono (wp_conseq (wp_and h1 h2) (fun _ _ => id) fun _ _ _ => trivial)
  rintro a s' ⟨⟨h', hq, hs'⟩, hr, hv, hd⟩
  exact ⟨h', ⟨hr, hq⟩, hs', hv, hd⟩

end rules

section
omit [Superblock]

lemma view_setCache_self : (s.setCache b (some (s.view b))).view = s.view := by
  funext c
  by_cases hc : c = b
  · subst hc
    simp [State.view, State.setCache]
  · simp [State.view, State.setCache, hc]

lemma reads_bread : Reads i s0 v ip d (bread b) h fun a h' =>
    a = v b ∧ h.bufs b = false ∧ h' = { h with bufs := update h.bufs b true } := by
  refine reads_perform (R := fun a => a = v b) uses_bread fun s hv hd => ?_
  show wp (Act.runBread i b) _ _ s
  unfold Act.runBread
  rw [wp_bind, wp_get, wp_ite]
  refine ⟨fun hb => ?_, fun _ => wp_throw.2 trivial⟩
  rw [wp_bind, wp_set, wp_pure]
  exact ⟨congrFun hv b, view_setCache_self.trans hv, hd⟩

lemma reads_brelse (hb : h.bufs b = false) :
    Reads i s0 v ip d (brelse b) { h with bufs := update h.bufs b true } fun _ h' => h' = h := by
  intro s hs
  refine wp_mono (reads_perform (R := fun _ => True) (uses_brelse (update_self ..))
    (fun s hv hd => ?_) s hs) ?_
  · show wp (Act.runBrelse i b) _ _ s
    unfold Act.runBrelse
    rw [wp_bind, wp_get, wp_ite]
    exact ⟨fun _ => wp_set.2 ⟨trivial, hv, hd⟩, fun _ => wp_throw.2 trivial⟩
  · rintro _ s' ⟨_, ⟨-, rfl⟩, hs'⟩
    rw [update_unlock hb] at hs'
    exact ⟨h, rfl, hs'⟩

lemma reads_getInode : Reads i s0 v ip d (getInode ip) h fun x h' => x.d = d ∧ h' = h := by
  refine reads_perform uses_getInode fun s hv hd => ?_
  show wp (get >>= fun s => pure (s.inode ip)) _ _ s
  rw [wp_bind, wp_get, wp_pure]
  exact ⟨hd, hv, hd⟩

end

lemma reads_bmap (hb : d.block v bn ≠ 0) :
    Reads i s0 v ip d (bmap ip bn) h fun a h' => a = d.block v bn ∧ h' = h := by
  have hslot : ∀ k : Fin (NDIRECT + 1), d.addr k ≠ 0 →
      Reads i s0 v ip d (bmapSlot ip k) h fun a h' => a = d.addr k ∧ h' = h := fun k hk => by
    refine .bind reads_getInode ?_
    rintro x _ ⟨hx, rfl⟩
    rw [hx]
    exact .ite (fun h0 => absurd h0 hk) fun _ => .ret ⟨rfl, rfl⟩
  unfold Dinode.block at hb ⊢
  refine .ite (fun h1 => ?_) fun h1 => ?_
  · rw [if_pos h1] at hb ⊢
    have hk : (Fin.ofNat (NDIRECT + 1) bn : Nat) = bn := Nat.mod_eq_of_lt (Nat.lt_succ_of_lt h1)
    have := hslot (Fin.ofNat _ bn)
    rw [hk] at this
    exact this hb
  · rw [if_neg h1] at hb ⊢
    refine .ite (fun h2 => ?_) fun _ => reads_panic
    rw [if_pos h2] at hb ⊢
    by_cases h3 : d.addr NDIRECT = 0
    · rw [if_pos h3] at hb
      exact absurd rfl hb
    · rw [if_neg h3] at hb ⊢
      refine .bind (hslot (Fin.ofNat _ NDIRECT) h3) ?_
      rintro _ _ ⟨rfl, rfl⟩
      refine .ite (fun h0 => absurd h0 h3) fun _ => ?_
      refine .bind reads_bread ?_
      rintro _ _ ⟨rfl, hbuf, rfl⟩
      refine .ite (fun h0 => absurd h0 hb) fun _ => ?_
      refine .bind (reads_brelse hbuf) ?_
      rintro _ _ rfl
      exact .ret ⟨rfl, rfl⟩

lemma reads_readiLoop {dst : Dst} {n fuel off tot : Nat} {l : List UInt8} (hw : d.Whole v)
    (hoff : off + (n - tot) ≤ d.size.toNat) :
    Reads i s0 v ip d (readiLoop ip dst n fuel off tot l) h fun _ h' => h' = h := by
  induction fuel generalizing off tot l with
  | zero => exact .ret rfl
  | succ fuel ih =>
    refine .ite (fun ht => ?_) fun _ => .ret rfl
    have hlt : off / BSIZE * BSIZE < d.size.toNat :=
      lt_of_le_of_lt (Nat.div_mul_le_self _ _) (by omega)
    refine .bind (reads_bmap (hw _ hlt)) ?_
    rintro _ _ ⟨rfl, rfl⟩
    refine .ite (fun h0 => absurd h0 (hw _ hlt)) fun _ => ?_
    refine .bind reads_bread ?_
    rintro _ _ ⟨rfl, hbuf, rfl⟩
    refine .bind (reads_brelse hbuf) ?_
    rintro _ _ rfl
    refine .ite (fun _ => ih ?_) fun _ => .ret rfl
    omega

omit [Superblock] in
lemma readi_clip {off n sz : UInt32} (hc : ¬ (off > sz ∨ off + n < off)) :
    off.toNat + (if off + n > sz then sz - off else n).toNat ≤ sz.toNat := by
  rw [gt_iff_lt, not_or, UInt32.lt_iff_toNat_lt, UInt32.lt_iff_toNat_lt, UInt32.toNat_add] at hc
  split
  · rw [UInt32.toNat_sub_of_le _ _ (UInt32.le_iff_toNat_le.2 (not_lt.1 hc.1))]
    omega
  · rename_i hgt
    rw [gt_iff_lt, UInt32.lt_iff_toNat_lt, UInt32.toNat_add] at hgt
    have := off.toNat_lt
    have := n.toNat_lt
    omega

lemma reads_readi {dst : Dst} {off n : UInt32} (hw : d.Whole v) :
    Reads i s0 v ip d (readi ip dst off n) h fun _ h' => h' = h := by
  refine .bind reads_getInode ?_
  rintro x _ ⟨hx, rfl⟩
  rw [hx]
  exact .ite (fun _ => .ret rfl) fun hc => reads_readiLoop hw (readi_clip hc)

omit [Superblock] in
lemma reads_setValid {w : Bool} : Reads i s0 v ip d (perform (.setValid ip w)) h fun _ h' => h' = h := by
  intro s hs
  refine wp_mono (reads_perform (R := fun _ => True) uses_setValid (fun s hv hd => ?_) s hs) ?_
  · refine wp_modify.2 ⟨trivial, hv, ?_⟩
    simpa [State.setInode] using hd
  · rintro _ s' ⟨h', ⟨-, hq⟩, hs'⟩
    exact ⟨h', hq, hs'⟩

omit [Superblock] in
lemma wp_setInode_reading {d' : Dinode} (hs : Reading i s0 v ip d h s) :
    wp ((setInode ip d').run (Act.run i)) (fun _ s' => Reading i s0 v ip d' h s') (fun _ _ => True) s := by
  have h1 : wp ((setInode ip d').run (Act.run i)) _ _ s := uses_setInode s hs.account
  unfold setInode perform at h1 ⊢
  rw [Prog.run_perform] at h1 ⊢
  obtain ⟨_, rfl, h2⟩ := wp_modify.1 h1
  exact wp_modify.2 ⟨h2, hs.view, by simp [State.setInode]⟩

lemma wp_load_reading {x : Inode} (hs : Reading i s0 v ip d h s) :
    wp ((do
      let a ← bread (iblock x.inum)
      setInode ip (Dinode.load a (ioff x.inum))
      brelse (iblock x.inum)
      perform (.setValid ip true)
      panicIf ((Dinode.load a (ioff x.inum)).type = 0) .ilockNoType : FsM Unit).run (Act.run i))
      (fun _ s' => Reading i s0 v ip (Dinode.load (v (iblock x.inum)) (ioff x.inum)) h s')
      (fun _ _ => True) s := by
  rw [Prog.wp_run_bind]
  apply wp_mono (reads_bread s hs)
  rintro _ s1 ⟨_, ⟨rfl, hbuf, rfl⟩, hs1⟩
  rw [Prog.wp_run_bind]
  apply wp_mono (wp_setInode_reading hs1)
  intro _ s2 hs2
  rw [Prog.wp_run_bind]
  apply wp_mono (reads_brelse hbuf s2 hs2)
  rintro _ s3 ⟨_, rfl, hs3⟩
  rw [Prog.wp_run_bind]
  apply wp_mono (reads_setValid s3 hs3)
  rintro _ s4 ⟨_, rfl, hs4⟩
  apply wp_mono (reads_panicIf s4 hs4)
  rintro _ s5 ⟨_, rfl, hs5⟩
  exact hs5

omit [Superblock] in
lemma wp_acquiresleep_reading (hs : Account i s0 h s) :
    wp ((perform (.acquiresleep ip)).run (Act.run i))
      (fun _ s' => h.locks ip = false ∧ s'.inode ip = { s.inode ip with lock := some i } ∧
        Reading i s0 s.view ip (s.inode ip).d { h with locks := update h.locks ip true } s')
      (fun _ _ => True) s := by
  unfold perform
  rw [Prog.run_perform]
  show wp (Act.runAcquiresleep i ip) _ _ s
  unfold Act.runAcquiresleep
  rw [wp_bind, wp_get, wp_ite]
  refine ⟨fun hl => wp_set.2 ?_, fun _ => wp_throw.2 trivial⟩
  obtain ⟨h1, h2⟩ := hs.not_locked hl
  have he : (s.setInode ip { s.inode ip with lock := some i }).inode ip = { s.inode ip with lock := some i } :=
    update_self ..
  exact ⟨h1, he, hs.lock rfl rfl h2, rfl, by rw [he]⟩

lemma wp_ilock_reading (hs : Account i s0 h s) (hw : 0 < (s.inode ip).ref → (s.dinode ip).Whole s.view) :
    wp ((ilock ip).run (Act.run i)) (fun _ s' => ∃ v d, d.Whole v ∧ h.locks ip = false ∧
      Reading i s0 v ip d { h with locks := update h.locks ip true } s') (fun _ _ => True) s := by
  unfold ilock
  rw [Prog.wp_run_bind, getInode, wp_look rfl, Prog.wp_run_bind]
  by_cases hr : (s.inode ip).ref < 1
  · rw [panicIf, if_pos hr]
    exact wp_throw.2 trivial
  rw [panicIf, if_neg hr]
  refine wp_pure.2 ?_
  rw [Prog.wp_run_bind]
  apply wp_mono (wp_acquiresleep_reading hs)
  rintro _ s1 ⟨hl, hx, hs1⟩
  rw [Prog.wp_run_bind, wp_look rfl, hx]
  have hd := hw (by omega)
  unfold State.dinode at hd
  cases hv : (s.inode ip).valid with
  | true =>
    rw [if_pos hv] at hd
    rw [when, if_neg (by simp)]
    exact wp_pure.2 ⟨_, _, hd, hl, hs1⟩
  | false =>
    rw [if_neg (by simp [hv])] at hd
    rw [when, if_pos rfl]
    apply wp_mono (wp_load_reading (x := s.inode ip) hs1)
    intro _ s2 hs2
    exact ⟨_, _, hd, hl, hs2⟩

lemma wp_fileread {f : Fin NFILE} {dst : Dst} {n : Int32} {other : Int} (hf : h.file = none)
    (hs : Account i s0 h s) (hw : s.Whole) :
    wp ((fileread i f dst n other).run (Act.run i)) (fun _ s' => Account i s0 h s') (fun _ _ => True) s := by
  unfold fileread
  rw [Prog.wp_run_bind, wp_look rfl]
  split
  · exact wp_pure.2 hs
  split
  · exact wp_pure.2 hs
  · exact wp_pure.2 hs
  · rename_i ip _ _
    rw [Prog.wp_run_bind]
    apply wp_mono (wp_ilock_reading hs (hw ip))
    rintro _ s1 ⟨v, d, hd, hl, hs1⟩
    rw [Prog.wp_run_bind, wp_look rfl, Prog.wp_run_bind]
    apply wp_mono (reads_readi hd s1 hs1)
    rintro ⟨r, l⟩ s2 ⟨_, rfl, hs2⟩
    have hend : Uses i s0 (when (r > 0) (perform (.addOff f (.ofNat r.toNat))) >>= fun _ =>
        iunlock i ip >>= fun _ => pure r) { h with locks := update h.locks ip true }
        fun _ h' => h' = h := by
      refine .follow (uses_when (Q := fun _ h' => h' = { h with locks := update h.locks ip true })
        (fun _ => uses_addOff hf) fun _ => rfl) fun _ => ?_
      refine .follow (uses_iunlock (update_self ..)) fun _ => .ret ?_
      simp [update_unlock hl]
    apply wp_mono (hend s2 hs2.account)
    rintro _ s3 ⟨_, rfl, hs3⟩
    exact hs3
  · exact wp_throw.2 trivial

end Xv6n.Fs
