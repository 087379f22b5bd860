import Xv6n.Fs.Read

/-!
# A process alone in the file system

`Solo` is what the file system looks like to a process that runs without others: the blocks through the
buffer cache, the tables, the buffers that it holds and the blocks that it has logged. `Ran p a Q` says that
the program `p`, started where `a` describes the state, returns with `Q`. Each action has one rule.
-/

namespace Xv6n.Fs
open Lib Function

/-- The blocks that the events pass to `log_write`. -/
def touched : List Event → Finset Nat
  | [] => ∅
  | .logWrite _ b :: es => insert b (touched es)
  | _ :: es => touched es

/-- What the state looks like to a process that runs alone. `ops` are the open transactions, `old` the
    blocks logged before that of the process, `logged` those logged since, when the trace was `since`. -/
@[ext] structure Solo where
  disk : Nat → Block
  inode : Slot → Inode
  file : Fin NFILE → File
  proc : Pid → Proc
  bufs : Finset Nat
  ops : Int
  old : Finset Nat
  logged : Finset Nat
  since : List Event

namespace Solo
variable [Superblock]

/-- The state `s` looks like `a` to process `i`. -/
structure Is (i : Pid) (a : Solo) (s : State) : Prop where
  disk : s.view = a.disk
  inode : s.inode = a.inode
  file : s.file = a.file
  proc : s.proc = a.proc
  bufs : ∀ b, s.bufLock b = if b ∈ a.bufs then some i else none
  size : s.log.size = Superblock.nlog
  ops : s.log.outstanding = a.ops
  idle : s.log.committing = false
  block : ∀ b ∈ s.log.block, b ∈ a.old ∨ b ∈ a.logged
  nodup : s.log.block.Nodup
  trace : ∃ es, s.trace = es ++ a.since ∧ touched es = a.logged

/-- The log has room for `k` more blocks. -/
def Room (a : Solo) (k : Nat) : Prop := a.old.card + (a.logged.card + k) < min LOGSIZE (Superblock.nlog - 1)

/-- The log has room for `k` more blocks, or running out of it is allowed. -/
def Spare (F : Stop → Prop) (a : Solo) (k : Nat) : Prop := F (.panic (.log .tooBig)) ∨ a.Room k

def setD (a : Solo) (ip : Slot) (d : Dinode) : Solo :=
  { a with inode := update a.inode ip { a.inode ip with d := d } }

def setDisk (a : Solo) (b : Nat) (d : Block) : Solo := { a with disk := update a.disk b d }

def log (a : Solo) (b : Nat) : Solo := { a with logged := insert b a.logged }

def hold (a : Solo) (b : Nat) : Solo := { a with bufs := insert b a.bufs }

def setInode (a : Solo) (ip : Slot) (x : Inode) : Solo := { a with inode := update a.inode ip x }

def setOps (a : Solo) (n : Int) : Solo := { a with ops := n }

def setFile (a : Solo) (f : Fin NFILE) (x : File) : Solo := { a with file := update a.file f x }

def start (s : State) : Solo :=
  ⟨s.view, s.inode, s.file, s.proc, ∅, s.log.outstanding, s.log.block.toFinset, ∅, s.trace⟩

/-- The contents of an inode: the copy in memory, or the inode on disk if there is none. -/
def dinode (a : Solo) (ip : Slot) : Dinode :=
  if (a.inode ip).valid then (a.inode ip).d
  else Dinode.load (a.disk (iblock (a.inode ip).inum)) (ioff (a.inode ip).inum)

end Solo

variable [Superblock] {α β : Type} {i : Pid} {F : Stop → Prop} {a : Solo} {s : State}

/-- Run by process `i` alone where `a` describes the state, `p` returns with `Q`; it stops only with an
    error in `F`. -/
abbrev Ran (i : Pid) (F : Stop → Prop) (p : FsM α) (a : Solo) (Q : α → Solo → Prop) : Prop :=
  Tracks (Act.run i) (Solo.Is i) F p a Q

/-- Run by process `i` alone where `a` describes the state, `p` returns `r` where `a'` describes it. -/
abbrev Does (i : Pid) (F : Stop → Prop) (p : FsM α) (a : Solo) (r : α) (a' : Solo) : Prop :=
  Gives (Act.run i) (Solo.Is i) F p a r a'

lemma Solo.Is.n_le (h : a.Is i s) : s.log.n ≤ a.old.card + a.logged.card := by
  have hsub : s.log.block.toFinset ⊆ a.old ∪ a.logged := by
    intro b hb
    exact Finset.mem_union.2 (h.block b (List.mem_toFinset.1 hb))
  rw [Log.n, ← List.toFinset_card_of_nodup h.nodup]
  exact (Finset.card_le_card hsub).trans (Finset.card_union_le ..)

section actions
variable {b : Nat} {d : Block} {ip : Slot} {x : Dinode}

lemma ran_look {e : Act α} {g : State → α} {r : α} (he : e.run i = get >>= fun s => pure (g s))
    (hg : ∀ s, a.Is i s → g s = r) : Does i F (perform e) a r a := by
  refine Tracks.perform fun s hs => ?_
  rw [he, wp_bind, wp_get, wp_pure]
  exact ⟨a, ⟨hg s hs, rfl⟩, hs⟩

lemma ran_modify {e : Act Unit} {g : State → State} {a' : Solo} (he : e.run i = modify g)
    (hg : ∀ s, a.Is i s → a'.Is i (g s)) : Does i F (perform e) a () a' := by
  refine Tracks.perform fun s hs => ?_
  rw [he, wp_modify]
  exact ⟨a', ⟨rfl, rfl⟩, hg s hs⟩

lemma ran_bread (hb : b ∉ a.bufs) : Does i F (bread b) a (a.disk b) (a.hold b) := by
  refine Tracks.perform fun s hs => ?_
  show wp (Act.runBread i b) _ _ s
  unfold Act.runBread
  have hfree : s.bufLock b = none := (hs.bufs b).trans (if_neg hb)
  rw [wp_bind, wp_get, if_pos hfree, wp_bind, wp_set, wp_pure]
  refine ⟨_, ⟨congrFun hs.disk b, rfl⟩, { hs with disk := view_setCache_self.trans hs.disk, bufs := fun c => ?_ }⟩
  show update s.bufLock b (some i) c = _
  by_cases hc : c = b
  · subst hc
    simp [Solo.hold]
  · simp [Solo.hold, hc, hs.bufs c]

lemma ran_brelse (hb : b ∉ a.bufs) : Does i F (brelse b) (a.hold b) () a := by
  refine Tracks.perform fun s hs => ?_
  show wp (Act.runBrelse i b) _ _ s
  unfold Act.runBrelse
  have hheld : s.bufLock b = some i := (hs.bufs b).trans (if_pos (Finset.mem_insert_self ..))
  rw [wp_bind, wp_get, if_pos hheld, wp_set]
  refine ⟨a, ⟨rfl, rfl⟩, { hs with bufs := fun c => ?_ }⟩
  show update s.bufLock b none c = _
  by_cases hc : c = b
  · subst hc
    simp [hb]
  · simp [hc, hs.bufs c, Solo.hold]

omit [Superblock] in
lemma view_setCache : (s.setCache b (some d)).view = update s.view b d := by
  funext c
  by_cases hc : c = b
  · subst hc
    simp [State.view, State.setCache]
  · simp [State.view, State.setCache, hc]

lemma ran_bset : Does i F (bset b d) a () (a.setDisk b d) := by
  refine ran_modify rfl fun s hs => { hs with disk := ?_ }
  rw [view_setCache, hs.disk]
  rfl

omit [Superblock] in
lemma touched_cons {e : Event} {es : List Event} (he : ∀ j b, e ≠ .logWrite j b) :
    touched (e :: es) = touched es := by
  cases e
  case logWrite j b => exact absurd rfl (he j b)
  all_goals rfl

lemma Solo.Is.emit {e : Event} (hs : a.Is i s) (he : ∀ j b, e ≠ .logWrite j b) : a.Is i (s.emit e) := by
  obtain ⟨es, h1, h2⟩ := hs.trace
  exact { hs with trace := ⟨e :: es, congrArg (e :: ·) h1, (touched_cons he).trans h2⟩ }

lemma ran_note {e : Event} (he : ∀ j b, e ≠ .logWrite j b) : Does i F (perform (.note e)) a () a :=
  ran_modify rfl fun _ hs => hs.emit he

lemma ran_copyin {o m : Nat} {l : List UInt8} :
    Does i F (perform (.copyin b o l m)) a (decide (l.length = m)) (a.setDisk b (paste (a.disk b) o l)) := by
  refine Tracks.perform fun s hs => ?_
  show wp (Act.runCopyin i b o l m) _ _ s
  unfold Act.runCopyin
  have hs' : (a.setDisk b (paste (a.disk b) o l)).Is i (s.setCache b (some (paste (s.view b) o l))) := by
    refine { hs with disk := ?_ }
    rw [view_setCache, hs.disk]
    rfl
  rw [wp_bind, wp_get]
  dsimp only
  split
  · rw [wp_bind, wp_set, wp_pure]
    exact ⟨_, ⟨rfl, rfl⟩, hs'⟩
  · rw [wp_bind, wp_set, wp_pure]
    exact ⟨_, ⟨rfl, rfl⟩, hs'.emit nofun⟩

lemma ran_logWrite (hop : 1 ≤ a.ops) (hroom : a.Spare F 0) : Does i F (logWrite b) a () (a.log b) := by
  refine Tracks.perform fun s hs => ?_
  show wp (Act.runLogWrite i b) _ _ s
  unfold Act.runLogWrite
  rw [wp_bind, wp_get]
  have hn := hs.n_le
  have hsize := hs.size
  have hops := hs.ops
  cases e : s.log.logWrite b with
  | error e =>
    rcases Log.logWrite_error ‹_› with ⟨rfl, h⟩ | ⟨-, h⟩
    · rcases hroom with hF | hroom
      · exact wp_throw.2 hF
      · unfold Solo.Room at hroom
        omega
    · omega
  | ok lg =>
    obtain ⟨-, -, -, rfl⟩ := Log.logWrite_ok e
    dsimp only
    rw [wp_set]
    obtain ⟨es, h1, h2⟩ := hs.trace
    have ht : Event.logWrite i b :: s.trace = (.logWrite i b :: es) ++ a.since := congrArg (_ :: ·) h1
    refine ⟨_, ⟨rfl, rfl⟩, { hs with
      block := fun c hc => ?_, nodup := ?_, trace := ⟨_, ht, congrArg (insert b) h2⟩ }⟩
    · simp only [State.emit] at hc
      simp only [Solo.log, Finset.mem_insert]
      split at hc
      · exact (hs.block c hc).imp_right .inr
      · rcases List.mem_append.1 hc with hc | hc
        · exact (hs.block c hc).imp_right .inr
        · exact .inr (.inl (List.mem_singleton.1 hc))
    · simp only [State.emit]
      split
      · exact hs.nodup
      · rename_i hb
        exact List.nodup_append.2 ⟨hs.nodup, List.nodup_singleton b, by
          rintro c hc _ hb' rfl
          exact hb (List.mem_singleton.1 hb' ▸ hc)⟩

lemma ran_getInode : Does i F (getInode ip) a (a.inode ip) a :=
  ran_look rfl fun _ hs => congrFun hs.inode ip

lemma ran_setInode : Does i F (setInode ip x) a () (a.setD ip x) := by
  refine ran_modify rfl fun s hs => { hs with inode := ?_ }
  show update s.inode ip _ = _
  rw [hs.inode]
  rfl

lemma ran_setValid {v : Bool} :
    Does i F (perform (.setValid ip v)) a () (a.setInode ip { a.inode ip with valid := v }) := by
  refine ran_modify rfl fun s hs => { hs with inode := ?_ }
  show update s.inode ip _ = _
  rw [hs.inode]
  rfl

lemma ran_acquiresleep (hl : (a.inode ip).lock = none) :
    Does i F (perform (.acquiresleep ip)) a () (a.setInode ip { a.inode ip with lock := some i }) := by
  refine Tracks.perform fun s hs => ?_
  show wp (Act.runAcquiresleep i ip) _ _ s
  unfold Act.runAcquiresleep
  rw [wp_bind, wp_get, if_pos (by rw [hs.inode, hl]), wp_set]
  refine ⟨_, ⟨rfl, rfl⟩, { hs with inode := ?_ }⟩
  show update s.inode ip _ = _
  rw [hs.inode]
  rfl

lemma ran_releasesleep :
    Does i F (perform (.releasesleep ip)) a () (a.setInode ip { a.inode ip with lock := none }) := by
  refine ran_modify rfl fun s hs => { hs with inode := ?_ }
  show update s.inode ip _ = _
  rw [hs.inode]
  rfl

lemma ran_panicIf {c : Prop} [Decidable c] {e : Panic} (hc : ¬ c) : Does i F (panicIf c e) a () a := by
  rw [panicIf, if_neg hc]
  exact Tracks.ret ⟨rfl, rfl⟩

lemma ran_getFile {f : Fin NFILE} : Does i F (perform (.getFile f)) a (a.file f) a :=
  ran_look rfl fun _ hs => congrFun hs.file f

lemma ran_addOff {f : Fin NFILE} {r : UInt32} :
    Does i F (perform (.addOff f r)) a () (a.setFile f { a.file f with off := (a.file f).off + r }) := by
  refine ran_modify rfl fun s hs => { hs with file := ?_ }
  show update s.file f _ = _
  rw [hs.file]
  rfl

lemma ran_beginOp
    (h : ((a.old.card + a.logged.card : Nat) : Int) + (a.ops + 1) * (MAXOPBLOCKS : Nat) ≤ (LOGSIZE : Nat)) :
    Does i F beginOp a () (a.setOps (a.ops + 1)) := by
  refine Tracks.perform fun s hs => ?_
  show wp (Act.runBeginOp i) _ _ s
  unfold Act.runBeginOp
  have hn : ((s.log.n : Nat) : Int) ≤ (a.old.card + a.logged.card : Nat) := Int.ofNat_le.2 hs.n_le
  have hbegin : s.log.beginOp = some { s.log with outstanding := s.log.outstanding + 1 } :=
    Log.beginOp_eq_some.2 ⟨⟨hs.idle, by rw [hs.ops]; omega⟩, rfl⟩
  rw [wp_bind, wp_get, hbegin, wp_set]
  have hs' : (a.setOps (a.ops + 1)).Is i { s with log := { s.log with outstanding := s.log.outstanding + 1 } } :=
    { hs with ops := congrArg (· + 1) hs.ops }
  exact ⟨_, ⟨rfl, rfl⟩, hs'.emit nofun⟩

omit [Superblock] in
lemma view_commit : s.commit.view = s.view := by
  funext b
  simp only [State.view, State.commit]
  cases s.cache b with
  | some d => rfl
  | none => simp

lemma ran_endOp : Does i F endOp a () (a.setOps (a.ops - 1)) := by
  refine Tracks.perform fun s hs => ?_
  show wp (Act.runEndOp i) _ _ s
  unfold Act.runEndOp
  rw [wp_bind, wp_get]
  have hs' : (a.setOps (a.ops - 1)).Is i
      ({ s with log := { s.log with outstanding := s.log.outstanding - 1 } }.emit (.endOp i)) :=
    Solo.Is.emit { hs with ops := congrArg (· - 1) hs.ops } nofun
  unfold Log.endOp
  dsimp only
  rw [if_neg (by rw [hs.idle]; decide)]
  by_cases h0 : s.log.outstanding - 1 = 0
  · rw [if_pos h0]
    dsimp only
    rw [if_pos rfl, wp_set]
    exact ⟨_, ⟨rfl, rfl⟩, { hs' with disk := view_commit.trans hs.disk, idle := rfl, block := nofun, nodup := .nil }⟩
  · rw [if_neg h0]
    dsimp only
    rw [if_neg (by decide), wp_set]
    exact ⟨_, ⟨rfl, rfl⟩, hs'⟩

lemma ran_ilock (hr : 1 ≤ (a.inode ip).ref) (hl : (a.inode ip).lock = none)
    (hb : iblock (a.inode ip).inum ∉ a.bufs) (ht : (a.dinode ip).type ≠ 0) :
    Does i F (ilock ip) a ()
      (a.setInode ip { a.inode ip with lock := some i, valid := true, d := a.dinode ip }) := by
  refine .next ran_getInode (.next (ran_panicIf (not_lt.2 hr)) (.next (ran_acquiresleep hl) (.next ran_getInode ?_)))
  have hself : (a.setInode ip { a.inode ip with lock := some i }).inode ip = { a.inode ip with lock := some i } :=
    Function.update_self ..
  rw [hself]
  refine Tracks.ite (fun hv => ?_) fun hv => ?_
  · have hd : a.dinode ip = Dinode.load (a.disk (iblock (a.inode ip).inum)) (ioff (a.inode ip).inum) :=
      if_neg (by rw [show (a.inode ip).valid = false from hv]; decide)
    rw [hd] at ht ⊢
    refine .next (ran_bread hb) (.next ran_setInode (.next (ran_brelse (a := (a.setInode ip _).setD ip _) hb) ?_))
    refine .next ran_setValid ((ran_panicIf ht).mono ?_)
    rintro _ _ ⟨-, rfl⟩
    refine ⟨rfl, ?_⟩
    simp [Solo.setInode, Solo.setD]
  · have hv : (a.inode ip).valid = true := Bool.eq_true_of_not_eq_false hv
    refine .ret ⟨rfl, ?_⟩
    rw [Solo.dinode, if_pos hv]
    simp [hv]

lemma ran_iunlock (hr : 1 ≤ (a.inode ip).ref) (hl : (a.inode ip).lock = some i) :
    Does i F (iunlock i ip) a () (a.setInode ip { a.inode ip with lock := none }) :=
  .next ran_getInode (.next (ran_panicIf (by simp [hl, hr])) ran_releasesleep)

end actions

end Xv6n.Fs
