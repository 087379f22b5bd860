import Xv6n.Fs.Call
import Xv6n.Lib.Refs
import Xv6n.Lib.Track
import Xv6n.Lib.Update

/-!
# What a call holds

The locks, references and transactions that a running call holds, as `Held`, and how they account for the
difference between the state in which the call started and the current one (`Account`). `Uses p h Q` says
that the program `p`, started by a process that holds `h`, returns with `Q` of its result and of what is
then held, whatever the contents of the disk and of the inodes are. Each function of `kernel/fs.c` has one
lemma of this form.
-/

namespace Xv6n.Fs
open Lib Function

def File.inode (f : File) : Option Slot := if f.onInode then f.ip else none

/-- The references to an entry of the inode table from current directories and open files. -/
def stored (s : State) (x : Slot) : Int :=
  refs (fun j => (s.proc j).cwd) x + refs (fun f => (s.file f).inode) x

/-- What an event does to the transaction of process `i`; `none` if it must not happen. -/
def Event.next (i : Pid) (op : Bool) : Event → Option Bool
  | .beginOp j => if j = i then if op then none else some true else some op
  | .endOp j => if j = i then if op then some false else none else some op
  | .iput j _ | .free j _ | .drop j _ | .logWrite j _ => if j = i ∧ op = false then none else some op
  | .iget _ _ | .fault _ _ | .write _ _ _ | .trunc _ => some op

/-- Whether process `i` is in a transaction after the events, newest first. There is no answer if it has
    started one inside another, or has dropped an inode or logged a block outside of any. -/
def inOp (i : Pid) : List Event → Option Bool
  | [] => some false
  | e :: es => (inOp i es).bind fun op => e.next i op

/-- What a call holds: an open transaction, locks of buffers and inodes, and references that are not stored
    in a file or as the current directory (negative for one that is dropped before it is taken out). `file`
    is a file that it has just allocated, `child` a process that it sets up. -/
@[ext] structure Held where
  op : Bool
  bufs : Nat → Bool
  locks : Slot → Bool
  refs : Slot → Int
  cwd : Option Slot
  file : Option (Fin NFILE)
  child : Option Pid

/-- The state `s` differs from `s0` by what process `i` holds. -/
structure Account (i : Pid) (s0 : State) (h : Held) (s : State) : Prop where
  outstanding : s.log.outstanding = s0.log.outstanding + if h.op then 1 else 0
  trace : ∃ es, s.trace = es ++ s0.trace ∧ inOp i es = some h.op
  bufs : ∀ b, s.bufLock b = if h.bufs b then some i else s0.bufLock b
  bufs_free : ∀ b, h.bufs b = true → s0.bufLock b = none
  locks : ∀ x, (s.inode x).lock = if h.locks x then some i else (s0.inode x).lock
  locks_free : ∀ x, h.locks x = true → (s0.inode x).lock = none
  refs : ∀ x, (s.inode x).ref = (s0.inode x).ref + h.refs x + (stored s x - stored s0 x)
  cwd : (s.proc i).cwd = h.cwd
  live : h.cwd ≠ none → (s.proc i).state ≠ .unused
  file : ∀ f, h.file = some f → (s.file f).type = .none ∧ (s.file f).ref = 1
  child : ∀ j, h.child = some j → j ≠ i ∧ (s.proc j).cwd = none
  files : ∀ f, (s.file f).ref = 0 → (s.file f).type = .none
  procs : ∀ j, (s.proc j).state = .unused → (s.proc j).cwd = none

/-- Run by process `i` with `h` in its hands, `p` returns with `Q`. -/
abbrev Uses {α : Type} (i : Pid) (s0 : State) (p : FsM α) (h : Held) (Q : α → Held → Prop) : Prop :=
  Tracks (Act.run i) (Account i s0) (fun _ => True) p h Q

variable {α β : Type} {i : Pid} {s0 s : State} {h : Held} {p : FsM α} {Q : α → Held → Prop} {ip : Slot} {j : Pid}
  {x : Inode}

lemma uses_panic {e : Panic} : Uses i s0 (panic e : FsM α) h Q := by
  intro s _
  show wp (Act.run i (.panic e) >>= _) _ _ _
  rw [wp_bind]
  exact wp_throw.2 trivial

lemma uses_panicIf {c : Prop} [Decidable c] {e : Panic} {Q : Unit → Held → Prop} (hq : ¬ c → Q () h) :
    Uses i s0 (panicIf c e) h Q :=
  .ite (fun _ => uses_panic) fun hc => .ret (hq hc)

lemma uses_when {c : Prop} [Decidable c] {p : FsM Unit} {Q : Unit → Held → Prop}
    (hp : c → Uses i s0 p h Q) (hq : ¬ c → Q () h) : Uses i s0 (when c p) h Q :=
  .ite hp fun hc => .ret (hq hc)

lemma uses_check {c : Prop} [Decidable c] {e : Panic} : Uses i s0 (panicIf c e) h fun _ h' => h' = h :=
  uses_panicIf fun _ => rfl

lemma uses_optional {c : Prop} [Decidable c] {p : FsM Unit} (hp : c → Uses i s0 p h fun _ h' => h' = h) :
    Uses i s0 (when c p) h fun _ h' => h' = h :=
  uses_when hp fun _ => rfl

lemma Account.table {s' : State} {locks : Slot → Bool} {rs : Slot → Int} (hs : Account i s0 h s)
    (hlog : s'.log.outstanding = s.log.outstanding) (htrace : s'.trace = s.trace)
    (hbuf : s'.bufLock = s.bufLock) (hfile : s'.file = s.file) (hproc : s'.proc = s.proc)
    (hlock : ∀ x, (s'.inode x).lock = if locks x then some i else (s0.inode x).lock)
    (hfree : ∀ x, locks x = true → (s0.inode x).lock = none)
    (href : ∀ x, (s'.inode x).ref = (s.inode x).ref + (rs x - h.refs x)) :
    Account i s0 { h with locks := locks, refs := rs } s' where
  outstanding := hlog.trans hs.outstanding
  trace := by rw [htrace]; exact hs.trace
  bufs := by rw [hbuf]; exact hs.bufs
  bufs_free := hs.bufs_free
  locks := hlock
  locks_free := hfree
  refs x := by
    have hst : stored s' x = stored s x := by unfold stored; rw [hfile, hproc]
    rw [href x, hst, hs.refs x]
    ring
  cwd := by rw [hproc]; exact hs.cwd
  live := by rw [hproc]; exact hs.live
  file := by rw [hfile]; exact hs.file
  child := by rw [hproc]; exact hs.child
  files := by rw [hfile]; exact hs.files
  procs := by rw [hproc]; exact hs.procs

lemma Account.keep {s' : State} (hs : Account i s0 h s) (hlog : s'.log.outstanding = s.log.outstanding)
    (htrace : s'.trace = s.trace) (hbuf : s'.bufLock = s.bufLock)
    (hino : ∀ x, (s'.inode x).lock = (s.inode x).lock ∧ (s'.inode x).ref = (s.inode x).ref)
    (hfile : s'.file = s.file) (hproc : s'.proc = s.proc) : Account i s0 h s' :=
  hs.table hlog htrace hbuf hfile hproc (fun x => (hino x).1.trans (hs.locks x)) hs.locks_free
    fun x => by rw [(hino x).2]; ring

lemma Account.entry (hs : Account i s0 h s) (hl : x.lock = (s.inode ip).lock)
    (hr : x.ref = (s.inode ip).ref) : Account i s0 h (s.setInode ip x) := by
  refine hs.keep rfl rfl rfl (fun y => ?_) rfl rfl
  show (update s.inode ip x y).lock = _ ∧ (update s.inode ip x y).ref = _
  by_cases hy : y = ip
  · subst hy
    rw [update_self]
    exact ⟨hl, hr⟩
  · rw [update_of_ne hy]
    exact ⟨rfl, rfl⟩

lemma Account.count {rs : Slot → Int} (hs : Account i s0 h s)
    (hl : x.lock = (s.inode ip).lock)
    (hr : ∀ y, rs y - h.refs y = if y = ip then x.ref - (s.inode ip).ref else 0) :
    Account i s0 { h with refs := rs } (s.setInode ip x) := by
  refine hs.table rfl rfl rfl rfl rfl (fun y => ?_) hs.locks_free fun y => ?_
  · rw [← hs.locks y]
    show (update s.inode ip x y).lock = _
    by_cases hy : y = ip
    · subst hy
      rw [update_self]
      exact hl
    · rw [update_of_ne hy]
  · show (update s.inode ip x y).ref = _
    rw [hr y]
    by_cases hy : y = ip
    · subst hy
      simp
    · simp [hy]

lemma Account.take (hs : Account i s0 h s) (hl : x.lock = (s.inode ip).lock)
    (hr : x.ref = (s.inode ip).ref + 1) :
    Account i s0 { h with refs := h.refs + ptr (some ip) } (s.setInode ip x) :=
  hs.count hl fun y => by simp [ptr, hr, eq_comm]

lemma Account.drop (hs : Account i s0 h s) (hl : x.lock = (s.inode ip).lock)
    (hr : x.ref = (s.inode ip).ref - 1) :
    Account i s0 { h with refs := h.refs - ptr (some ip) } (s.setInode ip x) := by
  refine hs.count hl fun y => ?_
  by_cases hy : y = ip
  · subst hy
    simp [ptr, hr]
  · simp [ptr, hy, Ne.symm hy]

lemma Account.lock {l : Bool} (hs : Account i s0 h s)
    (hr : x.ref = (s.inode ip).ref) (hl : x.lock = if l then some i else none)
    (hfree : (s0.inode ip).lock = none) :
    Account i s0 { h with locks := update h.locks ip l } (s.setInode ip x) := by
  refine hs.table rfl rfl rfl rfl rfl (fun y => ?_) (fun y hy => ?_) fun y => ?_
  · show (update s.inode ip x y).lock = _
    by_cases hy : y = ip
    · subst hy
      rw [update_self, update_self, hl, hfree]
    · rw [update_of_ne hy, update_of_ne hy, hs.locks y]
  · by_cases he : y = ip
    · rw [he]
      exact hfree
    · rw [update_of_ne he] at hy
      exact hs.locks_free y hy
  · show (update s.inode ip x y).ref = _
    by_cases hy : y = ip
    · subst hy
      simp [hr]
    · simp [hy]

lemma trace_cons {op q : Bool} {tr tr0 : List Event} {e : Event}
    (ht : ∃ es, tr = es ++ tr0 ∧ inOp i es = some op) (he : e.next i op = some q) :
    ∃ es, e :: tr = es ++ tr0 ∧ inOp i es = some q := by
  obtain ⟨es, rfl, h1⟩ := ht
  refine ⟨e :: es, rfl, ?_⟩
  rw [inOp, h1]
  exact he

lemma Account.emit {e : Event} (hs : Account i s0 h s) (he : e.next i h.op = some h.op) :
    Account i s0 h (s.emit e) :=
  { hs with trace := trace_cons hs.trace he }

lemma Account.not_locked (hs : Account i s0 h s) (hl : (s.inode ip).lock = none) :
    h.locks ip = false ∧ (s0.inode ip).lock = none := by
  have := hs.locks ip
  rw [hl] at this
  cases hh : h.locks ip with
  | false =>
    rw [hh] at this
    exact ⟨rfl, this.symm⟩
  | true =>
    rw [hh] at this
    cases this

section actions
variable {b : Nat} {f : Fin NFILE} {fd : Fin NOFILE}

lemma uses_bread : Uses i s0 (bread b) h fun _ h' =>
    h.bufs b = false ∧ h' = { h with bufs := update h.bufs b true } := by
  refine .perform fun s hs => ?_
  show wp (Act.runBread i b) _ _ s
  unfold Act.runBread
  rw [wp_bind, wp_get, wp_ite]
  refine ⟨fun hb => ?_, fun _ => wp_throw.2 trivial⟩
  have hfree : h.bufs b = false ∧ s0.bufLock b = none := by
    have := hs.bufs b
    rw [hb] at this
    cases hh : h.bufs b with
    | false =>
      rw [hh] at this
      exact ⟨rfl, this.symm⟩
    | true =>
      rw [hh] at this
      cases this
  rw [wp_bind, wp_set, wp_pure]
  refine ⟨_, ⟨hfree.1, rfl⟩, { hs with bufs := fun c => ?_, bufs_free := fun c hc => ?_ }⟩
  · show update s.bufLock b (some i) c = _
    by_cases hc : c = b
    · subst hc
      simp
    · simp [hc, hs.bufs c]
  · by_cases he : c = b
    · rw [he]
      exact hfree.2
    · exact hs.bufs_free c (by simpa [he] using hc)

lemma uses_brelse (hb : h.bufs b = true) : Uses i s0 (brelse b) h fun _ h' =>
    h' = { h with bufs := update h.bufs b false } := by
  refine .perform fun s hs => ?_
  show wp (Act.runBrelse i b) _ _ s
  unfold Act.runBrelse
  rw [wp_bind, wp_get, wp_ite]
  refine ⟨fun _ => ?_, fun _ => wp_throw.2 trivial⟩
  rw [wp_set]
  refine ⟨_, rfl, { hs with bufs := fun c => ?_, bufs_free := fun c hc => ?_ }⟩
  · show update s.bufLock b none c = _
    by_cases hc : c = b
    · subst hc
      simp [hs.bufs_free c hb]
    · simp [hc, hs.bufs c]
  · by_cases he : c = b
    · simp [he] at hc
    · exact hs.bufs_free c (by simpa [he] using hc)

lemma uses_bset {d : Block} : Uses i s0 (bset b d) h fun _ h' => h' = h :=
  .perform fun _ hs => wp_modify.2 ⟨h, rfl, { hs with }⟩

lemma uses_copyin {o m : Nat} {l : List UInt8} :
    Uses i s0 (perform (.copyin b o l m)) h fun _ h' => h' = h := by
  refine .perform fun s hs => ?_
  show wp (Act.runCopyin i b o l m) _ _ s
  unfold Act.runCopyin
  rw [wp_bind, wp_get]
  dsimp only
  rw [wp_ite]
  refine ⟨fun _ => ?_, fun _ => ?_⟩
  · rw [wp_bind, wp_set, wp_pure]
    exact ⟨h, rfl, { hs with }⟩
  · rw [wp_bind, wp_set, wp_pure]
    exact ⟨h, rfl, { hs with trace := trace_cons hs.trace rfl }⟩

lemma uses_logWrite (hop : h.op = true) : Uses i s0 (logWrite b) h fun _ h' => h' = h := by
  refine .perform fun s hs => ?_
  show wp (Act.runLogWrite i b) _ _ s
  unfold Act.runLogWrite
  rw [wp_bind, wp_get]
  cases e : s.log.logWrite b with
  | error e => exact wp_throw.2 trivial
  | ok lg =>
    obtain ⟨_, _, _, rfl⟩ := Log.logWrite_ok e
    dsimp only
    rw [wp_set]
    exact ⟨h, rfl, { hs with trace := trace_cons hs.trace (by simp [Event.next, hop]) }⟩

lemma uses_beginOp (hop : h.op = false) : Uses i s0 beginOp h fun _ h' => h' = { h with op := true } := by
  refine .perform fun s hs => ?_
  show wp (Act.runBeginOp i) _ _ s
  unfold Act.runBeginOp
  rw [wp_bind, wp_get]
  cases e : s.log.beginOp with
  | none => exact wp_throw.2 trivial
  | some lg =>
    obtain ⟨_, rfl⟩ := Log.beginOp_eq_some.1 e
    dsimp only
    rw [wp_set]
    refine ⟨_, rfl, { hs with
      outstanding := ?_, trace := trace_cons hs.trace (by simp [Event.next, hop]) }⟩
    have := hs.outstanding
    simp only [hop] at this
    simp [State.emit, this]

lemma uses_endOp (hop : h.op = true) : Uses i s0 endOp h fun _ h' => h' = { h with op := false } := by
  refine .perform fun s hs => ?_
  show wp (Act.runEndOp i) _ _ s
  unfold Act.runEndOp
  rw [wp_bind, wp_get]
  have ho := hs.outstanding
  rw [hop] at ho
  have ht := trace_cons (e := .endOp i) (q := false) hs.trace (by simp [Event.next, hop])
  cases e : s.log.endOp with
  | error e => exact wp_throw.2 trivial
  | ok r =>
    obtain ⟨lg, last⟩ := r
    dsimp only
    rw [wp_set]
    obtain ⟨_, ⟨h1, rfl, rfl⟩ | ⟨_, rfl, rfl⟩⟩ := Log.endOp_ok e
    · refine ⟨_, rfl, { hs with outstanding := ?_, trace := ht }⟩
      simp only [State.commit, State.emit, if_true] at ho ⊢
      simp only [Bool.false_eq_true, if_false]
      omega
    · refine ⟨_, rfl, { hs with outstanding := ?_, trace := ht }⟩
      simp only [State.emit, Bool.false_eq_true, if_false, if_true] at ho ⊢
      omega

lemma uses_getInode : Uses i s0 (getInode ip) h fun _ h' => h' = h := by
  refine .perform fun s hs => ?_
  show wp (get >>= fun s => pure (s.inode ip)) _ _ s
  rw [wp_bind, wp_get, wp_pure]
  exact ⟨h, rfl, hs⟩

lemma uses_setInode {d : Dinode} : Uses i s0 (setInode ip d) h fun _ h' => h' = h :=
  .perform fun _ hs => wp_modify.2 ⟨h, rfl, hs.entry rfl rfl⟩

lemma uses_setValid {v : Bool} : Uses i s0 (perform (.setValid ip v)) h fun _ h' => h' = h :=
  .perform fun _ hs => wp_modify.2 ⟨h, rfl, hs.entry rfl rfl⟩

lemma uses_iget {dev inum : Nat} : Uses i s0 (iget dev inum) h fun ip h' =>
    h' = { h with refs := h.refs + ptr (some ip) } := by
  refine .perform fun s hs => ?_
  show wp (Act.runIget i dev inum) _ _ s
  unfold Act.runIget
  rw [wp_bind, wp_get]
  split
  · rename_i ip _
    rw [wp_bind, wp_set, wp_pure]
    refine ⟨_, rfl, Account.emit ?_ rfl⟩
    exact hs.take rfl rfl
  · split
    · exact wp_throw.2 trivial
    · rename_i ip e
      have hr : (s.inode ip).ref = 0 := by simpa using List.find?_some e
      rw [wp_bind, wp_set, wp_pure]
      refine ⟨_, rfl, Account.emit ?_ rfl⟩
      exact hs.take rfl (by rw [hr]; rfl)

lemma wp_runIdup {Q : Held → Prop} (hs : Account i s0 h s)
    (hq : Q { h with refs := h.refs + ptr (some ip) }) :
    wp (Act.runIdup ip) (fun _ s' => ∃ h', Q h' ∧ Account i s0 h' s') (fun _ _ => True) s := by
  exact wp_modify.2 ⟨_, hq, hs.take rfl rfl⟩

lemma uses_idupCwd : Uses i s0 (perform .idupCwd) h fun ip h' =>
    h' = { h with refs := h.refs + ptr (some ip) } := by
  refine .perform fun s hs => ?_
  unfold Act.run
  rw [wp_bind, wp_get]
  split
  · exact wp_throw.2 trivial
  · rw [wp_bind]
    apply wp_mono (wp_runIdup (Q := fun h' => h' = _) hs rfl)
    rintro _ s' ⟨h', rfl, hs'⟩
    exact wp_pure.2 ⟨_, rfl, hs'⟩

lemma uses_acquiresleep : Uses i s0 (perform (.acquiresleep ip)) h fun _ h' =>
    h.locks ip = false ∧ h' = { h with locks := update h.locks ip true } := by
  refine .perform fun s hs => ?_
  show wp (Act.runAcquiresleep i ip) _ _ s
  unfold Act.runAcquiresleep
  rw [wp_bind, wp_get, wp_ite]
  refine ⟨fun hl => ?_, fun _ => wp_throw.2 trivial⟩
  obtain ⟨h1, h2⟩ := hs.not_locked hl
  exact wp_set.2 ⟨_, ⟨h1, rfl⟩, hs.lock rfl rfl h2⟩

lemma uses_releasesleep (hl : h.locks ip = true) : Uses i s0 (perform (.releasesleep ip)) h fun _ h' =>
    h' = { h with locks := update h.locks ip false } :=
  .perform fun _ hs => wp_modify.2 ⟨_, rfl, hs.lock rfl rfl (hs.locks_free ip hl)⟩

lemma uses_iputTest (hop : h.op = true) : Uses i s0 (perform (.iputTest ip)) h fun last h' =>
    if last then h.locks ip = false ∧ h' = { h with locks := update h.locks ip true }
    else h' = { h with refs := h.refs - ptr (some ip) } := by
  refine .perform fun s hs => ?_
  show wp (Act.runIputTest i ip) _ _ s
  unfold Act.runIputTest
  rw [wp_bind, wp_get]
  dsimp only
  rw [wp_ite]
  have hfree : (Event.free i ip).next i h.op = some h.op := by simp [Event.next, hop]
  have hput : (Event.iput i ip).next i h.op = some h.op := by simp [Event.next, hop]
  refine ⟨fun _ => ?_, fun _ => ?_⟩
  · rw [wp_ite]
    refine ⟨fun hl => ?_, fun _ => wp_throw.2 trivial⟩
    obtain ⟨h1, h2⟩ := hs.not_locked hl
    rw [wp_bind, wp_set, wp_pure]
    refine ⟨_, ⟨h1, rfl⟩, ?_⟩
    exact (hs.lock (l := true) (x := { s.inode ip with lock := some i }) rfl rfl h2).emit hfree
  · rw [wp_bind, wp_set, wp_pure]
    refine ⟨_, rfl, ?_⟩
    exact (hs.drop (x := { s.inode ip with ref := (s.inode ip).ref - 1 }) rfl rfl).emit hput

lemma uses_iputDrop (hop : h.op = true) : Uses i s0 (perform (.iputDrop ip)) h fun _ h' =>
    h' = { h with refs := h.refs - ptr (some ip) } := by
  refine .perform fun s hs => wp_modify.2 ⟨_, rfl, ?_⟩
  exact (hs.drop (x := { s.inode ip with ref := (s.inode ip).ref - 1 }) rfl rfl).emit (by simp [Event.next, hop])

lemma uses_note {e : Event} (he : e.next i h.op = some h.op) :
    Uses i s0 (perform (.note e)) h fun _ h' => h' = h :=
  .perform fun _ hs => wp_modify.2 ⟨h, rfl, hs.emit he⟩

lemma stored_setFile {x : File} {y : Slot} :
    stored (s.setFile f x) y = stored s y + ptr x.inode y - ptr (s.file f).inode y := by
  have he : (fun g => ((s.setFile f x).file g).inode) = update (fun g => (s.file g).inode) f x.inode := by
    funext g
    show (update s.file f x g).inode = _
    by_cases hg : g = f
    · subst hg
      simp
    · simp [hg]
  have hp : (s.setFile f x).proc = s.proc := rfl
  unfold stored
  rw [he, refs_update, hp]
  ring

lemma stored_setProc {x : Proc} {y : Slot} :
    stored (s.setProc j x) y = stored s y + ptr x.cwd y - ptr (s.proc j).cwd y := by
  have he : (fun k => ((s.setProc j x).proc k).cwd) = update (fun k => (s.proc k).cwd) j x.cwd := by
    funext k
    show (update s.proc j x k).cwd = _
    by_cases hk : k = j
    · subst hk
      simp
    · simp [hk]
  have hf : (s.setProc j x).file = s.file := rfl
  unfold stored
  rw [he, refs_update, hf]
  ring

lemma Account.setFile {x : File} {r : Slot → Int} {o : Option (Fin NFILE)} (hs : Account i s0 h s)
    (hr : r = h.refs + ptr (s.file f).inode - ptr x.inode) (hx : x.ref = 0 → x.type = .none)
    (ho : ∀ g, o = some g → if g = f then x.type = .none ∧ x.ref = 1 else h.file = some g) :
    Account i s0 { h with refs := r, file := o } (s.setFile f x) := by
  refine { hs with refs := fun y => ?_, file := fun g hg => ?_, files := fun g hg => ?_ }
  · rw [stored_setFile, hr]
    show (s.inode y).ref = _
    rw [hs.refs y]
    simp only [Pi.sub_apply, Pi.add_apply]
    ring
  · show (update s.file f x g).type = _ ∧ (update s.file f x g).ref = _
    have := ho g hg
    by_cases he : g = f
    · subst he
      rw [update_self]
      rwa [if_pos rfl] at this
    · rw [update_of_ne he]
      rw [if_neg he] at this
      exact hs.file g this
  · have hg' : (update s.file f x g).ref = 0 := hg
    show (update s.file f x g).type = _
    by_cases he : g = f
    · subst he
      rw [update_self] at hg' ⊢
      exact hx hg'
    · rw [update_of_ne he] at hg' ⊢
      exact hs.files g hg'

lemma Account.setProc {x : Proc} {r : Slot → Int} {o : Option Pid} {c : Option Slot}
    (hs : Account i s0 h s) (hr : r = h.refs + ptr (s.proc j).cwd - ptr x.cwd)
    (hx : x.state = .unused → x.cwd = none) (hc : c = if j = i then x.cwd else h.cwd)
    (hl : j = i → x.cwd ≠ none → x.state ≠ .unused)
    (ho : ∀ k, o = some k → k ≠ i ∧ if k = j then x.cwd = none else h.child = some k) :
    Account i s0 { h with refs := r, child := o, cwd := c } (s.setProc j x) := by
  have hp : ∀ k, (s.setProc j x).proc k = if k = j then x else s.proc k := fun k => by
    show update s.proc j x k = _
    rw [update_apply]
  refine { hs with
    refs := fun y => ?_, cwd := ?_, live := ?_, child := fun k hk => ?_, procs := fun k hk => ?_ }
  · rw [stored_setProc, hr]
    show (s.inode y).ref = _
    rw [hs.refs y]
    simp only [Pi.sub_apply, Pi.add_apply]
    ring
  · rw [hp, hc]
    by_cases hj : j = i
    · rw [if_pos hj, if_pos hj.symm]
    · rw [if_neg hj, if_neg (Ne.symm hj)]
      exact hs.cwd
  · intro hn
    rw [hp]
    dsimp only at hn
    rw [hc] at hn
    by_cases hj : j = i
    · rw [if_pos hj] at hn
      rw [if_pos hj.symm]
      exact hl hj hn
    · rw [if_neg hj] at hn
      rw [if_neg (Ne.symm hj)]
      exact hs.live hn
  · obtain ⟨h1, h2⟩ := ho k hk
    refine ⟨h1, ?_⟩
    rw [hp]
    by_cases he : k = j
    · rw [if_pos he] at h2 ⊢
      exact h2
    · rw [if_neg he] at h2 ⊢
      exact (hs.child k h2).2
  · rw [hp] at hk ⊢
    by_cases he : k = j
    · rw [if_pos he] at hk ⊢
      exact hx hk
    · rw [if_neg he] at hk ⊢
      exact hs.procs k hk

lemma File.inode_none {x : File} (hx : x.type = .none) : x.inode = none := by
  unfold File.inode
  rw [if_neg]
  rintro (e | e) <;> rw [hx] at e <;> cases e

lemma uses_filealloc : Uses i s0 (perform .filealloc) h fun o h' => match o with
    | none => h' = h
    | some f => h' = { h with file := some f } := by
  refine .perform fun s hs => ?_
  show wp Act.runFilealloc _ _ s
  unfold Act.runFilealloc
  rw [wp_bind, wp_get]
  split
  · exact wp_pure.2 ⟨h, rfl, hs⟩
  · rename_i f e
    have ht := hs.files f (by simpa using List.find?_some e)
    rw [wp_bind, wp_set, wp_pure]
    refine ⟨_, rfl, hs.setFile ?_ nofun fun g hg => ?_⟩
    · rw [File.inode_none ht, File.inode_none (x := { s.file f with ref := 1 }) ht]
      simp
    · rw [if_pos (Option.some.inj hg).symm]
      exact ⟨ht, rfl⟩

lemma uses_filedup (hf : h.file = none) : Uses i s0 (perform (.filedup f)) h fun _ h' => h' = h := by
  refine .perform fun s hs => ?_
  show wp (Act.runFiledup f) _ _ s
  unfold Act.runFiledup
  rw [wp_bind, wp_get, wp_ite]
  refine ⟨fun _ => wp_throw.2 trivial, fun hr => wp_set.2 ⟨h, rfl, ?_⟩⟩
  refine hs.setFile (r := h.refs) ?_ (fun e => ?_) fun g hg => ?_
  · show _ = h.refs + ptr (s.file f).inode - ptr (s.file f).inode
    rw [add_sub_cancel_right]
  · dsimp only at e
    omega
  · rw [hf] at hg
    cases hg

lemma uses_filecloseTest (hf : h.file = none) : Uses i s0 (perform (.filecloseTest f)) h fun o h' =>
    h' = { h with refs := h.refs + ptr (o.bind File.inode) } := by
  refine .perform fun s hs => ?_
  show wp (Act.runFilecloseTest f) _ _ s
  unfold Act.runFilecloseTest
  rw [wp_bind, wp_get]
  dsimp only
  rw [wp_ite]
  refine ⟨fun _ => wp_throw.2 trivial, fun hr => ?_⟩
  rw [wp_ite]
  refine ⟨fun hr' => ?_, fun _ => ?_⟩
  · rw [wp_bind, wp_set, wp_pure]
    refine ⟨_, rfl, hs.setFile ?_ (fun e => ?_) fun g hg => ?_⟩
    · show h.refs + 0 = h.refs + ptr (s.file f).inode - ptr (s.file f).inode
      rw [add_sub_cancel_right, add_zero]
    · dsimp only at e
      omega
    · rw [hf] at hg
      cases hg
  · rw [wp_bind, wp_set, wp_pure]
    refine ⟨_, rfl, hs.setFile ?_ (fun _ => rfl) fun g hg => ?_⟩
    · show h.refs + ptr (s.file f).inode = h.refs + ptr (s.file f).inode - 0
      rw [sub_zero]
    · rw [hf] at hg
      cases hg

lemma uses_filecloseTest_new (hf : h.file = some f) :
    Uses i s0 (perform (.filecloseTest f)) h fun o h' =>
      (∃ ff, o = some ff ∧ ¬ ff.onInode) ∧ h' = { h with file := none } := by
  refine .perform fun s hs => ?_
  show wp (Act.runFilecloseTest f) _ _ s
  obtain ⟨ht, hr⟩ := hs.file f hf
  unfold Act.runFilecloseTest
  rw [wp_bind, wp_get]
  dsimp only
  rw [hr, if_neg (by omega), if_neg (by omega), wp_bind, wp_set, wp_pure]
  refine ⟨_, ⟨⟨_, rfl, ?_⟩, rfl⟩, hs.setFile (r := h.refs) ?_ (fun _ => rfl) nofun⟩
  · rintro (e | e) <;> rw [ht] at e <;> cases e
  · rw [File.inode_none ht]
    show h.refs = h.refs + 0 - 0
    rw [add_zero, sub_zero]

lemma uses_getFile : Uses i s0 (perform (.getFile f)) h fun _ h' => h' = h := by
  refine .perform fun s hs => ?_
  show wp (get >>= fun s => pure (s.file f)) _ _ s
  rw [wp_bind, wp_get, wp_pure]
  exact ⟨h, rfl, hs⟩

lemma uses_openFile {major : Option Int16} {r w : Bool} (hf : h.file = some f) :
    Uses i s0 (perform (.openFile f ip major r w)) h fun _ h' =>
      h' = { h with refs := h.refs - ptr (some ip), file := none } := by
  refine .perform fun s hs => wp_modify.2 ⟨_, rfl, ?_⟩
  obtain ⟨ht, hr⟩ := hs.file f hf
  cases major with
  | none | some major =>
    refine hs.setFile ?_ (fun e => ?_) nofun
    · rw [File.inode_none ht]
      show h.refs - ptr (some ip) = h.refs + 0 - ptr (some ip)
      rw [add_zero]
    · dsimp only at e
      omega

lemma uses_addOff {r : UInt32} (hf : h.file = none) :
    Uses i s0 (perform (.addOff f r)) h fun _ h' => h' = h := by
  refine .perform fun s hs => wp_modify.2 ⟨h, rfl, hs.setFile (r := h.refs) ?_ ?_ fun g hg => ?_⟩
  · show _ = h.refs + ptr (s.file f).inode - ptr (s.file f).inode
    rw [add_sub_cancel_right]
  · exact hs.files f
  · rw [hf] at hg
    cases hg

lemma uses_getCwd : Uses i s0 (perform .getCwd) h fun o h' => o = h.cwd ∧ h' = h := by
  refine .perform fun s hs => ?_
  show wp (get >>= fun s => pure (s.proc i).cwd) _ _ s
  rw [wp_bind, wp_get, wp_pure]
  exact ⟨h, ⟨hs.cwd, rfl⟩, hs⟩

lemma uses_setCwd (hc : h.cwd ≠ none) : Uses i s0 (perform (.setCwd ip)) h fun _ h' =>
    h' = { h with cwd := some ip, refs := h.refs + ptr h.cwd - ptr (some ip) } := by
  refine .perform fun s hs => wp_modify.2 ⟨_, rfl, ?_⟩
  refine hs.setProc (o := h.child) (by rw [hs.cwd]) (fun e => ?_) (by rw [if_pos rfl])
    (fun _ _ => hs.live hc) fun k hk => ?_
  · exact absurd e (hs.live hc)
  · obtain ⟨h1, _⟩ := hs.child k hk
    exact ⟨h1, by rw [if_neg h1]; exact hk⟩

lemma Account.setOfile {o : Option (Fin NFILE)} (hs : Account i s0 h s) :
    Account i s0 h (s.setOfile j fd o) := by
  refine hs.setProc (r := h.refs) (o := h.child) (c := h.cwd) ?_ (hs.procs j) ?_ ?_ fun k hk => ?_
  · rw [add_sub_cancel_right]
  · by_cases hj : j = i
    · subst hj
      rw [if_pos rfl]
      exact hs.cwd.symm
    · rw [if_neg hj]
  · rintro rfl hn
    exact hs.live (hs.cwd ▸ hn)
  · obtain ⟨h1, h2⟩ := hs.child k hk
    refine ⟨h1, ?_⟩
    by_cases he : k = j
    · subst he
      rw [if_pos rfl]
      exact h2
    · rw [if_neg he]
      exact hk

lemma uses_getOfile : Uses i s0 (perform (.getOfile fd)) h fun _ h' => h' = h := by
  refine .perform fun s hs => ?_
  show wp (get >>= fun s => pure ((s.proc i).ofile fd)) _ _ s
  rw [wp_bind, wp_get, wp_pure]
  exact ⟨h, rfl, hs⟩

lemma uses_fdalloc : Uses i s0 (perform (.fdalloc f)) h fun _ h' => h' = h := by
  refine .perform fun s hs => ?_
  show wp (Act.runFdalloc i f) _ _ s
  unfold Act.runFdalloc
  rw [wp_bind, wp_get]
  split
  · exact wp_pure.2 ⟨h, rfl, hs⟩
  · rw [wp_bind, wp_set, wp_pure]
    exact ⟨h, rfl, hs.setOfile⟩

lemma uses_clearOfile : Uses i s0 (perform (.clearOfile fd)) h fun _ h' => h' = h :=
  .perform fun _ hs => wp_modify.2 ⟨h, rfl, hs.setOfile⟩

lemma uses_childOfile : Uses i s0 (perform (.childOfile j fd f)) h fun _ h' => h' = h :=
  .perform fun _ hs => wp_modify.2 ⟨h, rfl, hs.setOfile⟩

lemma uses_allocproc (hc : h.cwd ≠ none) : Uses i s0 (perform .allocproc) h fun o h' => match o with
    | none => h' = h
    | some j => h' = { h with child := some j } := by
  refine .perform fun s hs => ?_
  show wp Act.runAllocproc _ _ s
  unfold Act.runAllocproc
  rw [wp_bind, wp_get]
  split
  · exact wp_pure.2 ⟨h, rfl, hs⟩
  · rename_i j e
    have hj : (s.proc j).state = .unused := by simpa using List.find?_some e
    have hji : j ≠ i := by
      rintro rfl
      exact hs.live hc hj
    rw [wp_bind, wp_set, wp_pure]
    refine ⟨_, rfl, hs.setProc (r := h.refs) ?_ nofun (by rw [if_neg hji]) (fun e => absurd e hji) fun k hk => ?_⟩
    · rw [add_sub_cancel_right]
    · cases hk
      exact ⟨hji, by rw [if_pos rfl]; exact hs.procs j hj⟩

lemma uses_freeproc (hc : h.child = some j) : Uses i s0 (perform (.freeproc j)) h fun _ h' =>
    h' = { h with child := none } := by
  refine .perform fun s hs => wp_modify.2 ⟨_, rfl, ?_⟩
  obtain ⟨hji, hcwd⟩ := hs.child j hc
  refine hs.setProc (r := h.refs) ?_ (fun _ => hcwd) (by rw [if_neg hji]) (fun e => absurd e hji) nofun
  rw [add_sub_cancel_right]

lemma uses_childCwd (hc : h.child = some j) :
    Uses i s0 (perform (.childCwd j ip)) h fun _ h' =>
      h' = { h with child := none, refs := h.refs - ptr (some ip) } := by
  refine .perform fun s hs => wp_modify.2 ⟨_, rfl, ?_⟩
  obtain ⟨hji, hcwd⟩ := hs.child j hc
  refine hs.setProc ?_ nofun (by rw [if_neg hji]) (fun e => absurd e hji) nofun
  rw [hcwd, ptr_none, add_zero]

lemma uses_zombie (hc : h.child = none) : Uses i s0 (perform .zombie) h fun _ h' =>
    h' = { h with cwd := none, refs := h.refs + ptr h.cwd } := by
  refine .perform fun s hs => wp_modify.2 ⟨_, rfl, ?_⟩
  refine hs.setProc (o := h.child) ?_ (fun _ => rfl) (by rw [if_pos rfl]) (fun _ => absurd rfl) fun k hk => ?_
  · rw [hs.cwd, ptr_none, sub_zero]
  · rw [hc] at hk
    cases hk

end actions

end Xv6n.Fs
