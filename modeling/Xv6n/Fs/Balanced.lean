import Xv6n.Fs.Image
import Xv6n.Fs.Read

/-!
# System calls are balanced

Every system call of the file system ends each transaction that it starts, drops inodes and logs blocks only
inside of one, and returns with the locks of its start and with the references that it stores.
-/

namespace Xv6n.Fs
open Lib Function
section
variable [Superblock] {i : Pid} {s0 : State} {h : Held} {n : Nat} {ip dp : Slot} {f : Fin NFILE}
variable {fd : Int}
variable {s : State}
variable {path : Path}

omit [Superblock] in
lemma update_unlock_first {g : Slot → Bool} (h1 : g dp = false) (h2 : update g dp true ip = false) :
    update (update (update g dp true) ip true) dp false =
      update g ip true := by
  have hne : ip ≠ dp := (of_update h2 nofun).1
  rw [update_comm hne, update_idem, ← h1, update_eq_self]

lemma uses_iputPtr {o : Option Slot} (hop : h.op = true) : Uses i s0 (iputPtr o) h fun _ h' =>
    h' = { h with refs := h.refs - ptr o } := by
  cases o with
  | none => exact .ret (by simp)
  | some ip => exact uses_iput hop

lemma uses_fileclose (hop : h.op = false) (hf : h.file = none) :
    Uses i s0 (fileclose f) h fun _ h' => h' = h := by
  refine .follow (uses_filecloseTest hf) fun o => ?_
  cases o with
  | none => exact .ret (by simp)
  | some ff =>
    refine uses_when (fun hi => ?_) fun hi => ?_
    · refine .follow (uses_beginOp hop) fun _ => ?_
      refine .follow (uses_iputPtr rfl) fun _ => ?_
      refine (uses_endOp rfl).mono ?_
      rintro _ _ rfl
      have he : (some ff).bind File.inode = ff.ip := if_pos hi
      rw [he]
      simp [← hop]
    · have he : (some ff).bind File.inode = none := if_neg hi
      rw [he]
      simp

lemma uses_fileclose_new (hf : h.file = some f) :
    Uses i s0 (fileclose f) h fun _ h' => h' = { h with file := none } := by
  refine .bind (uses_filecloseTest_new hf) ?_
  rintro _ _ ⟨⟨ff, rfl, hn⟩, rfl⟩
  exact uses_when (fun hi => absurd hi hn) fun _ => rfl

lemma uses_filewriteLoop {src : Src} {fuel k : Nat} (hop : h.op = false) (hf : h.file = none) :
    Uses i s0 (filewriteLoop i f ip src n fuel k) h fun _ h' => h' = h := by
  induction fuel generalizing k with
  | zero => exact .ret rfl
  | succ fuel ih =>
    refine .ite (fun _ => ?_) fun _ => .ret rfl
    refine .follow (uses_beginOp hop) fun _ => ?_
    refine .bind uses_ilock ?_
    rintro _ _ ⟨hl, rfl⟩
    refine .follow uses_getFile fun x => ?_
    refine .follow (uses_writei rfl) fun r => ?_
    refine .follow (uses_optional fun _ => uses_addOff hf) fun _ => ?_
    refine .follow (uses_iunlock (update_self ..)) fun _ => ?_
    refine .follow (uses_endOp rfl) fun _ => ?_
    have he : ({ h with op := false } : Held) = h := by rw [← hop]
    dsimp only at hl ⊢
    rw [update_unlock hl, he]
    exact .ite (fun _ => ih) fun _ => .ret rfl

lemma uses_filewrite {src : Src} {m : Int32} {other : Int} (hop : h.op = false) (hf : h.file = none) :
    Uses i s0 (filewrite i f src m other) h fun _ h' => h' = h := by
  refine .follow uses_getFile fun x => ?_
  refine .ite (fun _ => .ret rfl) fun _ => ?_
  split
  · exact .ret rfl
  · exact .ret rfl
  · exact .follow (uses_filewriteLoop hop hf) fun k => .ret rfl
  · exact uses_panic

lemma uses_filestat {ok : Bool} : Uses i s0 (filestat i f ok) h fun _ h' => h' = h := by
  refine .follow uses_getFile fun x => ?_
  split
  · refine .ite (fun _ => ?_) fun _ => .ret rfl
    refine .bind uses_ilock ?_
    rintro _ _ ⟨hl, rfl⟩
    refine .follow uses_getInode fun x => ?_
    refine .follow (uses_iunlock (update_self ..)) fun _ => .ret ?_
    simp [update_unlock hl]
  · exact .ret rfl

omit [Superblock] in
lemma uses_argfd : Uses i s0 (argfd fd) h fun _ h' => h' = h := by
  unfold argfd
  split
  · refine .follow uses_getOfile fun o => ?_
    cases o with
    | none => exact .ret rfl
    | some f => exact .ret rfl
  · exact .ret rfl

omit [Superblock] in
lemma uses_sysDup (hf : h.file = none) : Uses i s0 (sysDup fd) h fun _ h' => h' = h := by
  refine .follow uses_argfd fun o => ?_
  cases o with
  | none => exact .ret rfl
  | some r =>
    refine .follow uses_fdalloc fun o => ?_
    cases o with
    | none => exact .ret rfl
    | some k => exact .follow (uses_filedup hf) fun _ => .ret rfl

lemma uses_sysWrite {src : Src} {m : Int32} {other : Int} (hop : h.op = false)
    (hf : h.file = none) : Uses i s0 (sysWrite i fd src m other) h fun _ h' => h' = h := by
  refine .follow uses_argfd fun o => ?_
  cases o with
  | none => exact .ret rfl
  | some r => exact uses_filewrite hop hf

lemma uses_sysClose (hop : h.op = false) (hf : h.file = none) :
    Uses i s0 (sysClose fd) h fun _ h' => h' = h := by
  refine .follow uses_argfd fun o => ?_
  cases o with
  | none => exact .ret rfl
  | some r =>
    refine .follow uses_clearOfile fun _ => ?_
    exact .follow (uses_fileclose hop hf) fun _ => .ret rfl

lemma uses_sysFstat {ok : Bool} : Uses i s0 (sysFstat i fd ok) h fun _ h' => h' = h := by
  refine .follow uses_argfd fun o => ?_
  cases o with
  | none => exact .ret rfl
  | some r => exact uses_filestat

omit [Superblock] in
lemma uses_endFail (hop : h.op = true) : Uses i s0 endFail h fun _ h' => h' = { h with op := false } :=
  .follow (uses_endOp hop) fun _ => .ret rfl

lemma uses_putFail (hop : h.op = true) (hl : h.locks ip = true) :
    Uses i s0 (putFail i ip) h fun _ h' => h' = { h with
      op := false, locks := update h.locks ip false, refs := h.refs - ptr (some ip) } :=
  .follow (uses_iunlockput hop hl) fun _ => uses_endFail hop

lemma uses_linkBad (hop : h.op = true) : Uses i s0 (linkBad i ip) h fun _ h' =>
    h' = { h with op := false, refs := h.refs - ptr (some ip) } := by
  refine .bind uses_ilock ?_
  rintro _ _ ⟨hl, rfl⟩
  refine .follow uses_getInode fun x => ?_
  refine .follow uses_setInode fun _ => ?_
  refine .follow (uses_iupdate hop) fun _ => ?_
  refine .follow (uses_iunlockput hop (update_self ..)) fun _ => ?_
  refine .mono (uses_endFail hop) ?_
  rintro _ _ rfl
  simp [update_unlock hl]

lemma uses_linkEntry {dx x : Inode} {name : List UInt8} (hop : h.op = true) :
    Uses i s0 (linkEntry dp dx x name) h fun _ h' => h' = h :=
  .ite (fun _ => .ret rfl) fun _ => uses_dirlink hop

lemma uses_sysLink {old new : Path} (hop : h.op = false) :
    Uses i s0 (sysLink i old new) h fun _ h' => h' = h := by
  have hback : ({ h with op := false } : Held) = h := by rw [← hop]
  unfold sysLink
  split
  · rename_i old new
    refine .follow (uses_beginOp hop) fun _ => ?_
    refine .follow (uses_namei rfl) fun o => ?_
    cases o with
    | none =>
      refine (uses_endFail rfl).mono ?_
      rintro _ _ rfl
      simpa using hback
    | some ip =>
      refine .bind uses_ilock ?_
      rintro _ _ ⟨hl, rfl⟩
      refine .follow uses_getInode fun x => ?_
      refine .ite (fun _ => ?_) fun _ => ?_
      · refine .follow (uses_iunlockput rfl (update_self ..)) fun _ => ?_
        refine (uses_endFail rfl).mono ?_
        rintro _ _ rfl
        simpa [update_unlock hl] using hback
      · refine .follow uses_setInode fun _ => ?_
        refine .follow (uses_iupdate rfl) fun _ => ?_
        refine .follow (uses_iunlock (update_self ..)) fun _ => ?_
        refine .follow (uses_nameiparent rfl) fun o => ?_
        cases o with
        | none =>
          refine (uses_linkBad rfl).mono ?_
          rintro _ _ rfl
          simpa [update_unlock hl] using hback
        | some r =>
          obtain ⟨dp, name⟩ := r
          refine .bind uses_ilock ?_
          rintro _ _ ⟨hl2, rfl⟩
          dsimp only at hl hl2 ⊢
          rw [update_unlock hl] at hl2 ⊢
          refine .follow uses_getInode fun dx => ?_
          refine .follow uses_getInode fun x => ?_
          refine .follow (uses_linkEntry rfl) fun ok => ?_
          refine .ite (fun _ => ?_) fun _ => ?_
          · refine .follow (uses_iunlockput rfl (update_self ..)) fun _ => ?_
            refine .follow (uses_iput rfl) fun _ => ?_
            refine .follow (uses_endOp rfl) fun _ => .ret ?_
            simpa [update_unlock hl2] using hback
          · refine .follow (uses_iunlockput rfl (update_self ..)) fun _ => ?_
            refine (uses_linkBad rfl).mono ?_
            rintro _ _ rfl
            simpa [update_unlock hl2] using hback
  · exact .ret rfl

lemma uses_isdiremptyLoop {sz off : Nat} (hop : h.op = true) :
    Uses i s0 (isdiremptyLoop dp sz n off) h fun _ h' => h' = h := by
  induction n generalizing off with
  | zero => exact .ret rfl
  | succ n ih =>
    refine .ite (fun _ => ?_) fun _ => .ret rfl
    refine .follow (uses_readi hop) fun (r, de) => ?_
    refine .follow uses_check fun _ => ?_
    exact .ite (fun _ => .ret rfl) fun _ => ih

lemma uses_unlinkable {x : Inode} (hop : h.op = true) :
    Uses i s0 (unlinkable ip x) h fun _ h' => h' = h :=
  .ite (fun _ => .follow uses_getInode fun _ => uses_isdiremptyLoop hop) fun _ => .ret rfl

lemma uses_sysUnlink (hop : h.op = false) :
    Uses i s0 (sysUnlink i path) h fun _ h' => h' = h := by
  have hback : ({ h with op := false } : Held) = h := by rw [← hop]
  unfold sysUnlink
  split
  · exact .ret rfl
  · refine .follow (uses_beginOp hop) fun _ => ?_
    refine .follow (uses_nameiparent rfl) fun o => ?_
    cases o with
    | none =>
      refine (uses_endFail rfl).mono ?_
      rintro _ _ rfl
      simpa using hback
    | some r =>
      obtain ⟨dp, name⟩ := r
      refine .bind uses_ilock ?_
      rintro _ _ ⟨hl, rfl⟩
      dsimp only at hl
      refine .ite (fun _ => ?_) fun _ => ?_
      · refine .mono (uses_putFail rfl (update_self ..)) ?_
        rintro _ _ rfl
        simpa [update_unlock hl] using hback
      · refine .follow (uses_dirlookup rfl) fun o => ?_
        cases o with
        | none =>
          refine .mono (uses_putFail rfl (update_self ..)) ?_
          rintro _ _ rfl
          simpa [update_unlock hl] using hback
        | some r =>
          obtain ⟨ip, off⟩ := r
          refine .bind uses_ilock ?_
          rintro _ _ ⟨hl2, rfl⟩
          dsimp only at hl2
          have hne : dp ≠ ip := (of_update hl2 (by rintro ⟨⟩)).1.symm
          refine .follow uses_getInode fun x => ?_
          refine .follow uses_check fun _ => ?_
          refine .follow (uses_unlinkable rfl) fun ok => ?_
          refine .ite (fun _ => ?_) fun _ => ?_
          · refine .follow (uses_writei rfl) fun r => ?_
            refine .follow uses_check fun _ => ?_
            refine .follow (uses_optional fun _ => ?_) fun _ => ?_
            · refine .follow uses_getInode fun dx => ?_
              exact .follow uses_setInode fun _ => uses_iupdate rfl
            · refine .follow (uses_iunlockput rfl (by simp [hne])) fun _ => ?_
              dsimp only
              rw [update_unlock_first hl hl2]
              refine .follow uses_getInode fun x => ?_
              refine .follow uses_setInode fun _ => ?_
              refine .follow (uses_iupdate rfl) fun _ => ?_
              refine .follow (uses_iunlockput rfl (update_self ..)) fun _ => ?_
              refine .follow (uses_endOp rfl) fun _ => .ret ?_
              simpa [update_unlock ((of_update hl2 (by rintro ⟨⟩)).2), add_sub_right_comm] using hback
          · refine .follow (uses_iunlockput rfl (update_self ..)) fun _ => ?_
            dsimp only
            rw [update_unlock hl2]
            refine .mono (uses_putFail rfl (update_self ..)) ?_
            rintro _ _ rfl
            simpa [update_unlock hl] using hback

lemma uses_createDots {inum parent : Nat} (hop : h.op = true) :
    Uses i s0 (createDots ip inum parent) h fun _ h' => h' = h := by
  refine .follow (uses_dirlink hop) fun ok => ?_
  exact .ite (fun _ => uses_dirlink hop) fun _ => .ret rfl

lemma uses_createEntries {name : List UInt8} {type : Int16} {inum parent : Nat} (hop : h.op = true) :
    Uses i s0 (createEntries dp ip name type inum parent) h fun _ h' => h' = h := by
  refine .ite (fun _ => ?_) fun _ => uses_dirlink hop
  refine .follow (uses_createDots hop) fun ok => ?_
  exact .ite (fun _ => uses_dirlink hop) fun _ => .ret rfl

/-- What `create` returns with: the lock of the inode and a reference to it. -/
def Created (h : Held) : Option Slot → Held → Prop
  | none, h' => h' = h
  | some ip, h' => h.locks ip = false ∧
    h' = { h with locks := update h.locks ip true, refs := h.refs + ptr (some ip) }

lemma uses_createLink {name : List UInt8} {type major minor : Int16} {h0 : Held} (hop : h0.op = true)
    (hl : h0.locks dp = false) (hh : h = { h0 with
      locks := update h0.locks dp true, refs := h0.refs + ptr (some dp) + ptr (some ip) }) :
    Uses i s0 (createLink i dp ip name type major minor) h (Created h0) := by
  subst hh
  refine .bind uses_ilock ?_
  rintro _ _ ⟨hl2, rfl⟩
  dsimp only at hl2
  have hne : dp ≠ ip := (of_update hl2 nofun).1.symm
  refine .follow uses_getInode fun x => ?_
  refine .follow uses_setInode fun _ => ?_
  refine .follow (uses_iupdate hop) fun _ => ?_
  refine .follow uses_getInode fun dx => ?_
  refine .follow (uses_createEntries hop) fun ok => ?_
  refine .ite (fun _ => ?_) fun _ => ?_
  · refine .follow (uses_optional fun _ => ?_) fun _ => ?_
    · refine .follow uses_getInode fun dx => ?_
      exact .follow uses_setInode fun _ => uses_iupdate hop
    · refine .follow (uses_iunlockput hop (by simp [hne])) fun _ => .ret ?_
      refine ⟨(of_update hl2 nofun).2, ?_⟩
      simp [update_unlock_first hl hl2, add_sub_right_comm]
  · refine .follow uses_getInode fun x => ?_
    refine .follow uses_setInode fun _ => ?_
    refine .follow (uses_iupdate hop) fun _ => ?_
    refine .follow (uses_iunlockput hop (update_self ..)) fun _ => ?_
    dsimp only
    rw [update_unlock hl2]
    refine .follow (uses_iunlockput hop (update_self ..)) fun _ => .ret ?_
    simp [Created, update_unlock hl]

lemma uses_create {path : List UInt8} {type major minor : Int16} (hop : h.op = true) :
    Uses i s0 (create i path type major minor) h (Created h) := by
  refine .follow (uses_nameiparent hop) fun o => ?_
  cases o with
  | none => exact .ret (by simp [Created])
  | some r =>
    obtain ⟨dp, name⟩ := r
    refine .bind uses_ilock ?_
    rintro _ _ ⟨hl, rfl⟩
    dsimp only at hl
    refine .follow (uses_dirlookup hop) fun o => ?_
    cases o with
    | some r =>
      obtain ⟨ip, off⟩ := r
      refine .follow (uses_iunlockput hop (update_self ..)) fun _ => ?_
      dsimp only
      rw [update_unlock hl]
      refine .bind uses_ilock ?_
      rintro _ _ ⟨hl2, rfl⟩
      refine .follow uses_getInode fun x => ?_
      refine .ite (fun _ => .ret ?_) fun _ => ?_
      · exact ⟨hl2, by simp [add_sub_right_comm]⟩
      · refine .follow (uses_iunlockput hop (update_self ..)) fun _ => .ret ?_
        dsimp only at hl2
        simp [Created, update_unlock hl2, add_sub_right_comm]
    | none =>
      refine .follow uses_getInode fun dx => ?_
      refine .bind (uses_ialloc hop) fun o h' ho => ?_
      cases o with
      | none =>
        subst ho
        refine .follow (uses_iunlockput hop (update_self ..)) fun _ => .ret ?_
        simp [Created, update_unlock hl]
      | some ip => exact uses_createLink hop hl (ho.trans (by simp))

lemma uses_openInode {omode : UInt32} {h0 : Held} (hop : h0.op = false) (hf : h0.file = none)
    (hl : h0.locks ip = false) (hh : h = { h0 with
      op := true, locks := update h0.locks ip true, refs := h0.refs + ptr (some ip) }) :
    Uses i s0 (openInode i ip omode) h fun _ h' => h' = h0 := by
  subst hh
  have hback : ({ h0 with op := false } : Held) = h0 := by rw [← hop]
  refine .follow uses_getInode fun x => ?_
  have hput : Uses i s0 (putFail i ip) _ fun _ h' => h' = h0 :=
    .mono (k := { h0 with
      op := true, locks := update h0.locks ip true, refs := h0.refs + ptr (some ip) })
      (uses_putFail rfl (update_self ..)) (by
        rintro _ _ rfl
        simpa [update_unlock hl] using hback)
  refine .ite (fun _ => hput) fun _ => ?_
  refine .bind uses_filealloc fun o h' ho => ?_
  cases o with
  | none =>
    subst ho
    exact hput
  | some f =>
    subst ho
    refine .follow uses_fdalloc fun o => ?_
    cases o with
    | none =>
      refine .follow (uses_fileclose_new rfl) fun _ => ?_
      dsimp only
      rw [← hf]
      exact hput
    | some fd =>
      refine .follow (uses_openFile rfl) fun _ => ?_
      refine .follow (uses_optional fun _ => uses_itrunc rfl)
        fun _ => ?_
      refine .follow (uses_iunlock (update_self ..)) fun _ => ?_
      refine .follow (uses_endOp rfl) fun _ => .ret ?_
      simpa [update_unlock hl, ← hf] using hback

lemma uses_sysOpen {omode : UInt32} (hop : h.op = false) (hf : h.file = none) :
    Uses i s0 (sysOpen i path omode) h fun _ h' => h' = h := by
  have hback : ({ h with op := false } : Held) = h := by rw [← hop]
  unfold sysOpen
  split
  · exact .ret rfl
  · refine .follow (uses_beginOp hop) fun _ => ?_
    refine .ite (fun _ => ?_) fun _ => ?_
    · refine .bind (uses_create rfl) fun o h' ho => ?_
      cases o with
      | none =>
        refine .mono (uses_endFail (by rw [ho])) ?_
        rintro _ _ rfl
        rw [ho]
        exact hback
      | some ip => exact uses_openInode hop hf ho.1 ho.2
    · refine .follow (uses_namei rfl) fun o => ?_
      cases o with
      | none =>
        refine .mono (uses_endFail rfl) ?_
        rintro _ _ rfl
        simpa using hback
      | some ip =>
        refine .bind uses_ilock ?_
        rintro _ _ ⟨hl, rfl⟩
        refine .follow uses_getInode fun x => ?_
        refine .ite (fun _ => ?_) fun _ => uses_openInode hop hf hl rfl
        refine .mono (uses_putFail rfl (update_self ..)) ?_
        rintro _ _ rfl
        dsimp only at hl
        simpa [update_unlock hl] using hback

lemma uses_sysCreate {type major minor : Int16} (hop : h.op = false) :
    Uses i s0 (sysCreate i path type major minor) h fun _ h' => h' = h := by
  have hback : ({ h with op := false } : Held) = h := by rw [← hop]
  refine .follow (uses_beginOp hop) fun _ => ?_
  cases path with
  | none =>
    refine .mono (uses_endFail rfl) ?_
    rintro _ _ rfl
    exact hback
  | some path =>
    refine .bind (uses_create rfl) fun o h' ho => ?_
    cases o with
    | none =>
      refine .mono (uses_endFail (by rw [ho])) ?_
      rintro _ _ rfl
      rw [ho]
      exact hback
    | some ip =>
      obtain ⟨hl, rfl⟩ := ho
      refine .follow (uses_iunlockput rfl (update_self ..)) fun _ => ?_
      refine .follow (uses_endOp rfl) fun _ => .ret ?_
      dsimp only at hl
      simpa [update_unlock hl] using hback

lemma uses_iputCwd (hop : h.op = true) : Uses i s0 iputCwd h fun _ h' =>
    h' = { h with refs := h.refs - ptr h.cwd } := by
  refine .bind uses_getCwd ?_
  rintro _ _ ⟨rfl, rfl⟩
  exact uses_iputPtr hop

lemma uses_sysChdir (hop : h.op = false) (hc : h.cwd ≠ none) :
    Uses i s0 (sysChdir i path) h fun _ h' => ∃ o, h' = { h with cwd := o } := by
  have hback : ({ h with op := false } : Held) = h := by rw [← hop]
  refine .follow (uses_beginOp hop) fun _ => ?_
  cases path with
  | none =>
    refine .mono (uses_endFail rfl) ?_
    rintro _ _ rfl
    exact ⟨h.cwd, hback⟩
  | some path =>
    refine .follow (uses_namei rfl) fun o => ?_
    cases o with
    | none =>
      refine .mono (uses_endFail rfl) ?_
      rintro _ _ rfl
      exact ⟨h.cwd, by simp [hop]⟩
    | some ip =>
      refine .bind uses_ilock ?_
      rintro _ _ ⟨hl, rfl⟩
      dsimp only at hl
      refine .follow uses_getInode fun x => ?_
      refine .ite (fun _ => ?_) fun _ => ?_
      · refine .mono (uses_putFail rfl (update_self ..)) ?_
        rintro _ _ rfl
        exact ⟨h.cwd, by simp [update_unlock hl, hop]⟩
      · refine .follow (uses_iunlock (update_self ..)) fun _ => ?_
        refine .follow (uses_iputCwd rfl) fun _ => ?_
        refine .follow (uses_endOp rfl) fun _ => ?_
        refine .follow (uses_setCwd hc) fun _ => .ret ⟨some ip, ?_⟩
        simp [update_unlock hl, hop]

lemma uses_loadsegLoop {offset sz k : Nat} (hop : h.op = true) :
    Uses i s0 (loadsegLoop ip offset sz n k) h fun _ h' => h' = h := by
  induction n generalizing k with
  | zero => exact .ret rfl
  | succ n ih =>
    refine .follow (uses_readi hop) fun (r, l) => ?_
    exact .ite (fun _ => ih) fun _ => .ret rfl

lemma uses_loadLoop {env : ExecEnv} {off : Nat} (hop : h.op = true) :
    Uses i s0 (loadLoop ip env n off) h fun _ h' => h' = h := by
  induction n generalizing off with
  | zero => exact .ret rfl
  | succ n ih =>
    refine .follow (uses_readi hop) fun (r, l) => ?_
    refine .ite (fun _ => .ret rfl) fun _ => ?_
    refine .ite (fun _ => ih) fun _ => ?_
    refine .ite (fun _ => .ret rfl) fun _ => ?_
    refine .ite (fun _ => ?_) fun _ => .ret rfl
    refine .follow (uses_loadsegLoop hop) fun ok => ?_
    exact .ite (fun _ => ih) fun _ => .ret rfl

lemma uses_exec {path : List UInt8} {env : ExecEnv} (hop : h.op = false) :
    Uses i s0 (exec i path env) h fun _ h' => h' = h := by
  have hback : ({ h with op := false } : Held) = h := by rw [← hop]
  refine .follow (uses_beginOp hop) fun _ => ?_
  refine .follow (uses_namei rfl) fun o => ?_
  cases o with
  | none =>
    refine .mono (uses_endFail rfl) ?_
    rintro _ _ rfl
    simpa using hback
  | some ip =>
    refine .bind uses_ilock ?_
    rintro _ _ ⟨hl, rfl⟩
    dsimp only at hl
    have hput : Uses i s0 (putFail i ip) _ fun _ h' => h' = h :=
      .mono (k := { h with
        op := true, locks := update h.locks ip true, refs := h.refs + ptr (some ip) })
        (uses_putFail rfl (update_self ..)) (by
          rintro _ _ rfl
          simpa [update_unlock hl] using hback)
    refine .follow (uses_readi rfl) fun r => ?_
    refine .ite (fun _ => hput) fun _ => ?_
    refine .follow (uses_loadLoop rfl) fun ok => ?_
    refine .ite (fun _ => ?_) fun _ => hput
    refine .follow (uses_iunlockput rfl (update_self ..)) fun _ => ?_
    refine .follow (uses_endOp rfl) fun _ => .ret ?_
    simpa [update_unlock hl] using hback

omit [Superblock] in
lemma uses_forkLoop {j : Pid} {fds : List (Fin NOFILE)} (hf : h.file = none) :
    Uses i s0 (forkLoop j fds) h fun _ h' => h' = h := by
  induction fds with
  | nil => exact .ret rfl
  | cons fd fds ih =>
    refine .follow (m := fun _ => h) (.follow uses_getOfile fun o => ?_) fun _ => ih
    cases o with
    | none => exact .ret rfl
    | some f => exact .follow (uses_filedup hf) fun _ => uses_childOfile

omit [Superblock] in
lemma uses_fork {ok : Bool} (hf : h.file = none) (hc : h.cwd ≠ none) (hj : h.child = none) :
    Uses i s0 (fork ok) h fun _ h' => h' = h := by
  have hback : ({ h with child := none } : Held) = h := by rw [← hj]
  refine .bind (uses_allocproc hc) fun o h' ho => ?_
  cases o with
  | none => exact .ret ho
  | some j =>
    subst ho
    refine .ite (fun _ => ?_) fun _ => ?_
    · refine .follow (uses_forkLoop hf) fun _ => ?_
      refine .follow uses_idupCwd fun ip => ?_
      refine .follow (uses_childCwd rfl) fun _ => .ret ?_
      simpa using hback
    · exact .follow (uses_freeproc rfl) fun _ => .ret hback

lemma uses_exitLoop {fds : List (Fin NOFILE)} (hop : h.op = false) (hf : h.file = none) :
    Uses i s0 (exitLoop fds) h fun _ h' => h' = h := by
  induction fds with
  | nil => exact .ret rfl
  | cons fd fds ih =>
    refine .follow (m := fun _ => h) (.follow uses_getOfile fun o => ?_) fun _ => ih
    cases o with
    | none => exact .ret rfl
    | some f => exact .follow (uses_fileclose hop hf) fun _ => uses_clearOfile

lemma uses_exit (hop : h.op = false) (hf : h.file = none) (hj : h.child = none) :
    Uses i s0 (exit i) h fun _ h' => ∃ o, h' = { h with cwd := o } := by
  refine .follow uses_check fun _ => ?_
  refine .follow (uses_exitLoop hop hf) fun _ => ?_
  refine .follow (uses_beginOp hop) fun _ => ?_
  refine .follow (uses_iputCwd rfl) fun _ => ?_
  refine .follow (uses_endOp rfl) fun _ => ?_
  refine .follow (uses_zombie hj) fun _ => .ret ⟨none, ?_⟩
  simp [← hop]

def Held.idle (cwd : Option Slot) : Held := ⟨false, fun _ => false, fun _ => false, fun _ => 0, cwd, none, none⟩

/-- A process has a current directory, and the free entries of the file and process tables are clear. -/
structure Ready (i : Pid) (s : State) : Prop where
  live : (s.proc i).state ≠ .unused
  cwd : (s.proc i).cwd ≠ none
  files : ∀ f, (s.file f).ref = 0 → (s.file f).type = .none
  procs : ∀ j, (s.proc j).state = .unused → (s.proc j).cwd = none

omit [Superblock] in
lemma Ready.account (hs : Ready i s) : Account i s (.idle (s.proc i).cwd) s where
  outstanding := by simp [Held.idle]
  trace := ⟨[], rfl, rfl⟩
  bufs _ := rfl
  bufs_free := nofun
  locks _ := rfl
  locks_free := nofun
  refs _ := by simp [Held.idle]
  cwd := rfl
  live _ := hs.live
  file := nofun
  child := nofun
  files := hs.files
  procs := hs.procs

/-- A call that takes process `i` from `s` to `s'` has ended the transactions that it started, has dropped
    inodes and logged blocks only inside of them, holds no lock that it has taken, and has changed the
    reference counts by the references that it has stored or removed. -/
structure Balanced (i : Pid) (s s' : State) : Prop where
  outstanding : s'.log.outstanding = s.log.outstanding
  trace : ∃ es, s'.trace = es ++ s.trace ∧ inOp i es = some false
  bufs : s'.bufLock = s.bufLock
  locks : ∀ ip, (s'.inode ip).lock = (s.inode ip).lock
  refs : ∀ ip, (s'.inode ip).ref - (s.inode ip).ref = stored s' ip - stored s ip
  files : ∀ f, (s'.file f).ref = 0 → (s'.file f).type = .none
  procs : ∀ j, (s'.proc j).state = .unused → (s'.proc j).cwd = none

section
omit [Superblock]

lemma Account.balanced {s s' : State} {o : Option Slot} (hs : Account i s (.idle o) s') : Balanced i s s' where
  outstanding := by simpa [Held.idle] using hs.outstanding
  trace := hs.trace
  bufs := funext hs.bufs
  locks := hs.locks
  refs ip := by
    have := hs.refs ip
    simp only [Held.idle] at this
    omega
  files := hs.files
  procs := hs.procs

lemma Uses.wp_balanced {p : FsM Int} (hs : Ready i s)
    (hp : Uses i s p (.idle (s.proc i).cwd) fun _ h' => ∃ o, h' = .idle o) :
    wp (p.run (Act.run i)) (fun _ s' => Balanced i s s') (fun _ _ => True) s := by
  apply wp_mono (hp s hs.account)
  rintro _ s' ⟨_, ⟨o, rfl⟩, hs'⟩
  exact hs'.balanced

lemma Uses.wp_balanced_of_eq {p : FsM Int} (hs : Ready i s)
    (hp : Uses i s p (.idle (s.proc i).cwd) fun _ h' => h' = .idle (s.proc i).cwd) :
    wp (p.run (Act.run i)) (fun _ s' => Balanced i s s') (fun _ _ => True) s :=
  Uses.wp_balanced hs (hp.mono fun _ _ e => ⟨_, e⟩)

lemma wp_argfd :
    wp ((argfd fd).run (Act.run i)) (fun _ s' => s' = s) (fun _ _ => True) s := by
  unfold argfd
  split
  · rw [Prog.wp_run_bind, wp_look rfl]
    split
    · exact wp_pure.2 rfl
    · exact wp_pure.2 rfl
  · exact wp_pure.2 rfl

end

lemma wp_sysRead_balanced {dst : Dst} {m : Int32} {other : Int} (hs : Ready i s)
    (hw : s.Whole) :
    wp ((sysRead i fd dst m other).run (Act.run i)) (fun _ s' => Balanced i s s') (fun _ _ => True) s := by
  unfold sysRead
  rw [Prog.wp_run_bind]
  apply wp_mono wp_argfd
  rintro o _ rfl
  cases o with
  | none => exact wp_pure.2 hs.account.balanced
  | some r => exact wp_mono (wp_fileread rfl hs.account hw) fun _ _ h => h.balanced

lemma Call.wp_balanced {c : Call} (hs : Ready i s) (hw : s.Whole) :
    wp ((c.prog i).run (Act.run i)) (fun _ s' => Balanced i s s') (fun _ _ => True) s := by
  cases c with
  | «open» path omode => exact Uses.wp_balanced_of_eq hs (uses_sysOpen rfl rfl)
  | close fd => exact Uses.wp_balanced_of_eq hs (uses_sysClose rfl rfl)
  | dup fd => exact Uses.wp_balanced_of_eq hs (uses_sysDup rfl)
  | read fd mapped addr n other => exact wp_sysRead_balanced hs hw
  | write fd mem addr n other => exact Uses.wp_balanced_of_eq hs (uses_sysWrite rfl rfl)
  | fstat fd ok => exact Uses.wp_balanced_of_eq hs uses_sysFstat
  | link old new => exact Uses.wp_balanced_of_eq hs (uses_sysLink rfl)
  | unlink path => exact Uses.wp_balanced_of_eq hs (uses_sysUnlink rfl)
  | mkdir path | mknod path major minor => exact Uses.wp_balanced_of_eq hs (uses_sysCreate rfl)
  | chdir path => exact Uses.wp_balanced hs (uses_sysChdir rfl hs.cwd)
  | exec path env => exact Uses.wp_balanced_of_eq hs (uses_exec rfl)
  | fork ok => exact Uses.wp_balanced_of_eq hs (uses_fork rfl hs.cwd rfl)
  | exit => exact Uses.wp_balanced hs (uses_exit rfl rfl rfl)

/-- Every system call is balanced, on every path that returns. -/
theorem call_balanced {s s' : State} {c : Call} {r : Int} (hs : Ready i s) (hw : s.Whole)
    (hr : (c.prog i).run (Act.run i) s = .ok r s') : Balanced i s s' := by
  have h1 := c.wp_balanced hs hw
  exact (wp_def.1 h1).1 r s' hr

end

section sample
attribute [local instance] Sample.superblock

lemma Sample.ready : Ready 0 Sample.start where
  live := by decide
  cwd := by decide
  files _ _ := rfl
  procs j hj := by
    by_cases h0 : j = 0
    · subst h0
      cases hj
    · simp [Sample.start, State.boot, h0]

lemma Sample.whole : Sample.start.Whole := by
  intro ip hr bn hbn
  by_cases h0 : ip = 0
  · subst h0
    have hsz : (Sample.start.dinode 0).size = 32 := by decide +kernel
    have hb0 : (Sample.start.dinode 0).block Sample.start.view 0 ≠ 0 := by decide +kernel
    rw [hsz] at hbn
    have : bn = 0 := by
      simp only [BSIZE] at hbn
      have : (32 : UInt32).toNat = 32 := rfl
      omega
    rwa [this]
  · simp [Sample.start, State.boot, h0] at hr

/-- A file is created in the root directory of the small disk. -/
theorem call_balanced_open : ∃ r s',
    (Call.prog 0 (.open (some ['a'.toUInt8]) (O_CREATE ||| O_RDWR))).run (Act.run 0) Sample.start = .ok r s' ∧
      Balanced 0 Sample.start s' := by
  obtain ⟨r, s', h⟩ := exists_of_returns (x := (Call.prog 0 (.open (some ['a'.toUInt8])
    (O_CREATE ||| O_RDWR))).run (Act.run 0)) (s := Sample.start) (by decide +kernel)
  exact ⟨r, s', h, call_balanced Sample.ready Sample.whole h⟩

end sample

end Xv6n.Fs
