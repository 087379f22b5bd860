import Xv6n.Fs.Balance

/-!
# What the functions of the file system hold

One lemma for each function of `kernel/fs.c`: what it holds when it returns. They need an open transaction,
because each of them may have to allocate or free a block.
-/

namespace Xv6n.Fs
open Lib Function
variable [Superblock] {i : Pid} {s0 : State} {h : Held} {b n : Nat} {ip dp : Slot}

section
omit [Superblock]

lemma update_unlock {κ : Type} [DecidableEq κ] {g : κ → Bool} {x : κ} (hx : g x = false) :
    update (update g x true) x false = g := by
  rw [update_idem, ← hx, update_eq_self]

lemma uses_section {α : Type} {p : Block → FsM α} {Q : α → Held → Prop}
    (hp : ∀ d h1, h.bufs b = false → h1 = { h with bufs := update h.bufs b true } →
      Uses i s0 (p d) h1 Q) :
    Uses i s0 (bread b >>= p) h Q :=
  uses_bread.bind fun d h1 hq => hp d h1 hq.1 hq.2

lemma uses_release (hb : h.bufs b = false) :
    Uses i s0 (brelse b) { h with bufs := update h.bufs b true } fun _ h' => h' = h := by
  refine (uses_brelse (update_self ..)).mono ?_
  rintro _ _ rfl
  rw [update_unlock hb]

lemma uses_write {d : Block} (hop : h.op = true) (hb : h.bufs b = false) :
    Uses i s0 (do bset b d; logWrite b; brelse b) { h with bufs := update h.bufs b true }
      fun _ h' => h' = h := by
  refine .follow uses_bset fun _ => ?_
  refine .follow (uses_logWrite hop) fun _ => ?_
  exact uses_release hb

lemma uses_bzero (hop : h.op = true) : Uses i s0 (bzero b) h fun _ h' => h' = h := by
  refine uses_section fun d h1 hb e => ?_
  subst e
  exact uses_write hop hb

end

section
variable {dev inum : Nat} {type : Int16} (hop : h.op = true)
include hop

lemma uses_ballocLoop : Uses i s0 (ballocLoop n b) h fun _ h' => h' = h := by
  induction n generalizing b with
  | zero => exact .ret rfl
  | succ n ih =>
    refine uses_section fun d h1 hb e => ?_
    subst e
    split
    · refine .follow uses_bset fun _ => ?_
      refine .follow (uses_logWrite hop) fun _ => ?_
      refine .follow (uses_release hb) fun _ => ?_
      refine .follow (uses_bzero hop) fun _ => ?_
      exact .ret rfl
    · refine .follow (uses_release hb) fun _ => ?_
      exact ih

lemma uses_balloc : Uses i s0 balloc h fun _ h' => h' = h := uses_ballocLoop hop

lemma uses_bfree : Uses i s0 (bfree b) h fun _ h' => h' = h := by
  refine uses_section fun d h1 hb e => ?_
  subst e
  exact .ite (fun _ => uses_write hop hb) fun _ => uses_panic

lemma uses_iallocLoop :
    Uses i s0 (iallocLoop dev type n inum) h fun o h' => match o with
      | none => h' = h
      | some ip => h' = { h with refs := h.refs + ptr (some ip) } := by
  induction n generalizing inum with
  | zero => exact .ret rfl
  | succ n ih =>
    refine uses_section fun d h1 hb e => ?_
    subst e
    refine .ite (fun _ => ?_) fun _ => ?_
    · refine .follow uses_bset fun _ => ?_
      refine .follow (uses_logWrite hop) fun _ => ?_
      refine .follow (uses_release hb) fun _ => ?_
      refine .follow uses_iget fun ip => ?_
      exact .ret rfl
    · refine .follow (uses_release hb) fun _ => ?_
      exact ih

lemma uses_ialloc :
    Uses i s0 (ialloc dev type) h fun o h' => match o with
      | none => h' = h
      | some ip => h' = { h with refs := h.refs + ptr (some ip) } := uses_iallocLoop hop

lemma uses_iupdate : Uses i s0 (iupdate ip) h fun _ h' => h' = h := by
  refine .follow uses_getInode fun x => ?_
  refine uses_section fun d h1 hb e => ?_
  subst e
  exact uses_write hop hb

end

lemma uses_ilock : Uses i s0 (ilock ip) h fun _ h' =>
    h.locks ip = false ∧ h' = { h with locks := update h.locks ip true } := by
  refine .follow uses_getInode fun x => ?_
  refine .follow uses_check fun _ => ?_
  refine uses_acquiresleep.bind ?_
  rintro _ _ ⟨hl, rfl⟩
  refine .follow uses_getInode fun x => ?_
  refine uses_when (fun _ => ?_) fun _ => ⟨hl, rfl⟩
  refine uses_section fun d h1 hb e => ?_
  subst e
  refine .follow uses_setInode fun _ => ?_
  refine .follow (uses_release hb) fun _ => ?_
  refine .follow uses_setValid fun _ => ?_
  exact uses_panicIf fun _ => ⟨hl, rfl⟩

omit [Superblock] in
lemma uses_iunlock (hl : h.locks ip = true) : Uses i s0 (iunlock i ip) h fun _ h' =>
    h' = { h with locks := update h.locks ip false } := by
  refine .follow uses_getInode fun x => ?_
  refine .follow uses_check fun _ => ?_
  exact uses_releasesleep hl

section
variable {d : Block} {name : List UInt8} {m sz off inum fuel tot : Nat} {dst : Dst} {src : Src}
  {o k : UInt32} (hop : h.op = true)
include hop

lemma uses_itruncDirect : Uses i s0 (itruncDirect ip n) h fun _ h' => h' = h := by
  induction n with
  | zero => exact .ret rfl
  | succ n ih =>
    refine .follow uses_getInode fun x => ?_
    refine .follow (uses_optional fun _ => ?_) ?_
    · refine .follow (uses_bfree hop) fun _ => ?_
      exact uses_setInode
    · exact fun _ => ih

lemma uses_itruncIndirect :
    Uses i s0 (itruncIndirect d n) h fun _ h' => h' = h := by
  induction n with
  | zero => exact .ret rfl
  | succ n ih =>
    refine .follow (uses_optional fun _ => uses_bfree hop) fun _ => ?_
    exact ih

lemma uses_itrunc : Uses i s0 (itrunc ip) h fun _ h' => h' = h := by
  refine .follow uses_getInode fun x => ?_
  refine .follow (uses_note rfl) fun _ => ?_
  refine .follow (uses_itruncDirect hop) fun _ => ?_
  refine .follow uses_getInode fun x => ?_
  refine .follow (uses_optional fun _ => ?_) ?_
  · refine uses_section fun d h1 hb e => ?_
    subst e
    refine .follow (uses_itruncIndirect hop) fun _ => ?_
    refine .follow (uses_release hb) fun _ => ?_
    refine .follow (uses_bfree hop) fun _ => ?_
    exact uses_setInode
  · intro _
    refine .follow uses_getInode fun x => ?_
    refine .follow uses_setInode fun _ => ?_
    exact uses_iupdate hop

lemma uses_iput : Uses i s0 (iput ip) h fun _ h' =>
    h' = { h with refs := h.refs - ptr (some ip) } := by
  refine (uses_iputTest hop).bind ?_
  intro last h1 e
  cases last with
  | false => exact uses_when nofun fun _ => e
  | true =>
    obtain ⟨hl, rfl⟩ := e
    refine uses_when (fun _ => ?_) (absurd rfl)
    refine .follow (uses_itrunc hop) fun _ => ?_
    refine .follow uses_getInode fun x => ?_
    refine .follow uses_setInode fun _ => ?_
    refine .follow (uses_iupdate hop) fun _ => ?_
    refine .follow uses_setValid fun _ => ?_
    refine .follow (uses_releasesleep (update_self ..)) fun _ => ?_
    rw [update_unlock hl]
    exact uses_iputDrop hop

lemma uses_iunlockput (hl : h.locks ip = true) :
    Uses i s0 (iunlockput i ip) h fun _ h' =>
      h' = { h with locks := update h.locks ip false, refs := h.refs - ptr (some ip) } := by
  refine .follow (uses_iunlock hl) fun _ => ?_
  exact uses_iput hop

lemma uses_bmapSlot {k : Fin (NDIRECT + 1)} :
    Uses i s0 (bmapSlot ip k) h fun _ h' => h' = h := by
  refine .follow uses_getInode fun x => ?_
  refine .ite (fun _ => ?_) fun _ => .ret rfl
  refine .follow (uses_balloc hop) fun a => ?_
  refine .ite (fun _ => .ret rfl) fun _ => ?_
  refine .follow uses_setInode fun _ => ?_
  exact .ret rfl

lemma uses_bmap {bn : Nat} : Uses i s0 (bmap ip bn) h fun _ h' => h' = h := by
  refine .ite (fun _ => uses_bmapSlot hop) fun _ => ?_
  refine .ite (fun _ => ?_) fun _ => uses_panic
  refine .follow (uses_bmapSlot hop) fun a => ?_
  refine .ite (fun _ => .ret rfl) fun _ => ?_
  refine uses_section fun d h1 hb e => ?_
  subst e
  refine .ite (fun _ => ?_) fun _ => ?_
  · refine .follow (uses_balloc hop) fun c => ?_
    refine .follow (uses_optional fun _ => ?_) ?_
    · refine .follow uses_bset fun _ => ?_
      exact uses_logWrite hop
    · intro _
      refine .follow (uses_release hb) fun _ => ?_
      exact .ret rfl
  · refine .follow (uses_release hb) fun _ => ?_
    exact .ret rfl

lemma uses_readiLoop {l : List UInt8} :
    Uses i s0 (readiLoop ip dst m fuel off tot l) h fun _ h' => h' = h := by
  induction fuel generalizing off tot l with
  | zero => exact .ret rfl
  | succ fuel ih =>
    refine .ite (fun _ => ?_) fun _ => .ret rfl
    refine .follow (uses_bmap hop) fun a => ?_
    refine .ite (fun _ => .ret rfl) fun _ => ?_
    refine uses_section fun d h1 hb e => ?_
    subst e
    refine .follow (uses_release hb) fun _ => ?_
    exact .ite (fun _ => ih) fun _ => .ret rfl

lemma uses_readi : Uses i s0 (readi ip dst o k) h fun _ h' => h' = h := by
  refine .follow uses_getInode fun x => ?_
  exact .ite (fun _ => .ret rfl) fun _ => uses_readiLoop hop

lemma uses_writeiLoop :
    Uses i s0 (writeiLoop ip inum src m fuel off tot) h fun _ h' => h' = h := by
  induction fuel generalizing off tot with
  | zero => exact .ret rfl
  | succ fuel ih =>
    refine .ite (fun _ => ?_) fun _ => .ret rfl
    refine .follow (uses_bmap hop) fun a => ?_
    refine .ite (fun _ => .ret rfl) fun _ => ?_
    refine uses_section fun d h1 hb e => ?_
    subst e
    refine .follow uses_copyin fun ok => ?_
    refine .ite (fun _ => ?_) fun _ => ?_
    · refine .follow (uses_logWrite hop) fun _ => ?_
      refine .follow (uses_note rfl) fun _ => ?_
      refine .follow (uses_release hb) fun _ => ?_
      exact ih
    · refine .follow (uses_release hb) fun _ => ?_
      exact .ret rfl

lemma uses_writei : Uses i s0 (writei ip src o k) h fun _ h' => h' = h := by
  refine .follow uses_getInode fun x => ?_
  refine .ite (fun _ => .ret rfl) fun _ => ?_
  refine .follow (uses_writeiLoop hop) fun (off, tot) => ?_
  refine .follow uses_getInode fun x => ?_
  refine .follow (uses_optional fun _ => uses_setInode) fun _ => ?_
  refine .follow (uses_iupdate hop) fun _ => ?_
  exact .ret rfl

lemma uses_dirlookupLoop {dev : Nat} :
    Uses i s0 (dirlookupLoop dp dev sz name n off) h fun o h' =>
      h' = { h with refs := h.refs + ptr (o.map Prod.fst) } := by
  have hnone : ({ h with refs := h.refs + ptr ((none : Option (Slot × Nat)).map Prod.fst) } : Held) = h := by
    simp
  induction n generalizing off with
  | zero => exact .ret hnone.symm
  | succ n ih =>
    refine .ite (fun _ => ?_) fun _ => .ret hnone.symm
    refine .follow (uses_readi hop) fun r => ?_
    refine .follow uses_check fun _ => ?_
    refine .ite (fun _ => ?_) fun _ => ih
    refine .follow uses_iget fun ip => ?_
    exact .ret rfl

lemma uses_dirlookup :
    Uses i s0 (dirlookup dp name) h fun o h' =>
      h' = { h with refs := h.refs + ptr (o.map Prod.fst) } := by
  refine .follow uses_getInode fun x => ?_
  refine .follow uses_check fun _ => ?_
  exact uses_dirlookupLoop hop

lemma uses_dirlinkLoop :
    Uses i s0 (dirlinkLoop dp sz n off) h fun _ h' => h' = h := by
  induction n generalizing off with
  | zero => exact .ret rfl
  | succ n ih =>
    refine .ite (fun _ => ?_) fun _ => .ret rfl
    refine .follow (uses_readi hop) fun (r, de) => ?_
    refine .follow uses_check fun _ => ?_
    exact .ite (fun _ => .ret rfl) fun _ => ih

lemma uses_dirlink :
    Uses i s0 (dirlink dp name inum) h fun _ h' => h' = h := by
  refine .follow (uses_dirlookup hop) fun o => ?_
  cases o with
  | some r =>
    refine .follow (uses_iput hop) fun _ => ?_
    refine .ret ?_
    simp
  | none =>
    refine .follow uses_getInode fun x => ?_
    refine .follow (uses_dirlinkLoop hop) fun off => ?_
    refine .follow (uses_writei hop) fun r => ?_
    refine .ret ?_
    simp

end

omit [Superblock] in
lemma skipelem_length {path name rest : List UInt8} (e : skipelem path = some (name, rest)) :
    rest.length < path.length := by
  unfold skipelem at e
  have hle := (List.dropWhile_suffix (· = '/'.toUInt8) (l := path)).length_le
  split at e
  · cases e
  · rename_i c l hd
    have hc : (decide (c ≠ '/'.toUInt8)) = true := by
      have := List.head?_dropWhile_not (· = '/'.toUInt8) path
      rw [hd] at this
      simpa using this
    cases e
    rw [List.dropWhile_cons_of_pos (p := fun x => decide (x ≠ '/'.toUInt8)) hc]
    have h1 := (List.dropWhile_suffix (· = '/'.toUInt8) (l := l.dropWhile (· ≠ '/'.toUInt8))).length_le
    have h2 := (List.dropWhile_suffix (· ≠ '/'.toUInt8) (l := l)).length_le
    rw [hd, List.length_cons] at hle
    omega

lemma uses_namexLoop {par : Bool} {path name : List UInt8} (hop : h.op = true)
    (hlen : path.length < n) :
    Uses i s0 (namexLoop i par n ip path name) { h with refs := h.refs + ptr (some ip) } fun o h' =>
      h' = { h with refs := h.refs + ptr (o.map Prod.fst) } := by
  induction n generalizing ip path name with
  | zero => exact absurd hlen (Nat.not_lt_zero _)
  | succ n ih =>
    unfold namexLoop
    cases e : skipelem path with
    | none =>
      refine .ite (fun _ => ?_) fun _ => .ret rfl
      refine .follow (uses_iput hop) fun _ => .ret ?_
      simp
    | some r =>
      obtain ⟨name, rest⟩ := r
      have hrest : rest.length < n := Nat.lt_of_lt_of_le (skipelem_length e) (Nat.le_of_lt_succ hlen)
      refine .bind uses_ilock ?_
      rintro _ _ ⟨hl, rfl⟩
      dsimp only at hl ⊢
      refine .follow uses_getInode fun x => ?_
      refine .ite (fun _ => ?_) fun _ => .ite (fun _ => ?_) fun _ => ?_
      · refine .follow (uses_iunlockput hop (update_self ..)) fun _ => .ret ?_
        simp [update_unlock hl]
      · refine .follow (uses_iunlock (update_self ..)) fun _ => .ret ?_
        simp [update_unlock hl]
      · refine .follow (uses_dirlookup hop) fun o => ?_
        cases o with
        | none =>
          refine .follow (uses_iunlockput hop (update_self ..)) fun _ => .ret ?_
          simp [update_unlock hl]
        | some r =>
          obtain ⟨next, off⟩ := r
          refine .follow (uses_iunlockput hop (update_self ..)) fun _ => ?_
          dsimp only [Option.map_some]
          rw [update_unlock hl, add_right_comm, add_sub_cancel_right]
          exact ih hrest

lemma uses_namex {par : Bool} {path : List UInt8} (hop : h.op = true) :
    Uses i s0 (namex i path par) h fun o h' => h' = { h with refs := h.refs + ptr (o.map Prod.fst) } := by
  have hstart : Uses i s0 (namexStart path) h fun ip h' => h' = { h with refs := h.refs + ptr (some ip) } :=
    .ite (fun _ => uses_iget) fun _ => uses_idupCwd
  exact .follow hstart fun ip => uses_namexLoop hop (Nat.lt_succ_self _)

lemma uses_namei {path : List UInt8} (hop : h.op = true) :
    Uses i s0 (namei i path) h fun o h' => h' = { h with refs := h.refs + ptr o } := by
  refine .follow (uses_namex hop) fun o => ?_
  cases o with
  | none => exact .ret rfl
  | some r => exact .ret rfl

lemma uses_nameiparent {path : List UInt8} (hop : h.op = true) :
    Uses i s0 (nameiparent i path) h fun o h' =>
      h' = { h with refs := h.refs + ptr (o.map Prod.fst) } := uses_namex hop

end Xv6n.Fs
