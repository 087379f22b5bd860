import Xv6n.Lib.Update
import Xv6n.Param
import Xv6n.Sh.Parse

/-!
# Running commands

`runcmd` of `user/sh.c`, down to the descriptors that every program of the command starts with. A call of `open`,
`pipe` or `fork` may fail: `ok` says which of them succeed, by the place of the command in the tree and the number of
the call. A pipe is named by the place of its command.
-/

namespace Xv6n.Sh
open Function

/-- What a descriptor refers to. -/
inductive Desc where
  | console (fd : Nat)
  | file (r : Redir)
  | pipe (path : List Nat) (writable : Bool)

/-- The open files of a process. -/
abbrev Ofile := Nat → Option Desc

def fdalloc (f : Ofile) (d : Desc) : Option (Nat × Ofile) :=
  ((List.range NOFILE).find? fun fd => (f fd).isNone).map fun fd => (fd, update f fd (some d))

def close (f : Ofile) (fd : Nat) : Ofile := update f fd none

def dup (f : Ofile) (fd : Nat) : Ofile := (((f fd).bind (fdalloc f)).map Prod.snd).getD f

def pipe (f : Ofile) (path : List Nat) : Option (Nat × Nat × Ofile) := do
  let (p0, f) ← fdalloc f (.pipe path false)
  let (p1, f) ← fdalloc f (.pipe path true)
  return (p0, p1, f)

/-- A call of `exec`. -/
structure Launch where
  argv : List (Nat × Nat)
  ofile : Ofile

/-- The calls of `exec` that a command ends in. -/
def runcmd (ok : List Nat → Nat → Bool) : List Nat → Ofile → Cmd → List Launch
  | _, f, .exec argv => if argv = [] then [] else [⟨argv, f⟩]
  | path, f, .redir cmd r =>
    match fdalloc (close f r.fd) (.file r) with
    | some (_, f) => if ok path 0 then runcmd ok (0 :: path) f cmd else []
    | none => []
  | path, f, .list left right =>
    if ok path 1 then runcmd ok (1 :: path) f left ++ runcmd ok (0 :: path) f right else []
  | path, f, .pipe left right =>
    match pipe f path with
    | some (p0, p1, f) =>
      if ok path 0 && ok path 1 then
        runcmd ok (1 :: path) (close (close (dup (close f 1) p1) p0) p1) left ++
          if ok path 2 then runcmd ok (2 :: path) (close (close (dup (close f 0) p0) p0) p1) right else []
      else []
    | none => []
  | path, f, .back cmd => if ok path 1 then runcmd ok (1 :: path) f cmd else []

/-- What a command means: its programs, and what their descriptors 0, 1 and 2 refer to. -/
def Cmd.programs : List Nat → (Nat → Desc) → Cmd → List (List (Nat × Nat) × (Nat → Desc))
  | _, io, .exec argv => if argv = [] then [] else [(argv, io)]
  | path, io, .redir cmd r => cmd.programs (0 :: path) (update io r.fd (.file r))
  | path, io, .list left right => left.programs (1 :: path) io ++ right.programs (0 :: path) io
  | path, io, .pipe left right =>
    left.programs (1 :: path) (update io 1 (.pipe path true)) ++
      right.programs (2 :: path) (update io 0 (.pipe path false))
  | path, io, .back cmd => cmd.programs (1 :: path) io

/-- Three descriptors are open. -/
def std (io : Nat → Desc) : Ofile := fun fd => if fd < 3 then some (io fd) else none

def launch (p : List (Nat × Nat) × (Nat → Desc)) : Launch := ⟨p.1, std p.2⟩

section
variable {io : Nat → Desc} {d : Desc} {path : List Nat} {fd : Nat}

lemma std_update (h : fd < 3) : update (close (std io) fd) fd (some d) = std (update io fd d) := by
  funext n
  simp only [close, std, update_apply]
  grind

lemma fdalloc_close (h : fd ≤ 1) : fdalloc (close (std io) fd) d = some (fd, std (update io fd d)) := by
  rw [← std_update (by omega)]
  obtain rfl | rfl := Nat.le_one_iff_eq_zero_or_eq_one.1 h <;> rfl

lemma pipe_std : pipe (std io) path =
    some (3, 4, update (update (std io) 3 (some (.pipe path false))) 4 (some (.pipe path true))) := rfl

/-- The child of a pipe gives an end to one of its descriptors and closes both ends. -/
lemma dup_pipe {a b : Desc} (fd : Nat) (d : Desc) (h : fd ≤ 1) (hd : d = a ∧ n = 3 ∨ d = b ∧ n = 4) :
    close (close (dup (close (update (update (std io) 3 (some a)) 4 (some b)) fd) n) 3) 4 = std (update io fd d) := by
  have hdup : dup (close (update (update (std io) 3 (some a)) 4 (some b)) fd) n =
      update (close (update (update (std io) 3 (some a)) 4 (some b)) fd) fd (some d) := by
    obtain rfl | rfl := Nat.le_one_iff_eq_zero_or_eq_one.1 h <;> obtain ⟨rfl, rfl⟩ | ⟨rfl, rfl⟩ := hd <;> rfl
  rw [hdup]
  funext n
  simp only [close, std, update_apply]
  grind

end

/-- Only the descriptors 0 and 1 are redirected. -/
def Cmd.Std : Cmd → Prop
  | .exec _ => True
  | .redir cmd r => cmd.Std ∧ r.fd ≤ 1
  | .pipe left right | .list left right => left.Std ∧ right.Std
  | .back cmd => cmd.Std

section
variable {c : Cmd} {l : List Tok} {rs : List Redir}

lemma Cmd.Std.back (h : c.Std) (n : Nat) : (Cmd.back^[n] c).Std := by
  induction n generalizing c with
  | zero => exact h
  | succ n ih => exact ih (c := .back c) h

lemma Cmd.Std.wrap (h : c.Std) (hr : ∀ r ∈ rs, r.fd ≤ 1) : (c.wrap rs).Std := by
  induction rs generalizing c with
  | nil => exact h
  | cons r rs ih =>
    obtain ⟨h1, h2⟩ := List.forall_mem_cons.1 hr
    exact ih (c := .redir c r) ⟨h, h1⟩ h2

lemma Redirs.std (h : Redirs l rs) : ∀ r ∈ rs, r.fd ≤ 1 := by
  induction h with
  | nil => nofun
  | @cons k _ _ _ _ _ hk _ ih =>
    refine List.forall_mem_cons.2 ⟨?_, ih⟩
    cases k <;> cases hk <;> simp

lemma Args.std {a : List (Nat × Nat) × List Redir} (h : Args l a) : ∀ r ∈ a.2, r.fd ≤ 1 := by
  induction h with
  | nil => nofun
  | cons hr _ ih => exact List.forall_mem_append.2 ⟨hr.std, ih⟩

mutual

theorem Line.std {l : List Tok} {c : Cmd} : Line l c → c.Std
  | .last n hp => hp.std.back n
  | .seq n hp hl => ⟨hp.std.back n, hl.std⟩

theorem Pipe.std {l : List Tok} {c : Cmd} : Pipe l c → c.Std
  | .one hc => hc.std
  | .pipe hc hp => ⟨hc.std, hp.std⟩

theorem Command.std {l : List Tok} {c : Cmd} : Command l c → c.Std
  | .block hl hr => hl.std.wrap hr.std
  | .simple hr ha _ => Cmd.Std.wrap (c := .exec _) trivial (List.forall_mem_append.2 ⟨hr.std, ha.std⟩)

end

/-- Programs may be lost, but not if all is well. -/
def Lost (ok : List Nat → Nat → Bool) (l l' : List Launch) : Prop := l.Sublist l' ∧ ((∀ p k, ok p k = true) → l = l')

section
variable {ok : List Nat → Nat → Bool} {l l' m m' : List Launch}

lemma Lost.append (h : Lost ok l l') (h' : Lost ok m m') : Lost ok (l ++ m) (l' ++ m') :=
  ⟨h.1.append h'.1, fun hok => by rw [h.2 hok, h'.2 hok]⟩

lemma Lost.ite {b : Bool} (h : Lost ok l l') (hb : (∀ p k, ok p k = true) → b = true) :
    Lost ok (if b then l else []) l' := by
  cases b with
  | true => exact h
  | false => exact ⟨List.nil_sublist _, fun hok => nomatch hb hok⟩

lemma runcmd_lost (h : c.Std) (path : List Nat) (io : Nat → Desc) :
    Lost ok (runcmd ok path (std io) c) ((c.programs path io).map launch) := by
  induction c generalizing path io with
  | exec argv =>
    rw [runcmd, Cmd.programs]
    split <;> exact ⟨.refl _, fun _ => rfl⟩
  | redir cmd r ih =>
    rw [runcmd, fdalloc_close h.2]
    exact (ih h.1 _ _).ite fun hok => hok _ _
  | list left right ihl ihr =>
    rw [runcmd, Cmd.programs, List.map_append]
    exact ((ihl h.1 _ _).append (ihr h.2 _ _)).ite fun hok => hok _ _
  | pipe left right ihl ihr =>
    rw [runcmd, pipe_std, Cmd.programs, List.map_append]
    dsimp only
    rw [dup_pipe 1 (.pipe path true) (by omega) (.inr ⟨rfl, rfl⟩),
      dup_pipe 0 (.pipe path false) (by omega) (.inl ⟨rfl, rfl⟩)]
    exact ((ihl h.1 _ _).append ((ihr h.2 _ _).ite fun hok => hok _ _)).ite fun hok => by rw [hok, hok]; rfl
  | back cmd ih =>
    rw [runcmd]
    exact (ih h _ _).ite fun hok => hok _ _

end
end

/-- Every program of a line starts with the descriptors that the line gives to it and with no others, so that no end
    of a pipe stays open by mistake; calls that fail lose programs, and if none fails then all of them run. -/
theorem runcmd_descriptors {t : List UInt8} {c : Cmd} {buf : Nat → UInt8} (h0 : 0 ∉ t)
    (h : parsecmd t = .ok (c, buf)) (ok : List Nat → Nat → Bool) (io : Nat → Desc) :
    (runcmd ok [] (std io) c).Sublist ((c.programs [] io).map launch) ∧
    ((∀ p k, ok p k = true) → runcmd ok [] (std io) c = (c.programs [] io).map launch) :=
  runcmd_lost ((parsecmd_iff h0).1 ⟨buf, h⟩).std [] io

/-- The line `a|b`. -/
theorem runcmd_descriptors_pipe : ∃ c buf, parsecmd [97, 124, 98] = .ok (c, buf) ∧
    runcmd (fun _ _ => true) [] (std .console) c =
      [⟨[(0, 1)], std (update .console 1 (.pipe [] true))⟩,
        ⟨[(2, 3)], std (update .console 0 (.pipe [] false))⟩] := by
  have h : (parsecmd [97, 124, 98]).toOption.map Prod.fst = some (.pipe (.exec [(0, 1)]) (.exec [(2, 3)])) := by
    decide +kernel
  cases hp : parsecmd [97, 124, 98] with
  | error e =>
    rw [hp] at h
    cases h
  | ok r =>
    rw [hp] at h
    refine ⟨_, _, rfl, ((runcmd_descriptors (by decide) hp _ _).2 fun _ _ => rfl).trans ?_⟩
    rw [Option.some.inj h]
    rfl

end Xv6n.Sh
