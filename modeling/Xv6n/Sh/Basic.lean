import Mathlib.Logic.Function.Basic

/-!
# The shell's parser

The lexer and the recursive-descent parser of `user/sh.c`. A pointer into the line is an offset `s`; the line
is the list `t` of its bytes, and the byte behind its end reads as 0. A word is the pair of offsets of its first
byte and of the byte behind it, as the source keeps them in `argv`/`eargv` and in `file`/`efile`.

The mutually recursive functions take a bound on the depth of their recursion, the loops one on their turns.
Nodes are taken from a memory that does not run out.
-/

namespace Xv6n.Sh

abbrev MAXARGS : Nat := 10

abbrev O_RDONLY : Nat := 0
abbrev O_WRONLY : Nat := 1
abbrev O_CREATE : Nat := 0x200
abbrev O_TRUNC : Nat := 0x400

/-- The panics of the parser. `fuel` is none of them: the bound on the recursion was too small. -/
inductive Panic where
  | leftovers
  | badToken
  | missingFile
  | parseblock
  | missingParen
  | tooManyArgs
  | fuel
deriving DecidableEq, Repr

/-- A redirection (C `struct redircmd` without the command). -/
structure Redir where
  file : Nat
  efile : Nat
  mode : Nat
  fd : Nat
deriving DecidableEq, Repr

/-- A parsed command (C `struct cmd`). -/
inductive Cmd where
  | exec (argv : List (Nat × Nat))
  | redir (cmd : Cmd) (r : Redir)
  | pipe (left right : Cmd)
  | list (left right : Cmd)
  | back (cmd : Cmd)
deriving DecidableEq, Repr

def Cmd.wrap (c : Cmd) (rs : List Redir) : Cmd := rs.foldl Cmd.redir c

/-- C `whitespace`. -/
def whitespace : List UInt8 := [' ', '\t', '\r', '\n', '\x0b'].map Char.toUInt8

/-- C `symbols`. -/
def symbols : List UInt8 := ['<', '|', '>', '&', ';', '(', ')'].map Char.toUInt8

def isWord (c : UInt8) : Bool := c ∉ whitespace ∧ c ∉ symbols

/-- The byte at an offset (C `*s`). -/
def deref (t : List UInt8) (s : Nat) : UInt8 := t.getD s 0

def skipSpace (t : List UInt8) (s : Nat) : Nat :=
  s + ((t.drop s).takeWhile fun c => decide (c ∈ whitespace)).length

/-- What `gettoken` returns: its value, the two ends of the token and the new `*ps`. -/
structure Token where
  ret : UInt8
  q : Nat
  eq : Nat
  ps : Nat

/-- The `switch` of `gettoken`: its value and the end of the token. -/
def scan (t : List UInt8) (s : Nat) : UInt8 × Nat :=
  let c := deref t s
  if c = 0 then (c, s)
  else if c ∈ ['|', '(', ')', ';', '&', '<'].map Char.toUInt8 then (c, s + 1)
  else if c = Char.toUInt8 '>' then
    if deref t (s + 1) = Char.toUInt8 '>' then (Char.toUInt8 '+', s + 2) else (c, s + 1)
  else (Char.toUInt8 'a', s + ((t.drop s).takeWhile isWord).length)

def gettoken (t : List UInt8) (ps : Nat) : Token :=
  let s := skipSpace t ps
  let r := scan t s
  ⟨r.1, s, r.2, skipSpace t r.2⟩

/-- Whether the next token starts with one of `toks`, and the new `*ps`. -/
def peek (t : List UInt8) (ps : Nat) (toks : List Char) : Bool × Nat :=
  let s := skipSpace t ps
  (deref t s ≠ 0 ∧ deref t s ∈ toks.map Char.toUInt8, s)

/-- The `switch` of `parseredirs`. -/
def redirOf (tok : UInt8) (q eq : Nat) : Option Redir :=
  if tok = Char.toUInt8 '<' then some ⟨q, eq, O_RDONLY, 0⟩
  else if tok = Char.toUInt8 '>' then some ⟨q, eq, O_WRONLY ||| O_CREATE ||| O_TRUNC, 1⟩
  else if tok = Char.toUInt8 '+' then some ⟨q, eq, O_WRONLY ||| O_CREATE, 1⟩
  else none

/-- The redirections that come next. The caller puts them around its command; for `parseexec`
    that is the node whose arguments are still being collected. -/
def parseredirs (t : List UInt8) : Nat → Nat → Except Panic (List Redir × Nat)
  | 0, _ => throw .fuel
  | n + 1, s => do
    let (more, s) := peek t s ['<', '>']
    if more then
      let tok := gettoken t s
      let file := gettoken t tok.ps
      if file.ret ≠ Char.toUInt8 'a' then
        throw .missingFile
      else
        let (rs, s) ← parseredirs t n file.ps
        return ((redirOf tok.ret file.q file.eq).toList ++ rs, s)
    else
      return ([], s)

/-- The loop of `parseexec`, after `argc` arguments: the arguments and redirections that come next. -/
def parseargs (t : List UInt8) : Nat → Nat → Nat → Except Panic ((List (Nat × Nat) × List Redir) × Nat)
  | 0, _, _ => throw .fuel
  | n + 1, argc, s => do
    let (stop, s) := peek t s ['|', ')', '&', ';']
    if stop then
      return (([], []), s)
    else
      let tok := gettoken t s
      if tok.ret = 0 then
        return (([], []), tok.ps)
      else if tok.ret ≠ Char.toUInt8 'a' then
        throw .badToken
      else if MAXARGS ≤ argc + 1 then
        throw .tooManyArgs
      else
        let (rs, s) ← parseredirs t (t.length + 1) tok.ps
        let ((argv, rs'), s) ← parseargs t n (argc + 1) s
        return (((tok.q, tok.eq) :: argv, rs ++ rs'), s)

/-- The `while` loop of `parseline`. -/
def parsebacks (t : List UInt8) : Nat → Cmd → Nat → Except Panic (Cmd × Nat)
  | 0, _, _ => throw .fuel
  | n + 1, cmd, s =>
    let (more, s) := peek t s ['&']
    if more then parsebacks t n (.back cmd) (gettoken t s).ps else return (cmd, s)

mutual

/-- C `parseline`. -/
def parseline (t : List UInt8) : Nat → Nat → Except Panic (Cmd × Nat)
  | 0, _ => throw .fuel
  | n + 1, s => do
    let (cmd, s) ← parsepipe t n s
    let (cmd, s) ← parsebacks t (t.length + 1) cmd s
    let (more, s) := peek t s [';']
    if more then
      let (right, s) ← parseline t n (gettoken t s).ps
      return (.list cmd right, s)
    else
      return (cmd, s)

/-- C `parsepipe`. -/
def parsepipe (t : List UInt8) : Nat → Nat → Except Panic (Cmd × Nat)
  | 0, _ => throw .fuel
  | n + 1, s => do
    let (cmd, s) ← parseexec t n s
    let (more, s) := peek t s ['|']
    if more then
      let (right, s) ← parsepipe t n (gettoken t s).ps
      return (.pipe cmd right, s)
    else
      return (cmd, s)

/-- C `parseblock`. -/
def parseblock (t : List UInt8) : Nat → Nat → Except Panic (Cmd × Nat)
  | 0, _ => throw .fuel
  | n + 1, s => do
    let (isOpen, s) := peek t s ['(']
    if isOpen then
      let (cmd, s) ← parseline t n (gettoken t s).ps
      let (isClosed, s) := peek t s [')']
      if isClosed then
        let (rs, s) ← parseredirs t (t.length + 1) (gettoken t s).ps
        return (cmd.wrap rs, s)
      else
        throw .missingParen
    else
      throw .parseblock

/-- C `parseexec`. -/
def parseexec (t : List UInt8) : Nat → Nat → Except Panic (Cmd × Nat)
  | 0, _ => throw .fuel
  | n + 1, s => do
    let (isOpen, s) := peek t s ['(']
    if isOpen then
      parseblock t n s
    else
      let (rs, s) ← parseredirs t (t.length + 1) s
      let ((argv, rs'), s) ← parseargs t (t.length + 1) 0 s
      return ((Cmd.exec argv).wrap (rs ++ rs'), s)

end

def nulterminate : Cmd → (Nat → UInt8) → Nat → UInt8
  | .exec argv, buf => argv.foldl (fun buf w => Function.update buf w.2 0) buf
  | .redir cmd r, buf => Function.update (nulterminate cmd buf) r.efile 0
  | .pipe left right, buf => nulterminate right (nulterminate left buf)
  | .list left right, buf => nulterminate right (nulterminate left buf)
  | .back cmd, buf => nulterminate cmd buf

/-- Parse a line; returns the command and the buffer that the line was in. -/
def parsecmd (t : List UInt8) : Except Panic (Cmd × (Nat → UInt8)) := do
  let (cmd, s) ← parseline t (4 * t.length + 4) 0
  if (peek t s []).2 ≠ t.length then
    throw .leftovers
  else
    return (cmd, nulterminate cmd (deref t))

end Xv6n.Sh
