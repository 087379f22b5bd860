import Xv6n.Sh.Basic
import Mathlib.Logic.Function.Iterate
import Mathlib.Data.List.Nodup

/-!
# The shell's grammar

The tokens of a line and the grammar over them:

    line  ::= pipe '&'* [';' line]
    pipe  ::= cmd ['|' pipe]
    cmd   ::= '(' line ')' redir*  |  redir* (word redir*)*
    redir ::= ('<' | '>' | '>>') word

Every rule carries the tree it stands for. `At` says before which tokens a pointer into the line stands; it is all
that the parser knows of the line, and `At.peek` and `At.gettoken` say what the two primitives do to it.
-/

namespace Xv6n.Sh

/-- A token; a word has the offsets of its first byte and of the byte behind it. -/
inductive Tok where
  | bar | amp | semi | lpar | rpar | lt | gt | app
  | word (q e : Nat)
deriving DecidableEq, Repr

/-- The symbols that are tokens by themselves, `>` apart. -/
def punct : List (Char × Tok) :=
  [('|', .bar), ('(', .lpar), (')', .rpar), (';', .semi), ('&', .amp), ('<', .lt)]

def symbolTok (c : UInt8) : Option Tok := (punct.find? fun p => p.1.toUInt8 = c).map (·.2)

/-- The tokens of a text that starts at offset `o`; a word is a maximal run of bytes that are neither whitespace nor
    symbols. -/
def lex (o : Nat) : List UInt8 → List Tok
  | [] => []
  | c :: cs =>
    if c ∈ whitespace then lex (o + 1) cs
    else if c = Char.toUInt8 '>' then
      if cs.head? = some (Char.toUInt8 '>') then .app :: lex (o + 2) (cs.drop 1) else .gt :: lex (o + 1) cs
    else
      match symbolTok c with
      | some k => k :: lex (o + 1) cs
      | none =>
        let w := cs.takeWhile isWord
        .word o (o + 1 + w.length) :: lex (o + 1 + w.length) (cs.drop w.length)
termination_by cs => cs.length
decreasing_by all_goals simp only [List.length_cons, List.length_drop]; omega

/-- The redirection that a token makes with the file name behind it. -/
def Tok.redir (q e : Nat) : Tok → Option Redir
  | .lt => some ⟨q, e, O_RDONLY, 0⟩
  | .gt => some ⟨q, e, O_WRONLY ||| O_CREATE ||| O_TRUNC, 1⟩
  | .app => some ⟨q, e, O_WRONLY ||| O_CREATE, 1⟩
  | _ => none

/-- `redir*` -/
inductive Redirs : List Tok → List Redir → Prop
  | nil : Redirs [] []
  | cons {k q e r l rs} (hk : Tok.redir q e k = some r) (h : Redirs l rs) :
      Redirs (k :: .word q e :: l) (r :: rs)

/-- `(word redir*)*` -/
inductive Args : List Tok → List (Nat × Nat) × List Redir → Prop
  | nil : Args [] ([], [])
  | cons {q e l l' rs a} (hr : Redirs l rs) (h : Args l' a) :
      Args (.word q e :: (l ++ l')) ((q, e) :: a.1, rs ++ a.2)

mutual

/-- `line` -/
inductive Line : List Tok → Cmd → Prop
  | last {l c} (n : Nat) (hp : Pipe l c) : Line (l ++ List.replicate n .amp) (Cmd.back^[n] c)
  | seq {l c l' c'} (n : Nat) (hp : Pipe l c) (h : Line l' c') :
      Line (l ++ (List.replicate n .amp ++ .semi :: l')) (.list (Cmd.back^[n] c) c')

/-- `pipe` -/
inductive Pipe : List Tok → Cmd → Prop
  | one {l c} (hc : Command l c) : Pipe l c
  | pipe {l c l' c'} (hc : Command l c) (h : Pipe l' c') : Pipe (l ++ .bar :: l') (.pipe c c')

/-- `cmd` -/
inductive Command : List Tok → Cmd → Prop
  | block {l c l' rs} (hl : Line l c) (hr : Redirs l' rs) : Command (.lpar :: (l ++ .rpar :: l')) (c.wrap rs)
  | simple {l rs l' a} (hr : Redirs l rs) (ha : Args l' a) (hn : a.1.length ≤ MAXARGS - 1) :
      Command (l ++ l') ((Cmd.exec a.1).wrap (rs ++ a.2))

end

section Lexer

variable {t : List UInt8} {c : UInt8}

/-- The pointer stands before these tokens. -/
structure At (t : List UInt8) (s : Nat) (l : List Tok) : Prop where
  le : s ≤ t.length
  lex_eq : lex s (t.drop s) = l

lemma lex_skipSpace (o : Nat) (l : List UInt8) :
    lex (o + (l.takeWhile fun c => decide (c ∈ whitespace)).length)
      (l.drop (l.takeWhile fun c => decide (c ∈ whitespace)).length) = lex o l := by
  induction l generalizing o with
  | nil => rfl
  | cons c cs ih =>
    by_cases hc : c ∈ whitespace
    · have h := ih (o + 1)
      rw [List.takeWhile_cons_of_pos (by simpa using hc), List.length_cons, List.drop_succ_cons, lex.eq_2,
        if_pos hc, ← h]
      congr 1
      omega
    · rw [List.takeWhile_cons_of_neg (by simpa using hc)]
      rfl

lemma skipSpace_le {s : Nat} (h : s ≤ t.length) : skipSpace t s ≤ t.length := by
  have := (List.takeWhile_sublist (fun c => decide (c ∈ whitespace)) (l := t.drop s)).length_le
  rw [List.length_drop] at this
  unfold skipSpace
  omega

lemma At.skip {s : Nat} {l : List Tok} (h : At t s l) : At t (skipSpace t s) l := by
  refine ⟨skipSpace_le h.le, ?_⟩
  rw [← h.lex_eq, ← lex_skipSpace s (t.drop s), List.drop_drop]
  rfl

lemma drop_skipSpace (t : List UInt8) (s : Nat) :
    t.drop (skipSpace t s) = [] ∨ ∃ c cs, t.drop (skipSpace t s) = c :: cs ∧ c ∉ whitespace := by
  unfold Sh.skipSpace
  rw [← List.drop_drop]
  induction t.drop s with
  | nil => exact .inl rfl
  | cons c cs ih =>
    by_cases hc : c ∈ whitespace
    · rwa [List.takeWhile_cons_of_pos (by simpa using hc), List.length_cons, List.drop_succ_cons]
    · rw [List.takeWhile_cons_of_neg (by simpa using hc)]
      exact .inr ⟨c, cs, rfl, hc⟩

lemma deref_eq (t : List UInt8) (s : Nat) : deref t s = (t.drop s).head?.getD 0 := by
  simp only [deref, List.getD_eq_getElem?_getD, List.head?_drop]

def Tok.char : Tok → Option Char
  | .bar => some '|'
  | .amp => some '&'
  | .semi => some ';'
  | .lpar => some '('
  | .rpar => some ')'
  | .lt => some '<'
  | .gt => some '>'
  | .app => some '>'
  | .word _ _ => none

/-- What `gettoken` returns for a token. -/
def Tok.code : Tok → UInt8
  | .app => Char.toUInt8 '+'
  | .word _ _ => Char.toUInt8 'a'
  | k => (k.char.map Char.toUInt8).getD 0

def starts (cs : List Char) : List Tok → Bool
  | [] => false
  | k :: _ => k.char.any (· ∈ cs)

lemma symbolTok_spec {k : Tok} (h : symbolTok c = some k) :
    ∃ p ∈ punct, p.1.toUInt8 = c ∧ p.2 = k := by
  obtain ⟨p, hp, rfl⟩ := Option.map_eq_some_iff.1 h
  exact ⟨p, List.mem_of_find?_eq_some hp, by simpa using List.find?_some hp, rfl⟩

/-- The symbols of `symbols`, as characters. -/
def symbolChars : List Char := ['<', '|', '>', '&', ';', '(', ')']

lemma symbolTok_none (h : symbolTok c = none) (hg : c ≠ Char.toUInt8 '>') :
    ∀ d ∈ symbolChars, d.toUInt8 ≠ c := by
  simp only [symbolTok, punct, Option.map_eq_none_iff, List.find?_eq_none, List.forall_mem_cons, decide_eq_true_eq] at h
  simp only [symbolChars, List.forall_mem_cons]
  grind

lemma isWord_of_symbolTok_none (h : symbolTok c = none) (hg : c ≠ Char.toUInt8 '>')
    (hw : c ∉ whitespace) : isWord c = true := by
  refine decide_eq_true ⟨hw, fun hm => ?_⟩
  obtain ⟨d, hd, e⟩ := List.mem_map.1 (show c ∈ symbolChars.map Char.toUInt8 from hm)
  exact symbolTok_none h hg d hd e

/-- The token that starts with a byte other than whitespace. -/
inductive Starts (o : Nat) (c : UInt8) (cs : List UInt8) : List Tok → Prop
  | app (hc : c = Char.toUInt8 '>') (hd : cs.head? = some (Char.toUInt8 '>')) :
      Starts o c cs (.app :: lex (o + 2) (cs.drop 1))
  | gt (hc : c = Char.toUInt8 '>') (hd : cs.head? ≠ some (Char.toUInt8 '>')) : Starts o c cs (.gt :: lex (o + 1) cs)
  | punct (p : Char × Tok) (hp : p ∈ punct) (hc : p.1.toUInt8 = c) : Starts o c cs (p.2 :: lex (o + 1) cs)
  | word (hw : isWord c = true) (hc : ∀ d ∈ symbolChars, d.toUInt8 ≠ c) :
      Starts o c cs (.word o (o + 1 + (cs.takeWhile isWord).length) ::
        lex (o + 1 + (cs.takeWhile isWord).length) (cs.drop (cs.takeWhile isWord).length))

lemma lex_cons (o : Nat) (cs : List UInt8) (hw : c ∉ whitespace) : Starts o c cs (lex o (c :: cs)) := by
  rw [lex, if_neg hw]
  by_cases hg : c = Char.toUInt8 '>'
  · rw [if_pos hg]
    by_cases hd : cs.head? = some (Char.toUInt8 '>')
    · rw [if_pos hd]
      exact .app hg hd
    · rw [if_neg hd]
      exact .gt hg hd
  · rw [if_neg hg]
    cases hk : symbolTok c with
    | none => exact .word (isWord_of_symbolTok_none hk hg hw) (symbolTok_none hk hg)
    | some k =>
      obtain ⟨p, hp, hc, rfl⟩ := symbolTok_spec hk
      exact .punct p hp hc

lemma mem_symbolChars {cs : List Char} (hcs : cs.all symbolChars.contains = true) {c : Char} (hc : c ∈ cs) :
    c ∈ symbolChars :=
  List.contains_iff_mem.1 (List.all_eq_true.1 hcs c hc)

lemma symbol_mem_map {cs : List Char} (hcs : cs.all symbolChars.contains = true) {d : Char} (hd : d ∈ symbolChars) :
    d.toUInt8 ∈ cs.map Char.toUInt8 ↔ d ∈ cs := by
  refine ⟨fun h => ?_, List.mem_map_of_mem⟩
  obtain ⟨c, hc, e⟩ := List.mem_map.1 h
  exact List.inj_on_of_nodup_map (by decide : (symbolChars.map Char.toUInt8).Nodup) (mem_symbolChars hcs hc) hd e ▸ hc

lemma punct_char {p : Char × Tok} (hp : p ∈ punct) : p.2.char = some p.1 ∧ p.1 ∈ symbolChars := by
  revert p
  decide

variable {s : Nat} {l : List Tok}

lemma Starts.starts {o : Nat} {ds : List UInt8} (h : Starts o c ds l) {cs : List Char}
    (hcs : cs.all symbolChars.contains = true) : Sh.starts cs l = decide (c ∈ cs.map Char.toUInt8) := by
  have hsym : ∀ {d : Char}, d ∈ symbolChars → decide (d ∈ cs) = decide (d.toUInt8 ∈ cs.map Char.toUInt8) :=
    fun hd => decide_eq_decide.2 (symbol_mem_map hcs hd).symm
  cases h with
  | app hc _ | gt hc _ => exact hc ▸ hsym (by decide)
  | punct p hp hc =>
    rw [Sh.starts, (punct_char hp).1, ← hc]
    exact hsym (punct_char hp).2
  | word _ hc =>
    refine (decide_eq_false fun hm => ?_).symm
    obtain ⟨d, hd, e⟩ := List.mem_map.1 hm
    exact hc d (mem_symbolChars hcs hd) e

lemma At.cases (h0 : 0 ∉ t) (h : At t s l) :
    (l = [] ∧ t.drop (skipSpace t s) = []) ∨ ∃ c cs, t.drop (skipSpace t s) = c :: cs ∧ c ≠ 0 ∧
      Starts (skipSpace t s) c cs l := by
  have hl := h.skip.lex_eq
  rcases drop_skipSpace t s with e | ⟨c, ds, e, hw⟩
  · exact .inl ⟨by rw [← hl, e, lex], e⟩
  · have hc : c ∈ t := List.mem_of_mem_drop (e ▸ List.mem_cons_self)
    refine .inr ⟨c, ds, e, fun e0 => h0 (e0 ▸ hc), ?_⟩
    rw [← hl, e]
    exact lex_cons _ ds hw

lemma At.look (h0 : 0 ∉ t) (h : At t s l) (cs : List Char) (hcs : cs.all symbolChars.contains = true) :
    ∃ s', peek t s cs = (starts cs l, s') ∧ At t s' l := by
  refine ⟨skipSpace t s, ?_, h.skip⟩
  simp only [peek, Prod.mk.injEq, and_true, deref_eq]
  rcases h.cases h0 with ⟨rfl, e⟩ | ⟨c, ds, e, hc0, hst⟩
  · simp [e, starts]
  · rw [hst.starts hcs, e]
    simp [hc0]

lemma At.done (h0 : 0 ∉ t) (h : At t s []) : (gettoken t s).ret = 0 ∧ At t (gettoken t s).ps [] := by
  rcases h.cases h0 with ⟨_, e⟩ | ⟨c, ds, e, hc0, hst⟩
  · have hd : deref t (skipSpace t s) = 0 := by simp [deref_eq, e]
    simp only [gettoken, scan, hd, if_pos, true_and]
    exact h.skip.skip
  · cases hst

lemma At.advance {k : Nat} {cs : List UInt8} (h : t.drop s = c :: cs) (hk : k ≤ cs.length)
    (hl : lex (s + 1 + k) (cs.drop k) = l) : At t (s + 1 + k) l := by
  have hlen : t.length - s = cs.length + 1 := by rw [← List.length_drop, h, List.length_cons]
  refine ⟨by omega, ?_⟩
  rw [← hl, Nat.add_assoc, ← List.drop_drop, h, Nat.add_comm 1 k, List.drop_succ_cons]

/-- The token that starts with a byte: its value, and how many more bytes it has. -/
lemma Starts.scan {cs : List UInt8} {k : Tok} (h : Starts s c cs (k :: l)) (e : t.drop s = c :: cs)
    (hc0 : c ≠ 0) : ∃ n ≤ cs.length, Sh.scan t s = (k.code, s + 1 + n) ∧ lex (s + 1 + n) (cs.drop n) = l ∧
      ∀ q e, k = .word q e → q = s ∧ e = s + 1 + n := by
  have hd : deref t s = c := by simp [deref_eq, e]
  have hd1 : deref t (s + 1) = cs.head?.getD 0 := by
    rw [deref_eq, ← List.drop_drop, e, List.drop_one, List.tail_cons]
  rw [Sh.scan, hd, if_neg hc0]
  cases h with
  | app hc hh =>
    refine ⟨1, by cases cs <;> simp_all, ?_, rfl, nofun⟩
    rw [hc, if_neg (by decide), if_pos rfl, hd1, hh]
    rfl
  | gt hc hh =>
    refine ⟨0, Nat.zero_le _, ?_, rfl, nofun⟩
    have : ¬ cs.head?.getD 0 = Char.toUInt8 '>' := by
      cases cs with
      | nil => decide
      | cons d ds => simpa using hh
    rw [hc, if_neg (by decide), if_pos rfl, hd1, if_neg this]
    rfl
  | punct p hp hc =>
    have hp' : p.1.toUInt8 ∈ ['|', '(', ')', ';', '&', '<'].map Char.toUInt8 ∧ p.2.code = p.1.toUInt8 ∧
        p.2.char.isSome := by
      clear hc
      revert p
      decide
    refine ⟨0, Nat.zero_le _, ?_, rfl, fun q e h => ?_⟩
    · rw [← hc, if_pos hp'.1, hp'.2.1]
    · simp [h, Tok.char] at hp'
  | word hw hc =>
    refine ⟨_, (List.takeWhile_sublist isWord).length_le, ?_, rfl, ?_⟩
    · have hp : c ∉ ['|', '(', ')', ';', '&', '<'].map Char.toUInt8 := by
        intro hm
        obtain ⟨d, hd, e⟩ := List.mem_map.1 hm
        exact hc d (mem_symbolChars (by decide : ['|', '(', ')', ';', '&', '<'].all symbolChars.contains = true) hd) e
      rw [if_neg hp, if_neg (fun h => hc '>' (by decide) h.symm), e, List.takeWhile_cons_of_pos hw, List.length_cons,
        Nat.add_comm _ 1, ← Nat.add_assoc]
      rfl
    · rintro q e ⟨⟩
      exact ⟨rfl, rfl⟩

lemma At.next {k : Tok} (h0 : 0 ∉ t) (h : At t s (k :: l)) :
    (gettoken t s).ret = k.code ∧ At t (gettoken t s).ps l ∧
    ∀ q e, k = .word q e → (gettoken t s).q = q ∧ (gettoken t s).eq = e := by
  rcases h.cases h0 with ⟨he, _⟩ | ⟨c, ds, e, hc0, hst⟩
  · cases he
  · obtain ⟨n, hn, hs, hl, hq⟩ := hst.scan e hc0
    simp only [gettoken, hs, true_and]
    refine ⟨(At.advance e hn hl).skip, fun q e h => ?_⟩
    obtain ⟨rfl, rfl⟩ := hq q e h
    exact ⟨rfl, rfl⟩

end Lexer

end Xv6n.Sh
