import Xv6n.Sh.Grammar

/-!
# The shell's parser accepts its grammar

Every function of the parser takes the tokens of a sentence of its nonterminal off the line (`Yields`), and takes
them whenever they are followed by a token that cannot continue the sentence (`Follow`).
-/

namespace Xv6n.Sh

variable {t : List UInt8} {α β : Type} {l rest : List Tok} {n s : Nat} {c : Cmd}

lemma Tok.code_ne_zero (k : Tok) : k.code ≠ 0 := by
  cases k <;> simp only [Tok.code, Tok.char] <;> decide

lemma Tok.code_word {k : Tok} (h : k.code = Char.toUInt8 'a') : ∃ q e, k = .word q e := by
  cases k with
  | word q e => exact ⟨q, e, rfl⟩
  | _ => exact absurd h (by decide)

lemma redirOf_code (k : Tok) (q e : Nat) : redirOf k.code q e = k.redir q e := by
  cases k <;> rfl

lemma starts_cons {cs : List Char} (h : starts cs l = true) : ∃ k l', l = k :: l' ∧ ∃ c ∈ cs, k.char = some c := by
  cases l with
  | nil => cases h
  | cons k l' =>
    obtain ⟨c, hk, hc⟩ := (Option.any_eq_true _ _).1 h
    exact ⟨k, l', rfl, c, of_decide_eq_true hc, hk⟩

lemma starts_single {p : Char × Tok} (hp : p ∈ punct) : starts [p.1] l = true ↔ ∃ l', l = p.2 :: l' := by
  have huniq : ∀ p ∈ punct, p.2.char = some p.1 ∧ ∀ k ∈ punct.map (·.2) ++ [.gt, .app], k.char = some p.1 → k = p.2 := by
    decide
  refine ⟨fun h => ?_, ?_⟩
  · obtain ⟨k, l', rfl, c, hc, hk⟩ := starts_cons h
    rw [List.mem_singleton.1 hc] at hk
    refine ⟨l', congrArg (· :: l') ((huniq p hp).2 k ?_ hk)⟩
    cases k with
    | word => cases hk
    | _ => decide
  · rintro ⟨l', rfl⟩
    simp [starts, (huniq p hp).1]

lemma starts_redir (h : starts ['<', '>'] l = true) :
    ∃ k l', l = k :: l' ∧ ∀ q e, ∃ r, Tok.redir q e k = some r := by
  obtain ⟨k, l', rfl, c, hc, hk⟩ := starts_cons h
  refine ⟨k, l', rfl, fun q e => ?_⟩
  cases k with
  | lt | gt | app => exact ⟨_, rfl⟩
  | word => cases hk
  | _ =>
    rw [← Option.some.inj hk] at hc
    exact absurd hc (by decide)

section Soundness

/-- A parsing function returns a tree for the tokens it has taken, or panics; it does not run out of fuel. -/
def Yields (t : List UInt8) (P : List Tok → α → Prop) (l : List Tok) : Except Panic (α × Nat) → Prop
  | .ok (a, s) => ∃ l₁ rest, l = l₁ ++ rest ∧ P l₁ a ∧ At t s rest
  | .error e => e ≠ .fuel

lemma Yields.bind {P : List Tok → α → Prop} {Q : List Tok → β → Prop} {l' : List Tok} {x : Except Panic (α × Nat)}
    {f : α × Nat → Except Panic (β × Nat)} (hx : Yields t P l x)
    (hf : ∀ a s l₁ rest, l = l₁ ++ rest → P l₁ a → At t s rest → Yields t Q l' (f (a, s))) :
    Yields t Q l' (x >>= f) := by
  cases x with
  | error e => exact hx
  | ok r =>
    obtain ⟨l₁, rest, e, hp, ha⟩ := hx
    exact hf r.1 r.2 l₁ rest e hp ha

lemma Yields.after {P Q : List Tok → α → Prop} {x : Except Panic (α × Nat)} (l₀ : List Tok) (hx : Yields t P l x)
    (hq : ∀ l₁ a, P l₁ a → Q (l₀ ++ l₁) a) : Yields t Q (l₀ ++ l) x := by
  cases x with
  | error e => exact hx
  | ok r =>
    obtain ⟨l₁, rest, rfl, hp, ha⟩ := hx
    exact ⟨l₀ ++ l₁, rest, (List.append_assoc ..).symm, hq l₁ r.1 hp, ha⟩

lemma At.next_word {q e : Nat} (h0 : 0 ∉ t) (h : At t s (.word q e :: l)) :
    (gettoken t s).ret = Char.toUInt8 'a' ∧ (gettoken t s).q = q ∧ (gettoken t s).eq = e ∧
    At t (gettoken t s).ps l := by
  obtain ⟨hr, ha, hq⟩ := h.next h0
  exact ⟨hr, (hq q e rfl).1, (hq q e rfl).2, ha⟩

lemma At.word_cases (h0 : 0 ∉ t) (h : At t s l) :
    (∃ q e l', l = .word q e :: l' ∧ At t s (.word q e :: l')) ∨ (gettoken t s).ret ≠ Char.toUInt8 'a' := by
  cases l with
  | nil => exact .inr ((h.done h0).1 ▸ by decide)
  | cons k l' =>
    by_cases hk : k.code = Char.toUInt8 'a'
    · obtain ⟨q, e, rfl⟩ := Tok.code_word hk
      exact .inl ⟨q, e, l', rfl, h⟩
    · exact .inr ((h.next h0).1 ▸ hk)

lemma redirs_yields (h0 : 0 ∉ t) (h : At t s l) (hn : l.length < n) : Yields t Redirs l (parseredirs t n s) := by
  induction n generalizing s l with
  | zero => omega
  | succ n ih =>
    obtain ⟨s', hp, ha⟩ := h.look h0 ['<', '>'] (by decide)
    rw [parseredirs, hp]
    simp only
    split
    · next hs =>
      obtain ⟨k, l₁, rfl, hk⟩ := starts_redir hs
      obtain ⟨hr, ha₁, -⟩ := ha.next h0
      rcases ha₁.word_cases h0 with ⟨q, e, l₂, rfl, ha₁⟩ | hw
      · obtain ⟨hw, hq, he, ha₂⟩ := ha₁.next_word h0
        obtain ⟨r, hk⟩ := hk q e
        simp only [List.length_cons] at hn
        rw [if_neg (not_not.2 hw), hr, hq, he, redirOf_code, hk]
        refine (ih ha₂ (by omega)).bind fun rs s l₃ rest e₃ hrs ha₃ => ?_
        exact ⟨k :: .word q e :: l₃, rest, by rw [e₃]; rfl, .cons hk hrs, ha₃⟩
      · rw [if_pos hw]
        exact nofun
    · exact ⟨[], l, rfl, .nil, ha⟩

lemma lex_length (o : Nat) (cs : List UInt8) : (lex o cs).length ≤ cs.length := by
  fun_induction lex o cs <;> simp only [List.length_nil, List.length_cons, List.length_drop] at * <;> omega

lemma At.length_lt (h : At t s l) : l.length < t.length + 1 := by
  have := lex_length s (t.drop s)
  rw [h.lex_eq, List.length_drop] at this
  omega

lemma At.length_lt_of_append (h : At t s (l ++ rest)) : l.length < t.length + 1 := by
  have := h.length_lt
  rw [List.length_append] at this
  omega

lemma args_yields (h0 : 0 ∉ t) {argc : Nat} (h : At t s l) (hn : l.length < n) (hc : argc ≤ MAXARGS - 1) :
    Yields t (fun l a => Args l a ∧ argc + a.1.length ≤ MAXARGS - 1) l (parseargs t n argc s) := by
  induction n generalizing s l argc with
  | zero => omega
  | succ n ih =>
    obtain ⟨s', hp, ha⟩ := h.look h0 ['|', ')', '&', ';'] (by decide)
    rw [parseargs, hp]
    simp only
    split
    · exact ⟨[], l, rfl, ⟨.nil, hc⟩, ha⟩
    · rcases ha.word_cases h0 with ⟨q, e, l₁, rfl, ha⟩ | hw
      · obtain ⟨hw, hq, he, ha₁⟩ := ha.next_word h0
        rw [hw, hq, he, if_neg (by decide), if_neg (by decide)]
        split
        · exact nofun
        · next hm =>
          simp only [List.length_cons] at hn
          refine (redirs_yields h0 ha₁ ha₁.length_lt).bind fun rs s₂ l₂ rest e₂ hrs ha₂ => ?_
          have hlen : rest.length ≤ l₁.length := by simp [e₂]
          refine (ih ha₂ (by omega) (by omega)).bind fun a s₃ l₃ rest' e₃ hargs ha₃ => ?_
          refine ⟨.word q e :: (l₂ ++ l₃), rest', by simp [e₂, e₃], ⟨.cons hrs hargs.1, ?_⟩, ha₃⟩
          have := hargs.2
          simp only [List.length_cons]
          omega
      · split
        · next hz =>
          cases l with
          | nil => exact ⟨[], [], rfl, ⟨.nil, hc⟩, (ha.done h0).2⟩
          | cons k l => exact absurd ((ha.next h0).1.symm.trans hz) k.code_ne_zero
        · exact nofun

lemma backs_yields (h0 : 0 ∉ t) (h : At t s l) (hn : l.length < n) :
    Yields t (fun l c' => ∃ k, l = List.replicate k .amp ∧ c' = Cmd.back^[k] c) l (parsebacks t n c s) := by
  induction n generalizing s l c with
  | zero => omega
  | succ n ih =>
    obtain ⟨s', hp, ha⟩ := h.look h0 ['&'] (by decide)
    rw [parsebacks, hp]
    simp only
    split
    · next hs =>
      obtain ⟨l₁, rfl⟩ := (starts_single (by decide : ('&', Tok.amp) ∈ punct)).1 hs
      refine (ih (ha.next h0).2.1 (by simpa using hn)).after [.amp] fun l₂ c' h => ?_
      obtain ⟨k, rfl, rfl⟩ := h
      exact ⟨k + 1, rfl, rfl⟩
    · exact ⟨[], l, rfl, ⟨0, rfl, rfl⟩, ha⟩

/-- What the four functions take with a given bound on the recursion. -/
structure Sound (t : List UInt8) (n : Nat) : Prop where
  line : ∀ {s l}, At t s l → 4 * l.length + 4 ≤ n → Yields t Line l (parseline t n s)
  pipe : ∀ {s l}, At t s l → 4 * l.length + 3 ≤ n → Yields t Pipe l (parsepipe t n s)
  exec : ∀ {s l}, At t s l → 4 * l.length + 2 ≤ n → Yields t Command l (parseexec t n s)
  block : ∀ {s l}, At t s l → 4 * l.length + 1 ≤ n → Yields t Command l (parseblock t n s)

section
variable (h0 : 0 ∉ t) (h : Sound t n) (ha : At t s l)
include h0 h ha

lemma Sound.line_succ (hn : 4 * l.length + 4 ≤ n + 1) :
    Yields t Line l (parseline t (n + 1) s) := by
  rw [parseline]
  refine (h.pipe ha (by omega)).bind fun c s₁ l₁ rest₁ e₁ hp ha₁ => ?_
  refine (backs_yields h0 ha₁ ha₁.length_lt).bind fun c' s₂ l₂ rest₂ e₂ hb ha₂ => ?_
  obtain ⟨k, rfl, rfl⟩ := hb
  obtain ⟨s₃, hpk, ha₃⟩ := ha₂.look h0 [';'] (by decide)
  simp only [hpk]
  split
  · next hs =>
    obtain ⟨l₃, rfl⟩ := (starts_single (by decide : (';', Tok.semi) ∈ punct)).1 hs
    have hlen : l₃.length + 1 ≤ l.length := by simp [e₁, e₂]; omega
    refine (h.line (ha₃.next h0).2.1 (by omega)).bind fun c' s₄ l₄ rest₄ e₄ hl ha₄ => ?_
    exact ⟨_, rest₄, by simp [e₁, e₂, e₄], .seq k hp hl, ha₄⟩
  · exact ⟨_, rest₂, by simp [e₁, e₂], .last k hp, ha₃⟩

lemma Sound.pipe_succ (hn : 4 * l.length + 3 ≤ n + 1) :
    Yields t Pipe l (parsepipe t (n + 1) s) := by
  rw [parsepipe]
  refine (h.exec ha (by omega)).bind fun c s₁ l₁ rest₁ e₁ hc ha₁ => ?_
  obtain ⟨s₂, hpk, ha₂⟩ := ha₁.look h0 ['|'] (by decide)
  simp only [hpk]
  split
  · next hs =>
    obtain ⟨l₂, rfl⟩ := (starts_single (by decide : ('|', Tok.bar) ∈ punct)).1 hs
    have hlen : l₂.length + 1 ≤ l.length := by simp [e₁]
    refine (h.pipe (ha₂.next h0).2.1 (by omega)).bind fun c' s₃ l₃ rest₃ e₃ hp ha₃ => ?_
    exact ⟨_, rest₃, by simp [e₁, e₃], .pipe hc hp, ha₃⟩
  · exact ⟨_, rest₁, e₁, .one hc, ha₂⟩

lemma Sound.block_succ (hn : 4 * l.length + 1 ≤ n + 1) :
    Yields t Command l (parseblock t (n + 1) s) := by
  obtain ⟨s₁, hpk, ha₁⟩ := ha.look h0 ['('] (by decide)
  rw [parseblock, hpk]
  simp only
  split
  · next hs =>
    obtain ⟨l₁, rfl⟩ := (starts_single (by decide : ('(', Tok.lpar) ∈ punct)).1 hs
    simp only [List.length_cons] at hn
    refine (h.line (ha₁.next h0).2.1 (by omega)).bind fun c s₂ l₂ rest₂ e₂ hl ha₂ => ?_
    obtain ⟨s₃, hpk₃, ha₃⟩ := ha₂.look h0 [')'] (by decide)
    simp only [hpk₃]
    split
    · next hs₃ =>
      obtain ⟨l₃, rfl⟩ := (starts_single (by decide : (')', Tok.rpar) ∈ punct)).1 hs₃
      have ha₄ := (ha₃.next h0).2.1
      refine (redirs_yields h0 ha₄ ha₄.length_lt).bind fun rs s₅ l₅ rest₅ e₅ hr ha₅ => ?_
      exact ⟨_, rest₅, by simp [e₂, e₅], .block hl hr, ha₅⟩
    · rintro ⟨⟩
  · rintro ⟨⟩

lemma Sound.exec_succ (hn : 4 * l.length + 2 ≤ n + 1) :
    Yields t Command l (parseexec t (n + 1) s) := by
  obtain ⟨s₁, hpk, ha₁⟩ := ha.look h0 ['('] (by decide)
  rw [parseexec, hpk]
  simp only
  split
  · exact h.block ha₁ (by omega)
  · refine (redirs_yields h0 ha₁ ha₁.length_lt).bind fun rs s₂ l₂ rest₂ e₂ hr ha₂ => ?_
    refine (args_yields h0 ha₂ ha₂.length_lt (Nat.zero_le _)).bind fun a s₃ l₃ rest₃ e₃ hargs ha₃ => ?_
    exact ⟨_, rest₃, by simp [e₂, e₃], .simple hr hargs.1 (by simpa using hargs.2), ha₃⟩

end

lemma sound (h0 : 0 ∉ t) (n : Nat) : Sound t n := by
  induction n with
  | zero => constructor <;> intro s l _ hn <;> omega
  | succ n ih =>
    exact ⟨ih.line_succ h0, ih.pipe_succ h0, ih.exec_succ h0, ih.block_succ h0⟩

end Soundness

section Completeness

/-- Which nonterminals a token can follow: nothing, a line, a pipe or a command, a redirection. -/
def Tok.level : Tok → Nat
  | .rpar => 0
  | .amp | .semi => 1
  | .bar => 2
  | .lpar | .word _ _ => 3
  | .lt | .gt | .app => 4

def Follow (n : Nat) (l : List Tok) : Prop := ∀ k ∈ l.head?, k.level ≤ n

lemma Follow.mono {m : Nat} (h : Follow m l) (hm : m ≤ n) : Follow n l := fun k hk => Nat.le_trans (h k hk) hm

lemma follow_cons {k : Tok} : Follow n (k :: l) ↔ k.level ≤ n := by
  simp [Follow]

lemma Follow.starts_eq_false {cs : List Char} (h : Follow n l)
    (hcs : ∀ k ∈ punct.map (·.2) ++ [.gt, .app], starts cs [k] = true → n < k.level) :
    starts cs l = false := by
  refine Bool.eq_false_iff.2 fun hs => ?_
  obtain ⟨k, l', rfl, c, hc, hk⟩ := starts_cons hs
  have hlt : n < k.level := hcs k (by cases k <;> first | cases hk; done | decide) hs
  have := follow_cons.1 h
  omega

lemma Redirs.starts_lpar {rs : List Redir} (h : Redirs l rs) (hr : starts ['('] rest = false) :
    starts ['('] (l ++ rest) = false := by
  cases h with
  | nil => exact hr
  | @cons k _ _ _ _ _ hk _ => cases k <;> first | cases hk; done | rfl

lemma Args.starts_lpar {a : List (Nat × Nat) × List Redir} (h : Args l a) (hr : Follow 2 rest) :
    starts ['('] (l ++ rest) = false := by
  cases h with
  | nil => exact hr.starts_eq_false (by decide)
  | cons => rfl

lemma Args.follow {a : List (Nat × Nat) × List Redir} (h : Args l a) (hr : Follow 2 rest) : Follow 3 (l ++ rest) := by
  cases h with
  | nil => exact hr.mono (by decide)
  | cons => exact follow_cons.2 (Nat.le_refl 3)

lemma Redirs.complete (h0 : 0 ∉ t) {rs : List Redir} (h : Redirs l rs) (hf : Follow 3 rest)
    (ha : At t s (l ++ rest)) (hn : l.length < n) : ∃ s', parseredirs t n s = .ok (rs, s') ∧ At t s' rest := by
  induction h generalizing n s with
  | nil =>
    obtain ⟨n, rfl⟩ := Nat.exists_eq_add_one.2 hn
    obtain ⟨s', hp, ha'⟩ := ha.look h0 ['<', '>'] (by decide)
    rw [List.nil_append, hf.starts_eq_false (by decide)] at hp
    refine ⟨s', ?_, ha'⟩
    simp only [parseredirs, hp]
    rfl
  | @cons k q e r l rs hk h ih =>
    obtain ⟨n, rfl⟩ := Nat.exists_eq_add_one.2 (Nat.zero_lt_of_lt hn)
    obtain ⟨s', hp, ha'⟩ := ha.look h0 ['<', '>'] (by decide)
    have hs : starts ['<', '>'] (k :: .word q e :: l ++ rest) = true := by
      cases k <;> first | cases hk; done | rfl
    obtain ⟨hr, ha₁, -⟩ := ha'.next h0
    obtain ⟨hw, hq, he, ha₂⟩ := ha₁.next_word h0
    obtain ⟨s₂, h₂, ha₃⟩ := ih (n := n) ha₂ (by simp only [List.length_cons] at hn; omega)
    refine ⟨s₂, ?_, ha₃⟩
    simp only [parseredirs, hp, hs, if_true]
    rw [hw, if_neg (not_not.2 rfl), hq, he, h₂, hr, redirOf_code, hk]
    rfl

lemma Args.complete (h0 : 0 ∉ t) {a : List (Nat × Nat) × List Redir} {argc : Nat} (h : Args l a)
    (hf : Follow 2 rest) (ha : At t s (l ++ rest)) (hn : l.length < n) (hc : argc + a.1.length ≤ MAXARGS - 1) :
    ∃ s', parseargs t n argc s = .ok (a, s') ∧ At t s' rest := by
  induction h generalizing n s argc with
  | nil =>
    obtain ⟨n, rfl⟩ := Nat.exists_eq_add_one.2 hn
    obtain ⟨s', hp, ha'⟩ := ha.look h0 ['|', ')', '&', ';'] (by decide)
    rw [List.nil_append] at hp ha'
    cases rest with
    | nil =>
      obtain ⟨hr, hd⟩ := ha'.done h0
      refine ⟨_, ?_, hd⟩
      simp only [parseargs, hp, starts, hr]
      rfl
    | cons k rest =>
      have hs : starts ['|', ')', '&', ';'] (k :: rest) = true := by
        have := follow_cons.1 hf
        cases k with
        | bar | rpar | amp | semi => rfl
        | _ => simp [Tok.level] at this
      refine ⟨s', ?_, ha'⟩
      simp only [parseargs, hp, hs]
      rfl
  | @cons q e l l' rs a hr h ih =>
    obtain ⟨n, rfl⟩ := Nat.exists_eq_add_one.2 (Nat.zero_lt_of_lt hn)
    rw [List.cons_append, List.append_assoc] at ha
    obtain ⟨s', hp, ha'⟩ := ha.look h0 ['|', ')', '&', ';'] (by decide)
    obtain ⟨hw, hq, he, ha₁⟩ := ha'.next_word h0
    simp only [List.length_cons, List.length_append] at hn hc
    obtain ⟨s₂, h₂, ha₂⟩ := hr.complete h0 (h.follow hf) ha₁ ha₁.length_lt_of_append
    have hc' : argc + 1 + a.1.length ≤ MAXARGS - 1 := by omega
    obtain ⟨s₃, h₃, ha₃⟩ := ih (n := n) ha₂ (by omega) hc'
    refine ⟨s₃, ?_, ha₃⟩
    simp only [parseargs, hp, starts, Tok.char, Option.any_none]
    rw [hw, if_neg (by rintro ⟨⟩), if_neg (by decide), if_neg (not_not.2 rfl), if_neg (by omega), h₂, hq, he]
    simp only [bind, Except.bind, h₃]
    rfl

lemma backs_complete (h0 : 0 ∉ t) {k : Nat} (hf : starts ['&'] rest = false)
    (ha : At t s (List.replicate k .amp ++ rest)) (hn : k < n) :
    ∃ s', parsebacks t n c s = .ok (Cmd.back^[k] c, s') ∧ At t s' rest := by
  induction k generalizing n s c with
  | zero =>
    obtain ⟨n, rfl⟩ := Nat.exists_eq_add_one.2 hn
    obtain ⟨s', hp, ha'⟩ := ha.look h0 ['&'] (by decide)
    rw [List.replicate_zero, List.nil_append] at hp ha'
    refine ⟨s', ?_, ha'⟩
    simp only [parsebacks, hp, hf]
    rfl
  | succ k ih =>
    obtain ⟨n, rfl⟩ := Nat.exists_eq_add_one.2 (Nat.zero_lt_of_lt hn)
    rw [List.replicate_succ, List.cons_append] at ha
    obtain ⟨s', hp, ha'⟩ := ha.look h0 ['&'] (by decide)
    obtain ⟨s₂, h₂, ha₂⟩ := ih (n := n) (c := .back c) (ha'.next h0).2.1 (by omega)
    refine ⟨s₂, ?_, ha₂⟩
    simp only [parsebacks, hp]
    exact h₂

/-- What the four functions take to its end with a given bound on the recursion. -/
structure Complete (t : List UInt8) (n : Nat) : Prop where
  line : ∀ {s l c rest}, Line l c → Follow 0 rest → At t s (l ++ rest) → 4 * l.length + 4 ≤ n →
    ∃ s', parseline t n s = .ok (c, s') ∧ At t s' rest
  pipe : ∀ {s l c rest}, Pipe l c → Follow 1 rest → At t s (l ++ rest) → 4 * l.length + 3 ≤ n →
    ∃ s', parsepipe t n s = .ok (c, s') ∧ At t s' rest
  exec : ∀ {s l c rest}, Command l c → Follow 2 rest → At t s (l ++ rest) → 4 * l.length + 2 ≤ n →
    ∃ s', parseexec t n s = .ok (c, s') ∧ At t s' rest
  block : ∀ {s l l' c rs rest}, Line l c → Redirs l' rs → Follow 2 rest →
    At t s (.lpar :: (l ++ .rpar :: (l' ++ rest))) → 4 * l.length + 5 ≤ n →
    ∃ s', parseblock t n s = .ok (c.wrap rs, s') ∧ At t s' rest

lemma follow_replicate {k : Nat} (hf : Follow 1 rest) : Follow 1 (List.replicate k .amp ++ rest) := by
  cases k with
  | zero => exact hf
  | succ k => exact follow_cons.2 (Nat.le_refl 1)

section
variable (h0 : 0 ∉ t) (h : Complete t n)
include h0 h

lemma Complete.line_succ (hl : Line l c) (hf : Follow 0 rest)
    (ha : At t s (l ++ rest)) (hn : 4 * l.length + 4 ≤ n + 1) :
    ∃ s', parseline t (n + 1) s = .ok (c, s') ∧ At t s' rest := by
  cases hl with
  | @last l c k hp =>
    rw [List.append_assoc] at ha
    simp only [List.length_append, List.length_replicate] at hn
    obtain ⟨s₁, h₁, ha₁⟩ := h.pipe hp (follow_replicate (hf.mono (Nat.zero_le 1))) ha (by omega)
    obtain ⟨s₂, h₂, ha₂⟩ := backs_complete h0 (c := c) (hf.starts_eq_false (by decide)) ha₁
      (List.length_replicate (n := k) (a := Tok.amp) ▸ ha₁.length_lt_of_append)
    obtain ⟨s₃, h₃, ha₃⟩ := ha₂.look h0 [';'] (by decide)
    rw [hf.starts_eq_false (by decide)] at h₃
    refine ⟨s₃, ?_, ha₃⟩
    simp only [parseline, h₁, bind, Except.bind, h₂, h₃]
    rfl
  | @seq l c l' c' k hp hl =>
    rw [List.append_assoc, List.append_assoc, List.cons_append] at ha
    simp only [List.length_append, List.length_replicate, List.length_cons] at hn
    obtain ⟨s₁, h₁, ha₁⟩ := h.pipe hp (follow_replicate (follow_cons.2 (by decide : Tok.semi.level ≤ 1))) ha (by omega)
    obtain ⟨s₂, h₂, ha₂⟩ := backs_complete h0 (c := c) rfl ha₁
      (List.length_replicate (n := k) (a := Tok.amp) ▸ ha₁.length_lt_of_append)
    obtain ⟨s₃, h₃, ha₃⟩ := ha₂.look h0 [';'] (by decide)
    obtain ⟨s₄, h₄, ha₄⟩ := h.line hl hf (ha₃.next h0).2.1 (by omega)
    refine ⟨s₄, ?_, ha₄⟩
    simp only [parseline, h₁, bind, Except.bind, h₂, h₃, h₄]
    rfl

lemma Complete.pipe_succ (hp : Pipe l c) (hf : Follow 1 rest)
    (ha : At t s (l ++ rest)) (hn : 4 * l.length + 3 ≤ n + 1) :
    ∃ s', parsepipe t (n + 1) s = .ok (c, s') ∧ At t s' rest := by
  cases hp with
  | one hc =>
    obtain ⟨s₁, h₁, ha₁⟩ := h.exec hc (hf.mono (by decide)) ha (by omega)
    obtain ⟨s₂, h₂, ha₂⟩ := ha₁.look h0 ['|'] (by decide)
    rw [hf.starts_eq_false (by decide)] at h₂
    refine ⟨s₂, ?_, ha₂⟩
    simp only [parsepipe, h₁, bind, Except.bind, h₂]
    rfl
  | @pipe l c l' c' hc hp =>
    rw [List.append_assoc, List.cons_append] at ha
    simp only [List.length_append, List.length_cons] at hn
    obtain ⟨s₁, h₁, ha₁⟩ := h.exec hc (follow_cons.2 (by decide : Tok.bar.level ≤ 2)) ha (by omega)
    obtain ⟨s₂, h₂, ha₂⟩ := ha₁.look h0 ['|'] (by decide)
    obtain ⟨s₃, h₃, ha₃⟩ := h.pipe hp hf (ha₂.next h0).2.1 (by omega)
    refine ⟨s₃, ?_, ha₃⟩
    simp only [parsepipe, h₁, bind, Except.bind, h₂, h₃]
    rfl

lemma Complete.block_succ {l' : List Tok} {rs : List Redir}
    (hl : Line l c) (hr : Redirs l' rs) (hf : Follow 2 rest) (ha : At t s (.lpar :: (l ++ .rpar :: (l' ++ rest))))
    (hn : 4 * l.length + 5 ≤ n + 1) : ∃ s', parseblock t (n + 1) s = .ok (c.wrap rs, s') ∧ At t s' rest := by
  obtain ⟨s₁, h₁, ha₁⟩ := ha.look h0 ['('] (by decide)
  obtain ⟨s₂, h₂, ha₂⟩ := h.line hl (follow_cons.2 (by decide : Tok.rpar.level ≤ 0)) (ha₁.next h0).2.1 (by omega)
  obtain ⟨s₃, h₃, ha₃⟩ := ha₂.look h0 [')'] (by decide)
  have ha₄ := (ha₃.next h0).2.1
  obtain ⟨s₄, h₄, ha₅⟩ := hr.complete h0 (hf.mono (by decide)) ha₄ ha₄.length_lt_of_append
  refine ⟨s₄, ?_, ha₅⟩
  simp only [parseblock, h₁, bind, Except.bind, starts, Tok.char, Option.any_some, List.mem_singleton, decide_true,
    if_true, h₂, h₃, h₄]
  rfl

lemma Complete.exec_succ (hc : Command l c) (hf : Follow 2 rest)
    (ha : At t s (l ++ rest)) (hn : 4 * l.length + 2 ≤ n + 1) :
    ∃ s', parseexec t (n + 1) s = .ok (c, s') ∧ At t s' rest := by
  obtain ⟨s₁, h₁, ha₁⟩ := ha.look h0 ['('] (by decide)
  cases hc with
  | @block l c l' rs hl hr =>
    rw [List.cons_append, List.append_assoc, List.cons_append] at ha₁
    simp only [List.length_append, List.length_cons] at hn
    obtain ⟨s₂, h₂, ha₂⟩ := h.block hl hr hf ha₁ (by omega)
    refine ⟨s₂, ?_, ha₂⟩
    simp only [parseexec, h₁]
    exact h₂
  | @simple l rs l' a hr hargs hk =>
    rw [List.append_assoc] at ha₁
    obtain ⟨s₂, h₂, ha₂⟩ := hr.complete h0 (hargs.follow hf) ha₁ ha₁.length_lt_of_append
    obtain ⟨s₃, h₃, ha₃⟩ := hargs.complete h0 hf ha₂ ha₂.length_lt_of_append (by omega : 0 + a.1.length ≤ MAXARGS - 1)
    refine ⟨s₃, ?_, ha₃⟩
    rw [List.append_assoc, hr.starts_lpar (hargs.starts_lpar hf)] at h₁
    simp only [parseexec, h₁, bind, Except.bind, h₂, h₃]
    rfl

end

lemma complete (h0 : 0 ∉ t) (n : Nat) : Complete t n := by
  induction n with
  | zero => constructor <;> intros <;> omega
  | succ n ih =>
    exact ⟨ih.line_succ h0, ih.pipe_succ h0, ih.exec_succ h0, ih.block_succ h0⟩

end Completeness

lemma At.end_iff (h0 : 0 ∉ t) (h : At t s l) : (peek t s []).2 = t.length ↔ l = [] := by
  have hle := h.skip.le
  rcases h.cases h0 with ⟨hl, e⟩ | ⟨c, cs, e, -, hst⟩
  · have := List.drop_eq_nil_iff.1 e
    exact iff_of_true (Nat.le_antisymm hle this) hl
  · refine iff_of_false (fun he => ?_) fun hl => by subst hl; cases hst
    have hd : t.drop (skipSpace t s) = [] := List.drop_eq_nil_iff.2 (Nat.le_of_eq he.symm)
    cases e.symm.trans hd

lemma at_start (t : List UInt8) : At t 0 (lex 0 t) := ⟨Nat.zero_le _, by rw [List.drop_zero]⟩

lemma fuel_enough (t : List UInt8) : 4 * (lex 0 t).length + 4 ≤ 4 * t.length + 4 := by
  have := lex_length 0 t
  omega

lemma parsecmd_ok {buf : Nat → UInt8} (h : parsecmd t = .ok (c, buf)) :
    buf = nulterminate c (deref t) ∧
    ∃ s, parseline t (4 * t.length + 4) 0 = .ok (c, s) ∧ (peek t s []).2 = t.length := by
  rw [parsecmd] at h
  cases hp : parseline t (4 * t.length + 4) 0 with
  | error e =>
    rw [hp] at h
    cases h
  | ok r =>
    simp only [hp, bind, Except.bind] at h
    split at h
    · cases h
    · next he =>
      cases h
      exact ⟨rfl, r.2, rfl, not_not.1 he⟩

lemma parsecmd_ne_fuel (h0 : 0 ∉ t) : parsecmd t ≠ .error .fuel := by
  have hy := (sound h0 _).line (at_start t) (fuel_enough t)
  rw [parsecmd]
  cases hp : parseline t (4 * t.length + 4) 0 with
  | error e =>
    rw [hp] at hy
    exact fun h => hy (Except.error.inj h)
  | ok r =>
    simp only [bind, Except.bind]
    split <;> exact nofun

lemma parsecmd_iff (h0 : 0 ∉ t) : (∃ buf, parsecmd t = .ok (c, buf)) ↔ Line (lex 0 t) c := by
  constructor
  · rintro ⟨buf, h⟩
    obtain ⟨-, s, hp, he⟩ := parsecmd_ok h
    have hy := (sound h0 _).line (at_start t) (fuel_enough t)
    rw [hp] at hy
    obtain ⟨l₁, rest, e, hl, ha⟩ := hy
    rw [(ha.end_iff h0).1 he, List.append_nil] at e
    exact e ▸ hl
  · intro h
    have ha : At t 0 (lex 0 t ++ []) := by
      rw [List.append_nil]
      exact at_start t
    obtain ⟨s, hp, ha⟩ := (complete h0 _).line h (fun _ hk => by cases hk) ha (fuel_enough t)
    refine ⟨nulterminate c (deref t), ?_⟩
    simp only [parsecmd, hp, bind, Except.bind, if_neg (not_not.2 ((ha.end_iff h0).2 rfl))]
    rfl

end Xv6n.Sh
