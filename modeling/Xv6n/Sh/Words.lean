import Xv6n.Sh.Parse

/-!
# The shell's words

The words of a parsed line are read as C strings out of the line's own buffer, after `nulterminate` has written a 0
behind each of them. The byte behind a word belongs to no word, so no 0 is written into another one.
-/

namespace Xv6n.Sh
open Function

variable {t : List UInt8} {l : List Tok} {c : Cmd} {cs : List UInt8}

def Cmd.words : Cmd → List (Nat × Nat)
  | .exec argv => argv
  | .redir cmd r => (r.file, r.efile) :: cmd.words
  | .pipe left right => left.words ++ right.words
  | .list left right => left.words ++ right.words
  | .back cmd => cmd.words

/-- A maximal run of bytes that are neither whitespace nor symbols. -/
structure WordAt (t : List UInt8) (q e : Nat) : Prop where
  lt : q < e
  le : e ≤ t.length
  word : ∀ i, q ≤ i → i < e → isWord (deref t i) = true
  stop : e < t.length → isWord (deref t e) = false
  start : 0 < q → isWord (deref t (q - 1)) = false

/-- Between two tokens: the byte before is not of a word, or the next one is not. -/
def Boundary (t : List UInt8) (o : Nat) : Prop :=
  (0 < o → isWord (deref t (o - 1)) = false) ∨ ∀ c ∈ (t.drop o).head?, isWord c = false

lemma boundary_succ {o : Nat} {c : UInt8} (h : t.drop o = c :: cs) (hc : isWord c = false) :
    Boundary t (o + 1) := by
  refine .inl fun _ => ?_
  rwa [Nat.add_sub_cancel, deref_eq, h]

lemma isWord_false_of_symbol {c : UInt8} (h : c ∈ symbols) : isWord c = false :=
  decide_eq_false fun hc => hc.2 h

lemma isWord_false_of_space {c : UInt8} (h : c ∈ whitespace) : isWord c = false :=
  decide_eq_false fun hc => hc.1 h

lemma drop_succ_of_cons {o : Nat} {c : UInt8} (h : t.drop o = c :: cs) : t.drop (o + 1) = cs := by
  rw [← List.drop_drop, h, List.drop_one, List.tail_cons]

lemma isWord_takeWhile (cs : List UInt8) {i : Nat} (hi : i < (cs.takeWhile isWord).length) :
    isWord (deref cs i) = true := by
  induction cs generalizing i with
  | nil => simp at hi
  | cons c cs ih =>
    by_cases hc : isWord c = true
    · rw [List.takeWhile_cons_of_pos hc, List.length_cons] at hi
      cases i with
      | zero => exact hc
      | succ i => exact ih (by omega)
    · rw [List.takeWhile_cons_of_neg hc] at hi
      simp at hi

lemma isWord_drop_takeWhile (cs : List UInt8) :
    ∀ c ∈ (cs.drop (cs.takeWhile isWord).length).head?, isWord c = false := by
  induction cs with
  | nil => simp
  | cons c cs ih =>
    by_cases hc : isWord c = true
    · rwa [List.takeWhile_cons_of_pos hc, List.length_cons, List.drop_succ_cons]
    · rw [List.takeWhile_cons_of_neg hc]
      intro d hd
      cases hd
      exact Bool.eq_false_iff.2 hc

lemma deref_drop (t : List UInt8) (o i : Nat) : deref (t.drop o) i = deref t (o + i) := by
  simp only [deref_eq, List.drop_drop]

lemma wordAt_takeWhile {o : Nat} {c : UInt8} (h : t.drop o = c :: cs) (hc : isWord c = true)
    (hb : Boundary t o) :
    WordAt t o (o + 1 + (cs.takeWhile isWord).length) ∧ Boundary t (o + 1 + (cs.takeWhile isWord).length) := by
  have hw : (c :: cs).takeWhile isWord = c :: cs.takeWhile isWord := List.takeWhile_cons_of_pos hc
  have hlen : o + 1 + (cs.takeWhile isWord).length = o + ((c :: cs).takeWhile isWord).length := by
    rw [hw, List.length_cons]
    omega
  have hle := (List.takeWhile_sublist isWord (l := c :: cs)).length_le
  have ht : t.length - o = (c :: cs).length := by rw [← List.length_drop, h]
  rw [← ht] at hle
  have hpos : 0 < ((c :: cs).takeWhile isWord).length := by simp [hw]
  have hend : ∀ c' ∈ (t.drop (o + ((c :: cs).takeWhile isWord).length)).head?, isWord c' = false := by
    rw [← List.drop_drop, h]
    exact isWord_drop_takeWhile (c :: cs)
  rw [hlen]
  refine ⟨⟨by omega, ?_, fun i hq he => ?_, fun hlt => ?_, ?_⟩, .inr hend⟩
  · rw [List.length_cons] at ht
    omega
  · have := isWord_takeWhile (c :: cs) (i := i - o) (by omega)
    rwa [← h, deref_drop, Nat.add_sub_cancel' hq] at this
  · rw [deref_eq]
    cases hd : (t.drop (o + ((c :: cs).takeWhile isWord).length)).head? with
    | none => exact absurd (List.head?_eq_none_iff.1 hd) (List.drop_eq_nil_iff.not.2 (by omega))
    | some d => exact hend d hd
  · rcases hb with hb | hb
    · exact hb
    · rw [hb c (by rw [h]; rfl)] at hc
      cases hc

lemma lex_word {o q e : Nat} (h : t.drop o = cs) (hb : Boundary t o)
    (hm : .word q e ∈ lex o cs) : WordAt t q e := by
  fun_induction lex o cs with
  | case1 => simp at hm
  | case2 o c cs hc ih =>
    exact ih (drop_succ_of_cons h) (boundary_succ h (isWord_false_of_space hc)) hm
  | case3 o cs hd hw ih =>
    obtain ⟨ds, rfl⟩ := List.head?_eq_some_iff.1 hd
    have h₁ := drop_succ_of_cons h
    refine ih (drop_succ_of_cons h₁) (boundary_succ h₁ (isWord_false_of_symbol (by decide))) ?_
    simpa using hm
  | case4 o cs hd hw ih =>
    refine ih (drop_succ_of_cons h) (boundary_succ h (isWord_false_of_symbol (by decide))) ?_
    simpa using hm
  | case5 o c cs hw hc k hk ih =>
    obtain ⟨p, hp, rfl, rfl⟩ := symbolTok_spec hk
    have hs : p.1.toUInt8 ∈ symbols ∧ p.2.char.isSome := by
      clear hc hw hk h ih hm
      revert p
      decide
    refine ih (drop_succ_of_cons h) (boundary_succ h (isWord_false_of_symbol hs.1)) ?_
    rcases List.mem_cons.1 hm with hm | hm
    · rw [← hm] at hs
      simp [Tok.char] at hs
    · exact hm
  | case6 o c cs hw hc hk w ih =>
    obtain ⟨hword, hb'⟩ := wordAt_takeWhile h (isWord_of_symbolTok_none hk hc hw) hb
    rcases List.mem_cons.1 hm with hm | hm
    · cases hm
      exact hword
    · refine ih ?_ hb' hm
      rw [← List.drop_drop, drop_succ_of_cons h]

lemma boundary_zero (t : List UInt8) : Boundary t 0 := .inl fun h => absurd h (Nat.lt_irrefl 0)

section Tree

lemma mem_words_wrap {rs : List Redir} {w : Nat × Nat} :
    w ∈ (c.wrap rs).words ↔ w ∈ c.words ∨ ∃ r ∈ rs, w = (r.file, r.efile) := by
  induction rs generalizing c with
  | nil => simp [Cmd.wrap]
  | cons r rs ih =>
    rw [show c.wrap (r :: rs) = (Cmd.redir c r).wrap rs from rfl, ih, Cmd.words]
    simp only [List.mem_cons, exists_eq_or_imp]
    grind

lemma words_back (n : Nat) (c : Cmd) : (Cmd.back^[n] c).words = c.words := by
  induction n generalizing c with
  | zero => rfl
  | succ n ih => exact ih (.back c)

lemma Redirs.mem {rs : List Redir} (h : Redirs l rs) : ∀ r ∈ rs, .word r.file r.efile ∈ l := by
  induction h with
  | nil => nofun
  | @cons k q e r l rs hk h ih =>
    have hr : r.file = q ∧ r.efile = e := by cases k <;> cases hk <;> exact ⟨rfl, rfl⟩
    intro r' hm
    rcases List.mem_cons.1 hm with rfl | hm
    · simp [hr.1, hr.2]
    · exact .tail _ (.tail _ (ih r' hm))

lemma Args.mem {a : List (Nat × Nat) × List Redir} (h : Args l a) :
    (∀ w ∈ a.1, .word w.1 w.2 ∈ l) ∧ ∀ r ∈ a.2, .word r.file r.efile ∈ l := by
  induction h with
  | nil => exact ⟨nofun, nofun⟩
  | @cons q e l l' rs a hr h ih =>
    refine ⟨fun w hw => ?_, fun r hm => ?_⟩
    · rcases List.mem_cons.1 hw with rfl | hw
      · exact List.mem_cons_self
      · exact .tail _ (List.mem_append_right _ (ih.1 w hw))
    · rcases List.mem_append.1 hm with hm | hm
      · exact .tail _ (List.mem_append_left _ (hr.mem r hm))
      · exact .tail _ (List.mem_append_right _ (ih.2 r hm))

mutual

/-- The words of a tree are words of the line. -/
theorem Line.mem {l : List Tok} {c : Cmd} : Line l c → ∀ w ∈ c.words, .word w.1 w.2 ∈ l
  | .last n hp, w, hw => List.mem_append_left _ (hp.mem w (words_back n _ ▸ hw))
  | .seq n hp hl, w, hw =>
    (List.mem_append.1 hw).elim (fun hw => List.mem_append_left _ (hp.mem w (words_back n _ ▸ hw)))
      fun hw => List.mem_append_right _ (List.mem_append_right _ (.tail _ (hl.mem w hw)))

/-- The words of a tree are words of the line. -/
theorem Pipe.mem {l : List Tok} {c : Cmd} : Pipe l c → ∀ w ∈ c.words, .word w.1 w.2 ∈ l
  | .one hc, w, hw => hc.mem w hw
  | .pipe hc hp, w, hw =>
    (List.mem_append.1 hw).elim (fun hw => List.mem_append_left _ (hc.mem w hw))
      fun hw => List.mem_append_right _ (.tail _ (hp.mem w hw))

/-- The words of a tree are words of the line. -/
theorem Command.mem {l : List Tok} {c : Cmd} : Command l c → ∀ w ∈ c.words, .word w.1 w.2 ∈ l
  | .block hl hr, w, hw => by
    rcases mem_words_wrap.1 hw with hw | ⟨r, hm, rfl⟩
    · exact .tail _ (List.mem_append_left _ (hl.mem w hw))
    · exact .tail _ (List.mem_append_right _ (.tail _ (hr.mem r hm)))
  | .simple hr ha _, w, hw => by
    rcases mem_words_wrap.1 hw with hw | ⟨r, hm, rfl⟩
    · exact List.mem_append_right _ (ha.mem.1 w hw)
    · rcases List.mem_append.1 hm with hm | hm
      · exact List.mem_append_left _ (hr.mem r hm)
      · exact List.mem_append_right _ (ha.mem.2 r hm)

end

end Tree

section Buffer

variable {buf : Nat → UInt8}

def IsString (buf : Nat → UInt8) (p : Nat) (bs : List UInt8) : Prop :=
  (∀ i < bs.length, buf (p + i) = deref bs i ∧ deref bs i ≠ 0) ∧ buf (p + bs.length) = 0

lemma terminate_eq (argv : List (Nat × Nat)) (buf : Nat → UInt8) (i : Nat) :
    argv.foldl (fun buf w => update buf w.2 0) buf i = if i ∈ argv.map Prod.snd then 0 else buf i := by
  induction argv generalizing buf with
  | nil => rfl
  | cons w argv ih =>
    rw [List.foldl_cons, ih, update_apply, List.map_cons]
    simp only [List.mem_cons]
    grind

lemma nulterminate_eq (c : Cmd) (buf : Nat → UInt8) (i : Nat) :
    nulterminate c buf i = if i ∈ c.words.map Prod.snd then 0 else buf i := by
  induction c generalizing buf with
  | exec argv => exact terminate_eq argv buf i
  | redir c r ih =>
    rw [nulterminate, update_apply, ih, Cmd.words, List.map_cons]
    simp only [List.mem_cons]
    grind
  | pipe l r ihl ihr | list l r ihl ihr =>
    rw [nulterminate, ihr, ihl, Cmd.words, List.map_append]
    simp only [List.mem_append]
    grind
  | back c ih => exact ih buf

def wordBytes (t : List UInt8) (w : Nat × Nat) : List UInt8 := (t.drop w.1).take (w.2 - w.1)

lemma WordAt.end_ne {q e q' e' i : Nat} (h : WordAt t q e) (h' : WordAt t q' e') (hq : q ≤ i) (he : i < e) : e' ≠ i := by
  rintro rfl
  have hw := h.word e' hq he
  rw [h'.stop (by have := h.le; omega)] at hw
  cases hw

lemma WordAt.isString (h0 : 0 ∉ t) {ws : List (Nat × Nat)} {w : Nat × Nat} (hws : ∀ w ∈ ws, WordAt t w.1 w.2)
    (hw : w ∈ ws) : IsString (fun i => if i ∈ ws.map Prod.snd then 0 else deref t i) w.1 (wordBytes t w) := by
  have h := hws w hw
  have hlt := h.lt
  have hle := h.le
  have hlen : (wordBytes t w).length = w.2 - w.1 := by
    rw [wordBytes, List.length_take, List.length_drop]
    omega
  refine ⟨fun i hi => ?_, ?_⟩
  · rw [hlen] at hi
    have hd : deref (wordBytes t w) i = deref t (w.1 + i) := by
      simp [deref, wordBytes, List.getD_eq_getElem?_getD, hi]
    have hnot : w.1 + i ∉ ws.map Prod.snd := by
      intro hm
      obtain ⟨w', hw', e⟩ := List.mem_map.1 hm
      exact h.end_ne (hws w' hw') (Nat.le_add_right _ _) (by omega) e
    refine ⟨(if_neg hnot).trans hd.symm, fun hz => h0 ?_⟩
    have hlt : w.1 + i < t.length := by omega
    rw [hd, deref, List.getD_eq_getElem?_getD, List.getElem?_eq_getElem hlt, Option.getD_some] at hz
    exact hz ▸ List.getElem_mem hlt
  · rw [hlen, Nat.add_sub_cancel' (Nat.le_of_lt hlt)]
    exact if_pos (List.mem_map_of_mem hw)

end Buffer

/-- Parsing ends; it returns a tree exactly for the sentences of the grammar, the tree of their derivation, and every
    word of the tree is read out of the buffer as it was written. -/
theorem parsecmd_spec (t : List UInt8) (h0 : 0 ∉ t) :
    parsecmd t ≠ .error .fuel ∧
    (∀ c, (∃ buf, parsecmd t = .ok (c, buf)) ↔ Line (lex 0 t) c) ∧
    (∀ q e, .word q e ∈ lex 0 t → WordAt t q e) ∧
    ∀ c buf, parsecmd t = .ok (c, buf) → ∀ w ∈ c.words,
      .word w.1 w.2 ∈ lex 0 t ∧ IsString buf w.1 (wordBytes t w) := by
  have hword : ∀ q e, .word q e ∈ lex 0 t → WordAt t q e := fun q e =>
    lex_word (List.drop_zero) (boundary_zero t)
  refine ⟨parsecmd_ne_fuel h0, fun c => parsecmd_iff h0, hword, fun c buf h w hw => ?_⟩
  have hmem := ((parsecmd_iff h0).1 ⟨buf, h⟩).mem
  refine ⟨hmem w hw, ?_⟩
  have hbuf : buf = fun i => if i ∈ c.words.map Prod.snd then 0 else deref t i := by
    funext i
    rw [(parsecmd_ok h).1, nulterminate_eq]
  rw [hbuf]
  exact WordAt.isString h0 (fun w hw => hword w.1 w.2 (hmem w hw)) hw

/-- The line `(a<b;c)>>d|e f&`. -/
def sampleLine : List UInt8 :=
  ['(', 'a', '<', 'b', ';', 'c', ')', '>', '>', 'd', '|', 'e', ' ', 'f', '&'].map Char.toUInt8

def sampleTree : Cmd :=
  .back (.pipe
    (.redir (.list (.redir (.exec [(1, 2)]) ⟨3, 4, 0, 0⟩) (.exec [(5, 6)])) ⟨9, 10, 0x201, 1⟩)
    (.exec [(11, 12), (13, 14)]))

theorem parsecmd_spec_block : Line (lex 0 sampleLine) sampleTree := by
  have h : (parsecmd sampleLine).toOption.map Prod.fst = some sampleTree := by decide +kernel
  refine ((parsecmd_spec sampleLine (by decide)).2.1 _).1 ?_
  cases hp : parsecmd sampleLine with
  | error e =>
    rw [hp] at h
    cases h
  | ok r =>
    rw [hp] at h
    exact ⟨r.2, congrArg (fun c => Except.ok (c, r.2)) (Option.some.inj h)⟩

end Xv6n.Sh
