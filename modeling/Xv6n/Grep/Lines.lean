import Xv6n.Grep.Match

/-!
# The lines that `grep` prints

The loop of `grep` of `user/grep.c` over its buffer. The stream is what is left in the file, and `sizes` says how
much each `read` gets of it: `read` number `j` gets `sizes j + 1` bytes, or less if it asked for less or the
stream is shorter, so every way to split the stream into pieces is one choice of `sizes`. The output is the list
of the `write`s.
-/

namespace Xv6n.Grep

def newline : UInt8 := '\n'.toUInt8

/-- The size of `buf`. -/
abbrev bufSize : Nat := 1024

/-- Find a character in a string: what is before it and what is after it. -/
def strchr (c : UInt8) : List UInt8 → Option (List UInt8 × List UInt8)
  | [] => none
  | d :: s =>
    if d = 0 then none
    else if d = c then some ([], s)
    else (strchr c s).map fun (before, after) => (d :: before, after)

lemma length_strchr {c : UInt8} {s before after : List UInt8} (h : strchr c s = some (before, after)) :
    after.length < s.length := by
  induction s generalizing before after with
  | nil => cases h
  | cons d s ih =>
    rw [strchr] at h
    split at h
    · cases h
    · split at h
      · cases h
        exact Nat.lt_succ_self _
      · obtain ⟨⟨b, a⟩, hs, he⟩ := Option.map_eq_some_iff.1 h
        cases he
        exact (ih hs).trans (Nat.lt_succ_self _)

/-- The loop over the lines in the buffer: what is written, and what is left from `p` on. -/
def scan (pattern p : List UInt8) : List (List UInt8) × List UInt8 :=
  match _h : strchr newline p with
  | none => ([], p)
  | some (line, rest) =>
    let out := scan pattern rest
    (if match_ pattern line then (line ++ [newline]) :: out.1 else out.1, out.2)
termination_by p.length
decreasing_by exact length_strchr _h

/-- What a `read` of at most `n` bytes gets of the stream, if it is given `size + 1` bytes. -/
def read (size n : Nat) (stream : List UInt8) : List UInt8 := stream.take (min n (size + 1))

/-- The loop of C `grep`, with `carry` in the buffer. -/
def grepLoop (pattern : List UInt8) (sizes : Nat → Nat) (carry stream : List UInt8) : List (List UInt8) :=
  let piece := read (sizes 0) (bufSize - carry.length - 1) stream
  if _h : 0 < piece.length then
    let out := scan pattern (carry ++ piece)
    out.1 ++ grepLoop pattern (fun j => sizes (j + 1)) out.2 (stream.drop piece.length)
  else []
termination_by stream.length
decreasing_by
  have hle : piece.length ≤ stream.length := List.length_take_le' _ _
  have hlen : (stream.drop piece.length).length = stream.length - piece.length := List.length_drop
  have hlt : (stream.drop piece.length).length < stream.length := by omega
  exact hlt

def grep (pattern : List UInt8) (sizes : Nat → Nat) (stream : List UInt8) : List (List UInt8) :=
  grepLoop pattern sizes [] stream

structure Line where
  text : List UInt8
  newline_notMem : newline ∉ text
  nul_notMem : 0 ∉ text

def Line.whole (l : Line) : List UInt8 := l.text ++ [newline]

def unlines (lines : List Line) : List UInt8 := lines.flatMap Line.whole

/-- The line and its newline fit into the buffer, with a NUL after them. -/
def Line.Short (l : Line) : Prop := l.whole.length < bufSize

instance (l : Line) : Decidable l.Short := inferInstanceAs (Decidable (_ < _))

def matching (pattern : List UInt8) (lines : List Line) : List (List UInt8) :=
  (lines.filter fun l => match_ pattern l.text).map Line.whole

section
variable {pattern buf rest carry stream before after : List UInt8} {l : Line} {lines : List Line} {sizes : Nat → Nat}

lemma unlines_cons : unlines (l :: lines) = l.text ++ newline :: unlines lines := by
  rw [unlines, List.flatMap_cons, Line.whole, List.append_assoc, unlines]
  rfl

lemma matching_cons :
    matching pattern (l :: lines) =
      if match_ pattern l.text then l.whole :: matching pattern lines else matching pattern lines := by
  rw [matching, List.filter_cons]
  split <;> rfl

lemma matching_append {lines' : List Line} :
    matching pattern (lines ++ lines') = matching pattern lines ++ matching pattern lines' := by
  rw [matching, List.filter_append, List.map_append, matching, matching]

lemma nul_notMem_unlines : 0 ∉ unlines lines := by
  intro h
  obtain ⟨l, -, hl⟩ := List.mem_flatMap.1 h
  rcases List.mem_append.1 hl with hl | hl
  · exact l.nul_notMem hl
  · exact absurd (List.mem_singleton.1 hl) (by decide)

lemma strchr_none (h0 : 0 ∉ buf) (h : strchr newline buf = none) : newline ∉ buf := by
  induction buf with
  | nil => exact List.not_mem_nil
  | cons d buf ih =>
    have hd : d ≠ 0 := fun hd => h0 (hd ▸ List.mem_cons_self)
    rw [strchr, if_neg hd] at h
    split at h
    · cases h
    · intro hmem
      rcases List.mem_cons.1 hmem with rfl | hmem
      · exact absurd rfl ‹_›
      · exact ih (fun hz => h0 (List.mem_cons_of_mem d hz)) (Option.map_eq_none_iff.1 h) hmem

lemma strchr_some (h : strchr newline buf = some (before, after)) :
    buf = before ++ newline :: after ∧ newline ∉ before := by
  induction buf generalizing before after with
  | nil => cases h
  | cons d buf ih =>
    rw [strchr] at h
    split at h
    · cases h
    · split at h
      · cases h
        exact ⟨congrArg (· :: buf) ‹_›, List.not_mem_nil⟩
      · rename_i hd
        obtain ⟨⟨b, a⟩, hs, he⟩ := Option.map_eq_some_iff.1 h
        cases he
        obtain ⟨rfl, hb⟩ := ih hs
        refine ⟨rfl, fun hmem => ?_⟩
        rcases List.mem_cons.1 hmem with hmem | hmem
        · exact hd hmem.symm
        · exact hb hmem

lemma split_first {a b a' b' : List UInt8} (ha : newline ∉ a) (ha' : newline ∉ a')
    (h : a ++ newline :: b = a' ++ newline :: b') : a = a' ∧ b = b' := by
  induction a generalizing a' with
  | nil =>
    cases a' with
    | nil => exact ⟨rfl, (List.cons.inj h).2⟩
    | cons d a' => exact absurd ((List.cons.inj h).1 ▸ List.mem_cons_self) ha'
  | cons c a ih =>
    cases a' with
    | nil => exact absurd ((List.cons.inj h).1 ▸ List.mem_cons_self) ha
    | cons d a' =>
      obtain ⟨rfl, htail⟩ := List.cons.inj h
      obtain ⟨rfl, hb⟩ := ih (mt (List.mem_cons_of_mem c) ha) (mt (List.mem_cons_of_mem c) ha') htail
      exact ⟨rfl, hb⟩

lemma text_of_notMem (h : carry ++ stream = unlines lines) (hn : newline ∉ carry) :
    lines = [] ∧ carry = [] ∧ stream = [] ∨
      ∃ l lines', lines = l :: lines' ∧ carry.length ≤ l.text.length ∧ stream ≠ [] := by
  cases lines with
  | nil =>
    obtain ⟨hc, hs⟩ := List.append_eq_nil_iff.1 h
    exact .inl ⟨rfl, hc, hs⟩
  | cons l lines =>
    refine .inr ⟨l, lines, rfl, ?_⟩
    rw [unlines_cons] at h
    rcases List.append_eq_append_iff.1 h with ⟨a, ha, hs⟩ | ⟨a, ha, hs⟩
    · rw [ha, List.length_append]
      refine ⟨Nat.le_add_right _ _, ?_⟩
      rw [hs]
      exact List.append_ne_nil_of_right_ne_nil _ (List.cons_ne_nil _ _)
    · cases a with
      | nil =>
        rw [ha, List.append_nil]
        refine ⟨le_rfl, ?_⟩
        rw [List.nil_append] at hs
        exact hs ▸ List.cons_ne_nil _ _
      | cons d a =>
        rw [List.cons_append, List.cons.injEq] at hs
        exact absurd (ha ▸ List.mem_append_right _ (hs.1 ▸ List.mem_cons_self)) hn

lemma scan_spec (h : buf ++ rest = unlines lines) :
    ∃ done todo, lines = done ++ todo ∧ buf = unlines done ++ (scan pattern buf).2 ∧
      (scan pattern buf).1 = matching pattern done ∧ (scan pattern buf).2 ++ rest = unlines todo ∧
      newline ∉ (scan pattern buf).2 := by
  induction lines generalizing buf with
  | nil =>
    obtain ⟨rfl, rfl⟩ := List.append_eq_nil_iff.1 h
    refine ⟨[], [], rfl, ?_⟩
    unfold scan
    simp [strchr, unlines, matching]
  | cons l lines ih =>
    have h0 : 0 ∉ buf := fun hz => nul_notMem_unlines (h ▸ List.mem_append_left _ hz)
    unfold scan
    split
    · rename_i hs
      exact ⟨[], l :: lines, rfl, rfl, rfl, h, strchr_none h0 hs⟩
    · rename_i line after hs
      obtain ⟨rfl, hline⟩ := strchr_some hs
      rw [unlines_cons, List.append_assoc, List.cons_append] at h
      -- the first newline ends the first line
      obtain ⟨rfl, hafter⟩ := split_first hline l.newline_notMem h
      obtain ⟨done, todo, rfl, hbuf, hout, hleft, hn⟩ := ih hafter
      refine ⟨l :: done, todo, rfl, ?_, ?_, hleft, hn⟩
      · rw [unlines_cons, List.append_assoc, List.cons_append, ← hbuf]
      · dsimp only
        rw [hout, matching_cons]
        rfl

lemma Line.Short.of_mem {done : List Line} (hl : l ∈ done) (hbuf : (unlines done).length < bufSize) : l.Short := by
  obtain ⟨a, b, rfl⟩ := List.append_of_mem hl
  rw [unlines, List.flatMap_append, List.flatMap_cons, List.length_append, List.length_append] at hbuf
  unfold Line.Short
  omega

/-- Whatever the `read`s get, the lines before the first long one are searched. -/
lemma grepLoop_eq (h : carry ++ stream = unlines lines) (hn : newline ∉ carry) (hlen : carry.length < bufSize) :
    grepLoop pattern sizes carry stream = matching pattern (lines.takeWhile Line.Short) := by
  induction hk : stream.length using Nat.strong_induction_on generalizing carry stream lines sizes with
  | _ k ih =>
    subst hk
    generalize hp : read (sizes 0) (bufSize - carry.length - 1) stream = piece
    have hpiece : piece = stream.take (min (bufSize - carry.length - 1) (sizes 0 + 1)) := hp.symm
    have hplen : piece.length = min (min (bufSize - carry.length - 1) (sizes 0 + 1)) stream.length := by
      rw [hpiece, List.length_take]
    rw [grepLoop, hp]
    dsimp only
    split
    · rename_i hpos
      have hsplit : (carry ++ piece) ++ stream.drop piece.length = unlines lines := by
        have hpre : piece <+: stream := hpiece ▸ List.take_prefix _ _
        rw [List.append_assoc, List.prefix_iff_eq_append.1 hpre, h]
      obtain ⟨done, todo, rfl, hbuf, hout, hleft, hn'⟩ := @scan_spec pattern _ _ _ hsplit
      have hlen' := congrArg List.length hbuf
      rw [List.length_append, List.length_append] at hlen'
      have hshort : ∀ l ∈ done, l.Short := fun l hl => .of_mem hl (by omega)
      rw [hout, ih _ ?_ hleft hn' (by omega) rfl]
      · rw [List.takeWhile_append_of_pos (by simpa using hshort), matching_append]
      · rw [List.length_drop]
        omega
    · rename_i hpos
      rcases text_of_notMem h hn with ⟨rfl, -, -⟩ | ⟨l, lines', rfl, hl, hs⟩
      · rfl
      · -- the buffer is full, and the line does not end in it
        have hlong : ¬ l.Short := by
          have := List.length_pos_of_ne_nil hs
          rw [Line.Short, Line.whole, List.length_append, List.length_singleton]
          omega
        rw [List.takeWhile_cons_of_neg (by simpa using hlong)]
        rfl

lemma grep_eq : grep pattern sizes (unlines lines) = matching pattern (lines.takeWhile Line.Short) :=
  grepLoop_eq rfl List.not_mem_nil (by decide)

/-- `grep` prints what matches of the lines before the first one that does not fit into its buffer with its
newline, however the `read`s split the stream. So it prints exactly the matching lines if and only if none of
them is that line or comes after it. -/
theorem grep_lines (pattern : List UInt8) (sizes : Nat → Nat) (lines : List Line) :
    grep pattern sizes (unlines lines) = matching pattern (lines.takeWhile Line.Short) ∧
      (grep pattern sizes (unlines lines) = matching pattern lines ↔
        ∀ l ∈ lines.dropWhile Line.Short, match_ pattern l.text = false) := by
  refine ⟨grep_eq, ?_⟩
  have hall : matching pattern lines =
      matching pattern (lines.takeWhile Line.Short) ++ matching pattern (lines.dropWhile Line.Short) := by
    rw [← matching_append, List.takeWhile_append_dropWhile]
  rw [grep_eq, hall, List.self_eq_append_right, matching, List.map_eq_nil_iff, List.filter_eq_nil_iff]
  simp

def longLine : Line :=
  ⟨List.replicate 1023 'a'.toUInt8, by rw [List.mem_replicate]; decide, by rw [List.mem_replicate]; decide⟩

/-- The line `b`. -/
def bLine : Line := ⟨['b'.toUInt8], by decide, by decide⟩

/-- A line `b` is not printed after a line of 1023 characters, though it matches the pattern `b`. -/
theorem grep_lines_long :
    grep ['b'.toUInt8] (fun _ => 511) (unlines [longLine, bLine]) = [] ∧
      match_ ['b'.toUInt8] bLine.text = true := by
  constructor
  · have hlong : ¬ longLine.Short := by
      rw [Line.Short, Line.whole, longLine, List.length_append, List.length_replicate]
      decide
    have hnil : [longLine, bLine].takeWhile Line.Short = [] := List.takeWhile_cons_of_neg (by simpa using hlong)
    rw [grep_eq, hnil]
    rfl
  · simp [match_, matchLoop, matchhere, bLine]

end

end Xv6n.Grep
