import Xv6n.Lib.Ring
import Xv6n.Sched.Basic

/-!
# Lines of the console

What `consoleintr` of `kernel/console.c` is for, without a buffer: keys edit the current line, the end of the line
passes it on to the readers, and so does a key that fills the buffer. The ring with its three counters of 32 bits
does exactly this.
-/

namespace Xv6n.Console
open Lib Sched

/-- What has been typed: what readers have taken, what they can take, and the line that is being edited. -/
structure Typed where
  taken : List UInt8
  queue : List UInt8
  line : List UInt8

namespace Typed

def committed (a : Typed) : List UInt8 := a.taken ++ a.queue

def Full (a : Typed) : Prop := INPUT_BUF_SIZE ≤ a.queue.length + a.line.length

instance (a : Typed) : Decidable a.Full := inferInstanceAs (Decidable (_ ≤ _))

def commit (a : Typed) : Typed := { a with queue := a.queue ++ a.line, line := [] }

def type (a : Typed) (ch : UInt8) : Typed :=
  let a := { a with line := a.line ++ [ch] }
  if ch = newline ∨ ch = ctrlD ∨ a.Full then a.commit else a

/-- A key is pressed: `^P` has no effect here, `^U` erases the line, backspace and DEL its last character, and a carriage
    return is a newline. Other keys are lost while the buffer is full. -/
def key (a : Typed) (ch : UInt8) : Typed :=
  if ch = 16 then a
  else if ch = 21 then { a with line := [] }
  else if ch = 8 ∨ ch = 127 then { a with line := a.line.dropLast }
  else if ch = 0 ∨ a.Full then a
  else a.type (if ch = 13 then newline else ch)

def take (a : Typed) : Typed := { a with taken := a.taken ++ a.queue.take 1, queue := a.queue.drop 1 }

end Typed

/-- The console's buffer holds what has been typed and not been taken. -/
structure Shows (c : Cons) (a : Typed) : Prop where
  ring : Ring (2 ^ 32) c.buf c.r c.e (a.queue ++ a.line)
  w : c.w = (c.r + a.queue.length) % 2 ^ 32
  r : c.r = a.taken.length % 2 ^ 32
  plain : newline ∉ a.line

section
variable {c : Cons} {a : Typed} {ch b : UInt8}

lemma size_dvd : INPUT_BUF_SIZE ∣ 2 ^ 32 := by decide

lemma size_lt : INPUT_BUF_SIZE < 2 ^ 32 := by decide

lemma Shows.distances (h : Shows c a) :
    c.w = (c.r + a.queue.length) % 2 ^ 32 ∧ c.e = (c.w + a.line.length) % 2 ^ 32 ∧
      a.queue.length + a.line.length ≤ INPUT_BUF_SIZE := by
  have he := h.ring.eq
  have hle := h.ring.le
  rw [List.length_append] at he hle
  refine ⟨h.w, ?_, hle⟩
  rw [he, h.w, Nat.mod_add_mod, Nat.add_assoc]

lemma Shows.e_eq_w (h : Shows c a) : c.e = c.w ↔ a.line = [] := by
  obtain ⟨hw, he, hle⟩ := h.distances
  have hlt := size_lt
  rw [← List.length_eq_zero_iff]
  constructor
  · intro hew
    have hlen : (c.r + (a.queue.length + a.line.length)) % 2 ^ 32 = (c.r + a.queue.length) % 2 ^ 32 := by
      rw [← hw, ← hew, he, hw, Nat.mod_add_mod, Nat.add_assoc]
    have := add_mod_inj (by omega) (by omega) hlen
    omega
  · intro hz
    rw [he, hz, Nat.add_zero, hw, Nat.mod_mod]

lemma Shows.r_eq_w (h : Shows c a) : c.r = c.w ↔ a.queue = [] := by
  obtain ⟨hw, -, hle⟩ := h.distances
  have hlt := size_lt
  have hr := h.ring.lt
  rw [← List.length_eq_zero_iff]
  constructor
  · intro hrw
    have hlen : (c.r + a.queue.length) % 2 ^ 32 = (c.r + 0) % 2 ^ 32 := by
      rw [← hw, ← hrw, Nat.add_zero, Nat.mod_eq_of_lt hr]
    exact add_mod_inj (by omega) (by omega) hlen
  · intro hz
    rw [hw, hz, Nat.add_zero, Nat.mod_eq_of_lt hr]

lemma Shows.sub (h : Shows c a) : (c.e + 2 ^ 32 - c.r) % 2 ^ 32 = a.queue.length + a.line.length := by
  rw [h.ring.sub size_lt, List.length_append]

lemma Shows.erase (h : Shows c a) (hl : a.line ≠ []) :
    c.buf (Cons.ix (c.e + 2 ^ 32 - 1)) = a.line.getLast hl ∧
      Shows { c with e := (c.e + 2 ^ 32 - 1) % 2 ^ 32 } { a with line := a.line.dropLast } := by
  have hring := h.ring
  rw [← List.dropLast_append_getLast hl, ← List.append_assoc] at hring
  obtain ⟨hb, hring⟩ := hring.unput size_dvd
  exact ⟨hb, hring, h.w, h.r, fun hm => h.plain (List.dropLast_subset _ hm)⟩

lemma Shows.kill {n : Nat} (h : Shows c a) (hn : a.line.length ≤ n) : Shows (c.kill n) { a with line := [] } := by
  induction n generalizing c a with
  | zero =>
    have hl : a.line = [] := List.length_eq_zero_iff.1 (Nat.le_zero.1 hn)
    rw [Cons.kill, ← hl]
    exact h
  | succ n ih =>
    rw [Cons.kill]
    by_cases hl : a.line = []
    · rw [if_neg fun hc => hc.1 (h.e_eq_w.2 hl), ← hl]
      exact h
    · obtain ⟨hb, hs⟩ := h.erase hl
      have hlast : c.buf (Cons.ix (c.e + 2 ^ 32 - 1)) ≠ newline := by
        rw [hb]
        exact fun hnl => h.plain (hnl ▸ List.getLast_mem hl)
      rw [if_pos ⟨mt h.e_eq_w.1 hl, hlast⟩]
      have hk := ih hs (by rw [List.length_dropLast]; omega)
      exact hk

def store (c : Cons) (ch : UInt8) : Cons :=
  { c with buf := Function.update c.buf (Cons.ix c.e) ch, e := (c.e + 1) % 2 ^ 32 }

lemma Shows.type (h : Shows c a) (hfull : ¬ a.Full) :
    Shows (if ch = newline ∨ ch = ctrlD ∨ ((store c ch).e + 2 ^ 32 - c.r) % 2 ^ 32 = INPUT_BUF_SIZE then
      { store c ch with w := (store c ch).e } else store c ch) (a.type ch) := by
  have hlen : (a.queue ++ a.line).length < INPUT_BUF_SIZE := by
    rw [List.length_append]
    exact Nat.lt_of_not_le hfull
  have hring : Ring (2 ^ 32) (store c ch).buf c.r (store c ch).e (a.queue ++ (a.line ++ [ch])) := by
    rw [← List.append_assoc]
    exact h.ring.put size_dvd hlen ch
  have hsub := hring.sub size_lt
  have hle := hring.le
  rw [List.length_append] at hsub hle
  have hcond : ((store c ch).e + 2 ^ 32 - c.r) % 2 ^ 32 = INPUT_BUF_SIZE ↔
      ({ a with line := a.line ++ [ch] } : Typed).Full := by
    rw [hsub, Typed.Full]
    exact ⟨fun he => he.ge, fun hge => le_antisymm hle hge⟩
  unfold Typed.type
  simp only [hcond]
  split
  · -- the line is passed on
    refine ⟨?_, ?_, h.r, List.not_mem_nil⟩
    · rwa [Typed.commit, List.append_nil]
    · exact hring.eq
  · rename_i hc
    refine ⟨hring, h.w, h.r, fun hm => ?_⟩
    rcases List.mem_append.1 hm with hm | hm
    · exact h.plain hm
    · exact hc (.inl (List.mem_singleton.1 hm).symm)

lemma Shows.key (h : Shows c a) : Shows (c.intr ch) (a.key ch) := by
  unfold Cons.intr Typed.key
  by_cases hP : ch = 16
  · rw [if_pos hP, if_pos hP]
    exact h
  rw [if_neg hP, if_neg hP]
  by_cases hU : ch = 21
  · rw [if_pos hU, if_pos hU]
    have hle := h.ring.le
    rw [List.length_append] at hle
    exact h.kill (by omega)
  rw [if_neg hU, if_neg hU]
  by_cases hH : ch = 8 ∨ ch = 127
  · rw [if_pos hH, if_pos hH]
    by_cases hl : a.line = []
    · rw [if_neg (not_not.2 (h.e_eq_w.2 hl)), hl, List.dropLast_nil, ← hl]
      exact h
    · rw [if_pos (mt h.e_eq_w.1 hl)]
      exact (h.erase hl).2
  rw [if_neg hH, if_neg hH]
  have hfull : (c.e + 2 ^ 32 - c.r) % 2 ^ 32 < INPUT_BUF_SIZE ↔ ¬ a.Full := by
    rw [h.sub, Typed.Full, Nat.not_le]
  by_cases hc : ch = 0 ∨ a.Full
  · rw [if_pos hc, if_neg]
    · exact h
    · rintro ⟨h0, hf⟩
      exact hc.elim h0 (hfull.1 hf)
  · rw [not_or] at hc
    rw [if_neg (not_or.2 hc), if_pos ⟨hc.1, hfull.2 hc.2⟩]
    exact h.type hc.2

lemma Shows.take (h : Shows c a) (hq : a.queue = b :: a.queue.tail) : c.head = b ∧ Shows c.advance a.take := by
  have hring := h.ring
  rw [hq, List.cons_append] at hring
  obtain ⟨hb, hring'⟩ := hring.pop size_dvd
  have hw := h.w
  rw [hq, List.length_cons] at hw
  refine ⟨hb, ?_, ?_, ?_, h.plain⟩
  · rw [Typed.take, List.drop_one]
    exact hring'
  · rw [Typed.take, List.drop_one, Cons.advance, hw, Nat.mod_add_mod]
    congr 1
    dsimp only
    omega
  · rw [Typed.take, Cons.advance, h.r, hq, List.length_append, Nat.mod_add_mod]
    rfl

lemma Typed.key_queue : ∃ l, (a.key ch).queue = a.queue ++ l ∧ (a.key ch).taken = a.taken := by
  unfold Typed.key
  split
  · exact ⟨[], (List.append_nil _).symm, rfl⟩
  split
  · exact ⟨[], (List.append_nil _).symm, rfl⟩
  split
  · exact ⟨[], (List.append_nil _).symm, rfl⟩
  split
  · exact ⟨[], (List.append_nil _).symm, rfl⟩
  · generalize (if ch = 13 then newline else ch) = ch'
    unfold Typed.type
    dsimp only
    split
    · exact ⟨a.line ++ [ch'], rfl, rfl⟩
    · exact ⟨[], (List.append_nil _).symm, rfl⟩

end

end Xv6n.Console
