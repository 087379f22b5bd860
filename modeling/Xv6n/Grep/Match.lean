import Mathlib.Computability.Language

/-!
# The matcher of `grep`

`match`, `matchhere` and `matchstar` of `user/grep.c`. A pattern or a text is the bytes of the string before
its NUL, so the test `*text != '\0'` is a test for the empty list. `denote` gives a pattern its meaning as a
language, and the matcher finds exactly the texts in which this language occurs.
-/

namespace Xv6n.Grep
open Computability

def caret : UInt8 := '^'.toUInt8
def dot : UInt8 := '.'.toUInt8
def star : UInt8 := '*'.toUInt8
def dollar : UInt8 := '$'.toUInt8

mutual
/-- Search for `re` at the beginning of `text`. -/
def matchhere : List UInt8 → List UInt8 → Bool
  | [], _ => true
  | [c], text =>
    if c = dollar then text.isEmpty
    else match text with
      | [] => false
      | d :: text => if c = dot ∨ c = d then matchhere [] text else false
  | c :: c' :: re, text =>
    if c' = star then matchstar c re text
    else match text with
      | [] => false
      | d :: text => if c = dot ∨ c = d then matchhere (c' :: re) text else false
termination_by re text => (re.length, text.length, 0)

/-- Search for `c*re` at the beginning of `text`. -/
def matchstar (c : UInt8) (re : List UInt8) (text : List UInt8) : Bool :=
  if matchhere re text then true
  else match text with
    | [] => false
    | d :: text => if d = c ∨ c = dot then matchstar c re text else false
termination_by (re.length, text.length, 1)
end

/-- The loop of C `match` over the ends of the text, the empty one included. -/
def matchLoop (re : List UInt8) (text : List UInt8) : Bool :=
  if matchhere re text then true
  else match text with
    | [] => false
    | _ :: text => matchLoop re text

/-- Search for `re` in `text` (C `match`). -/
def match_ (re text : List UInt8) : Bool :=
  match re with
  | c :: re' => if c = caret then matchhere re' text else matchLoop re text
  | [] => matchLoop re text

/-- An item of a pattern: a character or a starred one, where `.` stands for every character. -/
inductive Item where
  | one (c : UInt8)
  | many (c : UInt8)
deriving DecidableEq, Repr

/-- The items of a pattern without its `^`, and whether it ends in a `$` for the end of the text. -/
def parse : List UInt8 → List Item × Bool
  | [] => ([], false)
  | [c] => if c = dollar then ([], true) else ([.one c], false)
  | c :: c' :: re =>
    if c' = star then ((.many c) :: (parse re).1, (parse re).2)
    else ((.one c) :: (parse (c' :: re)).1, (parse (c' :: re)).2)

-- a star that follows an item is a character of its own
example : parse "a**".toUTF8.toList = ([.many 97, .one star], false) := by decide +kernel
example : parse "$*$".toUTF8.toList = ([.many dollar], true) := by decide +kernel

def single (c : UInt8) : Language UInt8 := {v | ∃ d, v = [d] ∧ (c = dot ∨ c = d)}

def Item.denote : Item → Language UInt8
  | .one c => single c
  | .many c => (single c)∗

def denote (items : List Item) : Language UInt8 := (items.map Item.denote).prod

/-- A pattern: whether it starts with `^`, its items, and whether it ends in `$`. -/
structure Pattern where
  anchored : Bool
  items : List Item
  atEnd : Bool

def Pattern.of (re : List UInt8) : Pattern :=
  if re.head? = some caret then ⟨true, (parse re.tail).1, (parse re.tail).2⟩
  else ⟨false, (parse re).1, (parse re).2⟩

-- and so is one that follows the `^`
example : (Pattern.of "^*".toUTF8.toList).items = [.one star] := by decide +kernel

/-- A text of the items is in `text`, at its start or its end where the pattern says so. -/
def Pattern.Occurs (p : Pattern) (text : List UInt8) : Prop :=
  ∃ u v w, text = u ++ v ++ w ∧ v ∈ denote p.items ∧ (p.anchored = true → u = []) ∧ (p.atEnd = true → w = [])

/-- A text of the items `p.1` is at the start of `text`, and at its end too if `p.2`. -/
def Begins (p : List Item × Bool) (text : List UInt8) : Prop :=
  ∃ v w, text = v ++ w ∧ v ∈ denote p.1 ∧ (p.2 = true → w = [])

section
variable {c : UInt8} {re text : List UInt8} {p : List Item × Bool} {items : List Item} {b : Bool}

lemma begins_nil : Begins ([], false) text :=
  ⟨[], text, rfl, rfl, nofun⟩

lemma begins_end : Begins ([], true) text ↔ text = [] := by
  constructor
  · rintro ⟨v, w, rfl, hv, hw⟩
    rw [hw rfl, List.append_nil]
    exact hv
  · rintro rfl
    exact ⟨[], [], rfl, rfl, fun _ => rfl⟩

lemma begins_cons {x : Item} :
    Begins (x :: items, b) text ↔ ∃ u t, text = u ++ t ∧ u ∈ x.denote ∧ Begins (items, b) t := by
  have hprod : denote (x :: items) = x.denote * denote items := by
    rw [denote, List.map_cons, List.prod_cons, denote]
  constructor
  · rintro ⟨v, w, rfl, hv, hw⟩
    rw [hprod, Language.mem_mul] at hv
    obtain ⟨u, hu, v', hv', rfl⟩ := hv
    exact ⟨u, v' ++ w, List.append_assoc u v' w, hu, v', w, rfl, hv', hw⟩
  · rintro ⟨u, t, rfl, hu, v, w, rfl, hv, hw⟩
    refine ⟨u ++ v, w, (List.append_assoc u v w).symm, ?_, hw⟩
    rw [hprod]
    exact Language.append_mem_mul hu hv

lemma begins_one :
    Begins (.one c :: items, b) text ↔ ∃ d t, text = d :: t ∧ (c = dot ∨ c = d) ∧ Begins (items, b) t := by
  rw [begins_cons]
  constructor
  · rintro ⟨u, t, rfl, ⟨d, rfl, hd⟩, ht⟩
    exact ⟨d, t, rfl, hd, ht⟩
  · rintro ⟨d, t, rfl, hd, ht⟩
    exact ⟨[d], t, rfl, ⟨d, rfl, hd⟩, ht⟩

lemma begins_many :
    Begins (.many c :: items, b) text ↔
      Begins (items, b) text ∨ ∃ d t, text = d :: t ∧ (c = dot ∨ c = d) ∧ Begins (.many c :: items, b) t := by
  rw [begins_cons]
  constructor
  · rintro ⟨u, t, rfl, hu, ht⟩
    have hu' : u ∈ (single c)∗ := hu
    rw [← Language.one_add_self_mul_kstar_eq_kstar, Language.mem_add] at hu'
    rcases hu' with hu' | hu'
    · cases hu'
      exact .inl ht
    · obtain ⟨u1, ⟨d, rfl, hd⟩, u2, hu2, rfl⟩ := Language.mem_mul.1 hu'
      refine .inr ⟨d, u2 ++ t, rfl, hd, ?_⟩
      exact begins_cons.2 ⟨u2, t, rfl, hu2, ht⟩
  · rintro (ht | ⟨d, t, rfl, hd, ht⟩)
    · exact ⟨[], text, rfl, Language.nil_mem_kstar _, ht⟩
    · obtain ⟨u, t, rfl, hu, ht⟩ := begins_cons.1 ht
      refine ⟨d :: u, t, rfl, ?_, ht⟩
      have hmul : [d] ++ u ∈ single c * (single c)∗ := Language.append_mem_mul ⟨d, rfl, hd⟩ hu
      have hle : single c * (single c)∗ ≤ (single c)∗ := mul_kstar_le_kstar
      exact hle hmul

lemma matchstar_iff (h : ∀ text, matchhere re text = true ↔ Begins (items, b) text) :
    matchstar c re text = true ↔ Begins (.many c :: items, b) text := by
  induction text with
  | nil =>
    rw [matchstar, begins_many, ← h]
    simp
  | cons d text ih =>
    rw [matchstar, begins_many, ← h]
    by_cases hhere : matchhere re (d :: text) = true
    · simp [hhere]
    · have hcd : (d = c ∨ c = dot) ↔ (c = dot ∨ c = d) := by rw [or_comm, eq_comm (a := d)]
      simp [hhere, hcd, ih]

lemma matchhere_iff : matchhere re text = true ↔ Begins (parse re) text := by
  induction hn : re.length using Nat.strong_induction_on generalizing re text with
  | _ n ih =>
    subst hn
    match re with
    | [] => simp [matchhere, parse, begins_nil]
    | [c] =>
      rw [matchhere.eq_def, parse]
      by_cases hc : c = dollar
      · simp [hc, begins_end]
      · rw [if_neg hc]
        simp only [if_neg hc]
        rw [begins_one]
        cases text with
        | nil => simp
        | cons d text => simp [matchhere, begins_nil]
    | c :: c' :: re =>
      rw [matchhere.eq_def, parse]
      by_cases hc : c' = star
      · simp only [if_pos hc]
        exact matchstar_iff fun text => ih re.length (by simp only [List.length_cons]; omega) rfl
      · simp only [if_neg hc]
        rw [begins_one]
        cases text with
        | nil => simp
        | cons d text =>
          have hrest : matchhere (c' :: re) text = true ↔ Begins (parse (c' :: re)) text := ih _ (by simp) rfl
          simp [hrest]

lemma matchLoop_iff : matchLoop re text = true ↔ ∃ u t, text = u ++ t ∧ Begins (parse re) t := by
  induction text with
  | nil =>
    rw [matchLoop]
    simp [matchhere_iff]
  | cons d text ih =>
    rw [matchLoop]
    by_cases hhere : matchhere re (d :: text) = true
    · simp only [hhere, if_true, true_iff]
      exact ⟨[], d :: text, rfl, matchhere_iff.1 hhere⟩
    · rw [if_neg hhere, ih]
      constructor
      · rintro ⟨u, t, rfl, ht⟩
        exact ⟨d :: u, t, rfl, ht⟩
      · rintro ⟨u, t, he, ht⟩
        cases u with
        | nil => exact absurd (matchhere_iff.2 (he ▸ ht)) hhere
        | cons d' u =>
          cases he
          exact ⟨u, t, rfl, ht⟩

/-- `match` finds exactly the texts in which the pattern occurs. -/
theorem match_iff_occurs (re text : List UInt8) : match_ re text = true ↔ (Pattern.of re).Occurs text := by
  unfold Pattern.of Pattern.Occurs
  by_cases hre : re.head? = some caret
  · obtain ⟨re', rfl⟩ := List.head?_eq_some_iff.1 hre
    simp only [match_, if_pos, List.head?_cons, List.tail_cons, matchhere_iff]
    constructor
    · rintro ⟨v, w, rfl, hv, hw⟩
      exact ⟨[], v, w, rfl, hv, fun _ => rfl, hw⟩
    · rintro ⟨u, v, w, rfl, hv, hu, hw⟩
      rw [hu trivial]
      exact ⟨v, w, rfl, hv, hw⟩
  · have hloop : match_ re text = matchLoop re text := by
      cases re with
      | nil => rfl
      | cons c re => exact if_neg fun hc => hre (congrArg some hc)
    rw [hloop, matchLoop_iff, if_neg hre]
    constructor
    · rintro ⟨u, t, rfl, v, w, rfl, hv, hw⟩
      exact ⟨u, v, w, (List.append_assoc u v w).symm, hv, nofun, hw⟩
    · rintro ⟨u, v, w, rfl, hv, -, hw⟩
      exact ⟨u, v ++ w, List.append_assoc u v w, v, w, rfl, hv, hw⟩

end

end Xv6n.Grep
