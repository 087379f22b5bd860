import Mathlib.Data.UInt
import Xv6n.Lib.Numeral

/-!
# The two `printf`s

`printfk` of the kernel (`kernel/printf.c`) and `vprintf` of the user library (`user/printf.c`), as the bytes
that they write. A format is the bytes of the string before its NUL, `ap` are the arguments from the next one
on, each in its own 64 bits, and `str p` are the bytes of the string at `p`. The result is `none` if the digit
buffer is overrun.
-/

namespace Xv6n.Printf
open Lib
variable {xx : Int32} {d : String}

def kdigits (i : Nat) : UInt8 := ("0123456789abcdef".toList.map Char.toUInt8).getD i 0

def udigits (i : Nat) : UInt8 := ("0123456789ABCDEF".toList.map Char.toUInt8).getD i 0

abbrev bufSize : Nat := 16

/-- Append to the digit buffer (C `buf[i++] = c`). -/
def put (buf : List UInt8) (c : UInt8) : Option (List UInt8) :=
  if buf.length < bufSize then some (buf ++ [c]) else none

/-- The loop that makes the digits (C `do ... while ((x /= base) != 0)`). -/
def digitLoop (dig : Nat → UInt8) (base : UInt32) : Nat → UInt32 → List UInt8 → Option (List UInt8)
  | 0, _, _ => none
  | fuel + 1, x, buf => do
    let buf ← put buf (dig (x % base).toNat)
    if x / base ≠ 0 then digitLoop dig base fuel (x / base) buf else some buf

/-- Print a number, with its sign if `sign`. -/
def printNum (dig : Nat → UInt8) (xx : Int32) (base : UInt32) (sign : Bool) : Option (List UInt8) := do
  let neg := sign ∧ xx < 0
  let x := if neg then (-xx).toUInt32 else xx.toUInt32
  let buf ← digitLoop dig base 32 x []
  let buf ← if neg then put buf '-'.toUInt8 else some buf
  return buf.reverse

/-- C `printkint`. -/
def printkint : Int32 → UInt32 → Bool → Option (List UInt8) := printNum kdigits

/-- C `printint`. -/
def printint : Int32 → UInt32 → Bool → Option (List UInt8) := printNum udigits

def ptrLoop (dig : Nat → UInt8) : Nat → UInt64 → List UInt8
  | 0, _ => []
  | n + 1, x => dig (x >>> 60).toNat :: ptrLoop dig n (x <<< 4)

def printPtr (dig : Nat → UInt8) (x : UInt64) : List UInt8 := '0'.toUInt8 :: 'x'.toUInt8 :: ptrLoop dig 16 x

/-- C `printkptr`. -/
def printkptr : UInt64 → List UInt8 := printPtr kdigits

/-- C `printptr`. -/
def printptr : UInt64 → List UInt8 := printPtr udigits

/-- An argument of type `int` (C `va_arg(ap, int)`). -/
def vaInt (ap : Nat → UInt64) : Int32 := (ap 0).toUInt32.toInt32

def next (ap : Nat → UInt64) : Nat → UInt64 := fun k => ap (k + 1)

/-- An argument of type `char *`. -/
def vaStr (str : UInt64 → List UInt8) (ap : Nat → UInt64) : List UInt8 :=
  if ap 0 = 0 then "(null)".toList.map Char.toUInt8 else str (ap 0)

def emit (l rest : Option (List UInt8)) : Option (List UInt8) := do return (← l) ++ (← rest)

/-- Print to the console. -/
def printfk (str : UInt64 → List UInt8) : List UInt8 → (Nat → UInt64) → Option (List UInt8)
  | [], _ => some []
  | c :: fmt, ap =>
    if c ≠ '%'.toUInt8 then emit (some [c]) (printfk str fmt ap)
    else match fmt with
    | [] => some []
    | c :: fmt =>
      if c = 'd'.toUInt8 then emit (printkint (vaInt ap) 10 true) (printfk str fmt (next ap))
      else if c = 'x'.toUInt8 then emit (printkint (vaInt ap) 16 true) (printfk str fmt (next ap))
      else if c = 'p'.toUInt8 then emit (some (printkptr (ap 0))) (printfk str fmt (next ap))
      else if c = 's'.toUInt8 then emit (some (vaStr str ap)) (printfk str fmt (next ap))
      else if c = '%'.toUInt8 then emit (some ['%'.toUInt8]) (printfk str fmt ap)
      else emit (some ['%'.toUInt8, c]) (printfk str fmt ap)

/-- The loop of `vprintf`; `percent` is its `state`. -/
def vprintfLoop (str : UInt64 → List UInt8) : Bool → List UInt8 → (Nat → UInt64) → Option (List UInt8)
  | _, [], _ => some []
  | false, c :: fmt, ap =>
    if c = '%'.toUInt8 then vprintfLoop str true fmt ap else emit (some [c]) (vprintfLoop str false fmt ap)
  | true, c :: fmt, ap =>
    if c = 'd'.toUInt8 then emit (printint (vaInt ap) 10 true) (vprintfLoop str false fmt (next ap))
    else if c = 'l'.toUInt8 then emit (printint (vaInt ap) 10 false) (vprintfLoop str false fmt (next ap))
    else if c = 'x'.toUInt8 then emit (printint (vaInt ap) 16 false) (vprintfLoop str false fmt (next ap))
    else if c = 'p'.toUInt8 then emit (some (printptr (ap 0))) (vprintfLoop str false fmt (next ap))
    else if c = 's'.toUInt8 then emit (some (vaStr str ap)) (vprintfLoop str false fmt (next ap))
    else if c = 'c'.toUInt8 then emit (some [(ap 0).toUInt8]) (vprintfLoop str false fmt (next ap))
    else if c = '%'.toUInt8 then emit (some [c]) (vprintfLoop str false fmt ap)
    else emit (some ['%'.toUInt8, c]) (vprintfLoop str false fmt ap)

def vprintf (str : UInt64 → List UInt8) : List UInt8 → (Nat → UInt64) → Option (List UInt8) := vprintfLoop str false

section num
variable {dig : Nat → UInt8} {base : UInt32} {x : UInt32} {buf : List UInt8} {fuel : Nat}

lemma put_of_lt {c : UInt8} (h : buf.length < bufSize) : put buf c = some (buf ++ [c]) := if_pos h

lemma digitLoop_eq (hb : 1 < base.toNat) (hfuel : (digs base.toNat x.toNat).length ≤ fuel)
    (hbuf : buf.length + (digs base.toNat x.toNat).length ≤ bufSize) :
    digitLoop dig base fuel x buf = some (buf ++ (digs base.toNat x.toNat).map dig) := by
  induction fuel generalizing x buf with
  | zero =>
    have := List.length_pos_of_ne_nil (digs_ne_nil (b := base.toNat) (n := x.toNat))
    omega
  | succ fuel ih =>
    rw [digs_eq hb] at hfuel hbuf ⊢
    rw [List.length_cons] at hfuel hbuf
    have hdiv : x / base = 0 ↔ x.toNat / base.toNat = 0 := by
      rw [← UInt32.toNat_inj, UInt32.toNat_div]
      rfl
    rw [digitLoop, put_of_lt (by omega), UInt32.toNat_mod]
    simp only [Option.bind_eq_bind, Option.bind_some]
    by_cases h0 : x / base = 0
    · rw [if_neg (not_not.2 h0), if_pos (hdiv.1 h0)]
      rfl
    · rw [if_neg (mt hdiv.2 h0)] at hfuel hbuf
      rw [if_pos h0, if_neg (mt hdiv.2 h0), ih]
      · simp [UInt32.toNat_div]
      · rw [UInt32.toNat_div]
        omega
      · rw [UInt32.toNat_div, List.length_append, List.length_singleton]
        omega

def signed (dig : Nat → UInt8) (b : Nat) (n : Int) : List UInt8 :=
  if n < 0 then '-'.toUInt8 :: numeral dig b n.natAbs else numeral dig b n.natAbs

lemma neg_iff : xx < 0 ↔ xx.toInt < 0 := Int32.lt_iff_toInt_lt

lemma toNat_neg (h : xx.toInt < 0) : (-xx).toUInt32.toNat = xx.toInt.natAbs := by
  have hint : xx.toInt = xx.toBitVec.toInt := rfl
  have hnat : (-xx).toUInt32.toNat = (-xx.toBitVec).toNat := rfl
  have hcond := BitVec.toInt_eq_toNat_cond xx.toBitVec
  have hlt := xx.toBitVec.isLt
  rw [hint] at h
  rw [hnat, hint, BitVec.toNat_neg]
  split at hcond <;> omega

lemma toNat_of_nonneg (h : ¬ xx.toInt < 0) : xx.toUInt32.toNat = xx.toInt.natAbs := by
  have hint : xx.toInt = xx.toBitVec.toInt := rfl
  have hnat : xx.toUInt32.toNat = xx.toBitVec.toNat := rfl
  have hcond := BitVec.toInt_eq_toNat_cond xx.toBitVec
  have hlt := xx.toBitVec.isLt
  rw [hint] at h
  rw [hnat, hint]
  split at hcond <;> omega

/-- A base in which every `uint` and a sign fit into the buffer. -/
structure Fits (base : UInt32) : Prop where
  one_lt : 1 < base.toNat
  short : 2 ^ 32 ≤ base.toNat ^ 15

lemma Fits.length_le (hb : Fits base) : (digs base.toNat x.toNat).length ≤ 15 :=
  length_digs_le hb.one_lt (by decide) (x.toNat_lt.trans_le hb.short)

lemma Fits.digitLoop (hb : Fits base) :
    digitLoop dig base 32 x [] = some ((digs base.toNat x.toNat).map dig) := by
  have hlen := hb.length_le (x := x)
  have hbuf : ([] : List UInt8).length + (digs base.toNat x.toNat).length ≤ bufSize := by
    rw [List.length_nil, bufSize]
    omega
  exact digitLoop_eq hb.one_lt (hlen.trans (by decide)) hbuf

lemma printNum_unsigned (hb : Fits base) :
    printNum dig xx base false = some (numeral dig base.toNat xx.toUInt32.toNat) := by
  simp [printNum, hb.digitLoop, numeral]

lemma printNum_signed (hb : Fits base) :
    printNum dig xx base true = some (signed dig base.toNat xx.toInt) := by
  by_cases hneg : xx.toInt < 0
  · -- the buffer still has a place for the sign
    have hshort : ((digs base.toNat xx.toInt.natAbs).map dig).length < bufSize := by
      rw [List.length_map, ← toNat_neg hneg]
      exact Nat.lt_succ_of_le hb.length_le
    simp [printNum, neg_iff, hneg, hb.digitLoop, toNat_neg hneg, put_of_lt hshort, numeral, signed,
      -Int32.toUInt32_neg]
  · simp [printNum, neg_iff, hneg, hb.digitLoop, toNat_of_nonneg hneg, numeral, signed]

lemma fits_ten : Fits 10 := ⟨by decide, by decide⟩

lemma fits_sixteen : Fits 16 := ⟨by decide, by decide⟩

end num

section ptr
variable {dig : Nat → UInt8} {x : UInt64}

/-- The 16 hexadecimal digits of a 64-bit value, the most significant one first. -/
def hex16 (dig : Nat → UInt8) (x : UInt64) : List UInt8 :=
  (List.range 16).map fun i => dig (x.toNat / 16 ^ (15 - i) % 16)

lemma ptrLoop_eq {n : Nat} :
    ptrLoop dig n x = (List.range n).map fun i => dig (x.toNat * 16 ^ i % 2 ^ 64 / 2 ^ 60) := by
  induction n generalizing x with
  | zero => rfl
  | succ n ih =>
    rw [ptrLoop, ih, List.range_succ_eq_map, List.map_cons, List.map_map]
    have htop : (x >>> 60).toNat = x.toNat * 16 ^ 0 % 2 ^ 64 / 2 ^ 60 := by
      rw [pow_zero, Nat.mul_one, Nat.mod_eq_of_lt x.toNat_lt]
      simp [Nat.shiftRight_eq_div_pow]
    have hshift : (x <<< 4).toNat = x.toNat * 16 % 2 ^ 64 := by simp [Nat.shiftLeft_eq]
    rw [htop, hshift]
    refine congrArg _ (List.map_congr_left fun i _ => ?_)
    rw [Nat.mod_mul_mod, Function.comp_apply, Nat.succ_eq_add_one, pow_succ' 16, Nat.mul_assoc]

lemma top_digit {n i : Nat} (hi : i < 16) : n * 16 ^ i % 2 ^ 64 / 2 ^ 60 = n / 16 ^ (15 - i) % 16 := by
  have hpow : 2 ^ 60 = 16 ^ (15 - i) * 16 ^ i := by
    rw [← pow_add, Nat.sub_add_cancel (Nat.le_of_lt_succ hi)]
    rfl
  rw [show 2 ^ 64 = 2 ^ 60 * 16 from rfl, Nat.mod_mul_right_div_self, hpow,
    Nat.mul_div_mul_right _ _ (Nat.pow_pos (by decide))]

lemma printPtr_eq : printPtr dig x = '0'.toUInt8 :: 'x'.toUInt8 :: hex16 dig x := by
  rw [printPtr, ptrLoop_eq, hex16]
  refine congrArg _ (congrArg _ (List.map_congr_left fun i hi => ?_))
  rw [top_digit (List.mem_range.1 hi)]

end ptr

section total
variable {str : UInt64 → List UInt8} {fmt : List UInt8} {ap : Nat → UInt64}

lemma isSome_emit {l rest : Option (List UInt8)} (hl : l.isSome) (hrest : rest.isSome) : (emit l rest).isSome := by
  obtain ⟨a, rfl⟩ := Option.isSome_iff_exists.1 hl
  obtain ⟨b, rfl⟩ := Option.isSome_iff_exists.1 hrest
  rfl

lemma isSome_printNum {dig : Nat → UInt8} {base : UInt32} {sign : Bool} (hb : Fits base) :
    (printNum dig xx base sign).isSome := by
  cases sign with
  | false => rw [printNum_unsigned hb, Option.isSome_some]
  | true => rw [printNum_signed hb, Option.isSome_some]

lemma isSome_printfk : (printfk str fmt ap).isSome := by
  fun_induction printfk str fmt ap
  case case1 | case3 => rfl
  case case4 ih => exact isSome_emit (isSome_printNum fits_ten) ih
  case case5 ih => exact isSome_emit (isSome_printNum fits_sixteen) ih
  case case2 ih | case6 ih | case7 ih | case8 ih | case9 ih => exact isSome_emit rfl ih

lemma isSome_vprintfLoop {percent : Bool} : (vprintfLoop str percent fmt ap).isSome := by
  fun_induction vprintfLoop str percent fmt ap
  case case1 => rfl
  case case2 ih => exact ih
  case case4 ih | case5 ih => exact isSome_emit (isSome_printNum fits_ten) ih
  case case6 ih => exact isSome_emit (isSome_printNum fits_sixteen) ih
  case case3 ih | case7 ih | case8 ih | case9 ih | case10 ih | case11 ih => exact isSome_emit rfl ih

end total

def bytes (s : String) : List UInt8 := s.toList.map Char.toUInt8

/-- The directive `d` prints `text`, whatever follows it in the format. -/
def Prints (print : List UInt8 → (Nat → UInt64) → Option (List UInt8)) (d : String) (ap : Nat → UInt64)
    (text : List UInt8) : Prop :=
  ∀ fmt, print (bytes d ++ fmt) ap = emit (some text) (print fmt (next ap))

def lower (c : UInt8) : UInt8 := if 'A'.toUInt8 ≤ c ∧ c ≤ 'Z'.toUInt8 then c + 32 else c

/-- The two `printf`s print the same for the directive `d`, up to the case of letters. -/
def Agree (str : UInt64 → List UInt8) (d : String) (ap : Nat → UInt64) : Prop :=
  (printfk str (bytes d) ap).map (List.map lower) = (vprintf str (bytes d) ap).map (List.map lower)

section faithful
variable {str : UInt64 → List UInt8} {ap : Nat → UInt64}

lemma Prints.text_eq {print : List UInt8 → (Nat → UInt64) → Option (List UInt8)} {text text' : List UInt8}
    (h : Prints print d ap text) (h' : Prints print d ap text') (hsome : (print [] (next ap)).isSome) : text = text' := by
  obtain ⟨o, ho⟩ := Option.isSome_iff_exists.1 hsome
  have := (h []).symm.trans (h' [])
  rw [ho] at this
  exact List.append_cancel_right (Option.some.inj this)

lemma Prints.iff_eq {print : List UInt8 → (Nat → UInt64) → Option (List UInt8)} {text text' : List UInt8}
    (h : Prints print d ap text) (hsome : (print [] (next ap)).isSome) : Prints print d ap text' ↔ text = text' :=
  ⟨fun h' => h.text_eq h' hsome, fun he => he ▸ h⟩

lemma printfk_d : Prints (printfk str) "%d" ap (signed kdigits 10 (vaInt ap).toInt) := fun _ =>
  congrArg (emit · _) (printNum_signed fits_ten)

lemma printfk_x : Prints (printfk str) "%x" ap (signed kdigits 16 (vaInt ap).toInt) := fun _ =>
  congrArg (emit · _) (printNum_signed fits_sixteen)

lemma printfk_p : Prints (printfk str) "%p" ap (bytes "0x" ++ hex16 kdigits (ap 0)) := fun _ =>
  congrArg (emit · _) (congrArg some printPtr_eq)

lemma vprintf_d : Prints (vprintf str) "%d" ap (signed udigits 10 (vaInt ap).toInt) := fun _ =>
  congrArg (emit · _) (printNum_signed fits_ten)

lemma vprintf_l : Prints (vprintf str) "%l" ap (numeral udigits 10 (ap 0).toUInt32.toNat) := fun _ =>
  congrArg (emit · _) (printNum_unsigned fits_ten)

lemma vprintf_x : Prints (vprintf str) "%x" ap (numeral udigits 16 (ap 0).toUInt32.toNat) := fun _ =>
  congrArg (emit · _) (printNum_unsigned fits_sixteen)

lemma vprintf_p : Prints (vprintf str) "%p" ap (bytes "0x" ++ hex16 udigits (ap 0)) := fun _ =>
  congrArg (emit · _) (congrArg some printPtr_eq)

lemma digit_facts : ∀ d < 16, lower (kdigits d) = lower (udigits d) ∧ lower (udigits d) ≠ '-'.toUInt8 := by decide

lemma kdigits_ne {d : Nat} (hd : d < 16) : kdigits d ≠ '-'.toUInt8 := by
  revert d
  decide

lemma vaInt_neg : (vaInt ap).toInt < 0 ↔ 2 ^ 31 ≤ (ap 0).toUInt32.toNat := by
  have hint : (vaInt ap).toInt = (ap 0).toUInt32.toBitVec.toInt := rfl
  have hnat : (ap 0).toUInt32.toNat = (ap 0).toUInt32.toBitVec.toNat := rfl
  have hcond := BitVec.toInt_eq_toNat_cond (ap 0).toUInt32.toBitVec
  have hlt := (ap 0).toUInt32.toBitVec.isLt
  rw [hint, hnat]
  split at hcond <;> omega

lemma signed_eq_iff :
    signed kdigits 16 (vaInt ap).toInt = numeral kdigits 16 (ap 0).toUInt32.toNat ↔
      (ap 0).toUInt32.toNat < 2 ^ 31 := by
  constructor
  · intro h
    by_contra hlt
    have hmem : '-'.toUInt8 ∈ numeral kdigits 16 (ap 0).toUInt32.toNat := by
      rw [← h, signed, if_pos (vaInt_neg.2 (Nat.le_of_not_lt hlt))]
      exact List.mem_cons_self
    obtain ⟨d, hd, hc⟩ := mem_numeral (by decide) hmem
    exact kdigits_ne hd hc.symm
  · intro h
    have hneg : ¬ (vaInt ap).toInt < 0 := mt vaInt_neg.1 (Nat.not_le_of_lt h)
    rw [signed, if_neg hneg, ← toNat_of_nonneg hneg]
    rfl

def undigit (c : UInt8) : Nat := c.toNat - 48

lemma undigit_udigits : ∀ d < 10, undigit (udigits d) = d := by decide

lemma low_eq_iff {v : UInt64} :
    numeral udigits 10 v.toUInt32.toNat = numeral udigits 10 v.toNat ↔ v.toNat < 2 ^ 32 := by
  have hlow : v.toUInt32.toNat = v.toNat % 2 ^ 32 := UInt64.toNat_toUInt32 v
  constructor
  · intro h
    have hv := numeral_inj (by decide : 1 < 10) undigit_udigits h
    omega
  · intro h
    rw [hlow, Nat.mod_eq_of_lt h]

lemma Prints.alone {print : List UInt8 → (Nat → UInt64) → Option (List UInt8)} {text : List UInt8}
    (h : Prints print d ap text) (hnil : print [] (next ap) = some []) : print (bytes d) ap = some text := by
  have := h []
  simpa [hnil, emit] using this

lemma agree_iff {text text' : List UInt8} (hk : Prints (printfk str) d ap text)
    (hu : Prints (vprintf str) d ap text') : Agree str d ap ↔ text.map lower = text'.map lower := by
  rw [Agree, hk.alone (by rw [printfk]), hu.alone (by rw [vprintf, vprintfLoop]), Option.map_some, Option.map_some,
    Option.some_inj]

lemma lower_signed {b : Nat} {n : Int} (hb : 1 < b) (hb' : b ≤ 16) :
    (signed kdigits b n).map lower = (signed udigits b n).map lower := by
  have hnum : ∀ m, (numeral kdigits b m).map lower = (numeral udigits b m).map lower := fun m =>
    map_numeral_congr hb fun d hd => (digit_facts d (hd.trans_le hb')).1
  unfold signed
  split
  · rw [List.map_cons, List.map_cons, hnum]
  · exact hnum _

lemma agree_d : Agree str "%d" ap := (agree_iff printfk_d vprintf_d).2 (lower_signed (by decide) (by decide))

lemma agree_p : Agree str "%p" ap := by
  refine (agree_iff printfk_p vprintf_p).2 ?_
  rw [List.map_append, List.map_append, hex16, hex16, List.map_map, List.map_map]
  exact congrArg _ (List.map_congr_left fun i _ => (digit_facts _ (Nat.mod_lt _ (by decide))).1)

lemma agree_x_iff : Agree str "%x" ap ↔ (ap 0).toUInt32.toNat < 2 ^ 31 := by
  rw [agree_iff printfk_x vprintf_x]
  constructor
  · intro h
    by_contra hlt
    have hmem : '-'.toUInt8 ∈ (numeral udigits 16 (ap 0).toUInt32.toNat).map lower := by
      rw [← h, signed, if_pos (vaInt_neg.2 (Nat.le_of_not_lt hlt)), List.map_cons]
      exact List.mem_cons_self
    obtain ⟨c, hc, hcl⟩ := List.mem_map.1 hmem
    obtain ⟨d, hd, rfl⟩ := mem_numeral (by decide) hc
    exact (digit_facts d hd).2 hcl
  · intro h
    rw [signed_eq_iff.2 h]
    exact map_numeral_congr (by decide) fun d hd => (digit_facts d hd).1

/-- No format overruns the digit buffer. `%d` and `%p`, and the `%x` of the user library, print the numeral of
their argument. The kernel's `%x` does exactly for an argument whose sign bit is clear, as it prints the others
with a sign, and the `%l` of the user library exactly for one below 2^32, as it drops the upper half. -/
theorem printf_numbers (str : UInt64 → List UInt8) (ap : Nat → UInt64) :
    (∀ fmt, (printfk str fmt ap).isSome ∧ (vprintf str fmt ap).isSome) ∧
      (Prints (printfk str) "%d" ap (signed kdigits 10 (ap 0).toUInt32.toInt32.toInt) ∧
        Prints (vprintf str) "%d" ap (signed udigits 10 (ap 0).toUInt32.toInt32.toInt) ∧ Agree str "%d" ap) ∧
      (Prints (printfk str) "%p" ap (bytes "0x" ++ hex16 kdigits (ap 0)) ∧
        Prints (vprintf str) "%p" ap (bytes "0x" ++ hex16 udigits (ap 0)) ∧ Agree str "%p" ap) ∧
      Prints (vprintf str) "%x" ap (numeral udigits 16 (ap 0).toUInt32.toNat) ∧
      (Prints (printfk str) "%x" ap (numeral kdigits 16 (ap 0).toUInt32.toNat) ↔ (ap 0).toUInt32.toNat < 2 ^ 31) ∧
      (Agree str "%x" ap ↔ (ap 0).toUInt32.toNat < 2 ^ 31) ∧
      (Prints (vprintf str) "%l" ap (numeral udigits 10 (ap 0).toNat) ↔ (ap 0).toNat < 2 ^ 32) := by
  refine ⟨fun fmt => ⟨isSome_printfk, isSome_vprintfLoop⟩, ⟨printfk_d, vprintf_d, agree_d⟩,
    ⟨printfk_p, vprintf_p, agree_p⟩, vprintf_x, ?_, agree_x_iff, ?_⟩
  · exact (printfk_x.iff_eq isSome_printfk).trans signed_eq_iff
  · exact (vprintf_l.iff_eq isSome_vprintfLoop).trans low_eq_iff

/-- The kernel prints 0xffffffff as `-1` for `%x`, and the user library prints 2^32 as `0` for `%l`. -/
theorem printf_numbers_wrong :
    printfk (fun _ => []) (bytes "%x") (fun _ => 0xffffffff) = some (bytes "-1") ∧
      vprintf (fun _ => []) (bytes "%x") (fun _ => 0xffffffff) = some (bytes "FFFFFFFF") ∧
      vprintf (fun _ => []) (bytes "%l") (fun _ => 2 ^ 32) = some (bytes "0") := by
  decide +kernel

end faithful

end Xv6n.Printf
