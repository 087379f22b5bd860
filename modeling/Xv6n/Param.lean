import Mathlib.Algebra.GroupWithZero.Nat

/-!
# Parameters

The constants of `kernel/param.h` and `kernel/fs.h` that the models below read, under the names the
source gives them. They are reducible, so that `decide` and `omega` see the numerals behind them once
`simp only` has unfolded the name.
-/

namespace Xv6n

abbrev NPROC : Nat := 64

instance neZero_NPROC : NeZero NPROC := ⟨by decide⟩

abbrev NCPU : Nat := 8

instance neZero_NCPU : NeZero NCPU := ⟨by decide⟩

abbrev NOFILE : Nat := 16

lemma toNat_lt_NOFILE {fd : Int} (h : 0 ≤ fd ∧ fd < NOFILE) : fd.toNat < NOFILE := by omega

abbrev NFILE : Nat := 100

/-- Maximum number of arguments of `exec`. -/
abbrev MAXARG : Nat := 32

abbrev MAXPATH : Nat := 128

abbrev MAXOPBLOCKS : Nat := 10

abbrev LOGSIZE : Nat := MAXOPBLOCKS * 3

abbrev BSIZE : Nat := 1024

end Xv6n
