import Xv6n.Vm.Kernel

/-!
# Virtual memory

The user page tables of `kernel/vm.c`. A loop of the source over pages is a recursion on the number
of pages it has left; the tests of the source are kept in their order.
-/

namespace Xv6n

/-- Conversion of an unsigned value to `int`. -/
def toInt (n : Nat) : Int := Int.bmod n (2 ^ 32)

/-- Conversion of a signed value to `uint64`. -/
def toU64 (n : Int) : Nat := (n % 2 ^ 64).toNat

lemma toU64_of_nonneg {m : Int} (h0 : 0 ≤ m) (h1 : m < 2 ^ 64) : (toU64 m : Int) = m := by
  unfold toU64
  rw [Int.emod_eq_of_lt h0 h1]
  omega

lemma toU64_toInt {n : Nat} (h : n < 2 ^ 31) : toU64 (toInt n) = n := by
  unfold toU64 toInt
  rw [Int.bmod_eq_of_le (by omega) (by omega), Int.emod_eq_of_lt (by omega) (by omega)]
  rfl

namespace KernM
open Lib
variable [Layout]

/-- One level of `walk`: the page-table page below entry `i`. -/
def walkLevel (pagetable i : Nat) (alloc : Bool) : KernM (Option Nat) := do
  let pte ← load64 (pagetable + 8 * i)
  if pte &&& PTE_V ≠ 0 then
    return some (pte2pa pte)
  if alloc = false then
    return none
  match ← KernM.alloc with
  | none => return none
  | some p =>
    memset p 0 PGSIZE
    store64 (pagetable + 8 * i) (pa2pte p ||| PTE_V)
    return some p

/-- The address of the entry for `va`, with the page-table pages it needs if `alloc`. -/
def walk (pagetable va : Nat) (alloc : Bool) : KernM (Option Nat) := do
  if MAXVA ≤ va then
    throw .walk
  match ← walkLevel pagetable (px 2 va) alloc with
  | none => return none
  | some t1 =>
    match ← walkLevel t1 (px 1 va) alloc with
    | none => return none
    | some t0 => return some (t0 + 8 * px 0 va)

/-- The physical address of a user page. The source returns 0 for a page that is not mapped, so a
    page at address 0 counts as not mapped. -/
def walkaddr (pagetable va : Nat) : KernM (Option Nat) := do
  if MAXVA ≤ va then
    return none
  match ← walk pagetable va false with
  | none => return none
  | some a =>
    let pte ← load64 a
    if pte &&& PTE_V = 0 then
      return none
    if pte &&& PTE_U = 0 then
      return none
    return if pte2pa pte = 0 then none else some (pte2pa pte)

/-- The loop of `mappages`. -/
def mapLoop (pagetable perm : Nat) : Nat → Nat → Nat → KernM Bool
  | 0, _, _ => return true
  | n + 1, a, pa => do
    match ← walk pagetable a true with
    | none => return false
    | some pte =>
      let e ← load64 pte
      if e &&& PTE_V ≠ 0 then
        throw .remap
      store64 pte (pa2pte pa ||| perm ||| PTE_V)
      mapLoop pagetable perm n ((a + PGSIZE) % 2 ^ 64) ((pa + PGSIZE) % 2 ^ 64)

/-- Map the pages of `[va, va + size)` to consecutive physical pages. -/
def mappages (pagetable va size pa perm : Nat) : KernM Bool := do
  if size = 0 then
    throw .mappagesSize
  let a := pgRoundDown va
  let last := pgRoundDown (va + size - 1)
  mapLoop pagetable perm ((last + 2 ^ 64 - a) % 2 ^ 64 / PGSIZE + 1) a pa

/-- One turn of the loop of `uvmunmap`. -/
def unmapPage (pagetable a : Nat) (doFree : Bool) : KernM PUnit := do
  match ← walk pagetable a false with
  | none => throw .unmapWalk
  | some pte =>
    let e ← load64 pte
    if e &&& PTE_V = 0 then
      throw .unmapNotMapped
    if pteFlags e = PTE_V then
      throw .unmapNotLeaf
    if doFree = true then
      kfree (pte2pa e)
    store64 pte 0

/-- Remove `npages` mappings, and free the pages if asked to. -/
def uvmunmap (pagetable va npages : Nat) (doFree : Bool) : KernM PUnit := do
  if va % PGSIZE ≠ 0 then
    throw .unmapAligned
  for i in List.range (((va + npages * PGSIZE) % 2 ^ 64 - va) / PGSIZE) do
    unmapPage pagetable (va + i * PGSIZE) doFree

def uvmcreate : KernM (Option Nat) := do
  match ← KernM.alloc with
  | none => return none
  | some pagetable =>
    memset pagetable 0 PGSIZE
    return some pagetable

def uvmfirst (pagetable : Nat) (src : List UInt8) : KernM PUnit := do
  if PGSIZE ≤ src.length then
    throw .uvmfirst
  match ← KernM.alloc with
  | none => throw .null
  | some p =>
    memset p 0 PGSIZE
    let _ ← mappages pagetable 0 PGSIZE p (PTE_W ||| PTE_R ||| PTE_X ||| PTE_U)
    putBytes p src

def uvmdealloc (pagetable oldsz newsz : Nat) : KernM Nat := do
  if oldsz ≤ newsz then
    return oldsz
  if pgRoundUp newsz < pgRoundUp oldsz then
    let npages := toInt ((pgRoundUp oldsz - pgRoundUp newsz) / PGSIZE)
    uvmunmap pagetable (pgRoundUp newsz) (toU64 npages) true
  return newsz

/-- The loop of `uvmalloc`: `n` pages from `a` on. -/
def allocLoop (pagetable oldsz xperm : Nat) : Nat → Nat → KernM Bool
  | 0, _ => return true
  | n + 1, a => do
    match ← KernM.alloc with
    | none =>
      let _ ← uvmdealloc pagetable a oldsz
      return false
    | some p =>
      memset p 0 PGSIZE
      let ok ← mappages pagetable a PGSIZE p (PTE_R ||| PTE_U ||| xperm)
      if ok then
        allocLoop pagetable oldsz xperm n (a + PGSIZE)
      else
        kfree p
        let _ ← uvmdealloc pagetable a oldsz
        return false

def uvmalloc (pagetable oldsz newsz xperm : Nat) : KernM Nat := do
  if newsz < oldsz then
    return oldsz
  let start := pgRoundUp oldsz
  let ok ← allocLoop pagetable start xperm ((newsz - start + PGSIZE - 1) / PGSIZE) start
  return if ok then newsz else 0

/-- One turn of the loop of `freewalk`. -/
def freeEntry (sub : Nat → KernM PUnit) (pagetable i : Nat) : KernM PUnit := do
  let pte ← load64 (pagetable + 8 * i)
  if pte &&& PTE_V ≠ 0 ∧ pte &&& (PTE_R ||| PTE_W ||| PTE_X) = 0 then
    sub (pte2pa pte)
    store64 (pagetable + 8 * i) 0
  else if pte &&& PTE_V ≠ 0 then
    throw .freewalk

/-- Free the page-table pages of a tree of `level` levels. A deeper tree would run
    past the end of the recursion here. -/
def freewalk : Nat → Nat → KernM PUnit
  | 0, _ => throw .freewalk
  | level + 1, pagetable => do
    for i in List.range 512 do
      freeEntry (freewalk level) pagetable i
    kfree pagetable

def uvmfree (pagetable sz : Nat) : KernM PUnit := do
  if 0 < sz then
    uvmunmap pagetable 0 (pgRoundUp sz / PGSIZE) true
  freewalk 3 pagetable

/-- The loop of `uvmcopy`: `n` pages from page `i` on. -/
def copyLoop (old new : Nat) : Nat → Nat → KernM Bool
  | 0, _ => return true
  | n + 1, i => do
    match ← walk old (i * PGSIZE) false with
    | none => throw .copyPte
    | some pte =>
      let e ← load64 pte
      if e &&& PTE_V = 0 then
        throw .copyPresent
      match ← KernM.alloc with
      | none =>
        uvmunmap new 0 i true
        return false
      | some p =>
        memmove p (pte2pa e) PGSIZE
        let ok ← mappages new (i * PGSIZE) PGSIZE p (pteFlags e)
        if ok then
          copyLoop old new n (i + 1)
        else
          kfree p
          uvmunmap new 0 i true
          return false

def uvmcopy (old new sz : Nat) : KernM Bool := copyLoop old new ((sz + PGSIZE - 1) / PGSIZE) 0

def uvmclear (pagetable va : Nat) : KernM PUnit := do
  match ← walk pagetable va false with
  | none => throw .uvmclear
  | some pte =>
    let e ← load64 pte
    store64 pte (e &&& (2 ^ 64 - 1 - PTE_U))

/-- The `n` bytes of memory at `a`. -/
def getBytes (a n : Nat) : KernM (List UInt8) := do
  let s ← get
  return (List.range n).map fun i => s.mem (a + i)

/-- The loop of `copyout`; every turn copies at least one byte. -/
def copyoutLoop (pagetable : Nat) : Nat → Nat → List UInt8 → KernM Bool
  | 0, _, _ => return true
  | fuel + 1, dstva, src => do
    if src.length = 0 then
      return true
    let va0 := pgRoundDown dstva
    match ← walkaddr pagetable va0 with
    | none => return false
    | some pa0 =>
      let n := min (PGSIZE - (dstva - va0)) src.length
      putBytes (pa0 + (dstva - va0)) (src.take n)
      copyoutLoop pagetable fuel ((va0 + PGSIZE) % 2 ^ 64) (src.drop n)

def copyout (pagetable dstva : Nat) (src : List UInt8) : KernM Bool :=
  copyoutLoop pagetable src.length dstva src

/-- The loop of `copyin`; returns the bytes copied and whether they are all. -/
def copyinLoop (pagetable : Nat) : Nat → Nat → Nat → KernM (List UInt8 × Bool)
  | 0, _, _ => return ([], true)
  | fuel + 1, srcva, len => do
    if len = 0 then
      return ([], true)
    let va0 := pgRoundDown srcva
    match ← walkaddr pagetable va0 with
    | none => return ([], false)
    | some pa0 =>
      let n := min (PGSIZE - (srcva - va0)) len
      let l ← getBytes (pa0 + (srcva - va0)) n
      let (rest, ok) ← copyinLoop pagetable fuel ((va0 + PGSIZE) % 2 ^ 64) (len - n)
      return (l ++ rest, ok)

def copyin (pagetable srcva len : Nat) : KernM (List UInt8 × Bool) :=
  copyinLoop pagetable len srcva len

/-- The loop of `copyinstr`; returns the bytes copied and whether the last one is the null. -/
def copyinstrLoop (pagetable : Nat) : Nat → Nat → Nat → KernM (List UInt8 × Bool)
  | 0, _, _ => return ([], false)
  | fuel + 1, srcva, max => do
    if max = 0 then
      return ([], false)
    let va0 := pgRoundDown srcva
    match ← walkaddr pagetable va0 with
    | none => return ([], false)
    | some pa0 =>
      let n := min (PGSIZE - (srcva - va0)) max
      let l ← getBytes (pa0 + (srcva - va0)) n
      if 0 ∈ l then
        return (l.takeWhile (· ≠ 0) ++ [0], true)
      let (rest, ok) ← copyinstrLoop pagetable fuel ((va0 + PGSIZE) % 2 ^ 64) (max - n)
      return (l ++ rest, ok)

def copyinstr (pagetable srcva max : Nat) : KernM (List UInt8 × Bool) :=
  copyinstrLoop pagetable max srcva max

end KernM

end Xv6n
