import Xv6n.Lib.Bytes

/-!
# The user-level allocator

`malloc` and `free` of `user/umalloc.c`. The memory of the process is a byte array; a header is the pair of a pointer
(8 bytes) and a size in units of headers (4 bytes) at its address. `base` is the address of the static header.

Which memory `sbrk` hands out is up to the environment: it refuses the call, or leaves a gap above all memory it has
handed out before and hands out what was asked for behind it. A loop takes a bound on its turns, and a call whose
bound is too small returns `none`.

`live` and `regions` are not part of the program: the blocks in use, with the number of bytes asked for, and the
memory that came from `sbrk`.
-/

namespace Xv6n.Umalloc

/-- C `sizeof(Header)`. -/
abbrev HEADER : Nat := 16

/-- The program's image: the address of `base`, and the end of the image, where the heap starts. -/
structure Image where
  base : Nat
  brk : Nat
  base_pos : 0 < base
  le_brk : base + HEADER ≤ brk
  brk_lt : brk < 2 ^ 64

/-- What the environment answers to each call of `sbrk`: nothing, or the gap it leaves. -/
abbrev Env := Nat → Option Nat

/-- A piece of memory: its address and its size in units. -/
structure Block where
  addr : Nat
  units : Nat
deriving DecidableEq

structure State where
  mem : Nat → UInt8
  freep : Nat
  brk : Nat
  calls : Nat
  regions : List Block
  live : List (Nat × Nat)

/-- C `p->s.ptr`. -/
def ptr (m : Nat → UInt8) (p : Nat) : Nat := Lib.le m p 8

/-- C `p->s.size`. -/
def size (m : Nat → UInt8) (p : Nat) : Nat := Lib.le m (p + 8) 4

/-- C `p->s.ptr = v`. -/
def setPtr (m : Nat → UInt8) (p v : Nat) : Nat → UInt8 := Lib.putLe m p 8 v

/-- C `p->s.size = v`; the size is a 32-bit number. -/
def setSize (m : Nat → UInt8) (p v : Nat) : Nat → UInt8 := Lib.putLe m (p + 8) 4 v

/-- The system call: the memory that was asked for, if there is any. -/
def sbrk (env : Env) (n : Nat) (s : State) : Option Nat × State :=
  match env s.calls with
  | none => (none, { s with calls := s.calls + 1 })
  | some gap =>
    if s.brk + gap + n < 2 ^ 64 then (some (s.brk + gap), { s with brk := s.brk + gap + n, calls := s.calls + 1 })
    else (none, { s with calls := s.calls + 1 })

/-- The loop condition of `free`: `bp` belongs between `p` and its successor. -/
def between (m : Nat → UInt8) (bp p : Nat) : Bool :=
  (p < bp ∧ bp < ptr m p) ∨ (ptr m p ≤ p ∧ (p < bp ∨ bp < ptr m p))

/-- The loop of `free`. -/
def freeLoop (m : Nat → UInt8) (bp : Nat) : Nat → Nat → Option Nat
  | 0, _ => none
  | n + 1, p => if between m bp p then some p else freeLoop m bp n (ptr m p)

/-- Link the block `p` to the block `next`, or join the two if they border on each other; `free` does this twice, for
    the new block and its successor and for its predecessor and the new block. -/
def join (m : Nat → UInt8) (p next : Nat) : Nat → UInt8 :=
  if p + HEADER * size m p = next then
    let m := setSize m p (size m p + size m next)
    setPtr m p (ptr m next)
  else setPtr m p next

/-- C `free` without the ghost state. -/
def freeBlock (fuel ap : Nat) (s : State) : Option State :=
  let bp := ap - HEADER
  match freeLoop s.mem bp fuel s.freep with
  | none => none
  | some p => some { s with mem := join (join s.mem bp (ptr s.mem p)) p bp, freep := p }

/-- The units that `morecore` asks for. -/
def coreUnits (nu : Nat) : Nat := if nu < 4096 then 4096 else nu

/-- C `morecore`; the pointer is 0 when there is no more memory. -/
def morecore (env : Env) (fuel nu : Nat) (s : State) : Option (Nat × State) :=
  let nu := coreUnits nu
  match sbrk env (nu * HEADER) s with
  | (none, s) => some (0, s)
  | (some hp, s) =>
    let s := { s with mem := setSize s.mem hp nu, regions := ⟨hp, nu⟩ :: s.regions }
    match freeBlock fuel (hp + HEADER) s with
    | none => none
    | some s => some (s.freep, s)

/-- The end of `malloc`: take `nunits` from the block `p` behind `prevp`, from its end. -/
def take (nunits prevp p : Nat) (s : State) : Nat × State :=
  if size s.mem p = nunits then
    (p + HEADER, { s with mem := setPtr s.mem prevp (ptr s.mem p), freep := prevp })
  else
    let m := setSize s.mem p (size s.mem p - nunits)
    let p' := p + HEADER * size m p
    (p' + HEADER, { s with mem := setSize m p' nunits, freep := prevp })

/-- The loop of `malloc`; `p` is the block behind `prevp`. -/
def mallocLoop (env : Env) (nunits : Nat) : Nat → Nat → State → Option (Nat × State)
  | 0, _, _ => none
  | n + 1, prevp, s =>
    let p := ptr s.mem prevp
    if nunits ≤ size s.mem p then some (take nunits prevp p s)
    else if p = s.freep then
      match morecore env n nunits s with
      | none => none
      | some (p, s) => if p = 0 then some (0, s) else mallocLoop env nunits n p s
    else mallocLoop env nunits n p s

/-- The units that a request for `nbytes` takes, with the header. -/
def nunits (nbytes : Nat) : Nat := (nbytes + HEADER - 1) / HEADER + 1

/-- The first call of `malloc` sets up the free list. -/
def prepare (im : Image) (s : State) : State :=
  if s.freep = 0 then { s with mem := setSize (setPtr s.mem im.base im.base) im.base 0, freep := im.base } else s

/-- C `malloc`. -/
def malloc (im : Image) (env : Env) (fuel nbytes : Nat) (s : State) : Option (Nat × State) :=
  let s := prepare im s
  match mallocLoop env (nunits nbytes) fuel s.freep s with
  | none => none
  | some (p, s) => some (p, if p = 0 then s else { s with live := (p, nbytes) :: s.live })

/-- C `free` of a block in use. -/
def free (fuel ap : Nat) (s : State) : Option State :=
  (freeBlock fuel ap s).map fun s => { s with live := s.live.filter fun b => b.1 ≠ ap }

def init (im : Image) (mem : Nat → UInt8) : State := ⟨mem, 0, im.brk, 0, [], []⟩

end Xv6n.Umalloc
