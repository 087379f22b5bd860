import Xv6n.Vm.Ownership

/-!
# exec is total and atomic

`exec` runs on any file with the arguments that `sys_exec` has collected, in any state of memory. It
always returns. When it fails the process is as before and every page that it took is free again; when it
succeeds the pages of the old address space are free. In both cases the transaction is closed and the
inode is unlocked and given back.
-/

namespace Xv6n
open Lib KernM

variable [Layout] {s s' s0 : Kernel} {own own' : Nat → Owner} {i : Fin NPROC} {held : List Nat}
  {extra : Fin NFILE → Nat} {p : Nat}

def FreePage (s : Kernel) (p : Nat) : Prop := ∃ k, Holds s p (.freelist k)

/-- A call has changed nothing but free pages, and the free pages are the same ones. -/
structure Undone (s s' : Kernel) : Prop where
  proc : s'.proc = s.proc
  free : ∀ p, FreePage s' p ↔ FreePage s p
  same : ∀ p, p % PGSIZE = 0 → ¬ FreePage s p → Same s.mem s'.mem p

/-- The pages of the address space that process `i` has in `s` are free in `s'`. -/
def Replaced (s : Kernel) (i : Fin NPROC) (s' : Kernel) : Prop :=
  (∀ p path, Holds s p (.table i path) → FreePage s' p) ∧ ∀ p v, Holds s p (.user i v) → FreePage s' p

lemma Inv.freePage_iff (hi : Inv s own held extra) : FreePage s p ↔ ∃ k, own p = .free k := by
  constructor
  · rintro ⟨k, hk⟩
    exact ⟨k, hk.owner hi⟩
  · rintro ⟨k, hk⟩
    obtain ⟨l, hl, _, hiff⟩ := hi.heap.free k
    exact ⟨k, l, hl, (hiff p).1 hk⟩

lemma Quiet.undone (q : Quiet s own s' own') (hi : Inv s own held extra)
    (hi' : Inv s' own' held extra) : Undone s s' := by
  have hfree : ∀ p, (∃ k, own' p = .free k) ↔ ∃ k, own p = .free k := by
    intro p
    constructor
    · rintro ⟨k', hk'⟩
      by_contra hno
      rw [q.keep p fun k hk => hno ⟨k, hk⟩] at hk'
      exact hno ⟨k', hk'⟩
    · rintro ⟨k, hk⟩
      exact q.freed p k hk
  refine ⟨q.tables.proc, fun p => ?_, fun p hp hno => ?_⟩
  · rw [hi'.freePage_iff, hi.freePage_iff]
    exact hfree p
  · rw [hi.freePage_iff] at hno
    exact q.same p hp fun k hk => hno ⟨k, hk⟩

lemma Inv.replaced (hi : Inv s own held extra) (hi' : Inv s' own' held extra)
    (h : ∀ p path, own p = .slot (s.proc i).pagetable path → ∃ k, own' p = .free k) :
    Replaced s i s' :=
  ⟨fun p path hp => hi'.freePage_iff.2 (h p path (hp.owner hi)),
    fun p v hp => hi'.freePage_iff.2 (h p (leafPath v) (hp.owner hi))⟩

/-- The arguments are collected without a panic. From there `exec` returns for every file, without a
    transaction left open and with the inode unlocked and its reference dropped; if it fails then it has
    changed nothing, and if it succeeds then the old address space is freed. -/
theorem exec_atomic (hs : s0.Reachable) (ha : Active s0 i) (uargv : UInt64) :
    ∃ argv ok s, argvLoop i uargv.toNat MAXARG 0 [] s0 = .ok (argv, ok) s ∧
      ∀ path ip m c, ∃ ret s', KernM.exec i path ip argv ⟨m, c, false⟩ s = .ok (ret, ⟨m, c, false⟩) s' ∧
        (ret = -1 ∧ Undone s s' ∨ 0 ≤ ret ∧ Replaced s i s') := by
  obtain ⟨own0, hi0⟩ := hs.inv
  have hargv : wp (argvLoop i uargv.toNat MAXARG 0 []) _ _ s0 := argvLoop_spec hi0 List.nodup_nil ha
  obtain ⟨⟨argv, ok⟩, s, e, own, hi, _, ha⟩ := hargv.returns
  refine ⟨argv, ok, s, e, fun path ip m c => ?_⟩
  have hexec : wp (KernM.exec i path ip argv ⟨m, c, false⟩) _ _ s := exec_spec hi ha
  obtain ⟨⟨ret, op⟩, s', e', ⟨own', hi', _, rfl, hend⟩, -⟩ := hexec.returns
  refine ⟨ret, s', e', ?_⟩
  obtain ⟨hret, q⟩ | ⟨hret, hfree⟩ := hend
  · exact .inl ⟨hret, q.undone hi hi'⟩
  · exact .inr ⟨hret, hi.replaced hi' hfree⟩

omit [Layout] in
/-- The first process can run any program file. -/
theorem exec_atomic_first : ∃ s0 : Kernel, @Kernel.Reachable sampleLayout s0 ∧ ∃ i, Active s0 i ∧
    ∃ argv ok s, argvLoop i 0 MAXARG 0 [] s0 = .ok (argv, ok) s ∧
      ∀ path ip, ∃ ret s',
        @KernM.exec sampleLayout i path ip argv ⟨0, 0, false⟩ s = .ok (ret, ⟨0, 0, false⟩) s' ∧
          (ret = -1 ∧ Undone s s' ∨ 0 ≤ ret ∧ Replaced s i s') := by
  let _layout := sampleLayout
  obtain ⟨s0, hs, j, hj⟩ := exists_started
  have ha : Active s0 j := .inr (.inl hj.runnable)
  obtain ⟨argv, ok, s, e, h⟩ := exec_atomic hs ha 0
  exact ⟨s0, hs, j, ha, argv, ok, s, e, fun path ip => h path ip 0 0⟩

end Xv6n
