import Xv6n.Vm.Ownership

/-!
# Transfers between kernel and user memory

What `copyout` and `copyin` do, for every range of virtual addresses and every table whose user pages are
distinct; the table of a process is such a table.
-/

namespace Xv6n
open Lib KernM

section
variable {mem : Nat → UInt8} {s s' s1 : Kernel} {r va va' a n fuel len : Nat} {src l l' : List UInt8}

/-- For every table whose user pages are distinct, every virtual address and every length: `copyout` succeeds
    exactly if the whole range is mapped; it has then moved the source there and nothing else, and `copyin`
    gives it back. Otherwise it has moved the part below the first page that is not mapped. `copyin` reads what
    is there under the same condition, and changes no memory. -/
theorem copy_exact (h : UserTable s.mem r) (hva : va < 2 ^ 64) :
    (∀ src : List UInt8, src.length < 2 ^ 64 → ∃ ok s', copyout r va src s = .ok ok s' ∧
      (ok = true ↔ ∀ k < src.length, UserMapped s.mem r ((va + k) % 2 ^ 64)) ∧
      (ok = true → Moved s s' r va src ∧ copyin r va src.length s' = .ok (src, true) s') ∧
      (ok = false → ∃ n < src.length, (∀ k < n, UserMapped s.mem r ((va + k) % 2 ^ 64)) ∧
        ¬ UserMapped s.mem r ((va + n) % 2 ^ 64) ∧ Moved s s' r va (src.take n))) ∧
    ∀ len < 2 ^ 64, ∃ l ok, copyin r va len s = .ok (l, ok) s ∧
      (ok = true ↔ ∀ k < len, UserMapped s.mem r ((va + k) % 2 ^ 64)) ∧
      ReadsAt s.mem r va l ∧ (ok = true → l.length = len) ∧
      (ok = false → l.length < len ∧ ¬ UserMapped s.mem r ((va + l.length) % 2 ^ 64)) := by
  have hin : ∀ {t : Kernel}, UserTable t.mem r → ∀ len, ∃ l ok, copyin r va len t = .ok (l, ok) t ∧
      ReadsAt t.mem r va l ∧ Ended t.mem r va len l.length ok := by
    intro t ht len
    obtain ⟨⟨l, ok⟩, _, hrun, rfl, hread, he⟩ := (copyinLoop_spec ht hva (Nat.le_refl len)).returns
    exact ⟨l, ok, hrun, hread, he⟩
  refine ⟨fun src hl => ?_, fun len _ => ?_⟩
  · obtain ⟨ok, s', hrun, n, m, he⟩ := (copyoutLoop_spec h hva (Nat.le_refl src.length) hl).returns
    have hn : (src.take n).length = n := by
      rw [List.length_take, Nat.min_eq_left he.le]
    have hmap : ∀ k < n, UserMapped s.mem r ((va + k) % 2 ^ 64) := by
      intro k hk
      obtain ⟨a, ha, -⟩ := m.byte k (by omega)
      exact (phys_mapped ha).1
    refine ⟨ok, s', hrun, he.iff hmap, fun hok => ?_, fun hok => ?_⟩
    · rw [he.all hok, List.take_length] at m
      refine ⟨m, ?_⟩
      obtain ⟨l, ok', hrun', hread, he'⟩ := hin (m.userTable h) src.length
      have hok' : ok' = true := by
        refine (he'.iff hread.mapped).2 ?_
        exact fun k hk => (m.mapped h).2 (hmap k (by rw [he.all hok]; exact hk))
      rw [hrun', hread.unique (m.readsAt h) (he'.all hok'), hok']
    · exact ⟨n, (he.fault hok).1, hmap, (he.fault hok).2, m⟩
  · obtain ⟨l, ok, hrun, hread, he⟩ := hin h len
    exact ⟨l, ok, hrun, he.iff hread.mapped, hread, he.all, he.fault⟩

end

/-- A byte for the first process. -/
theorem copy_exact_first : ∃ s : Kernel, @Kernel.Reachable sampleLayout s ∧ ∃ i,
    UserMapped s.mem (s.proc i).pagetable 0 ∧ ∃ ok s', copyout (s.proc i).pagetable 0 [65] s = .ok ok s' ∧
      (ok = true ↔ ∀ k < 1, UserMapped s.mem (s.proc i).pagetable ((0 + k) % 2 ^ 64)) := by
  let _layout := sampleLayout
  obtain ⟨s, hs, j, hj⟩ := exists_started
  obtain ⟨own, hi⟩ := hs.inv
  have h0 := hi.pagetable_ne (i := j) (.inr (.inl hj.runnable))
  obtain ⟨pa, hpa⟩ := Option.ne_none_iff_exists'.1 hj.code
  obtain ⟨ok, s', hrun, hok, -⟩ :=
    (copy_exact (hi.userTable h0) (by decide : 0 < 2 ^ 64)).1 [65] (by decide)
  exact ⟨s, hs, j, (userPage_mapped hpa).1, ok, s', hrun, hok⟩

end Xv6n
