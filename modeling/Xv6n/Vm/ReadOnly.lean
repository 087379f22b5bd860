import Xv6n.Vm.Program
import Xv6n.Vm.Strings

/-!
# Read-only pages

`exec` maps a segment that is not to be written without `PTE_W`, and the hardware then refuses the stores of
the program. `copyout` finds its page with `walkaddr`, which looks at `PTE_V` and `PTE_U` only, and stores
through the kernel's own mapping of memory. So a system call can write where the program cannot.
-/

namespace Xv6n
open Lib KernM

/-- The byte at `va` is on a user page without `PTE_W`. -/
def ReadOnly (mem : Nat → UInt8) (r va : Nat) : Prop :=
  UserMapped mem r va ∧ pteAt mem r (va / PGSIZE) &&& PTE_W = 0

def Honoured (s s' : Kernel) (r : Nat) : Prop :=
  ∀ va a, ReadOnly s.mem r va → phys s.mem r va = some a → s'.mem a = s.mem a

/-- Every read-only byte that a transfer of `src` to `va` reaches has the value that it is to get. -/
def Harmless (mem : Nat → UInt8) (r va : Nat) (src : List UInt8) : Prop :=
  ∀ k (h : k < src.length), (∀ j ≤ k, UserMapped mem r ((va + j) % 2 ^ 64)) → ReadOnly mem r ((va + k) % 2 ^ 64) →
    ∀ a, phys mem r ((va + k) % 2 ^ 64) = some a → mem a = src[k]

variable {s s' : Kernel} {r va : Nat} {src : List UInt8}

/-- For every table whose user pages are distinct, every address and every source: `copyout` leaves the read-only
    pages alone exactly if it reaches none of their bytes, or only bytes that stay the same. -/
theorem copyout_honoured_iff (h : UserTable s.mem r) (hva : va < 2 ^ 64) (hl : src.length < 2 ^ 64) :
    ∃ ok s', copyout r va src s = .ok ok s' ∧ (Honoured s s' r ↔ Harmless s.mem r va src) := by
  obtain ⟨ok, s', hrun, n, m, he⟩ := (copyoutLoop_spec h hva (Nat.le_refl src.length) hl).returns
  have hn : (src.take n).length = n := by rw [List.length_take, Nat.min_eq_left he.le]
  have hmap : ∀ k < n, UserMapped s.mem r ((va + k) % 2 ^ 64) := by
    intro k hk
    obtain ⟨a, ha, -⟩ := m.byte k (by omega)
    exact (phys_mapped ha).1
  refine ⟨ok, s', hrun, fun hon k hk hreach hro a ha => ?_, fun hharm va' a hro ha => ?_⟩
  · -- a byte that is reached is one of the first `n`
    have hkn : k < n := by
      by_contra hge
      cases ok with
      | true => exact hge (by rw [he.all rfl]; exact hk)
      | false => exact (he.fault rfl).2 (hreach n (Nat.le_of_not_lt hge))
    obtain ⟨a', ha', hmem⟩ := m.byte k (by omega)
    cases ha.symm.trans ha'
    rw [← hon _ _ hro ha, hmem, List.getElem_take]
  · by_cases hin : ∃ k < n, phys s.mem r ((va + k) % 2 ^ 64) = some a
    · obtain ⟨k, hk, hka⟩ := hin
      obtain ⟨a', ha', hmem⟩ := m.byte k (by omega)
      cases hka.symm.trans ha'
      have hsrc : k < src.length := Nat.lt_of_lt_of_le hk he.le
      rw [h.phys_inj ha hka] at hro
      rw [hmem, List.getElem_take, hharm k hsrc (fun j hj => hmap j (by omega)) hro a hka]
    · exact m.frame a fun k hk e => hin ⟨k, by omega, e⟩

/-- A byte for the first process. -/
theorem copyout_honoured_first : ∃ s : Kernel, @Kernel.Reachable sampleLayout s ∧ ∃ i, Active s i ∧
    UserTable s.mem (s.proc i).pagetable ∧ ∃ ok s', copyout (s.proc i).pagetable 0 [66] s = .ok ok s' ∧
      (Honoured s s' (s.proc i).pagetable ↔ Harmless s.mem (s.proc i).pagetable 0 [66]) := by
  let _layout := sampleLayout
  obtain ⟨s, hs, j, hj⟩ := exists_started
  obtain ⟨own, hi⟩ := hs.inv
  have ha : Active s j := .inr (.inl hj.runnable)
  have ht := hi.userTable (hi.pagetable_ne ha)
  exact ⟨s, hs, j, ha, ht, copyout_honoured_iff ht (by decide) (by decide)⟩

section
variable [Layout] {i : Fin NPROC} {extra : Fin NFILE → Nat} {c : Fin NCPU}

lemma Started.exec (h : Started s i extra) (S : Supply c 247 s) :
    wp (syscall i (.exec 2048 2048 fun _ => some sampleProgram)) (fun _ s' => Active s' i ∧
      HasProgram sampleProgram (image s'.mem (s'.proc i).pagetable) (s'.proc i).sz) Never s := by
  obtain ⟨own, hi⟩ := h.inv
  have ha : Active s i := .inr (.inl h.runnable)
  have ht := hi.userTable (hi.pagetable_ne ha)
  have hm : UserMapped s.mem (s.proc i).pagetable 2048 := h.mapped (by decide)
  have hstr : ∃ k < MAXPATH, StringAt s.mem (s.proc i).pagetable 2048 k := by
    refine ⟨0, by decide, fun j hj => ?_⟩
    cases Nat.le_zero.1 hj
    refine ⟨_, ht.phys_eq hm, iff_of_true ?_ rfl⟩
    have hread : ReadsAt s.mem (s.proc i).pagetable 2048 [s.mem (pte2pa (pteAt s.mem (s.proc i).pagetable
        (2048 / PGSIZE)) + 2048 % PGSIZE)] := by
      intro k hk
      cases Nat.lt_one_iff.1 hk
      exact ⟨_, ht.phys_eq hm, rfl⟩
    exact h.reads hread (by decide) (by rw [List.length_singleton]; decide) _ (List.mem_singleton_self _)
  unfold syscall callFn sysExec
  dsimp only
  rw [wp_bind, wp_bind, wp_get, wp_bind]
  refine wp_mono (copyinstrLoop_spec (by decide) (Nat.le_refl _)) ?_
  rintro ⟨path, ok⟩ _ ⟨rfl, hscan⟩
  rw [show ok = true from hscan.iff.2 hstr]
  dsimp only
  rw [if_pos rfl, wp_bind]
  refine (wp_run h.argvLoop).2 ?_
  dsimp only
  rw [if_pos rfl, wp_bind]
  have hstack := runs_sample.stackMapped (by decide) hi ha (S.less (by rw [elfHdr_sample]; decide))
  refine wp_mono (exec_spec hi ha) ?_
  rintro ⟨ret, op⟩ s2 ⟨⟨own2, hi2, ha2, -⟩, hd⟩
  obtain ⟨-, hfull⟩ | ⟨-, _, ⟨⟩, he⟩ := hd
  · exact absurd (hfull _ rfl hstack [] ⟨nofun, .nil, by decide⟩) (by decide)
  have h0 := hi2.pagetable_ne ha2
  obtain ⟨htf, -⟩ := (hi2.proc i).shape h0
  have hown : own2 (s2.proc i).trapframe = .trapframe i := ((hi2.proc i).trapframe _).2 ⟨htf, rfl⟩
  rw [wp_bind]
  refine wp_mono (wp_forIn (I := fun _ s' => s' = s2) rfl (by simp)) ?_
  rintro _ s3 e
  subst s3
  rw [wp_pure, wp_bind, wp_get, wp_store64]
  have w := wrote_putLe (A := (· = (s2.proc i).trapframe)) (s := s2) (o := 112) (k := 8) (w := toU64 ret)
    (hi2.trapframe_mod htf) (by decide) rfl
  have hI := w.image hi2.heap (r := (s2.proc i).pagetable) (fun _ => ⟨h0, i, rfl⟩) (by
    rintro p rfl
    rw [hown]
    exact ⟨id, nofun⟩)
  refine ⟨ha2.congr rfl, ?_⟩
  have hprog := he.hasProgram ascending_sample
  rw [← hI] at hprog
  exact hprog

lemma exists_execed : ∃ s : Kernel, s.Reachable ∧ ∃ i, Active s i ∧
    HasProgram sampleProgram (image s.mem (s.proc i).pagetable) (s.proc i).sz := by
  obtain ⟨s, hs, hsup, i, hj⟩ := exists_supplied
  obtain ⟨_, s', hrun, ha, hp⟩ := (hj.exec hsup).returns
  obtain ⟨s0, s1, as, hb, hk, he⟩ := hs
  refine ⟨s', ⟨s0, s1, as ++ [.call i (.exec 2048 2048 fun _ => some sampleProgram)], hb, hk, ?_⟩, i, ha, hp⟩
  have hstep : s.step (.call i (.exec 2048 2048 fun _ => some sampleProgram)) = some s' := by
    unfold Kernel.step Kernel.after
    dsimp only
    rw [if_pos (.inr (.inl hj.runnable)), hrun]
  exact exec_snoc.2 ⟨s, he, hstep⟩

end

/-- A process runs a program whose first page it may read and execute only. A system call that copies a byte to
    address 0, such as `read`, changes the program. -/
theorem copyout_not_honoured : ∃ s : Kernel, @Kernel.Reachable sampleLayout s ∧ ∃ i, Active s i ∧
    HasProgram sampleProgram (image s.mem (s.proc i).pagetable) (s.proc i).sz ∧
    ∃ s', copyout (s.proc i).pagetable 0 [66] s = .ok true s' ∧ ¬ Honoured s s' (s.proc i).pagetable := by
  let _layout := sampleLayout
  obtain ⟨s, hs, i, ha, hp⟩ := exists_execed
  obtain ⟨own, hi⟩ := hs.inv
  have ht := hi.userTable (hi.pagetable_ne ha)
  have hseg : ProgHdr.mk ELF_PROG_LOAD 5 120 0 8 PGSIZE ∈ segments sampleProgram := by
    rw [segments_sample]
    exact List.mem_singleton_self _
  have hplaced := hp.segment _ hseg
  obtain ⟨p, hp0, -, huser, hw, -⟩ := hplaced.page 0 ⟨0, Nat.zero_le _, by decide, rfl⟩
  have hbyte : (image s.mem (s.proc i).pagetable).byteAt 0 = some 65 := hplaced.data 0 (by decide)
  have hm : UserMapped s.mem (s.proc i).pagetable 0 :=
    mapped_of_flags (f := p.flags) (by rw [Nat.zero_div, hp0]; rfl) huser
  have hphys := ht.phys_eq hm
  have hro : ReadOnly s.mem (s.proc i).pagetable 0 := by
    refine ⟨hm, ?_⟩
    obtain ⟨-, -, rfl⟩ := image_eq_some hp0
    rw [Nat.zero_div, and_of_flags (by decide)]
    exact not_not.1 fun h => absurd (hw.1 h) (by decide)
  have hcopy : wp (copyout (s.proc i).pagetable 0 [66]) _ _ s :=
    copyoutLoop_spec ht (by decide) (Nat.le_refl _) (by decide)
  obtain ⟨ok, s', hrun, n, m, he⟩ := hcopy.returns
  have hn : n = 1 := by
    by_contra hne
    cases ok with
    | true => exact hne (he.all rfl)
    | false =>
      obtain ⟨hlt, hno⟩ := he.fault rfl
      rw [Nat.lt_one_iff.1 hlt] at hno
      exact hno hm
  subst hn
  have hok : ok = true := by
    cases ok with
    | true => rfl
    | false => exact absurd (he.fault rfl).1 (Nat.lt_irrefl _)
  subst hok
  refine ⟨s, hs, i, ha, hp, s', hrun, fun hon => ?_⟩
  obtain ⟨a, ha, hmem⟩ := m.byte 0 (by decide)
  cases ha.symm.trans hphys
  have h1 := hon 0 _ hro hphys
  rw [hmem, byteAt_phys hbyte hphys] at h1
  exact absurd h1 (by decide)

end Xv6n
