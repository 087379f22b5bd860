import Xv6n.Vm.Transfer

/-!
# Strings from user memory

`copyinstr` scans user memory page by page for a null. `StringAt` says where the string at a virtual address
ends, byte by byte; `copyinstr` finds exactly the strings that end within the bytes it may take. `fetchstr` and
`argstr` are its callers.
-/

namespace Xv6n
open Lib KernM

/-- The string at `va` has `k` bytes before its null, and all of them can be read. -/
def StringAt (mem : Nat → UInt8) (r va k : Nat) : Prop :=
  ∀ j ≤ k, ∃ a, phys mem r ((va + j) % 2 ^ 64) = some a ∧ (mem a = 0 ↔ j = k)

def strlen (l : List UInt8) : Nat := (l.takeWhile (· ≠ 0)).length

namespace KernM

/-- The string at `addr` of a process, and its length or -1. -/
def fetchstr (i : Fin NPROC) (addr : Nat) (max : Int) : KernM (List UInt8 × Int) := do
  let p := (← get).proc i
  let (buf, ok) ← copyinstr p.pagetable addr (toU64 max)
  return (buf, if ok then strlen buf else -1)

/-- Argument `n` of a system call, one of the registers `a0` to `a5`. -/
def argraw (i : Fin NPROC) (n : Fin 6) : KernM Nat := do
  let p := (← get).proc i
  load64 (p.trapframe + 112 + 8 * n)

/-- The string that argument `n` points to, and its length or -1. -/
def argstr (i : Fin NPROC) (n : Fin 6) (max : Int) : KernM (List UInt8 × Int) := do
  let addr ← argraw i n
  fetchstr i addr max

end KernM

section
variable {mem : Nat → UInt8} {s : Kernel} {r va max fuel k : Nat} {l : List UInt8} {x : List UInt8 × Bool}

lemma phys_of_userPage {pa : Nat} (hpa : userPage mem r (pgRoundDown va) = some pa) (hva : va < 2 ^ 64)
    (hk : va - pgRoundDown va + k < PGSIZE) :
    phys mem r ((va + k) % 2 ^ 64) = some (pa + (va - pgRoundDown va) + k) := by
  obtain ⟨h1, h2, h3, h4⟩ := page_range (userPage_mapped hpa).1 hva hk
  have hsame : userPage mem r (va + k) = userPage mem r (pgRoundDown va) := by
    unfold userPage
    rw [h2]
    simp only [h4, (userPage_mapped hpa).1.1, true_and]
  rw [phys, h1, hsame, hpa, Option.map_some, h3, Nat.add_assoc]

lemma ReadsAt.stringAt (h : ReadsAt mem r va (l ++ [0])) (h0 : 0 ∉ l) : StringAt mem r va l.length := by
  intro j hj
  have hlt : j < (l ++ [0]).length := by
    rw [List.length_append, List.length_singleton]
    omega
  obtain ⟨a, ha, hb⟩ := h j hlt
  refine ⟨a, ha, ?_⟩
  rw [hb]
  by_cases hjl : j = l.length
  · subst hjl
    simp
  · have hlt' : j < l.length := by omega
    rw [List.getElem_append_left hlt']
    exact iff_of_false (fun e => h0 (e ▸ List.getElem_mem hlt')) hjl

lemma StringAt.unique {k' : Nat} (h : StringAt mem r va k) (h' : StringAt mem r va k') : k = k' := by
  by_contra hne
  rcases Nat.lt_or_gt_of_ne hne with hlt | hlt
  · obtain ⟨a, ha, hb⟩ := h k (Nat.le_refl k)
    obtain ⟨a', ha', hb'⟩ := h' k hlt.le
    cases ha.symm.trans ha'
    exact hne (hb'.1 (hb.2 rfl))
  · obtain ⟨a, ha, hb⟩ := h' k' (Nat.le_refl k')
    obtain ⟨a', ha', hb'⟩ := h k' hlt.le
    cases ha.symm.trans ha'
    exact hne (hb'.1 (hb.2 rfl)).symm

/-- What a scan for a null in at most `max` bytes has done when it ends. -/
structure Scanned (mem : Nat → UInt8) (r va max : Nat) (x : List UInt8 × Bool) : Prop where
  reads : ReadsAt mem r va x.1
  le : x.1.length ≤ max
  found : x.2 = true → ∃ l, x.1 = l ++ [0] ∧ 0 ∉ l
  missed : x.2 = false → 0 ∉ x.1 ∧ (x.1.length = max ∨ phys mem r ((va + x.1.length) % 2 ^ 64) = none)

lemma Scanned.iff (h : Scanned mem r va max x) : x.2 = true ↔ ∃ k < max, StringAt mem r va k := by
  obtain ⟨l, ok⟩ := x
  cases ok with
  | true =>
    obtain ⟨l, rfl, h0⟩ := h.found rfl
    have hle := h.le
    rw [List.length_append, List.length_singleton] at hle
    exact iff_of_true rfl ⟨l.length, by omega, h.reads.stringAt h0⟩
  | false =>
    refine iff_of_false nofun ?_
    rintro ⟨k, hk, hstr⟩
    obtain ⟨h0, hend⟩ := h.missed rfl
    dsimp only at h0 hend
    by_cases hkl : k < l.length
    · -- the null is one of the bytes read
      obtain ⟨a, ha, hb⟩ := hstr k (Nat.le_refl k)
      obtain ⟨a', ha', hb'⟩ := h.reads k hkl
      cases ha.symm.trans ha'
      dsimp only at hb'
      exact h0 ((hb.2 rfl).symm.trans hb' ▸ List.getElem_mem hkl)
    · -- the scan stopped before the null, at a byte that cannot be read
      obtain hend | hend := hend
      · omega
      · obtain ⟨a, ha, -⟩ := hstr l.length (by omega)
        rw [ha] at hend
        cases hend

lemma Scanned.string (h : Scanned mem r va max x) (hk : k < max) (hstr : StringAt mem r va k) :
    x.2 = true ∧ x.1.length = k + 1 ∧ ∃ l, x.1 = l ++ [0] ∧ 0 ∉ l ∧ l.length = k := by
  have hok := h.iff.2 ⟨k, hk, hstr⟩
  obtain ⟨l, hl, h0⟩ := h.found hok
  have hreads := h.reads
  rw [hl] at hreads
  have hlen := (hreads.stringAt h0).unique hstr
  refine ⟨hok, ?_, l, hl, h0, hlen⟩
  rw [hl, List.length_append, List.length_singleton, hlen]

lemma Scanned.turn {va' m : Nat} {l' : List UInt8} {ok : Bool} (h1 : ReadsAt mem r va l) (h0 : 0 ∉ l)
    (hm : l.length = m) (hle : m ≤ max) (hnext : m < max → va' = (va + m) % 2 ^ 64) (h : Scanned mem r va' (max - m) (l', ok)) :
    Scanned mem r va max (l ++ l', ok) := by
  have hle' := h.le
  dsimp only at hle'
  have hreads : ReadsAt mem r va (l ++ l') := by
    by_cases hlt : m < max
    · have := h.reads
      rw [hnext hlt, ← hm] at this
      exact h1.append this
    · rw [List.length_eq_zero_iff.1 (by omega : l'.length = 0), List.append_nil]
      exact h1
  refine ⟨hreads, ?_, fun hok => ?_, fun hok => ?_⟩
  · dsimp only
    rw [List.length_append]
    omega
  · obtain ⟨l₂, e, h2⟩ := h.found hok
    dsimp only at e ⊢
    exact ⟨l ++ l₂, by rw [e, List.append_assoc], fun hmem => (List.mem_append.1 hmem).elim h0 h2⟩
  · obtain ⟨h2, hend⟩ := h.missed hok
    dsimp only at h2 hend ⊢
    refine ⟨fun hmem => (List.mem_append.1 hmem).elim h0 h2, ?_⟩
    rw [List.length_append]
    by_cases hlt : m < max
    · obtain hend | hend := hend
      · exact .inl (by omega)
      · rw [hnext hlt, Nat.mod_add_mod, Nat.add_assoc] at hend
        exact .inr (by rwa [hm])
    · exact .inl (by omega)

lemma takeWhile_null (h0 : 0 ∈ l) : l.takeWhile (· ≠ 0) ++ [0] <+: l ∧ 0 ∉ l.takeWhile (· ≠ 0) := by
  induction l with
  | nil => cases h0
  | cons b l ih =>
    by_cases hb : b = 0
    · subst hb
      rw [List.takeWhile_cons_of_neg (by simp)]
      exact ⟨⟨l, rfl⟩, nofun⟩
    · obtain ⟨h1, h2⟩ := ih ((List.mem_cons.1 h0).resolve_left (Ne.symm hb))
      rw [List.takeWhile_cons_of_pos (by simpa using hb)]
      refine ⟨(List.prefix_cons_inj b).2 h1, fun hmem => ?_⟩
      exact (List.mem_cons.1 hmem).elim (Ne.symm hb) h2

lemma ReadsAt.prefix {l' : List UInt8} (h : ReadsAt mem r va l) (hp : l' <+: l) : ReadsAt mem r va l' := by
  intro k hk
  obtain ⟨a, ha, hb⟩ := h k (hk.trans_le hp.length_le)
  exact ⟨a, ha, hb.trans (hp.getElem hk).symm⟩

/-- `copyinstr` scans the range up to a null or a page that is not mapped, and only reads. -/
lemma copyinstrLoop_spec (hva : va < 2 ^ 64) (hf : max ≤ fuel) :
    wp (copyinstrLoop r fuel va max) (fun x s' => s' = s ∧ Scanned s.mem r va max x) Never s := by
  induction fuel generalizing va max with
  | zero =>
    rw [copyinstrLoop, wp_pure]
    exact ⟨rfl, .nil, Nat.zero_le _, by rintro ⟨⟩, fun _ => ⟨by rintro ⟨⟩, .inl (Nat.le_zero.1 hf).symm⟩⟩
  | succ fuel ih =>
    rw [copyinstrLoop, wp_ite]
    refine ⟨fun h0 => ?_, fun h0 => ?_⟩
    · rw [wp_pure]
      exact ⟨rfl, .nil, Nat.zero_le _, by rintro ⟨⟩, fun _ => ⟨by rintro ⟨⟩, .inl h0.symm⟩⟩
    rw [wp_bind, wp_walkaddr]
    cases hpa : userPage s.mem r (pgRoundDown va) with
    | none =>
      dsimp only
      rw [wp_pure]
      refine ⟨rfl, .nil, Nat.zero_le _, by rintro ⟨⟩, fun _ => ⟨by rintro ⟨⟩, .inr ?_⟩⟩
      rw [List.length_nil, Nat.add_zero, Nat.mod_eq_of_lt hva, phys, Option.map_eq_none_iff]
      exact userPage_roundDown hva ▸ hpa
    | some pa0 =>
      have hoff := sub_pgRoundDown_lt hva
      dsimp only
      rw [wp_bind, wp_getBytes]
      have h1 : ReadsAt s.mem r va ((List.range (min (PGSIZE - (va - pgRoundDown va)) max)).map
          fun i => s.mem (pa0 + (va - pgRoundDown va) + i)) := by
        intro k hk
        rw [List.length_map, List.length_range] at hk
        refine ⟨_, phys_of_userPage hpa hva (by omega), ?_⟩
        rw [List.getElem_map, List.getElem_range]
      generalize hl : (List.range (min (PGSIZE - (va - pgRoundDown va)) max)).map
        (fun i => s.mem (pa0 + (va - pgRoundDown va) + i)) = l at h1 ⊢
      have hlen : l.length = min (PGSIZE - (va - pgRoundDown va)) max := by
        rw [← hl, List.length_map, List.length_range]
      rw [wp_ite]
      refine ⟨fun hnull => ?_, fun hnull => ?_⟩
      · obtain ⟨hp, hn⟩ := takeWhile_null hnull
        rw [wp_pure]
        refine ⟨rfl, h1.prefix hp, ?_, fun _ => ⟨_, rfl, hn⟩, by rintro ⟨⟩⟩
        have := hp.length_le
        dsimp only
        omega
      · rw [wp_bind]
        refine wp_mono (ih (Nat.mod_lt _ (by decide)) (by omega)) ?_
        rintro ⟨rest, ok⟩ _ ⟨rfl, hrest⟩
        rw [wp_pure]
        refine ⟨rfl, Scanned.turn h1 hnull hlen (Nat.min_le_right ..) (fun hlt => ?_) hrest⟩
        rw [next_page (userPage_mapped hpa).1 hva, Nat.min_eq_left (by omega)]

lemma copyinstr_scanned (s : Kernel) (r max : Nat) (va : UInt64) :
    ∃ x, copyinstr r va.toNat max s = .ok x s ∧ Scanned s.mem r va.toNat max x := by
  obtain ⟨x, _, hrun, rfl, hx⟩ := (copyinstrLoop_spec va.toNat_lt (Nat.le_refl max)).returns
  exact ⟨x, hrun, hx⟩

lemma strlen_append (h0 : 0 ∉ l) : strlen (l ++ [0]) = l.length := by
  have h : ∀ b ∈ l, decide (b ≠ 0) = true := by
    intro b hb
    exact decide_eq_true fun e => h0 (e ▸ hb)
  rw [strlen, List.takeWhile_append_of_pos h, List.takeWhile_cons_of_neg (by simp), List.append_nil]

/-- What `fetchstr` returns: the length of the string in the buffer, or -1. -/
def Fetched (mem : Nat → UInt8) (r va : Nat) (max : Int) (x : List UInt8 × Int) : Prop :=
  (∃ k : Nat, (k : Int) < max ∧ StringAt mem r va k ∧ x.2 = k ∧
    ∃ l, x.1 = l ++ [0] ∧ 0 ∉ l ∧ l.length = k) ∨
    x.2 = -1 ∧ ∀ k : Nat, (k : Int) < max → ¬ StringAt mem r va k

lemma fetchstr_fetched {i : Fin NPROC} (va : UInt64) {m : Int} (h0 : 0 ≤ m) (hm : m < 2 ^ 31) :
    ∃ x, fetchstr i va.toNat m s = .ok x s ∧ Fetched s.mem (s.proc i).pagetable va.toNat m x := by
  have hto := toU64_of_nonneg h0 (by omega : m < 2 ^ 64)
  obtain ⟨⟨l, ok⟩, hrun, hx⟩ := copyinstr_scanned s (s.proc i).pagetable (toU64 m) va
  refine ⟨(l, if ok then strlen l else -1), ?_, ?_⟩
  · show EStateM.bind (copyinstr _ _ _) _ s = _
    rw [EStateM.bind, hrun]
    rfl
  cases ok with
  | true =>
    obtain ⟨k, hk, hstr⟩ := hx.iff.1 rfl
    obtain ⟨-, -, l', hl, h0', hlen⟩ := hx.string hk hstr
    refine .inl ⟨k, by omega, hstr, ?_, l', hl, h0', hlen⟩
    dsimp only at hl ⊢
    rw [if_pos rfl, hl, strlen_append h0', hlen]
  | false =>
    refine .inr ⟨rfl, fun k hk hstr => ?_⟩
    have := hx.iff.2 ⟨k, by omega, hstr⟩
    cases this

/-- For every table, every address and every `max`, `copyinstr` succeeds exactly if a string that ends within
    `max` bytes is there, whose bytes can all be read; it has then copied the string and its null. In every case
    it copies at most `max` bytes. So `fetchstr` returns the length of the string, and what `argstr` hands out is
    terminated. -/
theorem copyinstr_exact (s : Kernel) (r max : Nat) (va : UInt64) (i : Fin NPROC) :
    (∃ l ok, copyinstr r va.toNat max s = .ok (l, ok) s ∧ l.length ≤ max ∧
      (ok = true ↔ ∃ k < max, StringAt s.mem r va.toNat k) ∧
      ∀ k < max, StringAt s.mem r va.toNat k → l.length = k + 1 ∧ ReadsAt s.mem r va.toNat l) ∧
    (∀ m : Int, 0 ≤ m → m < 2 ^ 31 → ∃ x, fetchstr i va.toNat m s = .ok x s ∧
      Fetched s.mem (s.proc i).pagetable va.toNat m x) ∧
    ∀ (n : Fin 6) (m : Int), 0 ≤ m → m < 2 ^ 31 → ∃ x, argstr i n m s = .ok x s ∧
      Fetched s.mem (s.proc i).pagetable (le s.mem ((s.proc i).trapframe + 112 + 8 * n) 8) m x := by
  refine ⟨?_, fun m h0 hm => fetchstr_fetched va h0 hm, fun n m h0 hm => ?_⟩
  · obtain ⟨⟨l, ok⟩, hrun, hx⟩ := copyinstr_scanned s r max va
    refine ⟨l, ok, hrun, hx.le, hx.iff, fun k hk hstr => ?_⟩
    exact ⟨(hx.string hk hstr).2.1, hx.reads⟩
  · have hlt : le s.mem ((s.proc i).trapframe + 112 + 8 * n) 8 < 2 ^ 64 := le_lt
    have := fetchstr_fetched (s := s) (i := i) (.ofNat (le s.mem ((s.proc i).trapframe + 112 + 8 * n) 8)) h0 hm
    rwa [UInt64.toNat_ofNat_of_lt' hlt] at this

end

end Xv6n
