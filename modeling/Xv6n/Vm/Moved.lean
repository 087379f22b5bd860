import Xv6n.Vm.Copy

/-!
# Copying byte by byte

`copyout` and `copyin` cut a range of virtual addresses at page boundaries and translate it page by page.
Seen byte by byte they move exactly the bytes that the range names: `Moved` says where the bytes of a list
have gone and that no other byte of memory has changed. The table translates as before because no page of
it is a user page.
-/

namespace Xv6n
open Lib KernM
variable {ok : Bool}

/-- The byte at `va` is on a page that is mapped with `PTE_V` and `PTE_U`. -/
def UserMapped (mem : Nat → UInt8) (r va : Nat) : Prop :=
  va < MAXVA ∧ pteAt mem r (va / PGSIZE) &&& PTE_V ≠ 0 ∧ pteAt mem r (va / PGSIZE) &&& PTE_U ≠ 0

/-- The physical address of the byte at `va`. -/
def phys (mem : Nat → UInt8) (r va : Nat) : Option Nat := (userPage mem r va).map (· + va % PGSIZE)

/-- A table whose user pages are distinct pages of memory, none at address 0 and none a page of the table
    itself. -/
structure UserTable (mem : Nat → UInt8) (r : Nat) : Prop where
  nonzero : ∀ va, UserMapped mem r va → pte2pa (pteAt mem r (va / PGSIZE)) ≠ 0
  inj : ∀ va va', UserMapped mem r va → UserMapped mem r va' →
    pte2pa (pteAt mem r (va / PGSIZE)) = pte2pa (pteAt mem r (va' / PGSIZE)) → va / PGSIZE = va' / PGSIZE
  apart : ∀ va path t, UserMapped mem r va → IsTable path → pageAt mem r path = some t →
    t + PGSIZE ≤ pte2pa (pteAt mem r (va / PGSIZE)) ∨ pte2pa (pteAt mem r (va / PGSIZE)) + PGSIZE ≤ t

/-- The bytes `l` have gone to the virtual addresses from `va` on, and nothing else has changed. -/
structure Moved (s s' : Kernel) (r va : Nat) (l : List UInt8) : Prop where
  eq : s' = { s with mem := s'.mem }
  byte : ∀ k (h : k < l.length), ∃ a, phys s.mem r ((va + k) % 2 ^ 64) = some a ∧ s'.mem a = l[k]
  frame : ∀ a, (∀ k < l.length, phys s.mem r ((va + k) % 2 ^ 64) ≠ some a) → s'.mem a = s.mem a

section
variable {mem : Nat → UInt8} {s s' s1 : Kernel} {r va va' a n fuel len : Nat} {src l l' : List UInt8}

lemma phys_mapped (h : phys mem r va = some a) :
    UserMapped mem r va ∧ a = pte2pa (pteAt mem r (va / PGSIZE)) + va % PGSIZE := by
  obtain ⟨pa, hpa, rfl⟩ := Option.map_eq_some_iff.1 h
  unfold userPage at hpa
  split at hpa
  · rename_i hc
    cases hpa
    exact ⟨⟨hc.1, hc.2.1, hc.2.2.1⟩, rfl⟩
  · cases hpa

lemma UserTable.userPage_eq (h : UserTable mem r) (hm : UserMapped mem r va) :
    userPage mem r va = some (pte2pa (pteAt mem r (va / PGSIZE))) := by
  unfold userPage
  rw [if_pos ⟨hm.1, hm.2.1, hm.2.2, h.nonzero va hm⟩]

lemma UserTable.phys_eq (h : UserTable mem r) (hm : UserMapped mem r va) :
    phys mem r va = some (pte2pa (pteAt mem r (va / PGSIZE)) + va % PGSIZE) := by
  unfold phys
  rw [h.userPage_eq hm, Option.map_some]

lemma pte2pa_offset_inj {x y o o' : Nat} (h : pte2pa x + o % PGSIZE = pte2pa y + o' % PGSIZE) :
    pte2pa x = pte2pa y ∧ o % PGSIZE = o' % PGSIZE := by
  rw [pte2pa_eq, pte2pa_eq] at *
  simp only [PGSIZE] at *
  omega

lemma UserTable.phys_inj (h : UserTable mem r) (h1 : phys mem r va = some a)
    (h2 : phys mem r va' = some a) : va = va' := by
  obtain ⟨m1, rfl⟩ := phys_mapped h1
  obtain ⟨m2, e⟩ := phys_mapped h2
  obtain ⟨hp, ho⟩ := pte2pa_offset_inj e
  have hq := h.inj va va' m1 m2 hp
  rw [← Nat.div_add_mod va PGSIZE, hq, ho, Nat.div_add_mod]

lemma Moved.nil : Moved s s r va [] := ⟨rfl, nofun, fun _ _ => rfl⟩

lemma Moved.of_nil (m : Moved s s' r va []) : s' = s := by
  have hmem : s'.mem = s.mem := funext fun a => m.frame a nofun
  rw [m.eq, hmem]

lemma Moved.same (m : Moved s s' r va l) (h : UserTable s.mem r) {path : List Nat} {t : Nat}
    (hp : IsTable path) (ht : pageAt s.mem r path = some t) : Same s.mem s'.mem t := by
  intro a h1 h2
  refine m.frame a fun k _ e => ?_
  obtain ⟨hm, ha⟩ := phys_mapped e
  have := h.apart _ path t hm hp ht
  simp only [PGSIZE] at *
  omega

lemma IsTable.suffix {path path' : List Nat} (h : IsTable path) (hs : path' <:+ path) : IsTable path' :=
  ⟨Nat.le_trans hs.length_le h.length, fun i hi => h.lt i (hs.subset hi)⟩

section
variable (m : Moved s s' r va l) (h : UserTable s.mem r)
include m h

lemma Moved.pageAt {path : List Nat} (hp : IsTable path) :
    pageAt s'.mem r path = pageAt s.mem r path := by
  refine descend_congr fun i path' hs t ht => ?_
  have hi := hp.suffix hs
  exact (m.same h (hi.suffix (List.suffix_cons ..)) ht).child (hi.lt i (List.mem_cons_self ..))

lemma Moved.pteAt {v : Nat} :
    pteAt s'.mem r v = pteAt s.mem r v := by
  unfold Xv6n.pteAt
  rw [m.pageAt h isTable_lowPath]
  cases ht : Xv6n.pageAt s.mem r (lowPath v) with
  | none => rfl
  | some t => exact (m.same h isTable_lowPath ht).ent (Nat.mod_lt _ (by decide))

lemma Moved.mapped {va' : Nat} :
    UserMapped s'.mem r va' ↔ UserMapped s.mem r va' := by
  unfold UserMapped
  rw [m.pteAt h]

lemma Moved.phys {va' : Nat} :
    phys s'.mem r va' = phys s.mem r va' := by
  unfold Xv6n.phys userPage
  rw [m.pteAt h]

lemma Moved.userTable : UserTable s'.mem r := by
  refine ⟨fun va' hm => ?_, fun v v' h1 h2 => ?_, fun va' path t hm hp ht => ?_⟩
  · rw [m.pteAt h]
    exact h.nonzero va' ((m.mapped h).1 hm)
  · rw [m.pteAt h, m.pteAt h]
    exact h.inj v v' ((m.mapped h).1 h1) ((m.mapped h).1 h2)
  · rw [m.pteAt h]
    rw [m.pageAt h hp] at ht
    exact h.apart va' path t ((m.mapped h).1 hm) hp ht

end

lemma Moved.append (m1 : Moved s s1 r va l) (m2 : Moved s1 s' r ((va + l.length) % 2 ^ 64) l')
    (h : UserTable s.mem r) (hl : l.length + l'.length ≤ 2 ^ 64) : Moved s s' r va (l ++ l') := by
  have haddr : ∀ k, ((va + l.length) % 2 ^ 64 + k) % 2 ^ 64 = (va + (l.length + k)) % 2 ^ 64 := by
    intro k
    rw [Nat.mod_add_mod, Nat.add_assoc]
  refine ⟨?_, fun k hk => ?_, fun a ha => ?_⟩
  · rw [m2.eq, m1.eq]
  · rw [List.length_append] at hk
    by_cases hkl : k < l.length
    · -- a byte of the first part, at an address that the second part does not touch
      obtain ⟨a, ha, hb⟩ := m1.byte k hkl
      refine ⟨a, ha, ?_⟩
      rw [List.getElem_append_left hkl, ← hb]
      refine m2.frame a fun j hj e => ?_
      rw [m1.phys h, haddr] at e
      have := h.phys_inj ha e
      omega
    · obtain ⟨a, ha, hb⟩ := m2.byte (k - l.length) (by omega)
      rw [m1.phys h, haddr, show l.length + (k - l.length) = k by omega] at ha
      refine ⟨a, ha, ?_⟩
      rw [List.getElem_append_right (by omega), hb]
  · rw [m2.frame a, m1.frame a]
    · exact fun k hk => ha k (by rw [List.length_append]; omega)
    · intro k hk
      rw [m1.phys h, haddr]
      exact ha _ (by rw [List.length_append]; omega)

lemma page_range (hm : UserMapped mem r (pgRoundDown va)) (hva : va < 2 ^ 64) {k : Nat}
    (hk : va - pgRoundDown va + k < PGSIZE) :
    (va + k) % 2 ^ 64 = va + k ∧ (va + k) / PGSIZE = pgRoundDown va / PGSIZE ∧
      (va + k) % PGSIZE = va - pgRoundDown va + k ∧ va + k < MAXVA := by
  have hlt := hm.1
  unfold pgRoundDown at *
  rw [Nat.mod_eq_of_lt hva] at *
  simp only [PGSIZE, MAXVA] at *
  refine ⟨Nat.mod_eq_of_lt ?_, ?_, ?_, ?_⟩ <;> omega

lemma UserTable.phys_page (h : UserTable mem r) (hm : UserMapped mem r (pgRoundDown va)) (hva : va < 2 ^ 64)
    {k : Nat} (hk : va - pgRoundDown va + k < PGSIZE) :
    Xv6n.phys mem r ((va + k) % 2 ^ 64) =
      some (pte2pa (Xv6n.pteAt mem r (pgRoundDown va / PGSIZE)) + (va - pgRoundDown va) + k) := by
  obtain ⟨h1, h2, h3, h4⟩ := page_range hm hva hk
  have hmk : UserMapped mem r (va + k) := by
    refine ⟨h4, ?_⟩
    rw [h2]
    exact hm.2
  rw [h1, h.phys_eq hmk, h2, h3, Nat.add_assoc]

lemma Moved.page {pa : Nat} (h : UserTable s.mem r) (hm : UserMapped s.mem r (pgRoundDown va))
    (hpa : pa = pte2pa (Xv6n.pteAt s.mem r (pgRoundDown va / PGSIZE))) (hva : va < 2 ^ 64)
    (hl : va - pgRoundDown va + l.length ≤ PGSIZE) :
    Moved s { s with mem := Lib.putBytes s.mem (pa + (va - pgRoundDown va)) l } r va l := by
  have hphys := fun k (hk : k < l.length) => h.phys_page hm hva (k := k) (by omega)
  rw [← hpa] at hphys
  refine ⟨rfl, fun k hk => ⟨_, hphys k hk, ?_⟩, fun a ha => ?_⟩
  · dsimp only
    unfold Lib.putBytes
    rw [if_pos (by omega), Nat.add_sub_cancel_left, List.getD_eq_getElem _ _ hk]
  · refine putBytes_of_out ?_
    by_contra hn
    have hin := ha (a - (pa + (va - pgRoundDown va))) (by omega)
    rw [hphys _ (by omega)] at hin
    exact hin (congrArg some (by omega))

lemma UserTable.userPage_none (h : UserTable mem r) (hn : userPage mem r va = none) :
    ¬ UserMapped mem r va := by
  intro hm
  rw [h.userPage_eq hm] at hn
  cases hn

lemma userPage_mapped {pa : Nat} (h : userPage mem r va = some pa) :
    UserMapped mem r va ∧ pa = pte2pa (pteAt mem r (va / PGSIZE)) := by
  unfold userPage at h
  split at h
  · rename_i hc
    cases h
    exact ⟨⟨hc.1, hc.2.1, hc.2.2.1⟩, rfl⟩
  · cases h

lemma mapped_roundDown (hva : va < 2 ^ 64) :
    UserMapped mem r (pgRoundDown va) ↔ UserMapped mem r va := by
  unfold UserMapped
  rw [pgRoundDown_div hva, pgRoundDown_lt_iff hva]

lemma userPage_roundDown (hva : va < 2 ^ 64) : userPage mem r (pgRoundDown va) = userPage mem r va := by
  unfold userPage
  simp only [pgRoundDown_div hva, pgRoundDown_lt_iff hva]

lemma next_page (hm : UserMapped mem r (pgRoundDown va)) (hva : va < 2 ^ 64) :
    (pgRoundDown va + PGSIZE) % 2 ^ 64 = (va + (PGSIZE - (va - pgRoundDown va))) % 2 ^ 64 := by
  have := hm.1
  congr 1
  unfold pgRoundDown at *
  rw [Nat.mod_eq_of_lt hva] at *
  simp only [PGSIZE] at *
  omega

/-- What a copy of `len` bytes has done when it ends with `ok` after `n` bytes. -/
structure Ended (mem : Nat → UInt8) (r va len n : Nat) (ok : Bool) : Prop where
  le : n ≤ len
  all : ok = true → n = len
  fault : ok = false → n < len ∧ ¬ UserMapped mem r ((va + n) % 2 ^ 64)

lemma Ended.add {m : Nat} (e : Ended mem r ((va + m) % 2 ^ 64) (len - m) n ok) (hm : m ≤ len) :
    Ended mem r va len (m + n) ok := by
  refine ⟨?_, fun hok => ?_, fun hok => ?_⟩
  · have := e.le
    omega
  · have := e.all hok
    omega
  · obtain ⟨h1, h2⟩ := e.fault hok
    rw [Nat.mod_add_mod, Nat.add_assoc] at h2
    exact ⟨by omega, h2⟩

lemma Ended.turn (hm : UserMapped mem r (pgRoundDown va)) (hva : va < 2 ^ 64)
    (e : Ended mem r ((pgRoundDown va + PGSIZE) % 2 ^ 64)
      (len - min (PGSIZE - (va - pgRoundDown va)) len) n ok) :
    Ended mem r va len (min (PGSIZE - (va - pgRoundDown va)) len + n) ok ∧
      (n = 0 ∨ (pgRoundDown va + PGSIZE) % 2 ^ 64 =
        (va + min (PGSIZE - (va - pgRoundDown va)) len) % 2 ^ 64) := by
  by_cases hlast : len ≤ PGSIZE - (va - pgRoundDown va)
  · rw [Nat.min_eq_right hlast] at e ⊢
    obtain rfl : n = 0 := by
      have := e.le
      omega
    refine ⟨⟨Nat.le_refl _, fun _ => rfl, fun hok => ?_⟩, .inl rfl⟩
    have := (e.fault hok).1
    omega
  · have hle : PGSIZE - (va - pgRoundDown va) ≤ len := by omega
    rw [Nat.min_eq_left hle] at e ⊢
    refine ⟨?_, .inr (next_page hm hva)⟩
    rw [next_page hm hva] at e
    exact e.add hle

lemma Ended.congr {mem' : Nat → UInt8} (e : Ended mem' r va len n ok)
    (h : ∀ {va'}, UserMapped mem' r va' ↔ UserMapped mem r va') : Ended mem r va len n ok :=
  ⟨e.le, e.all, fun hok => ⟨(e.fault hok).1, fun hm => (e.fault hok).2 (h.2 hm)⟩⟩

lemma Ended.iff (e : Ended mem r va len n ok)
    (hm : ∀ k < n, UserMapped mem r ((va + k) % 2 ^ 64)) :
    ok = true ↔ ∀ k < len, UserMapped mem r ((va + k) % 2 ^ 64) := by
  cases ok with
  | true => exact iff_of_true rfl (by rwa [← e.all rfl])
  | false =>
    obtain ⟨h1, h2⟩ := e.fault rfl
    exact iff_of_false nofun fun h => h2 (h n h1)

/-- `copyout` moves a first part of the source, up to a page that is not mapped. -/
lemma copyoutLoop_spec (h : UserTable s.mem r) (hva : va < 2 ^ 64) (hf : src.length ≤ fuel)
    (hl : src.length < 2 ^ 64) :
    wp (copyoutLoop r fuel va src) (fun ok s' => ∃ n, Moved s s' r va (src.take n) ∧
      Ended s.mem r va src.length n ok) Never s := by
  induction fuel generalizing s va src with
  | zero =>
    have h0 : src.length = 0 := by omega
    rw [copyoutLoop, wp_pure]
    exact ⟨0, .nil, by omega, fun _ => h0.symm, by rintro ⟨⟩⟩
  | succ fuel ih =>
    rw [copyoutLoop, wp_ite]
    refine ⟨fun h0 => ?_, fun h0 => ?_⟩
    · rw [wp_pure]
      exact ⟨0, .nil, by omega, fun _ => h0.symm, by rintro ⟨⟩⟩
    rw [wp_bind, wp_walkaddr]
    cases hpa : userPage s.mem r (pgRoundDown va) with
    | none =>
      dsimp only
      rw [wp_pure]
      refine ⟨0, .nil, by omega, by rintro ⟨⟩, fun _ => ⟨by omega, ?_⟩⟩
      rw [Nat.add_zero, Nat.mod_eq_of_lt hva, ← mapped_roundDown hva]
      exact h.userPage_none hpa
    | some pa0 =>
      obtain ⟨hm, rfl⟩ := userPage_mapped hpa
      have hoff := sub_pgRoundDown_lt hva
      have hlen : (src.take (min (PGSIZE - (va - pgRoundDown va)) src.length)).length =
          min (PGSIZE - (va - pgRoundDown va)) src.length := by
        rw [List.length_take]
        omega
      dsimp only
      rw [wp_bind, wp_putBytes]
      have m1 := Moved.page (l := src.take (min (PGSIZE - (va - pgRoundDown va)) src.length)) h hm rfl hva
        (by omega)
      generalize hs1 : ({ s with mem := Lib.putBytes s.mem _ _ } : Kernel) = s1 at m1 ⊢
      have hdrop : (src.drop (min (PGSIZE - (va - pgRoundDown va)) src.length)).length =
          src.length - min (PGSIZE - (va - pgRoundDown va)) src.length := List.length_drop ..
      refine wp_mono (ih (m1.userTable h) (Nat.mod_lt _ (by decide)) (by omega) (by omega)) ?_
      rintro ok s2 ⟨n, m2, he⟩
      rw [hdrop] at he
      obtain ⟨hend, hnext⟩ := Ended.turn hm hva (he.congr (m1.mapped h))
      refine ⟨_, ?_, hend⟩
      rw [List.take_add]
      obtain rfl | hnext := hnext
      · -- the source ends on this page
        rw [List.take_zero, List.append_nil, m2.of_nil]
        exact m1
      · rw [hnext] at m2
        refine m1.append (by rwa [hlen]) h ?_
        rw [hlen, List.length_take]
        omega

/-- The bytes `l` are those of the virtual addresses from `va` on. -/
def ReadsAt (mem : Nat → UInt8) (r va : Nat) (l : List UInt8) : Prop :=
  ∀ k (h : k < l.length), ∃ a, phys mem r ((va + k) % 2 ^ 64) = some a ∧ mem a = l[k]

lemma ReadsAt.nil : ReadsAt mem r va [] := nofun

lemma ReadsAt.mapped (h : ReadsAt mem r va l) : ∀ k < l.length, UserMapped mem r ((va + k) % 2 ^ 64) := by
  intro k hk
  obtain ⟨a, ha, -⟩ := h k hk
  exact (phys_mapped ha).1

lemma ReadsAt.append (h1 : ReadsAt mem r va l) (h2 : ReadsAt mem r ((va + l.length) % 2 ^ 64) l') :
    ReadsAt mem r va (l ++ l') := by
  intro k hk
  rw [List.length_append] at hk
  by_cases hkl : k < l.length
  · rw [List.getElem_append_left hkl]
    exact h1 k hkl
  · obtain ⟨a, ha, hb⟩ := h2 (k - l.length) (by omega)
    rw [Nat.mod_add_mod, Nat.add_assoc, show l.length + (k - l.length) = k by omega] at ha
    rw [List.getElem_append_right (by omega)]
    exact ⟨a, ha, hb⟩

lemma ReadsAt.unique (h1 : ReadsAt mem r va l) (h2 : ReadsAt mem r va l') (hl : l.length = l'.length) :
    l = l' := by
  refine List.ext_getElem hl fun k hk hk' => ?_
  obtain ⟨a, ha, hb⟩ := h1 k hk
  obtain ⟨a', ha', hb'⟩ := h2 k hk'
  cases ha.symm.trans ha'
  rw [← hb, ← hb']

lemma Moved.readsAt (m : Moved s s' r va l) (h : UserTable s.mem r) : ReadsAt s'.mem r va l := by
  intro k hk
  rw [m.phys h]
  exact m.byte k hk

lemma ReadsAt.page {pa n : Nat} (h : UserTable mem r) (hm : UserMapped mem r (pgRoundDown va))
    (hpa : pa = pte2pa (Xv6n.pteAt mem r (pgRoundDown va / PGSIZE))) (hva : va < 2 ^ 64)
    (hn : va - pgRoundDown va + n ≤ PGSIZE) :
    ReadsAt mem r va ((List.range n).map fun i => mem (pa + (va - pgRoundDown va) + i)) := by
  intro k hk
  rw [List.length_map, List.length_range] at hk
  refine ⟨_, h.phys_page hm hva (by omega), ?_⟩
  rw [List.getElem_map, List.getElem_range, ← hpa]

/-- `copyin` reads a first part of the range, up to a page that is not mapped. -/
lemma copyinLoop_spec (h : UserTable s.mem r) (hva : va < 2 ^ 64) (hf : len ≤ fuel) :
    wp (copyinLoop r fuel va len) (fun x s' => s' = s ∧ ReadsAt s.mem r va x.1 ∧
      Ended s.mem r va len x.1.length x.2) Never s := by
  induction fuel generalizing va len with
  | zero =>
    rw [copyinLoop, wp_pure]
    exact ⟨rfl, .nil, Nat.zero_le _, fun _ => (Nat.le_zero.1 hf).symm, by rintro ⟨⟩⟩
  | succ fuel ih =>
    rw [copyinLoop, wp_ite]
    refine ⟨fun h0 => ?_, fun h0 => ?_⟩
    · rw [wp_pure]
      exact ⟨rfl, .nil, Nat.zero_le _, fun _ => h0.symm, by rintro ⟨⟩⟩
    rw [wp_bind, wp_walkaddr]
    cases hpa : userPage s.mem r (pgRoundDown va) with
    | none =>
      dsimp only
      rw [wp_pure]
      refine ⟨rfl, .nil, Nat.zero_le _, by rintro ⟨⟩, fun _ => ⟨Nat.pos_of_ne_zero h0, ?_⟩⟩
      rw [List.length_nil, Nat.add_zero, Nat.mod_eq_of_lt hva, ← mapped_roundDown hva]
      exact h.userPage_none hpa
    | some pa0 =>
      obtain ⟨hm, hpa0⟩ := userPage_mapped hpa
      have hoff := sub_pgRoundDown_lt hva
      dsimp only
      rw [wp_bind, wp_getBytes]
      have h1 := ReadsAt.page (n := min (PGSIZE - (va - pgRoundDown va)) len) h hm hpa0 hva (by omega)
      generalize hl : (List.range (min (PGSIZE - (va - pgRoundDown va)) len)).map
        (fun i => s.mem (pa0 + (va - pgRoundDown va) + i)) = l at h1 ⊢
      have hlen : l.length = min (PGSIZE - (va - pgRoundDown va)) len := by
        rw [← hl, List.length_map, List.length_range]
      rw [wp_bind]
      refine wp_mono (ih (Nat.mod_lt _ (by decide)) (by omega)) ?_
      rintro ⟨rest, ok⟩ _ ⟨rfl, h2, he⟩
      rw [wp_pure]
      dsimp only at h2 he ⊢
      obtain ⟨hend, hnext⟩ := Ended.turn hm hva he
      refine ⟨rfl, ?_, ?_⟩
      · obtain h0 | hnext := hnext
        · rw [List.length_eq_zero_iff.1 h0, List.append_nil]
          exact h1
        · rw [hnext, ← hlen] at h2
          exact h1.append h2
      · rw [List.length_append, hlen]
        exact hend

end

section
variable [Layout] {s s' : Kernel} {own : Nat → Owner} {live : Nat → List Nat → Prop} {r va : Nat} {l : List UInt8}

section
variable (h : Heap s own live) (hr : ∀ path, live r path)
include h hr

lemma Heap.own_mapped (htop : ∀ v, Top v → pteAt s.mem r v &&& PTE_U = 0) (hm : UserMapped s.mem r va) :
    va / PGSIZE < NLEAF ∧ own (pte2pa (pteAt s.mem r (va / PGSIZE))) = .slot r (leafPath (va / PGSIZE)) := by
  have hlt : va / PGSIZE < NLEAF := by
    have := hm.1
    simp only [MAXVA, PGSIZE, NLEAF] at *
    omega
  exact ⟨hlt, (h.leaf_iff (hr _) hlt fun ht => hm.2.2 (htop _ ht)).2 ⟨hm.2.1, rfl⟩⟩

lemma Heap.userTable (htop : ∀ v, Top v → pteAt s.mem r v &&& PTE_U = 0) : UserTable s.mem r := by
  have hown := fun va (hm : UserMapped s.mem r va) => h.own_mapped hr htop hm
  refine ⟨fun va hm => ?_, fun va va' hm hm' e => ?_, fun va path t hm hp ht => ?_⟩
  · refine ((h.managed _).1 ?_).ne_zero
    rw [(hown va hm).2]
    nofun
  · have h1 := (hown va hm).2
    rw [e, (hown va' hm').2] at h1
    exact (leafPath_inj (hown va' hm').1 (hown va hm).1 (Owner.slot.inj h1).2).symm
  · have h1 := (hown va hm).2
    have h2 := (h.pageAt_iff (hr _) hp.slot).1 ht
    refine page_disjoint (h.slot_mod h2) (h.slot_mod h1) ?_
    rintro rfl
    rw [h2] at h1
    have hlen := hp.length
    rw [(Owner.slot.inj h1).2, leafPath_length] at hlen
    omega

lemma Heap.image_put {v o : Nat} (hv : v < NVPN - 2)
    (hval : pteAt s.mem r v &&& PTE_V ≠ 0) (hl : o + l.length ≤ PGSIZE) :
    image (Lib.putBytes s.mem (pte2pa (pteAt s.mem r v) + o) l) r = (image s.mem r).write (v * PGSIZE + o) l := by
  have hown := h.own_leaf hr hv hval
  have w := wrote_putBytes (A := UserOf own r) (s := s) (o := o) (l := l) (h.slot_mod hown) hl ⟨v, hown⟩
  have hpte := fun a => w.pteAt (v := a) h (fun p => UserOf.not_links) hr
  dsimp only at hpte
  funext a
  by_cases e : a = v
  · subst e
    rw [image_some hv (by rwa [hpte]), hpte, Image.write, image_some hv hval, Option.map_some]
    refine congrArg some (Page.ext rfl (funext fun k => ?_))
    dsimp only [pageOf, Lib.putBytes]
    by_cases hk : o ≤ k ∧ k < o + l.length
    · rw [if_pos (by omega), if_pos (by omega), List.getD_eq_getElem _ _ (by omega),
        List.getD_eq_getElem _ _ (by omega)]
      congr 1
      omega
    · rw [if_neg (by omega)]
      split
      · rw [List.getD_eq_default _ _ (by omega)]
      · rfl
  · have hI : (image s.mem r).write (v * PGSIZE + o) l a = image s.mem r a := by
      obtain hlt | hlt := Nat.lt_or_gt_of_ne e
      · refine Image.write_below ?_
        simp only [PGSIZE] at *
        omega
      · refine Image.write_above ?_
        simp only [PGSIZE] at *
        omega
    rw [hI]
    by_cases ha : a < NVPN - 2
    · refine h.image_congr hr (fun _ => hpte a) fun p hp => same_putBytes (h.slot_mod hown) (h.slot_mod hp) ?_ hl
      rintro rfl
      rw [hp, Owner.slot.injEq] at hown
      exact e (leafPath_inj (lt_nleaf ha) (lt_nleaf hv) hown.2)
    · rw [image, image, if_neg fun h => ha h.1, if_neg fun h => ha h.1]

end

/-- A transfer that does not go around the end of the addresses writes to the image. -/
lemma Moved.image (m : Moved s s' r va l) (h : Heap s own live) (hr : ∀ path, live r path)
    (htop : ∀ v, Top v → Xv6n.pteAt s.mem r v &&& PTE_U = 0) (hle : va + l.length ≤ 2 ^ 64) :
    Xv6n.image s'.mem r = (Xv6n.image s.mem r).write va l := by
  have ht := h.userTable hr htop
  funext v
  by_cases hv : v < NVPN - 2
  · by_cases hval : Xv6n.pteAt s.mem r v &&& PTE_V = 0
    · rw [image_none (by rwa [m.pteAt ht]), Image.write, image_none hval, Option.map_none]
    · rw [image_some hv (by rwa [m.pteAt ht]), m.pteAt ht, Image.write, image_some hv hval, Option.map_some]
      refine congrArg some (Page.ext rfl (funext fun k => ?_))
      have hk := k.isLt
      have hdiv : (v * PGSIZE + k) / PGSIZE = v ∧ (v * PGSIZE + k) % PGSIZE = k := by
        simp only [PGSIZE] at *
        omega
      by_cases hin : va ≤ v * PGSIZE + k ∧ v * PGSIZE + k < va + l.length
      · -- the byte comes from the source
        obtain ⟨a, ha, hb⟩ := m.byte (v * PGSIZE + k - va) (by omega)
        rw [show va + (v * PGSIZE + k - va) = v * PGSIZE + k by omega, Nat.mod_eq_of_lt (by omega)] at ha
        have hpa := (phys_mapped ha).2
        rw [hdiv.1, hdiv.2] at hpa
        dsimp only [pageOf]
        rw [if_pos hin.1, List.getD_eq_getElem _ _ (by omega), ← hb, hpa]
      · have hframe : s'.mem (pte2pa (Xv6n.pteAt s.mem r v) + k) = s.mem (pte2pa (Xv6n.pteAt s.mem r v) + k) := by
          refine m.frame _ fun j hj e => hin ?_
          rw [Nat.mod_eq_of_lt (by omega)] at e
          obtain ⟨hm, ha⟩ := phys_mapped e
          obtain ⟨hlt, hown⟩ := h.own_mapped hr htop hm
          rw [← hdiv.2] at ha
          obtain ⟨hpa, ho⟩ := pte2pa_offset_inj ha
          rw [← hpa, h.own_leaf hr hv hval] at hown
          have hva := leafPath_inj (lt_nleaf hv) hlt (Owner.slot.inj hown).2
          rw [hdiv.2] at ho
          have := Nat.div_add_mod (va + j) PGSIZE
          rw [← hva, ← ho] at this
          simp only [PGSIZE] at *
          omega
        dsimp only [pageOf]
        rw [hframe]
        split
        · rw [List.getD_eq_default _ _ (by omega)]
        · rfl
  · rw [Xv6n.image, if_neg fun e => hv e.1, Image.write, Xv6n.image, if_neg fun e => hv e.1, Option.map_none]

end

end Xv6n
