import Xv6n.Kalloc.Boot

/-!
# Many harts share the lists

From the lists that `kinit` leaves on, any number of threads allocate and free pages and write to the pages
they were given. A thread's record has the pages of its call and what it knows of the list whose lock it
holds: nothing yet, its first page, the page behind that one, or that its own page links to the first one.
-/

namespace Xv6n.Kalloc
open Lib Prog Function

/-- What a thread has done in a critical section. -/
inductive Stage where
  | idle
  | locked (k : ListId)
  | head (k : ListId) (h : Nat)
  | next (k : ListId) (h n : Nat)
  | linked (k : ListId) (r h : Nat)

def Stage.lock : Stage → Option ListId
  | .idle => none
  | .locked k | .head k _ | .next k _ _ | .linked k _ _ => some k

/-- The pages of a thread's call, and its stage. -/
structure Local where
  busy : Set Nat
  stage : Stage

variable {ι : Type} [DecidableEq ι] [End] {s : State ι} {g : ι → Local} {i : ι} {p r : Nat} {k : ListId}

def Knows (s : State ι) (busy : Set Nat) : Stage → Prop
  | .idle | .locked _ => True
  | .head k h => s.head k = h
  | .next k h n => s.head k = h ∧ h ≠ 0 ∧ s.next h = n
  | .linked k r h => s.head k = h ∧ r ∈ busy ∧ s.next r = h

/-- The lists, the pages inside calls, and the locks. -/
structure Inv (g : ι → Local) (s : State ι) : Prop where
  lists : ∃ l, Lists s l
  pages : ∀ p, IsPage p → s.use p ≠ .kernel
  busy : ∀ p, s.use p = .busy ↔ ∃ i, p ∈ (g i).busy
  one : ∀ i j p, p ∈ (g i).busy → p ∈ (g j).busy → i = j
  lock : ∀ i k, s.lock k = some i ↔ (g i).stage.lock = some k
  knows : ∀ i, Knows s (g i).busy (g i).stage

namespace Inv
variable {m : Nat → UInt8} {l : Local} {st : Stage}

section
omit [DecidableEq ι]

lemma page (h : Inv g s) (hp : s.use p ≠ .kernel) : IsPage p := by
  obtain ⟨l, hl⟩ := h.lists
  exact hl.page p hp

lemma busy_use (h : Inv g s) (hp : p ∈ (g i).busy) : s.use p = .busy := (h.busy p).2 ⟨i, hp⟩

lemma busy_page (h : Inv g s) (hp : p ∈ (g i).busy) : IsPage p := h.page (by rw [h.busy_use hp]; nofun)

lemma knows_write (h : Inv g s) (hr : s.use r ≠ .free) (hp : IsPage r) (hlow : ∀ a, a < r → m a = s.mem a)
    (hm : ∀ p, p % PGSIZE = 0 → p ≠ r → Same s.mem m p) {j : ι} (hj : r ∉ (g j).busy) :
    Knows { s with mem := m } (g j).busy (g j).stage := by
  have hk := h.knows j
  have hhead : ∀ k, State.head { s with mem := m } k = s.head k := fun k => head_same hp.2.1 hlow
  cases e : (g j).stage with
  | idle => trivial
  | locked k => trivial
  | head k f =>
    rw [e] at hk
    exact (hhead k).trans hk
  | next k f n =>
    rw [e] at hk
    obtain ⟨rfl, h1, h2⟩ := hk
    obtain ⟨l, hl⟩ := h.lists
    refine ⟨hhead k, h1, Eq.trans (hm _ (hl.head_page h1).1 ?_).link h2⟩
    rintro rfl
    exact hr (hl.head h1).1
  | linked k q f =>
    rw [e] at hk
    obtain ⟨h1, h2, h3⟩ := hk
    refine ⟨(hhead k).trans h1, h2, Eq.trans (hm _ (h.busy_page h2).1 ?_).link h3⟩
    rintro rfl
    exact hj h2

lemma knows_setHead {v : Nat} {u : Nat → Use} (h : Inv g s) {j : ι} (hj : (g j).stage.lock ≠ some k) :
    Knows { s.setHead k v with use := u } (g j).busy (g j).stage := by
  have hk := h.knows j
  have hhead : ∀ k', k' ≠ k → State.head { s.setHead k v with use := u } k' = s.head k' :=
    fun k' hne => head_setHead_of_ne hne
  cases e : (g j).stage with
  | idle => trivial
  | locked k' => trivial
  | head k' f =>
    rw [e] at hk hj
    exact (hhead k' fun e => hj (congrArg some e)).trans hk
  | next k' f n =>
    rw [e] at hk hj
    obtain ⟨rfl, h1, h2⟩ := hk
    obtain ⟨l, hl⟩ := h.lists
    exact ⟨hhead k' fun e => hj (congrArg some e), h1, Eq.trans (next_setHead (hl.head_page h1)) h2⟩
  | linked k' q f =>
    rw [e] at hk hj
    obtain ⟨h1, h2, h3⟩ := hk
    exact ⟨(hhead k' fun e => hj (congrArg some e)).trans h1, h2,
      Eq.trans (next_setHead (h.busy_page h2)) h3⟩

end

lemma goto {x : ListId → Option ι} (h : Inv g s)
    (hx : ∀ j k, x k = some j ↔ (update g i ⟨(g i).busy, st⟩ j).stage.lock = some k)
    (hk : Knows s (g i).busy st) : Inv (update g i ⟨(g i).busy, st⟩) { s with lock := x } := by
  obtain ⟨⟨l, hl⟩, h2, h3, h4, _, h6⟩ := h
  have hb : ∀ j, (update g i ⟨(g i).busy, st⟩ j).busy = (g j).busy := congrFun (update_proj rfl)
  refine ⟨⟨l, hl.chain, hl.nodup, hl.mem, hl.page⟩, h2, ?_, ?_, hx, ?_⟩
  · simpa only [hb] using h3
  · simpa only [hb] using h4
  · exact (forall_update_iff g fun j (l : Local) => Knows { s with lock := x } l.busy l.stage).2
      ⟨by cases st <;> exact hk, fun j _ => by
        have := h6 j
        revert this
        cases (g j).stage <;> exact id⟩

lemma goto_same (h : Inv g s) (hst : st.lock = (g i).stage.lock) (hk : Knows s (g i).busy st) :
    Inv (update g i ⟨(g i).busy, st⟩) s := by
  refine h.goto (x := s.lock) (fun j k => ?_) hk
  have e : ∀ j, (update g i ⟨(g i).busy, st⟩ j).stage.lock = (g j).stage.lock :=
    congrFun (update_proj (g := fun l : Local => l.stage.lock) hst)
  rw [e]
  exact h.lock j k

omit [DecidableEq ι] in
lemma write (h : Inv g s) (hr : s.use r ≠ .free) (hp : IsPage r) (hlow : ∀ a, a < r → m a = s.mem a)
    (hm : ∀ p, p % PGSIZE = 0 → p ≠ r → Same s.mem m p)
    (hi : ∀ j, r ∈ (g j).busy → Knows { s with mem := m } (g j).busy (g j).stage) :
    Inv g { s with mem := m } := by
  obtain ⟨l, hl⟩ := h.lists
  refine ⟨⟨l, hl.write hr hp hlow hm⟩, h.pages, h.busy, h.one, h.lock, fun j => ?_⟩
  by_cases hj : r ∈ (g j).busy
  · exact hi j hj
  · exact h.knows_write hr hp hlow hm hj

lemma retag {b : Set Nat} {u : Use} {s' : State ι} (h : Inv g s) (hl : ∃ l, Lists s' l)
    (huse : s'.use = update s.use r u) (hlk : s'.lock = s.lock) (hu : u ≠ .kernel)
    (hst : st.lock = (g i).stage.lock) (hb : ∀ p, p ≠ r → (p ∈ b ↔ p ∈ (g i).busy)) (hbr : r ∈ b ↔ u = .busy)
    (hown : ∀ j, j ≠ i → r ∉ (g j).busy) (hknow : Knows s' b st)
    (hothers : ∀ j, j ≠ i → Knows s' (g j).busy (g j).stage) : Inv (update g i ⟨b, st⟩) s' := by
  have hlock : ∀ j, (update g i ⟨b, st⟩ j).stage.lock = (g j).stage.lock :=
    congrFun (update_proj (g := fun l : Local => l.stage.lock) hst)
  have hmem : ∀ j p, p ≠ r → (p ∈ (update g i ⟨b, st⟩ j).busy ↔ p ∈ (g j).busy) := by
    intro j p hne
    by_cases e : j = i
    · subst e
      rw [update_self]
      exact hb p hne
    · rw [update_of_ne e]
  have hmem' : ∀ j, r ∈ (update g i ⟨b, st⟩ j).busy ↔ j = i ∧ u = .busy := by
    intro j
    by_cases e : j = i
    · subst e
      rw [update_self]
      exact hbr.trans (by simp)
    · rw [update_of_ne e]
      exact ⟨fun hc => absurd hc (hown j e), fun hc => absurd hc.1 e⟩
  refine ⟨hl, ?_, fun p => ?_, fun j j' p h1 h2 => ?_, ?_, ?_⟩
  · rw [huse]
    exact (forall_update_iff s.use fun p v => IsPage p → v ≠ .kernel).2 ⟨fun _ => hu, fun p _ => h.pages p⟩
  · rw [huse]
    by_cases e : p = r
    · subst e
      rw [update_self]
      simp only [hmem']
      exact ⟨fun e => ⟨i, rfl, e⟩, fun ⟨_, _, e⟩ => e⟩
    · rw [update_of_ne e, h.busy]
      simp only [hmem _ p e]
  · by_cases e : p = r
    · subst e
      rw [((hmem' j).1 h1).1, ((hmem' j').1 h2).1]
    · exact h.one j j' p ((hmem j p e).1 h1) ((hmem j' p e).1 h2)
  · intro j k
    rw [hlock, hlk]
    exact h.lock j k
  · exact (forall_update_iff g fun j (l : Local) => Knows s' l.busy l.stage).2 ⟨hknow, hothers⟩

lemma mark {b : Set Nat} {u : Use} (h : Inv g s) (hr : s.use r ≠ .free) (hp : IsPage r) (hu : u ≠ .free)
    (hu' : u ≠ .kernel) (hst : (g i).stage = .idle) (hb : ∀ p, p ≠ r → (p ∈ b ↔ p ∈ (g i).busy))
    (hbr : r ∈ b ↔ u = .busy) (hown : ∀ j, j ≠ i → r ∉ (g j).busy) :
    Inv (update g i ⟨b, .idle⟩) { s with use := update s.use r u } := by
  obtain ⟨l, hl⟩ := h.lists
  refine h.retag ⟨l, hl.mark hp hr hu⟩ rfl rfl hu' (by rw [hst]) hb hbr hown trivial fun j _ => ?_
  have := h.knows j
  revert this
  cases (g j).stage <;> exact id

omit [DecidableEq ι] in
lemma lock_ne (h : Inv g s) (hi : (g i).stage.lock = some k) {j : ι} (hj : j ≠ i) : (g j).stage.lock ≠ some k := by
  intro e
  have h1 := (h.lock i k).2 hi
  rw [(h.lock j k).2 e] at h1
  exact hj (Option.some.inj h1)

lemma link {f : Nat} (h : Inv g s) (hst : (g i).stage = .linked k r f) (hk : Home r k) :
    Inv (update g i ⟨(g i).busy \ {r}, .locked k⟩)
      { s.setHead k r with use := update s.use r .free } := by
  have hi := h.knows i
  rw [hst] at hi
  obtain ⟨h1, h2, h3⟩ := hi
  obtain ⟨l, hl⟩ := h.lists
  have hr : s.use r ≠ .free := by rw [h.busy_use h2]; nofun
  have hlock : (g i).stage.lock = some k := by rw [hst]; rfl
  refine h.retag ⟨_, hl.link (h.busy_page h2) hr hk (h3.trans h1.symm)⟩ rfl setHead_lock nofun
    hlock.symm (fun p hp => ?_) ?_ (fun j hj e => hj (h.one j i r e h2)) trivial
    fun j hj => h.knows_setHead (h.lock_ne hlock hj)
  · exact ⟨fun e => e.1, fun e => ⟨e, hp⟩⟩
  · exact ⟨fun e => absurd rfl e.2, nofun⟩

lemma unlink {f n : Nat} (h : Inv g s) (hst : (g i).stage = .next k f n) :
    Inv (update g i ⟨insert f (g i).busy, .locked k⟩)
      { s.setHead k n with use := update s.use f .busy } := by
  have hi := h.knows i
  rw [hst] at hi
  obtain ⟨rfl, h2, rfl⟩ := hi
  obtain ⟨l, hl⟩ := h.lists
  have hlock : (g i).stage.lock = some k := by rw [hst]; rfl
  have hfree := (hl.head h2).1
  refine h.retag ⟨_, hl.unlink h2⟩ rfl setHead_lock nofun hlock.symm (fun p hp => ?_) ?_ (fun j _ e => ?_) trivial
    fun j hj => h.knows_setHead (h.lock_ne hlock hj)
  · exact ⟨fun e => e.resolve_left hp, .inr⟩
  · exact ⟨fun _ => rfl, fun _ => .inl rfl⟩
  · rw [h.busy_use e] at hfree
    cases hfree

end Inv

/-! ## The programs -/

abbrev Runs {α : Type} (i : ι) (x : KallocM α) (l : Local) (Q : α → Local → Prop) : Prop :=
  Safe (fun i => act i) Inv (fun _ _ => True) (· = .blocked) i x l Q

variable {b : Set Nat}

lemma runs_acquire : Runs i (perform (.acquire k)) ⟨b, .idle⟩ fun _ l => l = ⟨b, .locked k⟩ := by
  refine .perform fun g s hg hl => ?_
  refine wp_bind.2 (wp_get.2 (wp_ite.2 ⟨fun _ => wp_bind.2 (wp_throw.2 rfl), fun hk => wp_set.2 ?_⟩))
  have hb : (g i).busy = b := by rw [hl]
  rw [not_not] at hk
  refine ⟨trivial, _, ?_, rfl⟩
  rw [← hb]
  refine hg.goto (fun j k' => ?_) trivial
  by_cases e : j = i
  · subst e
    rw [update_self]
    by_cases ek : k' = k
    · subst ek
      rw [update_self]
      exact ⟨fun _ => rfl, fun _ => rfl⟩
    · rw [update_of_ne ek, hg.lock j k', hl]
      exact ⟨nofun, fun e => absurd (Option.some.inj e).symm ek⟩
  · rw [update_of_ne e, ← hg.lock]
    by_cases ek : k' = k
    · subst ek
      rw [update_self, hk]
      exact ⟨fun e' => absurd (Option.some.inj e').symm e, nofun⟩
    · rw [update_of_ne ek]

lemma runs_release (hst : st.lock = some k) :
    Runs i (perform (.release k)) ⟨b, st⟩ fun _ l => l = ⟨b, .idle⟩ := by
  refine .perform fun g s hg hl => wp_modify.2 ?_
  have hb : (g i).busy = b := by rw [hl]
  have hlock : (g i).stage.lock = some k := by rwa [hl]
  refine ⟨trivial, _, ?_, rfl⟩
  rw [← hb]
  refine hg.goto (fun j k' => ?_) trivial
  by_cases e : j = i
  · subst e
    rw [update_self]
    by_cases ek : k' = k
    · subst ek
      rw [update_self]
      exact ⟨nofun, nofun⟩
    · rw [update_of_ne ek, hg.lock, hlock]
      exact ⟨fun e => absurd (Option.some.inj e).symm ek, nofun⟩
  · rw [update_of_ne e]
    by_cases ek : k' = k
    · subst ek
      rw [update_self]
      exact ⟨nofun, fun e' => absurd e' (hg.lock_ne hlock e)⟩
    · rw [update_of_ne ek]
      exact hg.lock j k'

lemma runs_getHead :
    Runs i (perform (.getHead k)) ⟨b, .locked k⟩ fun h l => l = ⟨b, .head k h⟩ := by
  refine .perform fun g s hg hl => wp_bind.2 (wp_get.2 (wp_pure.2 ⟨trivial, _, ?_, rfl⟩))
  have hb : (g i).busy = b := by rw [hl]
  rw [← hb]
  exact hg.goto_same (by rw [hl]; rfl) rfl

lemma runs_getNext {h : Nat} (h0 : h ≠ 0) :
    Runs i (perform (.getNext h)) ⟨b, .head k h⟩ fun n l => l = ⟨b, .next k h n⟩ := by
  refine .perform fun g s hg hl => wp_bind.2 (wp_get.2 (wp_pure.2 ⟨trivial, _, ?_, rfl⟩))
  have hb : (g i).busy = b := by rw [hl]
  have hk := hg.knows i
  rw [hl] at hk
  rw [← hb]
  exact hg.goto_same (by rw [hl]; rfl) ⟨hk, h0, rfl⟩

lemma runs_setNext {h : Nat} (hr : r ∈ b) :
    Runs i (perform (.setNext r h)) ⟨b, .head k h⟩ fun _ l => l = ⟨b, .linked k r h⟩ := by
  refine .perform fun g s hg hl => wp_modify.2 ⟨trivial, _, ?_, rfl⟩
  have hb : (g i).busy = b := by rw [hl]
  have hk := hg.knows i
  rw [hl] at hk
  rw [← hb] at hr ⊢
  have hp := hg.busy_page hr
  obtain ⟨l, hlist⟩ := hg.lists
  have hlow : ∀ a, a < r → putLe s.mem r 8 h a = s.mem a := fun a ha => putLe_of_out (.inl ha)
  have hhead : State.head { s with mem := putLe s.mem r 8 h } k = h := (head_same hp.2.1 hlow).trans hk
  have hlt : h < 256 ^ 8 := by
    by_cases e : h = 0
    · rw [e]
      decide
    · subst hk
      exact (hlist.head_page e).lt
  have hw := hg.write (m := putLe s.mem r 8 h) (by rw [hg.busy_use hr]; nofun) hp hlow
    (fun p hm hne => same_putLe (i := 0) hp.1 (by decide) hm hne) fun j hj => by
      obtain rfl := hg.one j i r hj hr
      rw [hl]
      exact hhead
  exact hw.goto_same (by rw [hl]; rfl) ⟨hhead, hr, le_putLe.trans (Nat.mod_eq_of_lt hlt)⟩

lemma runs_link {h : Nat} (hk : Home r k) :
    Runs i (perform (.link k r)) ⟨b, .linked k r h⟩ fun _ l => l = ⟨b \ {r}, .locked k⟩ := by
  refine .perform fun g s hg hl => wp_modify.2 ⟨trivial, _, ?_, rfl⟩
  have hb : (g i).busy = b := by rw [hl]
  rw [← hb]
  exact hg.link (by rw [hl]) hk

lemma runs_unlink {h n : Nat} :
    Runs i (perform (.unlink k h n)) ⟨b, .next k h n⟩ fun _ l => l = ⟨insert h b, .locked k⟩ := by
  refine .perform fun g s hg hl => wp_modify.2 ⟨trivial, _, ?_, rfl⟩
  have hb : (g i).busy = b := by rw [hl]
  rw [← hb]
  exact hg.unlink (by rw [hl])

lemma runs_memset {c : UInt8} (hr : r ∈ b) :
    Runs i (perform (.memset r c PGSIZE)) ⟨b, .idle⟩ fun _ l => l = ⟨b, .idle⟩ := by
  refine .perform fun g s hg hl => wp_modify.2 ⟨trivial, _, ?_, rfl⟩
  have hb : r ∈ (g i).busy := by rwa [hl]
  have hp := hg.busy_page hb
  rw [← hl, update_eq_self]
  refine hg.write (by rw [hg.busy_use hb]; nofun) hp (fun a ha => fill_of_out (.inl ha))
    (fun p hm hne => same_fill hp.1 hm hne) fun j hj => ?_
  obtain rfl := hg.one j i r hj hb
  rw [hl]
  trivial

lemma runs_store {o : Nat} {c : UInt8} :
    Runs i (perform (.store r o c)) ⟨b, .idle⟩ fun _ l => l = ⟨b, .idle⟩ := by
  refine .perform fun g s hg hl => ?_
  refine wp_bind.2 (wp_get.2 (wp_ite.2 ⟨fun _ => wp_bind.2 (wp_throw.2 rfl), fun hk => wp_set.2 ?_⟩))
  obtain ⟨hout, ho⟩ := not_or.1 hk
  rw [not_not] at hout
  have hp : IsPage r := hg.page (by rw [hout]; nofun)
  refine ⟨trivial, _, ?_, rfl⟩
  rw [← hl, update_eq_self]
  refine hg.write (by rw [hout]; nofun) hp (fun a ha => fill_of_out (.inl (by omega))) (fun p hm hne a h1 h2 => ?_)
    fun j hj => ?_
  · have := page_disjoint hm hp.1 hne
    exact fill_of_out (by omega)
  · rw [hg.busy_use hj] at hout
    cases hout

lemma runs_claim : Runs i (perform (.claim r)) ⟨b, .idle⟩ fun _ l => l = ⟨insert r b, .idle⟩ := by
  refine .perform fun g s hg hl => ?_
  refine wp_bind.2 (wp_get.2 (wp_ite.2 ⟨fun _ => wp_bind.2 (wp_throw.2 rfl), fun hk => wp_set.2 ?_⟩))
  rw [not_not] at hk
  refine ⟨trivial, _, ?_, rfl⟩
  have hb : (g i).busy = b := by rw [hl]
  have hp : IsPage r := hg.page (by rw [hk]; nofun)
  rw [← hb]
  refine hg.mark (by rw [hk]; nofun) hp nofun nofun (by rw [hl]) (fun p hp => ?_) ?_ fun j _ e => ?_
  · exact ⟨fun e => e.resolve_left hp, .inr⟩
  · exact ⟨fun _ => rfl, fun _ => .inl rfl⟩
  · rw [hg.busy_use e] at hk
    cases hk

lemma runs_give (hr : r ∈ b) : Runs i (perform (.give r)) ⟨b, .idle⟩ fun _ l => l = ⟨b \ {r}, .idle⟩ := by
  refine .perform fun g s hg hl => wp_modify.2 ⟨trivial, _, ?_, rfl⟩
  have hb : (g i).busy = b := by rw [hl]
  rw [← hb] at hr ⊢
  have hu := hg.busy_use hr
  refine hg.mark (by rw [hu]; nofun) (hg.busy_page hr) nofun nofun (by rw [hl]) (fun p hp => ?_) ?_
    fun j hj e => hj (hg.one j i r e hr)
  · exact ⟨fun e => e.1, fun e => ⟨e, hp⟩⟩
  · exact ⟨fun e => absurd rfl e.2, nofun⟩

lemma runs_push (hr : r ∈ b) (hk : Home r k) : Runs i (push k r) ⟨b, .idle⟩ fun _ l => l = ⟨b \ {r}, .idle⟩ := by
  unfold push
  refine .next runs_acquire fun _ => ?_
  refine .next runs_getHead fun h => ?_
  refine .next (runs_setNext hr) fun _ => ?_
  refine .next (runs_link hk) fun _ => ?_
  exact runs_release rfl

lemma runs_pop : Runs i (pop k) ⟨b, .idle⟩ fun r l => l = ⟨if r = 0 then b else insert r b, .idle⟩ := by
  unfold pop
  refine .next runs_acquire fun _ => ?_
  refine .next runs_getHead fun h => ?_
  refine .ite (fun h0 => ?_) fun h0 => ?_
  · refine .next (runs_getNext h0) fun n => ?_
    refine .next runs_unlink fun _ => ?_
    refine .next (runs_release rfl) fun _ => Safe.ret ?_
    rw [if_neg h0]
  · refine .next (runs_release rfl) fun _ => Safe.ret ?_
    rw [if_pos (not_not.1 h0)]

lemma Runs.page {α : Type} {x : KallocM α} {Q : α → Local → Prop} (hr : r ∈ b)
    (h : IsPage r → Runs i x ⟨b, .idle⟩ Q) : Runs i x ⟨b, .idle⟩ Q := by
  refine .ghost fun g s hg hl => ⟨g i, ?_, ?_⟩
  · rwa [update_eq_self]
  · rw [hl]
    exact h (hg.busy_page (i := i) (by rwa [hl]))

lemma runs_kfree (hr : r ∈ b) : Runs i (kfree r) ⟨b, .idle⟩ fun _ l => l = ⟨b \ {r}, .idle⟩ := by
  refine Runs.page hr fun hp => ?_
  have hc : ¬ (r % PGSIZE ≠ 0 ∨ r < End.kend ∨ PHYSTOP ≤ r) := hp.ok
  unfold kfree
  rw [if_neg hc]
  refine .next (runs_memset hr) fun _ => ?_
  unfold pkfree
  by_cases hh : hartOf r < NCPU
  · rw [dif_pos hh]
    refine .bind (Q := fun own l => own = true ∧ l = ⟨b \ {r}, .idle⟩)
      (Safe.next (runs_push hr (hp.home_some hh)) fun _ => Safe.ret ⟨rfl, rfl⟩) ?_
    rintro _ _ ⟨rfl, rfl⟩
    exact .ret rfl
  · rw [dif_neg hh]
    exact runs_push hr (hp.home_none hh)

lemma runs_kalloc {id : Fin NCPU} :
    Runs i (kalloc id) ⟨b, .idle⟩ fun r l => l = ⟨if r = 0 then b else insert r b, .idle⟩ := by
  unfold kalloc pkalloc
  refine .next runs_pop fun r => ?_
  refine .ite (fun h0 => ?_) fun h0 => ?_
  · rw [if_neg h0]
    refine .next (runs_memset (.inl rfl)) fun _ => Safe.ret ?_
    rw [if_neg h0]
  · rw [if_pos (not_not.1 h0)]
    refine .next runs_pop fun r => ?_
    refine .ite (fun h1 => ?_) fun h1 => Safe.ret rfl
    rw [if_neg h1]
    refine .next (runs_memset (.inl rfl)) fun _ => Safe.ret ?_
    rw [if_neg h1]

lemma runs_call {c : Call} : Runs i (call c) ⟨∅, .idle⟩ fun _ l => l = ⟨∅, .idle⟩ := by
  cases c with
  | kalloc id =>
    refine .next runs_kalloc fun r => Safe.ite (fun h0 => ?_) fun h0 => ?_
    · rw [if_neg h0]
      refine .mono (runs_give (.inl rfl)) ?_
      rintro _ _ rfl
      rw [LawfulSingleton.insert_empty_eq, Set.sdiff_self]
    · rw [if_pos (not_not.1 h0)]
      exact .ret rfl
  | kfree pa =>
    refine .next runs_claim fun _ => ?_
    refine .mono (runs_kfree (.inl rfl)) ?_
    rintro _ _ rfl
    rw [LawfulSingleton.insert_empty_eq, Set.sdiff_self]
  | store pa o c => exact runs_store

/-! ## The theorem -/

/-- What holds of the lists and pages: each list is finite and duplicate-free, the lists and the pages that are
    handed out or inside a call are exactly the pages of memory and no two of them share a page, and each page
    that is free is on the list of its region. No page overlaps the array of lists. -/
structure Allocator (s : State ι) (l : ListId → List Nat) : Prop where
  chain : ∀ k, Chain s.next (s.head k) (l k)
  nodup : ∀ k, (l k).Nodup
  disjoint : ∀ k k', k ≠ k' → (l k).Disjoint (l k')
  exact : ∀ p, ((∃ k, p ∈ l k) ∨ s.use p = .busy ∨ s.use p = .out) ↔ IsPage p
  apart : ∀ k p, p ∈ l k → s.use p ≠ .busy ∧ s.use p ≠ .out
  home : ∀ k p, p ∈ l k → Home p k
  array : ∀ p, IsPage p → End.kend + NCPU * 32 ≤ p

omit [DecidableEq ι] in
lemma Inv.allocator (h : Inv g s) : ∃ l, Allocator s l := by
  obtain ⟨l, hl⟩ := h.lists
  refine ⟨l, hl.chain, hl.nodup, fun k k' hk p h1 h2 => ?_, fun p => ⟨fun hp => ?_, fun hp => ?_⟩, fun k p hp => ?_,
    fun k p hp => ((hl.mem k p).1 hp).2, fun p hp => Nat.le_trans array_le hp.2.1⟩
  · exact hk (((hl.mem k p).1 h1).2.unique ((hl.mem k' p).1 h2).2)
  · refine hl.page p fun e => ?_
    rw [e] at hp
    obtain ⟨k, hk⟩ | hp | hp := hp
    · rw [((hl.mem k p).1 hk).1] at e
      cases e
    · cases hp
    · cases hp
  · have hne := h.pages p hp
    cases e : s.use p with
    | kernel => exact absurd e hne
    | free =>
      obtain ⟨k, hk⟩ := hp.home
      exact .inl ⟨k, (hl.mem k p).2 ⟨e, hk⟩⟩
    | busy => exact .inr (.inl rfl)
    | out => exact .inr (.inr rfl)
  · rw [((hl.mem k p).1 hp).1]
    exact ⟨nofun, nofun⟩

/-- `kinit` returns with every page on its list, and from then on the invariant holds. A thread that is in no call
    holds no page and no lock. -/
lemma exists_inv (boot : ι) (mem : Nat → UInt8) (lock : ListId → Option ι) :
    ∃ s0, kinit.run (act boot) (start mem lock) = .ok ⟨⟩ s0 ∧ Carved PHYSTOP s0 ∧ (∀ k, s0.lock k = none) ∧
      ∀ ms (s : Pool ι Act Stop (State ι) PUnit), exec step (Pool.rest s0) ms = some s →
        s.stopped = none ∧ ∃ g, Inv g s.st ∧ ∀ i, s.thr i = none → g i = ⟨∅, .idle⟩ := by
  obtain ⟨_, s0, h0, hc, hlock⟩ := (kinit_spec (t := boot) mem lock).returns
  refine ⟨s0, h0, hc, hlock, fun ms s h => ?_⟩
  have hfree : ∀ p, s0.use p ≠ .busy := by
    intro p e
    have := hc.free p (by rw [e]; nofun)
    rw [e] at this
    cases this
  have hinv : Inv (fun _ => ⟨∅, .idle⟩) s0 := by
    refine ⟨hc.lists, fun p hp => (hc.done p).2 ⟨hp, ?_⟩, fun p => ?_, nofun, fun i k => ?_, fun _ => trivial⟩
    · have := hp.2.2
      simp only [PGSIZE] at this
      omega
    · exact ⟨fun e => absurd e (hfree p), nofun⟩
    · rw [hlock]
      exact ⟨nofun, nofun⟩
  have hs : Pool.Sound (fun i => act i) Inv (fun _ _ => True) (· = Stop.blocked) (· = ⟨∅, .idle⟩) s ∧
      s.stopped = none := by
    refine Pool.Sound.run_on (fun x e => decide_eq_true e) (fun g st i c p hg hr hp => ?_)
      (Pool.sound_rest hinv fun _ => rfl) rfl h
    cases hp
    refine ⟨g i, by rwa [update_eq_self], ?_⟩
    rw [hr]
    exact runs_call
  obtain ⟨⟨⟨g, hg, hr⟩, _⟩, hs⟩ := hs
  refine ⟨hs, g, hg, fun i hi => ?_⟩
  have hl := hr i
  rw [hi] at hl
  exact hl

/-- `kinit` returns, and from then on the free lists and the pages handed out partition the memory. -/
theorem free_lists_partition (boot : ι) (mem : Nat → UInt8) (lock : ListId → Option ι) :
    ∃ s0, kinit.run (act boot) (start mem lock) = .ok ⟨⟩ s0 ∧
      ∀ ms (s : Pool ι Act Stop (State ι) PUnit), exec step (Pool.rest s0) ms = some s →
        s.stopped = none ∧ (∃ l, Allocator s.st l) ∧
        ((∀ i, s.thr i = none) → ∀ p, s.st.use p ≠ .busy) := by
  obtain ⟨s0, h0, -, -, hrun⟩ := exists_inv boot mem lock
  refine ⟨s0, h0, fun ms s h => ?_⟩
  obtain ⟨hs, g, hg, hidle⟩ := hrun ms s h
  refine ⟨hs, hg.allocator, fun hi p e => ?_⟩
  obtain ⟨i, hp⟩ := (hg.busy p).1 e
  rw [hidle i (hi i)] at hp
  exact hp

@[reducible] def smallKernel : End := ⟨KERNBASE + 0x20000, by decide⟩

omit [End] in
/-- Two threads on the machine with the small kernel. -/
theorem free_lists_partition_two :
    ∃ s0, (@kinit smallKernel).run (@act (Fin 2) smallKernel 0) (start (fun _ => 0) fun _ => none) = .ok ⟨⟩ s0 ∧
      ∀ ms s, exec (@step (Fin 2) _ smallKernel) (Pool.rest s0) ms = some s →
        s.stopped = none ∧ (∃ l, @Allocator (Fin 2) smallKernel s.st l) ∧
        ((∀ i, s.thr i = none) → ∀ p, s.st.use p ≠ .busy) :=
  @free_lists_partition (Fin 2) _ smallKernel 0 (fun _ => 0) fun _ => none

end Xv6n.Kalloc
