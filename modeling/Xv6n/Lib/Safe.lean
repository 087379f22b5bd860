import Xv6n.Lib.Prog
import Xv6n.Lib.Update

/-!
# Threads with private knowledge

Threads interleave their actions on a shared state `σ`. Each thread `i` keeps a private record `g i : L` of
what it owns and knows, and `G g s` is the invariant that ties all records to the state. `Safe i p l Q`
says that thread `i`, with record `l`, can run `p` to its end: each of its actions keeps the invariant for
some new record of its own, whatever the other threads have done before it and whatever their records are,
and it ends with `Q` of the result and of the record. The records of other threads never change, so a fact
that follows from `G` and the thread's own record stays true between its actions. Each action also meets the
guarantee `R`, a relation between the states before and after it. An action that stops the thread must do
so with an `ok` error.
-/

namespace Xv6n.Lib
open Function

variable {ι : Type} [DecidableEq ι] {E : Type → Type} {ε σ L : Type} {α β : Type}
  (I : ι → {β : Type} → E β → EStateM ε σ β) (G : (ι → L) → σ → Prop) (R : σ → σ → Prop)
  (ok : ε → Prop) (i : ι)

/-- Thread `i` with record `l` runs `p` safely and ends with `Q`. -/
def Safe : Prog E α → L → (α → L → Prop) → Prop
  | .ret a, l, Q => ∀ g s, G g s → g i = l → ∃ l', G (update g i l') s ∧ Q a l'
  | .act e k, l, Q => ∀ g s, G g s → g i = l →
    wp (I i e) (fun b s' => R s s' ∧ ∃ l', G (update g i l') s' ∧ Safe (k b) l' Q) (fun x _ => ok x) s

namespace Safe
variable {I G R ok i} {p : Prog E α} {l : L} {Q Q' : α → L → Prop}

lemma ret {a : α} (h : Q a l) : Safe I G R ok i (pure a) l Q := by
  rintro g s hg rfl
  exact ⟨g i, by rwa [update_eq_self], h⟩

lemma ghost (h : ∀ g s, G g s → g i = l → ∃ l', G (update g i l') s ∧ Safe I G R ok i p l' Q) :
    Safe I G R ok i p l Q := by
  cases p with
  | ret a =>
    intro g s hg hl
    obtain ⟨l1, h1, h2⟩ := h g s hg hl
    obtain ⟨l2, h3, h4⟩ := h2 _ s h1 (update_self ..)
    exact ⟨l2, by rwa [update_idem] at h3, h4⟩
  | act e k =>
    intro g s hg hl
    obtain ⟨l1, h1, h2⟩ := h g s hg hl
    apply wp_mono (h2 _ s h1 (update_self ..))
    rintro b s' ⟨hr, l2, h3, h4⟩
    exact ⟨hr, l2, by rwa [update_idem] at h3, h4⟩

lemma mono (h : Safe I G R ok i p l Q) (hq : ∀ a l', Q a l' → Q' a l') : Safe I G R ok i p l Q' := by
  induction p generalizing l with
  | ret a =>
    intro g s hg hl
    obtain ⟨l', h1, h2⟩ := h g s hg hl
    exact ⟨l', h1, hq a l' h2⟩
  | act e k ih =>
    intro g s hg hl
    apply wp_mono (h g s hg hl)
    rintro b s' ⟨hr, l', h1, h2⟩
    exact ⟨hr, l', h1, ih b h2⟩

lemma finish (h : Safe I G R ok i p l Q)
    (hq : ∀ a l' g s, Q a l' → G g s → g i = l' → ∃ l'', G (update g i l'') s ∧ Q' a l'') :
    Safe I G R ok i p l Q' := by
  induction p generalizing l with
  | ret a =>
    intro g s hg hl
    obtain ⟨l', h1, h2⟩ := h g s hg hl
    obtain ⟨l'', h3, h4⟩ := hq a l' _ s h2 h1 (update_self ..)
    exact ⟨l'', by rwa [update_idem] at h3, h4⟩
  | act e k ih =>
    intro g s hg hl
    apply wp_mono (h g s hg hl)
    rintro b s' ⟨hr, l', h1, h2⟩
    exact ⟨hr, l', h1, ih b h2⟩

lemma bind {f : α → Prog E β} {T : β → L → Prop} (h : Safe I G R ok i p l Q)
    (hf : ∀ a l', Q a l' → Safe I G R ok i (f a) l' T) : Safe I G R ok i (p >>= f) l T := by
  induction p generalizing l with
  | ret a =>
    refine ghost fun g s hg hl => ?_
    obtain ⟨l', h1, h2⟩ := h g s hg hl
    exact ⟨l', h1, hf a l' h2⟩
  | act e k ih =>
    intro g s hg hl
    apply wp_mono (h g s hg hl)
    rintro b s' ⟨hr, l', h1, h2⟩
    exact ⟨hr, l', h1, ih b h2⟩

lemma next {f : α → Prog E β} {m : α → L} {T : β → L → Prop} (h : Safe I G R ok i p l fun a l' => l' = m a)
    (hf : ∀ a, Safe I G R ok i (f a) (m a) T) : Safe I G R ok i (p >>= f) l T := by
  refine h.bind ?_
  rintro a _ rfl
  exact hf a

lemma perform {e : E α}
    (h : ∀ g s, G g s → g i = l →
      wp (I i e) (fun b s' => R s s' ∧ ∃ l', G (update g i l') s' ∧ Q b l') (fun x _ => ok x) s) :
    Safe I G R ok i (Prog.perform e) l Q := by
  intro g s hg hl
  apply wp_mono (h g s hg hl)
  rintro b s' ⟨hr, l', h1, h2⟩
  exact ⟨hr, l', h1, ret h2⟩

lemma ite {c : Prop} [Decidable c] {q : Prog E α} (hp : c → Safe I G R ok i p l Q)
    (hq : ¬ c → Safe I G R ok i q l Q) : Safe I G R ok i (if c then p else q) l Q := by
  by_cases hc : c
  · rw [if_pos hc]
    exact hp hc
  · rw [if_neg hc]
    exact hq hc

end Safe

end Xv6n.Lib
