import Xv6n.Lib.Prog

/-!
# Programs on described states

`A k s` says that `k` describes the state `s`. `Tracks p k Q` says that the program `p`, run alone from any
state that `k` describes, returns with `Q` of its result and of a description of the state it ends in; it
stops only with an error in `F`. So a program on states is verified as one on descriptions. `Gives` is the
case of a program whose result and last description are determined.
-/

namespace Xv6n.Lib

variable {E : Type → Type} {ε σ α β : Type} {κ : Type} (I : {β : Type} → E β → EStateM ε σ β)
  (A : κ → σ → Prop) (F : ε → Prop)

/-- From a state that `k` describes, `p` returns with `Q`. -/
def Tracks (p : Prog E α) (k : κ) (Q : α → κ → Prop) : Prop :=
  ∀ s, A k s → wp (p.run I) (fun a s' => ∃ k', Q a k' ∧ A k' s') (fun e _ => F e) s

/-- From a state that `k` describes, `p` returns `a` in one that `k'` describes. -/
abbrev Gives (p : Prog E α) (k : κ) (a : α) (k' : κ) : Prop :=
  Tracks I A F p k fun b l => b = a ∧ l = k'

namespace Tracks
variable {I A F} {p : Prog E α} {f : α → Prog E β} {k k' : κ} {a : α} {Q Q' : α → κ → Prop} {R : β → κ → Prop}

lemma ret (hq : Q a k) : Tracks I A F (pure a) k Q := fun _ hs => wp_pure.2 ⟨k, hq, hs⟩

lemma mono (hp : Tracks I A F p k Q) (hq : ∀ a k', Q a k' → Q' a k') : Tracks I A F p k Q' := by
  intro s hs
  apply wp_mono (hp s hs)
  rintro a s' ⟨k', h1, h2⟩
  exact ⟨k', hq a k' h1, h2⟩

lemma bind (hp : Tracks I A F p k Q) (hf : ∀ a k', Q a k' → Tracks I A F (f a) k' R) :
    Tracks I A F (p >>= f) k R := by
  intro s hs
  rw [Prog.wp_run_bind]
  apply wp_mono (hp s hs)
  rintro a s' ⟨k', hq, hs'⟩
  exact hf a k' hq s' hs'

lemma next (hp : Gives I A F p k a k') (hf : Tracks I A F (f a) k' R) : Tracks I A F (p >>= f) k R := by
  refine hp.bind ?_
  rintro _ _ ⟨rfl, rfl⟩
  exact hf

lemma follow {m : α → κ} (hp : Tracks I A F p k fun a l => l = m a) (hf : ∀ a, Tracks I A F (f a) (m a) R) :
    Tracks I A F (p >>= f) k R := by
  refine hp.bind ?_
  rintro a _ rfl
  exact hf a

lemma perform {e : E α} (he : ∀ s, A k s → wp (I e) (fun a s' => ∃ k', Q a k' ∧ A k' s') (fun x _ => F x) s) :
    Tracks I A F (Prog.perform e) k Q := by
  intro s hs
  rw [Prog.run_perform]
  exact he s hs

lemma ite {c : Prop} [Decidable c] {q : Prog E α} (hp : c → Tracks I A F p k Q)
    (hq : ¬ c → Tracks I A F q k Q) : Tracks I A F (if c then p else q) k Q := by
  by_cases hc : c
  · rw [if_pos hc]
    exact hp hc
  · rw [if_neg hc]
    exact hq hc

end Tracks

end Xv6n.Lib
