import Mathlib.Tactic.Lemma

/-!
# Weakest preconditions for stateful, fallible programs

Programs are `EStateM ε σ α`: they read and change a state `σ` and return a value or stop with an
error, and the state at the moment of the error is kept. `wp x Q E s` says that `x` started in `s`
either returns with `Q` or stops with `E`. The rules below take a program apart at its binds; a
called function is replaced by its specification with `wp_conseq`.
-/

namespace Xv6n.Lib

universe u
variable {ε σ α β : Type u}

/-- `x`, started in `s`, returns with `Q` or stops with `E`. -/
def wp (x : EStateM ε σ α) (Q : α → σ → Prop) (E : ε → σ → Prop) (s : σ) : Prop :=
  match x s with
  | .ok a s' => Q a s'
  | .error e s' => E e s'

variable {Q Q' : α → σ → Prop} {R : β → σ → Prop} {E E' : ε → σ → Prop} {s : σ} {x : EStateM ε σ α}

lemma wp_def :
    wp x Q E s ↔ (∀ a s', x s = .ok a s' → Q a s') ∧ (∀ e s', x s = .error e s' → E e s') := by
  unfold wp
  split
  · rename_i h
    constructor
    · intro q
      exact ⟨fun a s' e => by cases h.symm.trans e; exact q, fun e s' e' => by cases h.symm.trans e'⟩
    · intro q
      exact q.1 _ _ h
  · rename_i h
    constructor
    · intro q
      exact ⟨fun a s' e => (by cases h.symm.trans e), fun e s' e' => by cases h.symm.trans e'; exact q⟩
    · intro q
      exact q.2 _ _ h

@[simp] lemma wp_pure {a : α} : wp (pure a : EStateM ε σ α) Q E s ↔ Q a s := Iff.rfl

lemma wp_bind {f : α → EStateM ε σ β} :
    wp (x >>= f) R E s ↔ wp x (fun a s' => wp (f a) R E s') E s := by
  simp only [wp, bind, EStateM.bind]
  cases x s <;> rfl

@[simp] lemma wp_get {Q : σ → σ → Prop} : wp (get : EStateM ε σ σ) Q E s ↔ Q s s := Iff.rfl

@[simp] lemma wp_set {Q : PUnit → σ → Prop} {s' : σ} :
    wp (set s' : EStateM ε σ PUnit) Q E s ↔ Q ⟨⟩ s' := Iff.rfl

@[simp] lemma wp_modify {Q : PUnit → σ → Prop} {f : σ → σ} :
    wp (modify f : EStateM ε σ PUnit) Q E s ↔ Q ⟨⟩ (f s) := Iff.rfl

@[simp] lemma wp_throw {e : ε} : wp (throw e : EStateM ε σ α) Q E s ↔ E e s := Iff.rfl

lemma wp_conseq (h : wp x Q E s) (hq : ∀ a s', Q a s' → Q' a s')
    (he : ∀ e s', E e s' → E' e s') : wp x Q' E' s := by
  unfold wp at h ⊢
  split
  · rename_i h'
    rw [h'] at h
    exact hq _ _ h
  · rename_i h'
    rw [h'] at h
    exact he _ _ h

lemma wp_mono (h : wp x Q E s) (hq : ∀ a s', Q a s' → Q' a s') : wp x Q' E s :=
  wp_conseq h hq fun _ _ h => h

lemma wp_and (h : wp x Q E s) (h' : wp x Q' E' s) :
    wp x (fun a s' => Q a s' ∧ Q' a s') (fun e s' => E e s' ∧ E' e s') s := by
  rw [wp_def] at h h' ⊢
  exact ⟨fun a s' e => ⟨h.1 a s' e, h'.1 a s' e⟩, fun a s' e => ⟨h.2 a s' e, h'.2 a s' e⟩⟩

lemma wp_trivial (x : EStateM ε σ α) (s : σ) : wp x (fun _ _ => True) (fun _ _ => True) s :=
  wp_def.2 ⟨fun _ _ _ => trivial, fun _ _ _ => trivial⟩

lemma wp_run {a : α} {s' : σ} (h : x s = .ok a s') : wp x Q E s ↔ Q a s' := by
  unfold wp
  rw [h]

lemma wp_self (x : EStateM ε σ α) (s : σ) :
    wp x (fun a s' => x s = .ok a s') (fun e s' => x s = .error e s') s :=
  wp_def.2 ⟨fun _ _ h => h, fun _ _ h => h⟩

lemma wp_forall {ι : Type} {Q : ι → α → σ → Prop}
    (h : ∀ i, wp x (Q i) (fun _ _ => True) s) : wp x (fun a s' => ∀ i, Q i a s') (fun _ _ => True) s :=
  wp_def.2 ⟨fun a s' e i => (wp_def.1 (h i)).1 a s' e, fun _ _ _ => trivial⟩

lemma wp_imp {p : Prop} (h : p → wp x Q (fun _ _ => True) s) :
    wp x (fun a s' => p → Q a s') (fun _ _ => True) s :=
  wp_def.2 ⟨fun a s' e hp => (wp_def.1 (h hp)).1 a s' e, fun _ _ _ => trivial⟩

lemma wp_ite {c : Prop} [Decidable c] {x y : EStateM ε σ α} :
    wp (if c then x else y) Q E s ↔ (c → wp x Q E s) ∧ (¬ c → wp y Q E s) := by
  by_cases h : c
  · simp [h]
  · simp [h]

lemma wp_when {c : Prop} [Decidable c] {x : EStateM ε σ PUnit} {k : EStateM ε σ β} {I : σ → Prop}
    (hx : c → wp x (fun _ => I) E s) (hn : ¬ c → I s) (hk : ∀ s', I s' → wp k R E s') :
    wp (if c then x >>= fun _ => k else k) R E s := by
  rw [wp_ite]
  refine ⟨fun h => ?_, fun h => hk s (hn h)⟩
  rw [wp_bind]
  exact wp_conseq (hx h) (fun _ => hk) fun _ _ e => e

def returns (x : EStateM ε σ α) (s : σ) : Bool :=
  match x s with
  | .ok _ _ => true
  | .error _ _ => false

lemma exists_of_returns (h : returns x s = true) : ∃ a s', x s = .ok a s' := by
  unfold returns at h
  cases hx : x s with
  | ok a s' => exact ⟨a, s', rfl⟩
  | error e s' =>
    rw [hx] at h
    cases h


lemma wp.returns (h : wp x Q (fun _ _ => False) s) : ∃ a s', x s = .ok a s' ∧ Q a s' := by
  rw [wp_def] at h
  cases e : x s with
  | ok a s' => exact ⟨a, s', rfl, h.1 a s' e⟩
  | error p s' => exact (h.2 p s' e).elim

-- `wp` is taken apart by the rules above and never by running the program
attribute [irreducible] wp

lemma val_of_finRange {n k : Nat} {i : Fin n} (h : (List.finRange n)[k]? = some i) : (i : Nat) = k := by
  obtain ⟨_, rfl⟩ := List.getElem?_eq_some_iff.1 h
  rw [List.getElem_finRange]
  rfl

lemma wp_forIn {l : List β} {f : β → PUnit → EStateM ε σ (ForInStep PUnit)} {I : Nat → σ → Prop}
    {s : σ} (hs : I 0 s)
    (hf : ∀ k b s, l[k]? = some b → I k s →
      wp (f b ⟨⟩) (fun r s' => r = .yield ⟨⟩ ∧ I (k + 1) s') E s) :
    wp (forIn l PUnit.unit f) (fun _ s' => I l.length s') E s := by
  induction l generalizing s I with
  | nil =>
    rw [List.forIn_nil, wp_pure]
    exact hs
  | cons b l ih =>
    rw [List.forIn_cons, wp_bind]
    apply wp_mono (hf 0 b s rfl hs)
    rintro _ s' ⟨rfl, h⟩
    exact ih (I := fun k => I (k + 1)) h fun k b' s'' hb hI => hf (k + 1) b' s'' hb hI

end Xv6n.Lib
