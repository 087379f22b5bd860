import Mathlib.Algebra.GroupWithZero.Nat
import Mathlib.Data.List.Basic

/-!
# Runs of partial step functions

A deterministic system is given by a step function `step : σ → α → Option σ` that says what an action
does, or that it is not enabled. `exec step s as` runs a whole list of actions. The induction over a
run is packaged once in `exec_invariant`.
-/

namespace Xv6n.Lib

universe u v
variable {σ : Type u} {α : Type v} {step : σ → α → Option σ}

/-- Threads of small runs are taken from `Fin 2`. -/
instance neZero_two : NeZero 2 := ⟨by decide⟩

/-- Run a list of actions one after the other; `none` if one of them is not enabled. -/
def exec (step : σ → α → Option σ) : σ → List α → Option σ
  | s, [] => some s
  | s, a :: as => (step s a).bind (exec step · as)

@[simp] lemma exec_nil {s : σ} : exec step s [] = some s := rfl

lemma exec_cons {s s'' : σ} {a as} :
    exec step s (a :: as) = some s'' ↔ ∃ s', step s a = some s' ∧ exec step s' as = some s'' := by
  simp only [exec, Option.bind_eq_some_iff]

lemma exec_append {s s'' : σ} {as bs} :
    exec step s (as ++ bs) = some s'' ↔
      ∃ s', exec step s as = some s' ∧ exec step s' bs = some s'' := by
  induction as generalizing s with
  | nil => simp
  | cons a as ih =>
    simp only [List.cons_append, exec_cons, ih]
    constructor
    · rintro ⟨s1, h1, s2, h2, h3⟩
      exact ⟨s2, ⟨s1, h1, h2⟩, h3⟩
    · rintro ⟨s2, ⟨s1, h1, h2⟩, h3⟩
      exact ⟨s1, h1, s2, h2, h3⟩

lemma exec_snoc {s s'' : σ} {as a} :
    exec step s (as ++ [a]) = some s'' ↔ ∃ s', exec step s as = some s' ∧ step s' a = some s'' := by
  simp only [exec_append, exec_cons, exec_nil, Option.some.injEq, exists_eq_right]

/-- What every step preserves holds at the end of every run. -/
theorem exec_invariant {I : σ → Prop} (hstep : ∀ {s a s'}, I s → step s a = some s' → I s')
    {s s' : σ} {as} (hs : I s) (h : exec step s as = some s') : I s' := by
  induction as generalizing s with
  | nil =>
    cases h
    exact hs
  | cons a as ih =>
    obtain ⟨s1, h1, h2⟩ := exec_cons.1 h
    exact ih (hstep hs h1) h2

/-- Every action of a run meets a condition on the state in which it is taken. -/
def Along (step : σ → α → Option σ) (P : σ → α → Prop) : σ → List α → Prop
  | _, [] => True
  | s, a :: as => P s a ∧ ∀ s', step s a = some s' → Along step P s' as

lemma along_cons {P : σ → α → Prop} {s s' : σ} {a as} (h : step s a = some s') :
    Along step P s (a :: as) ↔ P s a ∧ Along step P s' as := by
  refine and_congr_right fun _ => ⟨fun h1 => h1 s' h, fun h1 t ht => ?_⟩
  rw [h, Option.some_inj] at ht
  exact ht ▸ h1

lemma along_of_mem {P : σ → α → Prop} {s : σ} {as} (h : ∀ a ∈ as, ∀ s, P s a) :
    Along step P s as := by
  induction as generalizing s with
  | nil => trivial
  | cons a as ih =>
    exact ⟨h a List.mem_cons_self s, fun s' _ => ih fun b hb => h b (List.mem_cons_of_mem a hb)⟩

/-- What every step that meets a condition preserves holds at the end of every run along which all
    steps meet it. -/
theorem Along.invariant {P : σ → α → Prop} {I : σ → Prop}
    (hstep : ∀ {s a s'}, I s → P s a → step s a = some s' → I s') {s s' : σ} {as} (hs : I s)
    (hP : Along step P s as) (h : exec step s as = some s') : I s' := by
  induction as generalizing s with
  | nil =>
    cases h
    exact hs
  | cons a as ih =>
    obtain ⟨s1, h1, h2⟩ := exec_cons.1 h
    exact ih (hstep hs hP.1 h1) (hP.2 s1 h1) h2

end Xv6n.Lib
