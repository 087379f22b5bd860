import Mathlib.Logic.Function.Basic

/-!
# Functions changed at one place
-/

namespace Xv6n.Lib
open Function

variable {α β κ : Type*} [DecidableEq α] {f : α → β} {a b : α} {x y : β}

lemma of_update_proj (g : β → κ) {y : κ} (h : g (update f a x b) = y) (hne : g x ≠ y) : b ≠ a ∧ g (f b) = y := by
  have hb : b ≠ a := by
    rintro rfl
    rw [update_self] at h
    exact hne h
  rw [update_of_ne hb] at h
  exact ⟨hb, h⟩

lemma of_update (h : update f a x b = y) (hne : x ≠ y) : b ≠ a ∧ f b = y := of_update_proj id h hne

lemma update_proj {g : β → κ} (h : g x = g (f a)) : (fun b => g (update f a x b)) = fun b => g (f b) := by
  funext b
  by_cases hb : b = a
  · subst hb
    rw [update_self, h]
  · rw [update_of_ne hb]

lemma update_field {g : β → κ} : (fun b => g (update f a x b)) = update (fun b => g (f b)) a (g x) := by
  funext b
  by_cases hb : b = a
  · subst hb
    rw [update_self, update_self]
  · rw [update_of_ne hb, update_of_ne hb]

end Xv6n.Lib
