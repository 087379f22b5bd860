import Xv6n.Lib.Wp

/-!
# Programs of atomic actions

A thread's program is a tree: it has returned, or it performs an action and goes on with what the action
returns. `E β` are the actions with result `β`. Between two actions other threads may run, so a program is
what can be interleaved; `run` executes a program alone, action after action, as a stateful program that
can fail.
-/

namespace Xv6n.Lib

/-- Programs over the actions `E` with result `α`. -/
inductive Prog (E : Type → Type) (α : Type) : Type 1 where
  | ret (a : α)
  | act {β : Type} (e : E β) (k : β → Prog E α)

namespace Prog
variable {E : Type → Type} {α β γ : Type} {ε σ : Type}

def bind (p : Prog E α) (f : α → Prog E β) : Prog E β :=
  match p with
  | ret a => f a
  | act e k => act e fun b => (k b).bind f

instance : Monad (Prog E) where
  pure := ret
  bind := bind

def perform (e : E β) : Prog E β := act e ret

/-- Run a program alone; `I` says what each action does. -/
def run (I : {β : Type} → E β → EStateM ε σ β) : Prog E α → EStateM ε σ α
  | ret a => pure a
  | act e k => I e >>= fun b => (k b).run I

variable {I : {β : Type} → E β → EStateM ε σ β} {p : Prog E α} {f : α → Prog E β}
  {Q : β → σ → Prop} {F : ε → σ → Prop} {s : σ}

lemma run_bind : (p >>= f).run I = p.run I >>= fun a => (f a).run I := by
  induction p with
  | ret a => rfl
  | act e k ih =>
    funext s
    show (I e >>= fun b => ((k b).bind f).run I) s = ((I e >>= fun b => (k b).run I) >>= fun a => (f a).run I) s
    simp only [Bind.bind, EStateM.bind]
    cases I e s with
    | ok b s' => exact congrFun (ih b) s'
    | error e s' => rfl

lemma bind_assoc {g : β → Prog E γ} : p >>= f >>= g = p >>= fun a => f a >>= g := by
  induction p with
  | ret a => rfl
  | act e k ih => exact congrArg (act e) (funext ih)

lemma run_perform {e : E β} : (perform e).run I = I e := by
  funext s
  show (I e >>= fun b => pure b) s = I e s
  simp only [Bind.bind, EStateM.bind]
  cases I e s <;> rfl

lemma wp_run_bind :
    wp ((p >>= f).run I) Q F s ↔ wp (p.run I) (fun a s' => wp ((f a).run I) Q F s') F s := by
  rw [run_bind, wp_bind]

end Prog

end Xv6n.Lib
