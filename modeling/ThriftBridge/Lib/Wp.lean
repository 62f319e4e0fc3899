import Mathlib.Tactic

/-!
# Code that returns or stops

`Wp x s Q E`: started in `s`, the code `x` returns with `Q` or stops with `E`. The rules follow the
code: `Wp.bind` for a sequence, `Wp.ret` for its end, and `Wp.mono` to weaken what is said of both
ends. `Wp.run_ok` and `Wp.run_error` enter a run that is known, `Wp.of_ok` and `Wp.of_error` read a
run off.
-/

set_option autoImplicit false

variable {ε σ α β : Type}

/-- Started in `s`, the code `x` returns with `Q` or stops with `E`. -/
def Wp (x : EStateM ε σ α) (s : σ) (Q : α → σ → Prop) (E : ε → σ → Prop) : Prop :=
  match x s with
  | .ok a t => Q a t
  | .error e t => E e t

namespace Wp

variable {x : EStateM ε σ α} {f : α → EStateM ε σ β} {s t : σ} {a : α} {e : ε}
  {Q Q' : α → σ → Prop} {R : β → σ → Prop} {E E' : ε → σ → Prop}

theorem of_ok (h : Wp x s Q E) (hx : x s = .ok a t) : Q a t := by
  simpa only [Wp, hx] using h

theorem of_error (h : Wp x s Q E) (hx : x s = .error e t) : E e t := by
  simpa only [Wp, hx] using h

theorem run_ok (hx : x s = .ok a t) (h : Q a t) : Wp x s Q E := by
  simpa only [Wp, hx] using h

theorem run_error (hx : x s = .error e t) (h : E e t) : Wp x s Q E := by
  simpa only [Wp, hx] using h

theorem ret (h : Q a s) : Wp (pure a) s Q E := h

/-- **Sequence.** A stop in the first part is one of the whole. -/
theorem bind (h : Wp x s (fun a t => Wp (f a) t R E) E) : Wp (x >>= f) s R E := by
  unfold Wp at h ⊢
  simp only [Bind.bind, EStateM.bind]
  cases hx : x s with
  | ok a t => simpa only [hx] using h
  | error e t => simpa only [hx] using h

/-- **Consequence.** -/
theorem mono (h : Wp x s Q E) (hQ : ∀ a t, Q a t → Q' a t) (hE : ∀ e t, E e t → E' e t) :
    Wp x s Q' E' := by
  unfold Wp at h ⊢
  split at h
  · exact hQ _ _ h
  · exact hE _ _ h

end Wp
