import Mathlib.Tactic

/-!
# Programs over operations

`Program ε Op Ans α`: code that calls operations `op : Op`, each time going on as it likes with the
answer in `Ans op` or with the exception that was raised. It is run by a handler, which says what
the operations do to a state; one program can be run by several handlers.

* `exec`, `exec_bind`, `exec_attempt`: runs, and how they follow the code;
* `exec_bind_eq_ok`: when a run of a sequence returns;
* `exec_sim`: handlers that are related run every program to related ends.
-/

set_option autoImplicit false

/-- Code over the operations `Op`. It returns, raises, or calls an operation. -/
inductive Program (ε Op : Type) (Ans : Op → Type) (α : Type) : Type
  | ret (a : α)
  | raise (e : ε)
  | call (op : Op) (k : Except ε (Ans op) → Program ε Op Ans α)

namespace Program

variable {ε Op S T α β : Type} {Ans : Op → Type}

/-- Sequence. -/
def bind : Program ε Op Ans α → (α → Program ε Op Ans β) → Program ε Op Ans β
  | ret a, f => f a
  | raise e, _ => raise e
  | call op k, f => call op fun r => (k r).bind f

instance : Monad (Program ε Op Ans) where
  pure := ret
  bind := bind

/-- A call of one operation. -/
def perform (op : Op) : Program ε Op Ans (Ans op) :=
  call op fun
    | .ok a => ret a
    | .error e => raise e

/-- `p`, with its exception as a value. -/
def attempt : Program ε Op Ans α → Program ε Op Ans (Except ε α)
  | ret a => ret (.ok a)
  | raise e => ret (.error e)
  | call op k => call op fun r => (k r).attempt

/-- What an attempt has caught is raised again. -/
def reraise : Except ε α → Program ε Op Ans α
  | .ok a => ret a
  | .error e => raise e

/-- `last` is run after `p`, also when `p` raises. -/
def always (p : Program ε Op Ans α) (last : Program ε Op Ans Unit) : Program ε Op Ans α := do
  let r ← p.attempt
  last
  reraise r

/-! ## Runs -/

/-- The run of a program by a handler. -/
def exec (h : ∀ op, EStateM ε S (Ans op)) : Program ε Op Ans α → EStateM ε S α
  | ret a, s => .ok a s
  | raise e, s => .error e s
  | call op k, s =>
    match h op s with
    | .ok a t => (k (.ok a)).exec h t
    | .error e t => (k (.error e)).exec h t

section Run

variable {h : ∀ op, EStateM ε S (Ans op)} {p : Program ε Op Ans α} {f : α → Program ε Op Ans β}
  {s t : S} {a : α} {b : β} {e : ε}

@[simp] theorem exec_pure : exec h (pure a) s = .ok a s := rfl

@[simp] theorem exec_ret : exec h (ret a) s = .ok a s := rfl

@[simp] theorem exec_raise : exec h (raise e : Program ε Op Ans α) s = .error e s := rfl

@[simp] theorem exec_perform (op : Op) : exec h (perform op) s = h op s := by
  simp only [perform, exec]
  cases h op s <;> rfl

/-- **A run of a sequence** is a run of its first part and one of its second part. -/
theorem exec_bind : exec h (p >>= f) s =
    match exec h p s with
    | .ok a t => exec h (f a) t
    | .error e t => .error e t := by
  show exec h (p.bind f) s = _
  induction p generalizing s with
  | ret a => rfl
  | raise e => rfl
  | call op k ih =>
      simp only [bind, exec]
      cases h op s with
      | ok a t => exact ih _
      | error e t => exact ih _

theorem exec_bind_of_ok (hp : exec h p s = .ok a t) : exec h (p >>= f) s = exec h (f a) t := by
  rw [exec_bind, hp]

/-- **A sequence returns** when both parts do. -/
theorem exec_bind_eq_ok : exec h (p >>= f) s = .ok b t ↔
    ∃ a u, exec h p s = .ok a u ∧ exec h (f a) u = .ok b t := by
  rw [exec_bind]
  cases exec h p s with
  | ok a u => simp
  | error e u => simp

theorem exec_attempt : exec h p.attempt s =
    match exec h p s with
    | .ok a t => .ok (.ok a) t
    | .error e t => .ok (.error e) t := by
  induction p generalizing s with
  | ret a => rfl
  | raise e => rfl
  | call op k ih =>
      simp only [attempt, exec]
      cases h op s with
      | ok a t => exact ih _
      | error e t => exact ih _

/-- **A last step that cannot fail** is run at both ends. -/
theorem exec_always {last : Program ε Op Ans Unit} {g : S → S}
    (hl : ∀ s, exec h last s = .ok () (g s)) : exec h (p.always last) s =
      match exec h p s with
      | .ok a t => .ok a (g t)
      | .error e t => .error e (g t) := by
  simp only [always, exec_bind, exec_attempt]
  cases exec h p s with
  | ok a t => simp only [hl, reraise, exec_ret]
  | error e t => simp only [hl, reraise, exec_raise]

end Run

/-! ## Two handlers -/

/-- Two runs end alike: they return the same value or raise the same exception, in states that are
related. -/
def SameEnd (R : S → T → Prop) : EStateM.Result ε S α → EStateM.Result ε T α → Prop
  | .ok a s, .ok b t => a = b ∧ R s t
  | .error e s, .error f t => e = f ∧ R s t
  | _, _ => False

/-- **Simulation.** Handlers whose operations end alike from related states run every program alike
from related states. -/
theorem exec_sim {h : ∀ op, EStateM ε S (Ans op)} {g : ∀ op, EStateM ε T (Ans op)}
    {R : S → T → Prop} (hop : ∀ op s t, R s t → SameEnd R (h op s) (g op t))
    (p : Program ε Op Ans α) {s : S} {t : T} (hR : R s t) :
    SameEnd R (exec h p s) (exec g p t) := by
  induction p generalizing s t with
  | ret a => exact ⟨rfl, hR⟩
  | raise e => exact ⟨rfl, hR⟩
  | call op k ih =>
      have hsame := hop op s t hR
      simp only [exec]
      cases hs : h op s with
      | ok a u =>
          cases ht : g op t with
          | ok b v =>
              rw [hs, ht] at hsame
              obtain ⟨rfl, hR'⟩ := hsame
              exact ih _ hR'
          | error f v =>
              rw [hs, ht] at hsame
              exact hsame.elim
      | error e u =>
          cases ht : g op t with
          | ok b v =>
              rw [hs, ht] at hsame
              exact hsame.elim
          | error f v =>
              rw [hs, ht] at hsame
              obtain ⟨rfl, hR'⟩ := hsame
              exact ih _ hR'

/-- The state in which a run ends. -/
def endState : EStateM.Result ε S α → S
  | .ok _ t => t
  | .error _ t => t

/-- Two ends that are alike, with a fact about the first state. -/
theorem SameEnd.and {R : S → T → Prop} {P : S → Prop} {x : EStateM.Result ε S α}
    {y : EStateM.Result ε T α} (h : SameEnd R x y) (hP : P (endState x)) :
    SameEnd (fun s t => P s ∧ R s t) x y := by
  cases x <;> cases y
  · exact ⟨h.1, hP, h.2⟩
  · exact h
  · exact h
  · exact ⟨h.1, hP, h.2⟩

end Program
