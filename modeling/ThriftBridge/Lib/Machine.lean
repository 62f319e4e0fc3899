import Mathlib.Tactic

/-!
# Machines, runs and simulations

A machine answers an input with an output and a next state, or refuses it. `Runs M s ms t` is a
run of `M` from `s` to `t`, as the list of its moves; every theorem about runs is an induction on
that list.

* `exec`, `Runs.of_exec`: runs by computation;
* `Runs.invariant`, `Runs.invariant_of`: invariant rules, the second one for runs whose moves all
  meet a side condition;
* `Runs.forall_iff`, `Runs.forall_iff_of`: a property of moves that is equivalent to a side condition
  under an invariant which the side condition preserves;
* `Always`, `Runs.always`, `Runs.always_iff`: invariants, and equivalences, for properties that
  depend on the outputs so far, through a history;
* `Accepts`, `Runs.accepts`: an acceptor of output lists, and the forward simulation rule.
-/

set_option autoImplicit false

/-- A machine with states `S`, inputs `I` and outputs `O`. -/
structure Machine (S I O : Type) where
  step : S → I → Option (S × O)

/-- One move of a run. -/
structure Machine.Move (S I O : Type) where
  pre : S
  input : I
  output : O
  post : S

namespace Machine

variable {S I O : Type}

/-- The runs of a machine. -/
inductive Runs (M : Machine S I O) : S → List (Move S I O) → S → Prop
  | nil (s : S) : Runs M s [] s
  | cons {s t u : S} {i : I} {o : O} {ms : List (Move S I O)}
      (hstep : M.step s i = some (t, o)) (hrest : Runs M t ms u) :
      Runs M s (⟨s, i, o, t⟩ :: ms) u

/-- The run on a list of inputs, if no input is refused. -/
def exec (M : Machine S I O) : S → List I → Option (S × List (Move S I O))
  | s, [] => some (s, [])
  | s, i :: is =>
    match M.step s i with
    | none => none
    | some (t, o) =>
      match exec M t is with
      | none => none
      | some (u, ms) => some (u, ⟨s, i, o, t⟩ :: ms)

/-- The outputs on a list of inputs, if no input is refused and all of them meet `C`. -/
def outputs (M : Machine S I O) (C : S → I → Bool) (s : S) (is : List I) : Option (List O) :=
  match M.exec s is with
  | none => none
  | some (_, ms) => if ms.all fun m => C m.pre m.input then some (ms.map Move.output) else none

variable {M : Machine S I O} {s t : S} {ms : List (Move S I O)}

namespace Runs

theorem of_exec {is : List I} (h : M.exec s is = some (t, ms)) : M.Runs s ms t := by
  induction is generalizing s ms with
  | nil => cases h; exact .nil _
  | cons i is ih =>
      simp only [exec] at h
      split at h
      · cases h
      · next u o hu =>
        split at h
        · cases h
        · next v ns hv => cases h; exact .cons hu (ih hv)

theorem inputs_of_exec {is : List I} (h : M.exec s is = some (t, ms)) :
    ms.map Move.input = is := by
  induction is generalizing s ms with
  | nil => cases h; rfl
  | cons i is ih =>
      simp only [exec] at h
      split at h
      · cases h
      · next u o hu =>
        split at h
        · cases h
        · next v ns hv =>
          cases h
          rw [List.map_cons, ih hv]

/-- A computation is a run on its inputs, and its end can be computed. -/
theorem exists_of_result {α : Type*} (M : Machine S I O) (s : S) (is : List I)
    (f : S × List (Move S I O) → α) {a : α} (h : (M.exec s is).map f = some a) :
    ∃ t ms, M.Runs s ms t ∧ ms.map Move.input = is ∧ f (t, ms) = a := by
  obtain ⟨⟨t, ms⟩, hx, hf⟩ := Option.map_eq_some_iff.mp h
  exact ⟨t, ms, of_exec hx, inputs_of_exec hx, hf⟩

/-- A computation is a run on its inputs, and it can be tested. -/
theorem exists_of_inputs (M : Machine S I O) (s : S) (is : List I)
    (good : S × List (Move S I O) → Bool)
    (h : (M.exec s is).map good = some true) :
    ∃ t ms, M.Runs s ms t ∧ ms.map Move.input = is ∧ good (t, ms) = true :=
  exists_of_result M s is good h

/-- Every list of outputs that a computation gives is the list of outputs of a run. -/
theorem exists_of_outputs (M : Machine S I O) (C : S → I → Bool) (s : S) (is : List I)
    {os : List O} (h : M.outputs C s is = some os) :
    ∃ t ms, M.Runs s ms t ∧ (∀ m ∈ ms, C m.pre m.input = true) ∧ ms.map Move.output = os := by
  unfold outputs at h
  split at h
  · cases h
  · next t ms hx =>
    split_ifs at h with hC
    cases h
    exact ⟨t, ms, of_exec hx, List.all_eq_true.mp hC, rfl⟩

/-- A run of two parts is two runs. -/
theorem exists_of_append {ns ks : List (Move S I O)} (h : M.Runs s (ns ++ ks) t) :
    ∃ u, M.Runs s ns u ∧ M.Runs u ks t := by
  induction ns generalizing s with
  | nil => exact ⟨s, .nil s, h⟩
  | cons n ns ih =>
      cases h with
      | cons hstep hrest =>
          obtain ⟨u, h1, h2⟩ := ih hrest
          exact ⟨u, .cons hstep h1, h2⟩

/-- The parts of a run around one of its moves. -/
theorem of_append_cons {ns ks : List (Move S I O)} {m : Move S I O}
    (h : M.Runs s (ns ++ m :: ks) t) :
    M.Runs s ns m.pre ∧ M.step m.pre m.input = some (m.post, m.output) ∧ M.Runs m.post ks t := by
  obtain ⟨u, h1, h2⟩ := h.exists_of_append
  cases h2 with
  | cons hstep hrest => exact ⟨h1, hstep, hrest⟩

/-- A run splits at each of its moves. -/
theorem exists_prefix (h : M.Runs s ms t) {m : Move S I O} (hm : m ∈ ms) :
    ∃ ns ks, ms = ns ++ m :: ks ∧ M.Runs s ns m.pre ∧
      M.step m.pre m.input = some (m.post, m.output) ∧ M.Runs m.post ks t := by
  obtain ⟨ns, ks, rfl⟩ := List.append_of_mem hm
  exact ⟨ns, ks, rfl, h.of_append_cons⟩

/-- **Invariant rule**, for runs whose moves all meet `C`. -/
theorem invariant_of (Inv : S → Prop) (C : S → I → Prop)
    (hstep : ∀ s i o t, Inv s → C s i → M.step s i = some (t, o) → Inv t)
    (h : M.Runs s ms t) (h0 : Inv s) (hC : ∀ m ∈ ms, C m.pre m.input) :
    Inv t ∧ ∀ m ∈ ms, Inv m.pre ∧ Inv m.post := by
  induction h with
  | nil => exact ⟨h0, fun m hm => by cases hm⟩
  | @cons s u v i o ms hs _ ih =>
      have hu : Inv u := hstep s i o u h0 (hC _ List.mem_cons_self) hs
      obtain ⟨h1, h2⟩ := ih hu fun m hm => hC m (List.mem_cons_of_mem _ hm)
      refine ⟨h1, fun m hm => ?_⟩
      rcases List.mem_cons.mp hm with rfl | hm
      · exact ⟨h0, hu⟩
      · exact h2 m hm

/-- **Invariant rule.** -/
theorem invariant (Inv : S → Prop)
    (hstep : ∀ s i o t, Inv s → M.step s i = some (t, o) → Inv t)
    (h : M.Runs s ms t) (h0 : Inv s) : Inv t ∧ ∀ m ∈ ms, Inv m.pre ∧ Inv m.post :=
  invariant_of Inv (fun _ _ => True) (fun s i o t hI _ hs => hstep s i o t hI hs) h h0
    fun _ _ => trivial

/-- **Equivalence rule**, for runs whose moves all meet `E`. If, under an invariant, a move has `P`
exactly when its input meets `C`, and inputs that meet `C` preserve the invariant, then all moves of
a run have `P` exactly when all its inputs meet `C`. -/
theorem forall_iff_of (Inv : S → Prop) (E C : S → I → Prop) (P : Move S I O → Prop)
    (hP : ∀ s i o t, Inv s → E s i → M.step s i = some (t, o) → (P ⟨s, i, o, t⟩ ↔ C s i))
    (hstep : ∀ s i o t, Inv s → E s i → C s i → M.step s i = some (t, o) → Inv t)
    (h : M.Runs s ms t) (h0 : Inv s) (hE : ∀ m ∈ ms, E m.pre m.input) :
    (∀ m ∈ ms, P m) ↔ ∀ m ∈ ms, C m.pre m.input := by
  induction h with
  | nil => simp
  | @cons s u v i o ms hs _ ih =>
      have he := hE _ List.mem_cons_self
      simp only [List.forall_mem_cons, hP s i o u h0 he hs]
      refine and_congr_right fun hC => ?_
      exact ih (hstep s i o u h0 he hC hs) fun m hm => hE m (List.mem_cons_of_mem _ hm)

/-- **Equivalence rule.** -/
theorem forall_iff (Inv : S → Prop) (C : S → I → Prop) (P : Move S I O → Prop)
    (hP : ∀ s i o t, Inv s → M.step s i = some (t, o) → (P ⟨s, i, o, t⟩ ↔ C s i))
    (hstep : ∀ s i o t, Inv s → C s i → M.step s i = some (t, o) → Inv t)
    (h : M.Runs s ms t) (h0 : Inv s) :
    (∀ m ∈ ms, P m) ↔ ∀ m ∈ ms, C m.pre m.input :=
  forall_iff_of Inv (fun _ _ => True) C P (fun s i o t hI _ hs => hP s i o t hI hs)
    (fun s i o t hI _ hC hs => hstep s i o t hI hC hs) h h0 fun _ _ => trivial

end Runs

/-! ### Histories -/

section History

variable {H : Type}

/-- All moves have `P`, for the history that the outputs before them make. -/
def Always (track : H → O → H) (P : H → Move S I O → Prop) : H → List (Move S I O) → Prop
  | _, [] => True
  | h, m :: ms => P h m ∧ Always track P (track h m.output) ms

instance Always.decidable {track : H → O → H} {P : H → Move S I O → Prop}
    [∀ h m, Decidable (P h m)] : ∀ h ms, Decidable (Always track P h ms)
  | _, [] => isTrue trivial
  | h, m :: ms =>
    have : Decidable (Always track P (track h m.output) ms) := Always.decidable _ _
    inferInstanceAs (Decidable (P h m ∧ Always track P (track h m.output) ms))

theorem Always.exists_of_mem {track : H → O → H} {P : H → Move S I O → Prop} {h : H}
    {ms : List (Move S I O)} (hP : Always track P h ms) {m : Move S I O} (hm : m ∈ ms) :
    ∃ h', P h' m := by
  induction ms generalizing h with
  | nil => cases hm
  | cons k ms ih =>
      rcases List.mem_cons.mp hm with rfl | hm
      · exact ⟨h, hP.1⟩
      · exact ih hP.2 hm

/-- A property that does not depend on the history. -/
theorem always_iff_forall (track : H → O → H) (P : Move S I O → Prop) (h : H)
    (ms : List (Move S I O)) : Always track (fun _ m => P m) h ms ↔ ∀ m ∈ ms, P m := by
  induction ms generalizing h with
  | nil => simp [Always]
  | cons m ms ih => rw [List.forall_mem_cons, Always, ih]

/-- **Invariant rule with a history.** `R` relates states and histories along all moves, and it
implies `P`. -/
theorem Runs.always {track : H → O → H} (R : S → H → Prop) {P : H → Move S I O → Prop}
    (hstep : ∀ s i o t h, R s h → M.step s i = some (t, o) → P h ⟨s, i, o, t⟩ ∧ R t (track h o))
    {h : H} (hr : M.Runs s ms t) (h0 : R s h) : Always track P h ms := by
  induction hr generalizing h with
  | nil => trivial
  | @cons s u v i o ms hs _ ih =>
      obtain ⟨hP, hR⟩ := hstep s i o u h h0 hs
      exact ⟨hP, ih hR⟩

/-- **Equivalence rule with a history.** `R` relates states and histories along all moves that meet
`E` and `C`; under it, `P` and `C` are the same. -/
theorem Runs.always_iff {track : H → O → H} (R : S → H → Prop) (E : Move S I O → Prop)
    {P C : H → Move S I O → Prop}
    (hP : ∀ s i o t h, R s h → E ⟨s, i, o, t⟩ → M.step s i = some (t, o) →
      (P h ⟨s, i, o, t⟩ ↔ C h ⟨s, i, o, t⟩))
    (hstep : ∀ s i o t h, R s h → E ⟨s, i, o, t⟩ → C h ⟨s, i, o, t⟩ → M.step s i = some (t, o) →
      R t (track h o))
    {h : H} (hr : M.Runs s ms t) (h0 : R s h) (hE : ∀ m ∈ ms, E m) :
    Always track P h ms ↔ Always track C h ms := by
  induction hr generalizing h with
  | nil => exact Iff.rfl
  | @cons s u v i o ms hs _ ih =>
      have he := hE _ List.mem_cons_self
      rw [Always, Always, hP s i o u h h0 he hs]
      refine and_congr_right fun hC => ?_
      exact ih (hstep s i o u h h0 he hC hs) fun m hm => hE m (List.mem_cons_of_mem _ hm)

end History

/-! ### Acceptors -/

section Acceptor

variable {Q : Type}

/-- The outputs `os` are accepted from `q`: each one is a move of the acceptor `A`, up to the
first output that ends the observation. -/
def Accepts (A : Q → O → Option Q) (ends : Q → O → Prop) : Q → List O → Prop
  | _, [] => True
  | q, o :: os => ends q o ∨ ∃ q', A q o = some q' ∧ Accepts A ends q' os

/-- **Forward simulation.** A relation that every step of `M` either carries along a move of the
acceptor, or leaves with an output that ends the observation, makes every run accepted. -/
theorem Runs.accepts {A : Q → O → Option Q} {ends : Q → O → Prop} (R : S → Q → Prop)
    (C : S → I → Prop)
    (hsim : ∀ s i o t q, R s q → C s i → M.step s i = some (t, o) →
      ends q o ∨ ∃ q', A q o = some q' ∧ R t q')
    {q : Q} (h : M.Runs s ms t) (h0 : R s q) (hC : ∀ m ∈ ms, C m.pre m.input) :
    Accepts A ends q (ms.map Move.output) := by
  induction h generalizing q with
  | nil => trivial
  | @cons s u v i o ms hs _ ih =>
      rcases hsim s i o u q h0 (hC _ List.mem_cons_self) hs with he | ⟨q', hA, hR⟩
      · exact Or.inl he
      · exact Or.inr ⟨q', hA, ih hR fun m hm => hC m (List.mem_cons_of_mem _ hm)⟩

end Acceptor

end Machine
