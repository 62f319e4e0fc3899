import ThriftBridge.Transport.Changes

/-!
# Objects without a completed constructor

* `trackBuilt`: the history of the objects, which of them have completed a `__construct`;
* `Built`: with it no field is `NULL`, and without it all fields are; `built_step`: so it stays;
* `nullSafe`: no null pointer is followed, and what is not constructed is refused;
* `guarded`: the calls on which the code checks what it follows;
* `null_safe_iff_guarded`: a run is safe if and only if all its calls are such.
-/

set_option autoImplicit false

namespace ThriftBridge

open World Machine

variable {ε : Type} {Z : ZendApi} {exec : Executor ε} {w v : World ε} {b this : ℕ}
  {o o' : TransportObject} {h : ℕ → Bool} {ev : Event} {l : Label}

/-! ## What is constructed -/

/-- The objects that have completed a `__construct` since their creation. -/
def trackBuilt (h : ℕ → Bool) (l : Label) : ℕ → Bool :=
  if l.call = .createObject then Function.update h l.intern false
  else if l.completes then Function.update h l.intern true
  else h

/-- The fields of an object with a completed `__construct`, or without. -/
def TransportObject.BuiltAs (o : TransportObject) : Bool → Prop
  | true => o.NoNull
  | false => o.AllNull

/-- The objects of `w` are as the history has them. -/
def Built (w : World ε) (h : ℕ → Bool) : Prop := ∀ b o, w.objs b = some o → o.BuiltAs (h b)

theorem Change.builtAs (hc : Change w v o o') {x : Bool} (ho : o.BuiltAs x) : o'.BuiltAs x := by
  cases x with
  | true =>
      obtain ⟨h1, h2, h3⟩ := ho
      cases hc with
      | wrote r hw => exact ⟨h1, by simp, h3⟩
      | took len hr ht => exact ⟨h1, h2, h3⟩
      | installed rw hn hs => exact ⟨h1, by simp, by simp⟩
      | flagged => exact ⟨h1, h2, h3⟩
  | false =>
      obtain ⟨h1, h2, h3⟩ := ho
      cases hc with
      | wrote r hw => exact absurd h2 hw
      | took len hr ht => cases h3.symm.trans hr
      | installed rw hn hs => exact absurd h2 hn.2.1
      | flagged => exact ⟨h1, h2, h3⟩

/-- One object changes, and its history with it. -/
theorem Built.update (hB : Built w h) {x : Bool}
    (hobjs : v.objs = Function.update w.objs b (some o')) (ho : o'.BuiltAs x) :
    Built v (Function.update h b x) := by
  intro c p hp
  rw [hobjs] at hp
  by_cases hc : c = b
  · subst hc
    rw [Function.update_self] at hp ⊢
    cases hp
    exact ho
  · rw [Function.update_of_ne hc] at hp ⊢
    exact hB c p hp

/-- **The history is kept by every event.** -/
theorem built_step (hB : Built w h) (he : Effect w v l) : Built v (trackBuilt h l) := by
  unfold trackBuilt
  cases he with
  | same hobjs hcall hl =>
      rw [if_neg hcall, hl]
      intro c p hp
      rw [hobjs] at hp
      exact hB c p hp
  | created hnull hobjs hcall =>
      rw [if_pos hcall]
      exact hB.update hobjs hnull
  | constructed hobjs hl =>
      have hcall : l.call ≠ .createObject := by
        intro hcall
        simp [Label.completes, hcall] at hl
      rw [if_neg hcall, if_pos hl]
      exact hB.update hobjs ⟨by simp [constructed], by simp [constructed], by simp [constructed]⟩
  | @changed c p p' ho hc hobjs hcall hl =>
      rw [if_neg hcall, hl]
      have := hB.update hobjs (hc.builtAs (hB c p ho))
      rwa [Function.update_eq_self] at this
  | @freed c hobjs hcall hl =>
      rw [if_neg hcall, hl]
      intro d p hp
      rw [hobjs, Function.update_apply] at hp
      split_ifs at hp
      exact hB d p hp

/-! ## Refusals -/

/-- The call raises an exception and leaves the object in block `b` as it was. -/
def Refuses (b : ℕ) (m : Move (World ε) Event Label) : Prop :=
  (∃ e, m.output.outcome = .returned (.raised e)) ∧ m.post.objs b = m.pre.objs b

/-- No null pointer is followed. A write, a read or a flush of an object without a completed
`__construct` is refused, and an object with one has no `NULL` field afterwards. -/
def nullSafe (h : ℕ → Bool) (m : Move (World ε) Event Label) : Prop :=
  m.output.outcome ≠ .stopped .nullDeref ∧
    (∀ b, m.input.uses = some b → h b = false → Refuses b m) ∧
    ∀ b o, m.post.objs b = some o → trackBuilt h m.output b = true → o.NoNull

/-- A write with an accepted argument, or a flush, is of an object with a completed `__construct`. -/
def guarded (h : ℕ → Bool) (m : Move (World ε) Event Label) : Bool :=
  match m.input with
  | .write this (some _) => h (fetchObject this)
  | .flush this => h (fetchObject this)
  | _ => true

/-- `read` checks for `NULL`, and all methods reject arguments before they use the object. -/
theorem refuses_of_guarded (hB : Built w h) (hs : engineStep Z exec w ev = some (v, l))
    (hu : ev.uses = some b) (hb : h b = false) (hg : guarded h ⟨w, ev, l, v⟩ = true) :
    Refuses b ⟨w, ev, l, v⟩ := by
  replace hs := engineStep_eq_some hs
  cases ev with
  | write this arg =>
      cases hu
      obtain ⟨-, -, hr⟩ := hs
      cases arg with
      | none =>
          rw [runMethod_ok _ (write_rejected Z this w.unasked)] at hr
          cases hr
          exact ⟨⟨_, rfl⟩, rfl⟩
      | some r => cases hb.symm.trans hg
  | read this arg =>
      cases hu
      obtain ⟨⟨o, ho⟩, hr⟩ := hs
      cases arg with
      | none =>
          rw [runMethod_ok _ (read_rejected Z this w.unasked)] at hr
          cases hr
          exact ⟨⟨_, rfl⟩, rfl⟩
      | some len =>
          have hnull := hB _ o ho
          rw [hb] at hnull
          rw [runMethod_ok _ (read_closed (w := w.unasked) len ho hnull.2.2)] at hr
          cases hr
          exact ⟨⟨_, rfl⟩, rfl⟩
  | flush this =>
      cases hu
      cases hb.symm.trans hg
  | _ => cases hu

/-- Without the check a null pointer is followed. -/
theorem null_of_not_guarded (hB : Built w h) (hs : engineStep Z exec w ev = some (v, l))
    (hg : guarded h ⟨w, ev, l, v⟩ = false) : l.outcome = .stopped .nullDeref := by
  replace hs := engineStep_eq_some hs
  cases ev with
  | write this arg =>
      cases arg with
      | none => cases hg
      | some r =>
          obtain ⟨⟨o, ho⟩, -, hr⟩ := hs
          have hnull := hB _ o ho
          rw [show h (fetchObject this) = false from hg] at hnull
          rw [runMethod_error _ (write_null (w := w.unasked) ho hnull.2.1)] at hr
          cases hr
          rfl
  | flush this =>
      obtain ⟨⟨o, ho⟩, hr⟩ := hs
      have hnull := hB _ o ho
      rw [show h (fetchObject this) = false from hg] at hnull
      rw [runMethod_error _ (flush_unconstructed (w := w.unasked) ho
        (fun rw hw => by cases hnull.2.1.symm.trans hw) (Or.inl hnull.2.1))] at hr
      cases hr
      rfl
  | _ => cases hg

/-- **One event.** -/
theorem nullSafe_iff (hB : Built w h) (hs : engineStep Z exec w ev = some (v, l)) :
    nullSafe h ⟨w, ev, l, v⟩ ↔ guarded h ⟨w, ev, l, v⟩ = true := by
  have hk := known_of_step hs
  constructor
  · rintro ⟨hnd, -, -⟩
    rw [← Bool.not_eq_false]
    exact fun hg => hnd (null_of_not_guarded hB hs hg)
  · intro hg
    refine ⟨fun hnd => ?_, fun b hu hb => refuses_of_guarded hB hs hu hb hg, fun b o ho hb => ?_⟩
    · obtain ⟨b, o, hu, ho, hnn⟩ := hk.null hnd
      have hbuilt := hB b o ho
      cases hb : h b with
      | true =>
          rw [hb] at hbuilt
          exact hnn hbuilt
      | false =>
          obtain ⟨⟨e, he⟩, -⟩ := refuses_of_guarded hB hs hu hb hg
          cases hnd.symm.trans he
    · have hbuilt := built_step hB hk.effect b o ho
      rw [show trackBuilt h l b = true from hb] at hbuilt
      exact hbuilt

/-- **An object without a completed constructor is refused**, and no null pointer is followed, if
and only if every write with an accepted argument and every flush is of an object with one. -/
theorem null_safe_iff_guarded (Z : ZendApi) (exec : Executor ε) (core : ε) {w : World ε}
    {ms : List (Move (World ε) Event Label)} (hr : (engine Z exec).Runs (World.init core) ms w) :
    Always trackBuilt nullSafe (fun _ => false) ms ↔
      Always trackBuilt (fun h m => guarded h m = true) (fun _ => false) ms := by
  refine hr.always_iff Built (fun _ => True) ?_ ?_ (fun b o ho => by cases ho) fun _ _ => trivial
  · rintro w ev l v h hB - hs
    exact nullSafe_iff hB hs
  · rintro w ev l v h hB - - hs
    exact built_step hB (known_of_step hs).effect

/-- An executor that answers with one byte. -/
def oneByte : Executor Unit := fun _ _ _ => (⟨.response [9], none⟩, ())

/-- A read before the constructor is refused; the calls after it are answered. -/
theorem null_safe_refused :
    ∃ w ms, (engine .unlimited oneByte).Runs (World.init ()) ms w ∧
      ms.map Move.input = [.createObject 0, .read 4128 (some 1), .construct 4128 (some (zstrChar 7)),
        .write 4128 (some (zstrChar 1)), .flush 4128, .read 4128 (some 1)] ∧
      ms.map (fun m => m.output.outcome) =
        [.returned .null, .returned (.raised .closedOrNotFlushed), .returned .null, .returned .null,
          .returned .null, .returned (.string [9])] ∧
      Always trackBuilt nullSafe (fun _ => false) ms := by
  obtain ⟨w, ms, hr, hin, hg⟩ := Runs.exists_of_inputs (engine .unlimited oneByte) (World.init ())
    [.createObject 0, .read 4128 (some 1), .construct 4128 (some (zstrChar 7)),
      .write 4128 (some (zstrChar 1)), .flush 4128, .read 4128 (some 1)]
    (fun r => decide (r.2.map (fun m => m.output.outcome) =
        [.returned .null, .returned (.raised .closedOrNotFlushed), .returned .null, .returned .null,
          .returned .null, .returned (.string [9])] ∧
      Always trackBuilt (fun h m => guarded h m = true) (fun _ => false) r.2)) rfl
  obtain ⟨hout, hguard⟩ := of_decide_eq_true hg
  exact ⟨w, ms, hr, hin, hout, (null_safe_iff_guarded _ _ _ hr).mpr hguard⟩

/-- A write before the constructor follows the `NULL` write buffer. -/
theorem write_unconstructed :
    ∃ w ms, (engine .unlimited oneByte).Runs (World.init ()) ms w ∧
      ms.map Move.input = [.createObject 0, .write 4128 (some (zstrChar 1))] ∧
      ms.map (fun m => m.output.outcome) = [.returned .null, .stopped .nullDeref] ∧
      ¬ Always trackBuilt nullSafe (fun _ => false) ms := by
  obtain ⟨w, ms, hr, hin, hg⟩ := Runs.exists_of_inputs (engine .unlimited oneByte) (World.init ())
    [.createObject 0, .write 4128 (some (zstrChar 1))]
    (fun r => decide (r.2.map (fun m => m.output.outcome) =
      [.returned .null, .stopped .nullDeref])) rfl
  have hout := of_decide_eq_true hg
  refine ⟨w, ms, hr, hin, hout, fun hall => ?_⟩
  have hmem : Outcome.stopped .nullDeref ∈ ms.map fun m => m.output.outcome := by
    rw [hout]
    simp
  obtain ⟨m, hm, hstop⟩ := List.mem_map.mp hmem
  obtain ⟨h, hsafe⟩ := hall.exists_of_mem hm
  exact hsafe.1 hstop

end ThriftBridge
