import ThriftBridge.Transport.Changes

/-!
# The core along a run

* `Idle`, `Quiet`: code that does not call the executor leaves the core alone;
* `engineStep_asked`: an event moves the core by the call of the executor that is observed of it;
* `Serial`: a sequential history of the executor;
* `served_in_order`: in any interleaving, the requests that are observed are such a history.
-/

set_option autoImplicit false

namespace ThriftBridge

open World Machine

variable {ε : Type} {Z : ZendApi} {exec : Executor ε} {w v : World ε}

/-- The executor was not called. -/
def Idle (w v : World ε) : Prop := v.core = w.core ∧ v.asked = w.asked

theorem Idle.refl (w : World ε) : Idle w w := ⟨rfl, rfl⟩

theorem Idle.trans {u : World ε} (h : Idle w v) (h' : Idle v u) : Idle w u :=
  ⟨h'.1.trans h.1, h'.2.trans h.2⟩

/-- However `m` ends, it has not called the executor. -/
def Quiet {α : Type} (m : CM ε α) : Prop :=
  ∀ w, Wp m w (fun _ v => Idle w v) fun _ v => Idle w v

namespace Quiet

variable {α β : Type}

theorem pure (a : α) : Quiet (Pure.pure a : CM ε α) := fun w => Wp.ret (Idle.refl w)

theorem throw (e : Stop) : Quiet (MonadExcept.throw e : CM ε α) :=
  fun w => Wp.run_error rfl (Idle.refl w)

theorem bind {m : CM ε α} {f : α → CM ε β} (hm : Quiet m) (hf : ∀ a, Quiet (f a)) :
    Quiet (m >>= f) := by
  refine fun w => Wp.bind ((hm w).mono ?_ fun _ _ h => h)
  exact fun a t h => (hf a t).mono (fun _ _ h' => h.trans h') fun _ _ h' => h.trans h'

theorem getObj (b : ℕ) : Quiet (getObj b : CM ε _) := by
  intro w
  unfold Wp ThriftBridge.getObj
  cases w.objs b <;> exact Idle.refl w

theorem modifyObj (b : ℕ) (f : TransportObject → TransportObject) :
    Quiet (modifyObj b f : CM ε _) := by
  intro w
  unfold Wp ThriftBridge.modifyObj
  cases w.objs b <;> exact ⟨rfl, rfl⟩

theorem zstr (r : Option StrRef) : Quiet (zstr r : CM ε _) :=
  fun w => wp_zstr (fun _ _ _ _ => Idle.refl w) (fun _ => Idle.refl w) (Idle.refl w)

theorem idle_takeRef (w : World ε) (h : Holder) (r : StrRef) : Idle w (w.takeRef h r) := by
  cases r <;> exact ⟨rfl, rfl⟩

theorem idle_dropRef (w : World ε) (h : Holder) (r : StrRef) : Idle w (w.dropRef h r) := by
  cases r <;> exact ⟨rfl, rfl⟩

theorem zendStringCopy (h : Holder) (r : StrRef) : Quiet (zendStringCopy h r : CM ε _) := by
  intro w
  unfold Wp ThriftBridge.zendStringCopy
  cases w.deref r
  · exact Idle.refl w
  · exact idle_takeRef w h r

theorem zendStringRelease (h : Holder) (r : Option StrRef) :
    Quiet (zendStringRelease h r : CM ε _) :=
  fun w => wp_zendStringRelease (fun p _ _ _ => idle_dropRef w h p) (fun _ => Idle.refl w)
    (Idle.refl w)

theorem zendStringInit (h : Holder) (bytes : Bytes) :
    Quiet (zendStringInit Z h bytes : CM ε _) :=
  fun w => wp_zendStringInit (fun _ _ _ => ⟨rfl, rfl⟩) fun _ => Idle.refl w

theorem memcpy (dst : StrRef) (off : UInt64) (src : Bytes) :
    Quiet (memcpy dst off src : CM ε _) := by
  intro w
  unfold Wp ThriftBridge.memcpy
  cases dst with
  | interned s => exact Idle.refl w
  | counted a =>
      dsimp only
      cases w.heap.get? a with
      | none => exact Idle.refl w
      | some s =>
          by_cases h : off.toNat + src.length ≤ s.val.length
          · simp only [h, dif_pos]
            exact ⟨rfl, rfl⟩
          · simp only [h, dif_neg, not_false_iff]
            exact Idle.refl w

theorem retvalStringl (s : ZendString) (pos : Int64) (n : UInt64) :
    Quiet (retvalStringl Z s pos n : CM ε _) := by
  unfold ThriftBridge.retvalStringl
  split_ifs
  · exact (throw _).bind fun _ => (zendStringInit _ _).bind fun _ => pure _
  · exact (pure _).bind fun _ => (zendStringInit _ _).bind fun _ => pure _

theorem readBuffer (p : ℕ) : Quiet (readBuffer p : CM ε _) := by
  intro w
  unfold Wp ThriftBridge.readBuffer
  cases w.cHeap.get? p <;> exact Idle.refl w

theorem free (p : ℕ) : Quiet (free p : CM ε _) := by
  intro w
  unfold Wp ThriftBridge.free
  split_ifs <;> exact ⟨rfl, rfl⟩

/-! The methods other than `flush`. -/

theorem construct (this : ℕ) (arg : Option StrRef) : Quiet (construct this arg : CM ε _) := by
  unfold ThriftBridge.construct
  cases arg with
  | none => exact pure _
  | some r =>
      exact (zendStringCopy _ _).bind fun _ => (modifyObj _ _).bind fun _ =>
        (modifyObj _ _).bind fun _ => (modifyObj _ _).bind fun _ =>
          (modifyObj _ _).bind fun _ => pure _

theorem write (this : ℕ) (arg : Option StrRef) : Quiet (write Z this arg : CM ε _) := by
  unfold ThriftBridge.write
  cases arg with
  | none => exact pure _
  | some r =>
      exact (getObj _).bind fun _ => (zstr _).bind fun _ => (zstr _).bind fun _ =>
        (zendStringInit _ _).bind fun _ => (memcpy _ _ _).bind fun _ => (memcpy _ _ _).bind fun _ =>
          (zendStringRelease _ _).bind fun _ => (modifyObj _ _).bind fun _ => pure _

theorem read (this : ℕ) (arg : Option Int64) : Quiet (read Z this arg : CM ε _) := by
  unfold ThriftBridge.read
  cases arg with
  | none => exact pure _
  | some len =>
      refine (getObj _).bind fun o => ?_
      cases o.rBuf with
      | none => exact pure _
      | some r =>
          refine (zstr _).bind fun s => ?_
          dsimp only
          split_ifs
          · exact (pure _)
          · exact (retvalStringl _ _ _).bind fun _ => (modifyObj _ _).bind fun _ => pure _

theorem releaseField (b : ℕ) (r : Option StrRef) : Quiet (releaseField b r : CM ε _) := by
  cases r with
  | none => exact pure _
  | some r => exact zendStringRelease (some b) (some r)

theorem dtorObject (object : ℕ) : Quiet (dtorObject object : CM ε _) :=
  (getObj _).bind fun _ => (releaseField _ _).bind fun _ => (releaseField _ _).bind fun _ =>
    (releaseField _ _).bind fun _ => pure _

end Quiet

/-! ## Steps -/

/-- The core after what is observed of an event. -/
def advance (exec : Executor ε) (core : ε) : Option Asked → ε
  | none => core
  | some q => (exec core q.service q.request).2

/-- The executor was called at most once, and its answer is the one that is observed. -/
def Advanced (exec : Executor ε) (w v : World ε) : Prop :=
  v.core = advance exec w.core v.asked ∧
    ∀ q, v.asked = some q → q.answer = (exec w.core q.service q.request).1

theorem Idle.advanced (h : Idle w.unasked v) : Advanced exec w v := by
  have hnone : v.asked = none := h.2
  refine ⟨?_, fun q hq => by cases hnone.symm.trans hq⟩
  rw [hnone]
  exact h.1

theorem flush_advanced (this : ℕ) : Wp (flush Z exec this) w.unasked
    (fun _ v => Advanced exec w v) fun _ v => Advanced exec w v := by
  have hidle {α : Type} {m : CM ε α} (hm : Quiet m) {u : World ε} (hu : Idle w.unasked u) :
      Wp m u (fun _ v => Idle w.unasked v) fun _ v => Advanced exec w v :=
    (hm u).mono (fun _ _ h => hu.trans h) fun _ _ h => (hu.trans h).advanced
  unfold flush
  refine Wp.bind ((hidle (Quiet.getObj _) (Idle.refl _)).mono ?_ fun _ _ h => h)
  intro o u1 h1
  refine Wp.bind ((hidle (Quiet.zstr _) h1).mono ?_ fun _ _ h => h)
  intro request u2 h2
  refine Wp.bind ((hidle (Quiet.zstr _) h2).mono ?_ fun _ _ h => h)
  intro service u3 h3
  -- what follows the call of the executor is quiet
  have hafter {α : Type} {m : CM ε α} (hm : Quiet m) {u : World ε} (hu : Advanced exec w u) :
      Wp m u (fun _ v => Advanced exec w v) fun _ v => Advanced exec w v := by
    have hstep (v : World ε) (h : Idle u v) : Advanced exec w v := by
      unfold Advanced
      rw [h.1, h.2]
      exact hu
    exact (hm u).mono (fun _ v h => hstep v h) fun _ v h => hstep v h
  have hcore : u3.core = w.core := h3.1
  have hasked (cHeap : RefCount.CountedHeap Bytes) : Advanced exec w
      { u3 with
        core := (exec u3.core service.val request.val).2
        asked := some ⟨service.val, request.val, (exec u3.core service.val request.val).1⟩
        cHeap := cHeap } := by
    rw [hcore]
    refine ⟨rfl, fun q hq => ?_⟩
    cases hq
    rfl
  refine Wp.bind ?_
  unfold Wp askCore
  dsimp only
  cases (exec u3.core service.val request.val).1.reply with
  | null => exact hasked u3.cHeap
  | unwound => exact hasked u3.cHeap
  | response bytes =>
      refine hafter ?_ (hasked _)
      exact (Quiet.zendStringRelease _ _).bind fun _ => (Quiet.readBuffer _).bind fun _ =>
        (Quiet.zendStringInit _ _).bind fun _ => (Quiet.modifyObj _ _).bind fun _ =>
          (Quiet.free _).bind fun _ => (Quiet.modifyObj _ _).bind fun _ =>
            (Quiet.zendStringRelease _ _).bind fun _ => (Quiet.modifyObj _ _).bind fun _ =>
              Quiet.pure _

/-- However a method ends, what is observed of it says how it has moved the core. -/
theorem runMethod_advanced {this : ℕ} {call : Call} {m : CM ε Ret} {l : Label}
    (hm : Wp m w.unasked (fun _ v => Advanced exec w v) fun _ v => Advanced exec w v)
    (hr : (v, l) = runMethod w this call m) :
    v.core = advance exec w.core l.asked ∧
      ∀ q, l.asked = some q → q.answer = (exec w.core q.service q.request).1 := by
  unfold Wp at hm
  have hrun : m { w with asked := none } = m w.unasked := rfl
  unfold runMethod at hr
  rw [hrun] at hr
  cases hx : m w.unasked with
  | ok r u =>
      rw [hx] at hm hr
      cases hr
      exact hm
  | error e u =>
      rw [hx] at hm hr
      cases hr
      exact hm

/-- **Events move the core by the calls that are observed of them.** -/
theorem engineStep_asked {ev : Event} {l : Label} (hs : engineStep Z exec w ev = some (v, l)) :
    v.core = advance exec w.core l.asked ∧
      ∀ q, l.asked = some q → q.answer = (exec w.core q.service q.request).1 := by
  have hquiet {m : CM ε Ret} (hm : Quiet m) :
      Wp m w.unasked (fun _ v => Advanced exec w v) fun _ v => Advanced exec w v :=
    (hm _).mono (fun _ _ h => h.advanced) fun _ _ h => h.advanced
  have hsame {u : World ε} {k : Label} (hr : (v, l) = (u, k)) (hu : u.core = w.core)
      (hk : k.asked = none) : v.core = advance exec w.core l.asked ∧
        ∀ q, l.asked = some q → q.answer = (exec w.core q.service q.request).1 := by
    cases hr
    rw [hk]
    exact ⟨hu, fun q hq => by cases hq⟩
  have he := engineStep_eq_some hs
  cases ev with
  | createObject n => exact hsame he rfl rfl
  | construct this arg => exact runMethod_advanced (hquiet (Quiet.construct this arg)) he.2.2
  | isOpen this => exact runMethod_advanced (hquiet (Quiet.pure _)) he
  | open' this => exact runMethod_advanced (hquiet (Quiet.pure _)) he
  | close this => exact runMethod_advanced (hquiet (Quiet.pure _)) he
  | write this arg => exact runMethod_advanced (hquiet (Quiet.write this arg)) he.2.2
  | read this arg => exact runMethod_advanced (hquiet (Quiet.read this arg)) he.2
  | flush this => exact runMethod_advanced (flush_advanced this) he.2
  | dtorObject object =>
      obtain ⟨o, -, -, hr⟩ := he
      refine runMethod_advanced (w := w.setObj _ _) ?_ hr
      exact (Quiet.dtorObject object _).mono (fun _ _ h => h.advanced) fun _ _ h => h.advanced
  | freeObject object =>
      obtain ⟨o, -, -, hr⟩ := he
      exact hsame hr rfl rfl
  | newString s => exact hsame he rfl rfl
  | copyString a => exact hsame he.2 (takeRef_core ..) rfl
  | dropString a => exact hsame he.2 (dropRef_core ..) rfl

/-! ## Runs -/

/-- From `core` to `core'` the executor answers one request after the other, and each by the state
that the one before has left. -/
def Serial (exec : Executor ε) : ε → List Asked → ε → Prop
  | core, [], core' => core' = core
  | core, q :: qs, core' => q.answer = (exec core q.service q.request).1 ∧
    Serial exec (exec core q.service q.request).2 qs core'

/-- What the executor keeps for each of the requests, it keeps for all of them. -/
theorem Serial.invariant {P : ε → Prop} {qs : List Asked} {core core' : ε}
    (h : Serial exec core qs core') (h0 : P core)
    (hstep : ∀ q ∈ qs, ∀ core, P core → P (exec core q.service q.request).2) : P core' := by
  induction qs generalizing core with
  | nil =>
      have he : core' = core := h
      rwa [he]
  | cons q qs ih =>
      refine ih h.2 (hstep q List.mem_cons_self core h0) fun q' hq' => ?_
      exact hstep q' (List.mem_cons_of_mem q hq')

/-- **The requests of a run are served in order.** In any interleaving of events on any objects, the
core is moved by the observed requests, one after the other, and by nothing else. -/
theorem served_in_order {ms : List (Move (World ε) Event Label)}
    (hr : (engine Z exec).Runs w ms v) :
    Serial exec w.core (ms.filterMap fun m => m.output.asked) v.core := by
  induction hr with
  | nil s => rfl
  | @cons s t u i l ms hstep hrest ih =>
      obtain ⟨hcore, hanswer⟩ := engineStep_asked hstep
      cases hq : l.asked with
      | none =>
          rw [hq] at hcore
          have hsame : t.core = s.core := hcore
          simp only [List.filterMap_cons, hq]
          rwa [hsame] at ih
      | some q =>
          rw [hq] at hcore
          have hmoved : t.core = (exec s.core q.service q.request).2 := hcore
          simp only [List.filterMap_cons, hq]
          rw [hmoved] at ih
          exact ⟨hanswer q hq, ih⟩

end ThriftBridge
