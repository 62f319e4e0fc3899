import ThriftBridge.Transport.Invariant

/-!
# Transports are pairs of queues

* `Queue`: what a transport is for. It has a service name, the bytes of a request that is not yet
  sent, and the bytes of a response that is not yet read;
* `Queue.react`: what a call gives on a queue, and what it leaves;
* `queueStep`: the acceptor of observations, over any number of queues and the executor's state;
* `Refines w q`: the objects of `w` show the queues `q`;
* `transport_refines_queues`: every run in contract is accepted from the empty set of queues.
-/

set_option autoImplicit false

namespace ThriftBridge

open RefCount World Machine

variable {ε : Type}

/-! ## Queues -/

/-- A transport, as its caller thinks of it. -/
structure Queue where
  service : Bytes
  pending : Bytes
  unread : Bytes
deriving DecidableEq

/-- What a call gives, and what it leaves. -/
structure Reaction (ε : Type) where
  asked : Option Asked
  outcome : Outcome
  queue : Queue
  core : ε

/-- How many bytes `read($len)` asks for: all that are left, if `len` is negative. -/
def Queue.asks (Q : Queue) (len : Int64) : ℕ :=
  if len.toInt < 0 then Q.unread.length else len.toInt.toNat

/-- A call on a queue. `flush` sends the pending bytes; only a response changes the queue. `read`
takes the longest prefix of the unread bytes that is not longer than it asks for. -/
def Queue.react (exec : Executor ε) (Q : Queue) (e : ε) : Call → Option (Reaction ε)
  | .isOpen => some ⟨none, .returned .true, Q, e⟩
  | .open' => some ⟨none, .returned .null, Q, e⟩
  | .close => some ⟨none, .returned .null, Q, e⟩
  | .write none => some ⟨none, .returned (.raised .badParameters), Q, e⟩
  | .write (some buf) =>
    some ⟨none, .returned .null, { Q with pending := Q.pending ++ buf }, e⟩
  | .read none => some ⟨none, .returned (.raised .badParameters), Q, e⟩
  | .read (some len) =>
    if 0 < len.toInt ∧ Q.unread = [] then
      some ⟨none, .returned (.raised (.cannotRead len)), Q, e⟩
    else
      some ⟨none, .returned (.string (Q.unread.take (Q.asks len))),
        { Q with unread := Q.unread.drop (Q.asks len) }, e⟩
  | .flush =>
    let (a, e') := exec e Q.service Q.pending
    let asked := some ⟨Q.service, Q.pending, a⟩
    match a.reply with
    | .null => some ⟨asked, .returned (.raised .rpcFailed), Q, e'⟩
    | .response r => some ⟨asked, .returned .null, { Q with pending := [], unread := r }, e'⟩
    | .unwound => some ⟨asked, .stopped .unwound, Q, e'⟩
  | .createObject => none
  | .construct _ => none
  | .dtorObject => none
  | .freeObject => none
  | .strings => none

/-- **What a call on a queue can be.** -/
theorem Queue.react_cases {exec : Executor ε} {Q : Queue} {e : ε} {call : Call} {r : Reaction ε}
    (h : Q.react exec e call = some r) :
    (∃ buf, call = .write (some buf) ∧ r.outcome = .returned .null ∧
        r.queue = { Q with pending := Q.pending ++ buf }) ∨
      (∃ len, call = .read (some len) ∧ ¬ (0 < len.toInt ∧ Q.unread = []) ∧
        r.outcome = .returned (.string (Q.unread.take (Q.asks len))) ∧
        r.queue = { Q with unread := Q.unread.drop (Q.asks len) }) ∨
      (call = .flush ∧ r.asked = some ⟨Q.service, Q.pending, (exec e Q.service Q.pending).1⟩ ∧
        ((∃ s, (exec e Q.service Q.pending).1.reply = .response s ∧ r.outcome = .returned .null ∧
            r.queue = { Q with pending := [], unread := s }) ∨
          ((exec e Q.service Q.pending).1.reply = .null ∧
            r.outcome = .returned (.raised .rpcFailed) ∧ r.queue = Q) ∨
          (exec e Q.service Q.pending).1.reply = .unwound ∧
            r.outcome = .stopped .unwound ∧ r.queue = Q)) ∨
      r.queue = Q ∧ (call = .isOpen ∨ call = .open' ∨ call = .close ∨ call = .write none ∨
        call = .read none ∨ ∃ len, call = .read (some len) ∧ (0 < len.toInt ∧ Q.unread = []) ∧
          r.outcome = .returned (.raised (.cannotRead len))) := by
  cases call with
  | isOpen => cases h; exact Or.inr (Or.inr (Or.inr ⟨rfl, by simp⟩))
  | open' => cases h; exact Or.inr (Or.inr (Or.inr ⟨rfl, by simp⟩))
  | close => cases h; exact Or.inr (Or.inr (Or.inr ⟨rfl, by simp⟩))
  | write arg =>
      cases arg with
      | none => cases h; exact Or.inr (Or.inr (Or.inr ⟨rfl, by simp⟩))
      | some buf => cases h; exact Or.inl ⟨buf, rfl, rfl, rfl⟩
  | read arg =>
      cases arg with
      | none => cases h; exact Or.inr (Or.inr (Or.inr ⟨rfl, by simp⟩))
      | some len =>
          simp only [react] at h
          split_ifs at h with hn
          · cases h
            exact Or.inr (Or.inr (Or.inr ⟨rfl, by simpa using hn⟩))
          · cases h
            exact Or.inr (Or.inl ⟨len, rfl, hn, rfl, rfl⟩)
  | flush =>
      simp only [react] at h
      refine Or.inr (Or.inr (Or.inl ?_))
      split at h
      · next hr => cases h; exact ⟨rfl, rfl, Or.inr (Or.inl ⟨hr, rfl, rfl⟩)⟩
      · next s hr => cases h; exact ⟨rfl, rfl, Or.inl ⟨s, hr, rfl, rfl⟩⟩
      · next hr => cases h; exact ⟨rfl, rfl, Or.inr (Or.inr ⟨hr, rfl, rfl⟩)⟩
  | createObject => cases h
  | construct arg => cases h
  | dtorObject => cases h
  | freeObject => cases h
  | strings => cases h

/-- The length of the string that a call on a queue has to allocate. -/
def Queue.need (exec : Executor ε) (Q : Queue) (e : ε) : Call → Option ℕ
  | .write none => none
  | .write (some buf) => some (Q.pending ++ buf).length
  | .read none => none
  | .read (some len) => some (Q.unread.take (Q.asks len)).length
  | .flush =>
    match (exec e Q.service Q.pending).1.reply with
    | .null => none
    | .response r => some r.length
    | .unwound => none
  | .isOpen => none
  | .open' => none
  | .close => none
  | .createObject => none
  | .construct _ => none
  | .dtorObject => none
  | .freeObject => none
  | .strings => none

/-- The queues of all transports, and the executor's state. -/
structure Queues (ε : Type) where
  queue : ℕ → Option Queue
  core : ε

/-- No transports. -/
def Queues.init (core : ε) : Queues ε := ⟨fun _ => none, core⟩

/-- The queue of transport `b` becomes `Q`. -/
def Queues.set (q : Queues ε) (b : ℕ) (Q : Option Queue) (e : ε) : Queues ε :=
  ⟨Function.update q.queue b Q, e⟩

theorem Queues.set_queue (q : Queues ε) (b : ℕ) (Q : Option Queue) (e : ε) :
    (q.set b Q e).queue b = Q := Function.update_self _ _ _

theorem Queues.set_queue_of_ne {b c : ℕ} (hc : c ≠ b) (q : Queues ε) (Q : Option Queue) (e : ε) :
    (q.set b Q e).queue c = q.queue c := Function.update_of_ne hc _ _

/-- An observation with the expected executor call and end. -/
def expect (l : Label) (asked : Option Asked) (outcome : Outcome) (q : Queues ε) :
    Option (Queues ε) :=
  if l.asked = asked ∧ l.outcome = outcome then some q else none

/-- **The abstract transports.** Construction, repeated or not, gives empty queues; after that the
calls are those of `Queue.react`, until destruction. -/
def queueStep (exec : Executor ε) (q : Queues ε) (l : Label) : Option (Queues ε) :=
  match l.call with
  | .createObject => expect l none (.returned .null) q
  | .construct none => expect l none (.returned (.raised .badParameters)) q
  | .construct (some name) =>
    expect l none (.returned .null) (q.set l.intern (some ⟨name, [], []⟩) q.core)
  | .dtorObject => expect l none (.returned .null) (q.set l.intern none q.core)
  | .freeObject => expect l none (.returned .null) q
  | .strings => expect l none (.returned .null) q
  | call =>
    match q.queue l.intern with
    | none => none
    | some Q =>
      match Q.react exec q.core call with
      | none => none
      | some r => expect l r.asked r.outcome (q.set l.intern (some r.queue) r.core)

theorem expect_eq_some {l : Label} {asked : Option Asked} {outcome : Outcome} {q q' : Queues ε}
    (h : expect l asked outcome q = some q') : l.asked = asked ∧ l.outcome = outcome ∧ q' = q := by
  unfold expect at h
  split_ifs at h with hl
  cases h
  exact ⟨hl.1, hl.2, rfl⟩

/-- **What a step of the queues can be.** -/
theorem queueStep_cases {exec : Executor ε} {q q' : Queues ε} {l : Label}
    (h : queueStep exec q l = some q') :
    (q' = q ∧ (l.call = .createObject ∨ l.call = .construct none ∨ l.call = .freeObject ∨
        l.call = .strings)) ∨
      (∃ name, l.call = .construct (some name) ∧ l.outcome = .returned .null ∧
        q' = q.set l.intern (some ⟨name, [], []⟩) q.core) ∨
      (l.call = .dtorObject ∧ q' = q.set l.intern none q.core) ∨
      ∃ Q r, q.queue l.intern = some Q ∧ Q.react exec q.core l.call = some r ∧
        l.asked = r.asked ∧ l.outcome = r.outcome ∧
        q' = q.set l.intern (some r.queue) r.core := by
  unfold queueStep at h
  split at h
  · next hcall => exact Or.inl ⟨(expect_eq_some h).2.2, Or.inl hcall⟩
  · next hcall => exact Or.inl ⟨(expect_eq_some h).2.2, Or.inr (Or.inl hcall)⟩
  · next name hcall =>
    obtain ⟨-, h2, h3⟩ := expect_eq_some h
    exact Or.inr (Or.inl ⟨name, hcall, h2, h3⟩)
  · next hcall => exact Or.inr (Or.inr (Or.inl ⟨hcall, (expect_eq_some h).2.2⟩))
  · next hcall => exact Or.inl ⟨(expect_eq_some h).2.2, Or.inr (Or.inr (Or.inl hcall))⟩
  · next hcall => exact Or.inl ⟨(expect_eq_some h).2.2, Or.inr (Or.inr (Or.inr hcall))⟩
  · split at h
    · cases h
    · next Q hQ =>
      split at h
      · cases h
      · next r hr =>
        obtain ⟨h1, h2, h3⟩ := expect_eq_some h
        exact Or.inr (Or.inr (Or.inr ⟨Q, r, hQ, hr, h1, h2, h3⟩))

/-- **Where the queue of `b` after a step comes from.** -/
theorem queueStep_queue {exec : Executor ε} {q q' : Queues ε} {l : Label} {b : ℕ} {Q' : Queue}
    (h : queueStep exec q l = some q') (hQ' : q'.queue b = some Q') :
    (q.queue b = some Q' ∧ (l.intern ≠ b ∨ l.call = .createObject ∨ l.call = .construct none ∨
        l.call = .freeObject ∨ l.call = .strings)) ∨
      l.intern = b ∧ ((∃ name, l.call = .construct (some name) ∧ l.outcome = .returned .null ∧
          Q' = ⟨name, [], []⟩) ∨
        ∃ Q r, q.queue b = some Q ∧ Q.react exec q.core l.call = some r ∧ l.asked = r.asked ∧
          l.outcome = r.outcome ∧ Q' = r.queue) := by
  by_cases hb : l.intern = b
  · subst hb
    rcases queueStep_cases h with ⟨rfl, hcall⟩ | ⟨name, hcall, hout, rfl⟩ | ⟨-, rfl⟩ |
      ⟨Q, r, hQ, hr, hasked, hout, rfl⟩
    · exact Or.inl ⟨hQ', Or.inr hcall⟩
    · rw [Queues.set_queue] at hQ'
      cases hQ'
      exact Or.inr ⟨rfl, Or.inl ⟨name, hcall, hout, rfl⟩⟩
    · rw [Queues.set_queue] at hQ'
      cases hQ'
    · rw [Queues.set_queue] at hQ'
      cases hQ'
      exact Or.inr ⟨rfl, Or.inr ⟨Q, r, hQ, hr, hasked, hout, rfl⟩⟩
  · refine Or.inl ⟨?_, Or.inl hb⟩
    rcases queueStep_cases h with ⟨rfl, -⟩ | ⟨name, -, -, rfl⟩ | ⟨-, rfl⟩ | ⟨Q, r, -, -, -, -, rfl⟩
    · exact hQ'
    all_goals rwa [Queues.set_queue_of_ne (Ne.symm hb)] at hQ'

/-- The engine has refused the allocation of the string that the call needs. -/
def Refused (Z : ZendApi) (exec : Executor ε) (q : Queues ε) (l : Label) : Prop :=
  l.outcome = .stopped .bailout ∧ ∃ Q n len, q.queue l.intern = some Q ∧
    Q.need exec q.core l.call = some len ∧ Z.grant n len = false

/-! ## The contract of a caller -/

/-- The object is constructed, and its destructor handler has not run. -/
def World.constructed (w : World ε) (this : ℕ) : Bool :=
  match w.objs (fetchObject this) with
  | some o => !o.destructorCalled && o.serviceName.isSome
  | none => false

/-- The object's destructor handler has not run. -/
def World.undestroyed (w : World ε) (this : ℕ) : Bool :=
  match w.objs (fetchObject this) with
  | some o => !o.destructorCalled
  | none => false

/-- Methods are called on constructed objects, and none after the destructor handler. -/
def inContract (w : World ε) : Event → Bool
  | .construct this _ => w.undestroyed this
  | .isOpen this => w.constructed this
  | .open' this => w.constructed this
  | .close this => w.constructed this
  | .write this _ => w.constructed this
  | .read this _ => w.constructed this
  | .flush this => w.constructed this
  | _ => true

end ThriftBridge
