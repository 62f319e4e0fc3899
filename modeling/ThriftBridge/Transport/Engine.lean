import ThriftBridge.Lib.Machine
import ThriftBridge.Transport.Methods

/-!
# The engine: events on objects, in any order

`engine Z exec` is the machine whose inputs are what PHP does with transport objects: it creates
them, calls their methods, runs the destructor handler once, and frees them, in any interleaving;
between the calls it makes, copies and drops strings of its own. It refuses what Zend never does:
a call on an object that is not there, an argument that PHP holds no reference on, a second call
of the destructor handler, and anything after the process has died.
-/

set_option autoImplicit false

namespace ThriftBridge

/-- What PHP does. Objects are given by their `zend_object`. -/
inductive Event
  | createObject (tableSize : ℕ)
  | construct (this : ℕ) (serviceName : Option StrRef)
  | isOpen (this : ℕ)
  | open' (this : ℕ)
  | close (this : ℕ)
  | write (this : ℕ) (buf : Option StrRef)
  | read (this : ℕ) (len : Option Int64)
  | flush (this : ℕ)
  | dtorObject (object : ℕ)
  | freeObject (object : ℕ)
  | newString (s : ZendString)
  | copyString (a : ℕ)
  | dropString (a : ℕ)
deriving DecidableEq

/-- A call as its caller sees it: strings by their bytes. -/
inductive Call
  | createObject
  | construct (serviceName : Option Bytes)
  | isOpen
  | open'
  | close
  | write (buf : Option Bytes)
  | read (len : Option Int64)
  | flush
  | dtorObject
  | freeObject
  | strings
deriving DecidableEq

/-- How a call ended. -/
inductive Outcome
  | returned (r : Ret)
  | stopped (s : Stop)
deriving DecidableEq

/-- An observation: the block of the object, the call, the executor call made in it, the end. -/
structure Label where
  intern : ℕ
  call : Call
  asked : Option Asked
  outcome : Outcome
deriving DecidableEq

variable {ε : Type}

namespace World

/-- The bytes of an argument. -/
def argBytes (w : World ε) (arg : Option StrRef) : Option Bytes :=
  (arg.bind w.deref).map ZendString.val

/-- PHP holds a reference on its argument. -/
def holdsArg (w : World ε) : Option StrRef → Bool
  | some (.counted a) => 0 < w.ledger none a
  | _ => true

/-- There is an object at `this`. -/
def hasObj (w : World ε) (this : ℕ) : Bool := (w.objs (fetchObject this)).isSome

end World

/-- Run a method. A process survives a return and the exit of a refused allocation. -/
def runMethod (w : World ε) (this : ℕ) (call : Call) (m : CM ε Ret) : World ε × Label :=
  match m { w with asked := none } with
  | .ok r w' => (w', ⟨fetchObject this, call, w'.asked, .returned r⟩)
  | .error s w' =>
    ({ w' with alive := s = .bailout }, ⟨fetchObject this, call, w'.asked, .stopped s⟩)

/-- The observation of what PHP does with its own strings. -/
def stringsLabel : Label := ⟨0, .strings, none, .returned .null⟩

/-- One event. -/
def engineStep (Z : ZendApi) (exec : Executor ε) (w : World ε) :
    Event → Option (World ε × Label)
  | .createObject n =>
    if w.alive then
      let (w', this) := createObject n w
      some (w', ⟨fetchObject this, .createObject, none, .returned .null⟩)
    else none
  | .construct this arg =>
    if w.alive ∧ w.hasObj this ∧ w.holdsArg arg then
      some (runMethod w this (.construct (w.argBytes arg)) (construct this arg))
    else none
  | .isOpen this =>
    if w.alive ∧ w.hasObj this then some (runMethod w this .isOpen isOpen) else none
  | .open' this =>
    if w.alive ∧ w.hasObj this then some (runMethod w this .open' noop) else none
  | .close this =>
    if w.alive ∧ w.hasObj this then some (runMethod w this .close noop) else none
  | .write this arg =>
    if w.alive ∧ w.hasObj this ∧ w.holdsArg arg then
      some (runMethod w this (.write (w.argBytes arg)) (write Z this arg))
    else none
  | .read this arg =>
    if w.alive ∧ w.hasObj this then
      some (runMethod w this (.read arg) (read Z this arg))
    else none
  | .flush this =>
    if w.alive ∧ w.hasObj this then
      some (runMethod w this .flush (flush Z exec this))
    else none
  | .dtorObject object =>
    match w.objs (fetchObject object) with
    | none => none
    | some o =>
      if w.alive ∧ o.destructorCalled = false then
        some (runMethod (w.setObj (fetchObject object) { o with destructorCalled := true }) object
          .dtorObject (dtorObject object))
      else none
  | .freeObject object =>
    match w.objs (fetchObject object) with
    | none => none
    | some o =>
      if w.alive ∧ o.destructorCalled then
        some (freeObject Z object w,
          ⟨fetchObject object, .freeObject, none, .returned .null⟩)
      else none
  | .newString s => if w.alive then some (w.newString none s, stringsLabel) else none
  | .copyString a =>
    if w.alive ∧ 0 < w.ledger none a then some (w.takeRef none (.counted a), stringsLabel)
    else none
  | .dropString a =>
    if w.alive ∧ 0 < w.ledger none a then some (w.dropRef none (.counted a), stringsLabel)
    else none

/-- The extension under an engine that may do anything Zend may do. -/
def engine (Z : ZendApi) (exec : Executor ε) : Machine (World ε) Event Label where
  step := engineStep Z exec

/-! ## What an event can be -/

variable {Z : ZendApi} {exec : Executor ε} {w : World ε}

theorem World.hasObj_iff {this : ℕ} :
    w.hasObj this = true ↔ ∃ o, w.objs (fetchObject this) = some o :=
  Option.isSome_iff_exists

/-- **What the engine does**, and what it has checked. -/
theorem engineStep_eq_some {ev : Event} {r : World ε × Label}
    (hs : engineStep Z exec w ev = some r) :
    match ev with
    | .createObject n => r = ((createObject n w).1,
        ⟨fetchObject (createObject n w).2, .createObject, none, .returned .null⟩)
    | .construct this arg => (∃ o, w.objs (fetchObject this) = some o) ∧ w.holdsArg arg = true ∧
        r = runMethod w this (.construct (w.argBytes arg)) (construct this arg)
    | .isOpen this => r = runMethod w this .isOpen isOpen
    | .open' this => r = runMethod w this .open' noop
    | .close this => r = runMethod w this .close noop
    | .write this arg => (∃ o, w.objs (fetchObject this) = some o) ∧ w.holdsArg arg = true ∧
        r = runMethod w this (.write (w.argBytes arg)) (write Z this arg)
    | .read this arg => (∃ o, w.objs (fetchObject this) = some o) ∧
        r = runMethod w this (.read arg) (read Z this arg)
    | .flush this => (∃ o, w.objs (fetchObject this) = some o) ∧
        r = runMethod w this .flush (flush Z exec this)
    | .dtorObject object => ∃ o, w.objs (fetchObject object) = some o ∧
        o.destructorCalled = false ∧
        r = runMethod (w.setObj (fetchObject object) { o with destructorCalled := true }) object
          .dtorObject (dtorObject object)
    | .freeObject object => ∃ o, w.objs (fetchObject object) = some o ∧
        o.destructorCalled = true ∧
        r = (freeObject Z object w, ⟨fetchObject object, .freeObject, none, .returned .null⟩)
    | .newString s => r = (w.newString none s, stringsLabel)
    | .copyString a => 0 < w.ledger none a ∧ r = (w.takeRef none (.counted a), stringsLabel)
    | .dropString a => 0 < w.ledger none a ∧ r = (w.dropRef none (.counted a), stringsLabel) := by
  cases ev with
  | createObject n | newString n | isOpen n | open' n | close n =>
      simp only [engineStep] at hs
      split_ifs at hs
      exact (Option.some.inj hs).symm
  | construct this arg | write this arg =>
      simp only [engineStep] at hs
      split_ifs at hs with h
      exact ⟨World.hasObj_iff.mp h.2.1, h.2.2, (Option.some.inj hs).symm⟩
  | read this arg =>
      simp only [engineStep] at hs
      split_ifs at hs with h
      exact ⟨World.hasObj_iff.mp h.2, (Option.some.inj hs).symm⟩
  | flush this =>
      simp only [engineStep] at hs
      split_ifs at hs with h
      exact ⟨World.hasObj_iff.mp h.2, (Option.some.inj hs).symm⟩
  | copyString a | dropString a =>
      simp only [engineStep] at hs
      split_ifs at hs with h
      exact ⟨h.2, (Option.some.inj hs).symm⟩
  | dtorObject object | freeObject object =>
      simp only [engineStep] at hs
      split at hs
      · cases hs
      · next o ho =>
        split_ifs at hs with h
        exact ⟨o, ho, h.2, (Option.some.inj hs).symm⟩

end ThriftBridge
