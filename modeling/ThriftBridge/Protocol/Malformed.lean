import ThriftBridge.Lib.Wp
import ThriftBridge.Protocol.Presented
import ThriftBridge.Protocol.Skip

/-!
# Readers on arbitrary input

* `Safe`: a reader on any input of fewer than `L` bytes returns or raises a `TException`, touches
  nothing but the input and takes at least `k` bytes when it returns;
* `skip_safe`: so does `skip`, and it never runs out of fuel;
* `skip_fuel`: more fuel changes nothing;
* `skip_cases`: `skip` returns if the input begins with a value that it skips, and with one only, and
  else raises what malformed input raises.
-/

set_option autoImplicit false

namespace ThriftBridge

open TBinaryProtocol

variable {σ : Type} {M : Malloc} {prot : TBinaryProtocol}

/-- What reading malformed input raises. -/
inductive Thrown.Malformed : Thrown → Prop
  | endOfFile : Malformed (.transport .endOfFile)
  | protocol (type : TProtocolExceptionType) (message : String) :
    Malformed (.protocol type message)

theorem Thrown.Malformed.ended {e : Thrown} (h : e.Malformed) : e.ended = .threwTException := by
  cases h <;> rfl

/-- What an exception leaves of the recursion depth: the tracker that finds the limit exceeded is
never destroyed. -/
def Thrown.leak (e : Thrown) : UInt32 := if e = .protocol .depthLimit "" then 1 else 0

/-- Only the input was touched, and nothing was unread. -/
def OnlyInput (s t : Session Unread σ) : Prop :=
  t.input.bytes <:+ s.input.bytes ∧ t = { s with
    input := t.input
    inputRecursionDepth := t.inputRecursionDepth }

theorem OnlyInput.refl (s : Session Unread σ) : OnlyInput s s := ⟨List.suffix_rfl, rfl⟩

theorem OnlyInput.trans {s t u : Session Unread σ} (h : OnlyInput s t) (h' : OnlyInput t u) :
    OnlyInput s u := by
  refine ⟨h'.1.trans h.1, ?_⟩
  have hu := h'.2
  rw [h.2] at hu
  exact hu

theorem OnlyInput.length_le {s t : Session Unread σ} (h : OnlyInput s t) :
    t.input.bytes.length ≤ s.input.bytes.length :=
  h.1.length_le

theorem OnlyInput.output {s t : Session Unread σ} (h : OnlyInput s t) : t.output = s.output := by
  rw [h.2]

theorem OnlyInput.wrote {s t : Session Unread σ} (h : OnlyInput s t) : t.wrote = s.wrote := by
  rw [h.2]

theorem OnlyInput.mallocs {s t : Session Unread σ} (h : OnlyInput s t) : t.mallocs = s.mallocs := by
  rw [h.2]

theorem OnlyInput.handlers {s t : Session Unread σ} (h : OnlyInput s t) :
    t.handlers = s.handlers := by
  rw [h.2]

theorem OnlyInput.shallower {s t : Session Unread σ} (h : OnlyInput s.deeper t) :
    OnlyInput s t.shallower := by
  refine ⟨h.1, ?_⟩
  rw [h.2]
  rfl

/-- On any input of fewer than `L` bytes, `p` takes at least `k` bytes and returns, or raises what
malformed input raises. The recursion depth is as before, but for the leak. -/
def Safe {α : Type} (M : Malloc) (L : ℕ) (p : Code σ α) (k : ℕ) : Prop :=
  ∀ s : Session Unread σ, s.input.bytes.length < L → Wp (p.exec M) s
    (fun _ t => OnlyInput s t ∧ t.inputRecursionDepth = s.inputRecursionDepth ∧
      t.input.bytes.length + k ≤ s.input.bytes.length)
    (fun e t => OnlyInput s t ∧ t.inputRecursionDepth = s.inputRecursionDepth + e.leak ∧
      e.Malformed)

namespace Safe

variable {α β : Type} {L k m : ℕ}

theorem wp_bind {p : Code σ α} {f : α → Code σ β} {s : Session Unread σ}
    {Q : β → Session Unread σ → Prop} {E : Thrown → Session Unread σ → Prop}
    (h : Wp (p.exec M) s (fun a t => Wp ((f a).exec M) t Q E) E) :
    Wp ((p >>= f).exec M) s Q E := by
  unfold Wp at h ⊢
  simp only [Code.exec, Program.exec_bind] at h ⊢
  cases hp : Program.exec (sessionHandler M) p s with
  | ok a t => simpa only [hp] using h
  | error e t => simpa only [hp] using h

theorem ret (a : α) : Safe M L (pure a : Code σ α) 0 :=
  fun s _ => Wp.ret ⟨OnlyInput.refl s, rfl, le_rfl⟩

theorem raise {e : Thrown} (h : e.Malformed) (hl : e.leak = 0) :
    Safe M L (Code.throw e : Code σ α) k := by
  intro s _
  refine Wp.run_error (t := s) rfl ⟨OnlyInput.refl s, ?_, h⟩
  rw [hl, UInt32.add_zero]

theorem weaken {p : Code σ α} (h : Safe M L p k) (hm : m ≤ k) : Safe M L p m :=
  fun s hs => (h s hs).mono (fun _ _ ⟨h1, h2, h3⟩ => ⟨h1, h2, by omega⟩) fun _ _ h => h

/-- **Sequence.** What the first part takes is not there for the second. -/
theorem bind {p : Code σ α} {f : α → Code σ β} (hp : Safe M L p k)
    (hf : ∀ a, Safe M (L - k) (f a) m) : Safe M L (p >>= f) (k + m) := by
  intro s hs
  refine wp_bind ((hp s hs).mono ?_ fun _ _ h => h)
  rintro a t ⟨h1, h2, h3⟩
  refine (hf a t (by omega)).mono ?_ ?_
  · rintro b u ⟨h1', h2', h3'⟩
    exact ⟨h1.trans h1', h2'.trans h2, by omega⟩
  · rintro e u ⟨h1', h2', h3'⟩
    exact ⟨h1.trans h1', by rw [h2', h2], h3'⟩

theorem readAll (len : UInt32) : Safe M L (Code.readAll len : Code σ Bytes) len.toNat := by
  intro s _
  cases hx : Code.exec M (Code.readAll len) s with
  | ok bs t =>
      obtain ⟨hlen, h⟩ := Code.readAll_eq_ok.mp hx
      refine Wp.run_ok hx ⟨⟨⟨bs, h.bytes.symm⟩, ?_⟩, h.depth, ?_⟩
      · rw [h.state]
      · have := h.length_eq
        omega
  | error e t =>
      refine Wp.run_error hx ?_
      rw [Code.exec_readAll] at hx
      simp only [onInput, InputTransport.readAll] at hx
      split_ifs at hx <;> cases hx
      · exact ⟨OnlyInput.refl s, by simp [Thrown.leak], .endOfFile⟩
      · exact ⟨⟨List.drop_suffix _ _, rfl⟩, by simp [Thrown.leak], .endOfFile⟩

theorem checkReadBytesAvailable (n : ℤ) :
    Safe M L (Code.checkReadBytesAvailable n : Code σ Unit) 0 := by
  intro s _
  cases hx : Code.exec M (Code.checkReadBytesAvailable n) s with
  | ok a t =>
      obtain ⟨-, rfl⟩ := Code.checkReadBytesAvailable_eq_ok.mp hx
      exact Wp.run_ok hx ⟨OnlyInput.refl s, rfl, le_rfl⟩
  | error e t =>
      refine Wp.run_error hx ?_
      rw [Code.exec_checkReadBytesAvailable] at hx
      simp only [onInput, InputTransport.checkReadBytesAvailable] at hx
      split_ifs at hx
      cases hx
      exact ⟨OnlyInput.refl s, by simp [Thrown.leak], .endOfFile⟩

theorem mono {p : Code σ α} (h : Safe M L p k) {l : ℕ} (hl : l ≤ L) : Safe M l p k :=
  fun s hs => h s (by omega)

end Safe

/-! ## Readers -/

section Readers

variable {L k : ℕ} {α : Type}

theorem safe_fixed (len n : UInt32) (f : Bytes → α) :
    Safe M L (do let b ← Code.readAll len; return (f b, n) : Code σ (α × UInt32)) len.toNat :=
  (Safe.readAll len).bind fun _ => Safe.ret _

theorem safe_readByte : Safe M L (readByte : Code σ _) 1 := safe_fixed 1 1 fun b => (b.headD 0).toInt8

theorem safe_readI32 : Safe M L (readI32 : Code σ _) 4 :=
  safe_fixed 4 4 fun b => Int32.ofBitVec (BigEndian.decode 4 b)

theorem leak_protocol {type : TProtocolExceptionType} {message : String}
    (h : type ≠ .depthLimit) : (Thrown.protocol type message).leak = 0 := by
  rw [Thrown.leak, if_neg]
  intro he
  injection he
  contradiction

/-- A `consume` of bytes that are there. -/
theorem wp_consume {s : Session Unread σ} {len : UInt32}
    (hlen : len.toNat ≤ s.input.bytes.length) : Wp (Code.exec M (Code.consume len)) s
      (fun _ t => OnlyInput s t ∧ t.inputRecursionDepth = s.inputRecursionDepth)
      (fun e t => OnlyInput s t ∧ t.inputRecursionDepth = s.inputRecursionDepth + e.leak ∧
        e.Malformed) := by
  unfold Wp
  rw [Code.exec_consume]
  simp only [onInput, InputTransport.consume]
  by_cases hr : s.input.remaining < len.toNat
  · simp only [hr, if_true]
    exact ⟨⟨List.suffix_rfl, rfl⟩, by simp [Thrown.leak], .endOfFile⟩
  · simp only [hr, hlen, if_true, if_false]
    exact ⟨⟨List.drop_suffix _ _, rfl⟩, trivial⟩

/-- The body of a string. What is consumed has been borrowed. -/
theorem safe_readStringBody (size : Int32) : Safe M L (prot.readStringBody size : Code σ _) 0 := by
  unfold readStringBody
  split_ifs
  · exact Safe.raise (.protocol _ _) (leak_protocol (by decide))
  · exact Safe.raise (.protocol _ _) (leak_protocol (by decide))
  · exact Safe.ret _
  · intro s hs
    refine Safe.wp_bind (Wp.run_ok Code.exec_borrow ?_)
    by_cases hlen : size.toUInt32.toNat ≤ s.input.bytes.length
    · rw [if_pos hlen]
      refine Safe.wp_bind ((wp_consume hlen).mono ?_ fun _ _ h => h)
      rintro _ t ⟨h1, h2⟩
      exact Wp.ret ⟨h1, h2, h1.length_le⟩
    · rw [if_neg hlen]
      exact ((Safe.readAll _).bind fun _ => Safe.ret _).weaken (Nat.zero_le _) s hs

theorem safe_readString : Safe M L (prot.readString : Code σ _) 4 :=
  safe_readI32.bind fun _ => (safe_readStringBody _).bind fun _ => Safe.ret _

theorem safe_readSize : Safe M L (prot.readSize : Code σ _) 4 := by
  refine safe_readI32.bind (m := 0) fun r => ?_
  obtain ⟨sizei, n⟩ := r
  simp only
  split_ifs
  · exact Safe.raise (.protocol _ _) (leak_protocol (by decide))
  · exact Safe.raise (.protocol _ _) (leak_protocol (by decide))
  · exact Safe.ret _

theorem safe_getMinSerializedSize (type : TType) :
    Safe M L (getMinSerializedSize type : Code σ _) 0 := by
  cases type <;> first
    | exact Safe.ret _
    | exact Safe.raise (.protocol _ _) (leak_protocol (by decide))

theorem safe_readElemsBegin : Safe M L (prot.readElemsBegin : Code σ _) 5 :=
  safe_readByte.bind (m := 4) fun _ => safe_readSize.bind (m := 0) fun _ =>
    (safe_getMinSerializedSize _).bind (m := 0) fun _ =>
      (Safe.checkReadBytesAvailable _).bind (m := 0) fun _ => Safe.ret _

theorem safe_readMapBegin : Safe M L (prot.readMapBegin : Code σ _) 6 :=
  safe_readByte.bind (m := 5) fun _ => safe_readByte.bind (m := 4) fun _ =>
    safe_readSize.bind (m := 0) fun _ => (safe_getMinSerializedSize _).bind (m := 0) fun _ =>
      (safe_getMinSerializedSize _).bind (m := 0) fun _ =>
        (Safe.checkReadBytesAvailable _).bind (m := 0) fun _ => Safe.ret _

theorem safe_readFieldBegin : Safe M L (readFieldBegin : Code σ _) 1 := by
  refine safe_readByte.bind (m := 0) fun r => ?_
  obtain ⟨type, n⟩ := r
  simp only
  split_ifs
  · exact Safe.ret _
  · exact ((safe_fixed 2 2 fun b => Int16.ofBitVec (BigEndian.decode 2 b)).bind
      fun _ => Safe.ret _).weaken (Nat.zero_le _)

end Readers

/-! ## Skipping -/

section Skip

variable {L : ℕ}

theorem safe_skipTimes {p : Code σ UInt32} (hp : Safe M L p 0) (n : ℕ) :
    Safe M L (skipTimes p n) 0 := by
  induction n with
  | zero => exact Safe.ret _
  | succ n ih => exact hp.bind (m := 0) fun _ => ih.bind (m := 0) fun _ => Safe.ret _

/-- The loop over the fields takes at least the byte of `T_STOP`. -/
theorem safe_readFields {α : Type} {field : α → TType → Int16 → Code σ (α × UInt32)} (fuel : ℕ)
    (hL : L ≤ fuel) (hp : ∀ a type id, Safe M (L - 1) (field a type id) 0) (a : α) :
    Safe M L (readFields field fuel a) 1 := by
  induction fuel generalizing L a with
  | zero =>
      intro s hs
      omega
  | succ fuel ih =>
      refine safe_readFieldBegin.bind (m := 0) fun r => ?_
      obtain ⟨⟨ftype, id⟩, n1⟩ := r
      simp only
      split_ifs
      · exact Safe.ret _
      · refine (hp a ftype id).bind (m := 0) fun b => ?_
        have hrest := ih (L := L - 1) (by omega) (fun a type id => (hp a type id).mono (by omega)) b.1
        exact (hrest.weaken (Nat.zero_le _)).bind (m := 0) fun n3 => Safe.ret _

theorem safe_skipFields {skip : TType → Code σ UInt32} (fuel : ℕ) (hL : L ≤ fuel)
    (hp : ∀ type, Safe M (L - 1) (skip type) 0) : Safe M L (skipFields skip fuel) 1 :=
  (safe_readFields fuel hL (fun _ type _ => (hp type).bind (m := 0) fun _ => Safe.ret _) ()).bind
    (m := 0) fun _ => Safe.ret _

theorem safe_skipElems {skip : TType → Code σ UInt32} (hp : ∀ type, Safe M (L - 5) (skip type) 0) :
    Safe M L (skipElems prot.readElemsBegin skip) 5 :=
  safe_readElemsBegin.bind (m := 0) fun _ =>
    (safe_skipTimes (hp _) _).bind (m := 0) fun _ => Safe.ret _

theorem safe_skipEntries {skip : TType → Code σ UInt32}
    (hp : ∀ type, Safe M (L - 6) (skip type) 0) : Safe M L (prot.skipEntries skip) 6 :=
  safe_readMapBegin.bind (m := 0) fun _ => (safe_skipTimes ((hp _).bind (m := 0) fun _ =>
    (hp _).bind (m := 0) fun _ => Safe.ret _) _).bind (m := 0) fun _ => Safe.ret _

/-- The `switch` takes at least one byte, if `skip` is safe on what is left then. -/
theorem safe_skipValue {skip : TType → Code σ UInt32} {fuel : ℕ} (hL : L ≤ fuel)
    (hp : ∀ type, Safe M (L - 1) (skip type) 0) (type : TType) :
    Safe M L (prot.skipValue skip fuel type) 1 := by
  have hbad : Safe M L (Code.throw (.protocol .invalidData "invalid TType") : Code σ UInt32) 1 :=
    Safe.raise (.protocol _ _) (leak_protocol (by decide))
  cases type with
  | bool => exact (safe_fixed 1 1 _).bind (m := 0) fun _ => Safe.ret _
  | byte => exact safe_readByte.bind (m := 0) fun _ => Safe.ret _
  | i16 => exact ((safe_fixed 2 2 _).bind (m := 0) fun _ => Safe.ret _).weaken (by decide)
  | i32 => exact ((safe_fixed 4 4 _).bind (m := 0) fun _ => Safe.ret _).weaken (by decide)
  | i64 => exact ((safe_fixed 8 8 _).bind (m := 0) fun _ => Safe.ret _).weaken (by decide)
  | double => exact ((safe_fixed 8 8 _).bind (m := 0) fun _ => Safe.ret _).weaken (by decide)
  | string => exact (safe_readString.bind (m := 0) fun _ => Safe.ret _).weaken (by decide)
  | struct => exact safe_skipFields fuel hL hp
  | map => exact (safe_skipEntries fun type => (hp type).mono (by omega)).weaken (by decide)
  | set => exact (safe_skipElems fun type => (hp type).mono (by omega)).weaken (by decide)
  | list => exact (safe_skipElems fun type => (hp type).mono (by omega)).weaken (by decide)
  | _ => exact hbad

/-- The tracker undoes what it has done, unless it raises. -/
theorem safe_track {α : Type} {body : Code σ α} {k : ℕ} (hb : Safe M L body k) :
    Safe M L (prot.trackInputRecursion body) k := by
  intro s hs
  unfold Wp
  rw [exec_track]
  split_ifs
  · refine ⟨⟨List.suffix_rfl, rfl⟩, ?_, .protocol _ _⟩
    rw [Thrown.leak, if_pos rfl]
    rfl
  · have h := hb s.deeper hs
    unfold Wp at h
    cases hx : body.exec M s.deeper with
    | ok a t =>
        rw [hx] at h
        obtain ⟨h1, h2, h3⟩ := h
        refine ⟨h1.shallower, ?_, h3⟩
        show t.inputRecursionDepth - 1 = _
        rw [h2]
        exact UInt32.add_sub_cancel _ _
    | error e t =>
        rw [hx] at h
        obtain ⟨h1, h2, h3⟩ := h
        refine ⟨h1.shallower, ?_, h3⟩
        show t.inputRecursionDepth - 1 = _
        rw [h2]
        show s.inputRecursionDepth + 1 + e.leak - 1 = _
        rw [UInt32.add_assoc, UInt32.add_comm 1, ← UInt32.add_assoc, UInt32.add_sub_cancel]

/-- **`skip` on any input** returns or raises a `TException`, and touches nothing but the input. It
takes a byte when it returns, and does not run out of fuel. -/
theorem skip_safe (fuel : ℕ) (type : TType) : Safe M fuel (prot.skip fuel type : Code σ _) 1 := by
  induction fuel generalizing type with
  | zero =>
      intro s hs
      omega
  | succ fuel ih =>
      exact safe_track (safe_skipValue le_rfl (fun type => (ih type).weaken (Nat.zero_le _)) type)

end Skip

/-! ## Fuel -/

/-- On inputs of fewer than `L` bytes, `p` and `q` do the same. -/
def Agree {α : Type} (M : Malloc) (L : ℕ) (p q : Code σ α) : Prop :=
  ∀ s : Session Unread σ, s.input.bytes.length < L → p.exec M s = q.exec M s

section Fuel

variable {α β : Type} {L k : ℕ}

theorem Agree.bind {p q : Code σ α} {f g : α → Code σ β} (h : Agree M L p q)
    (hs : Safe M L p k) (hf : ∀ a, Agree M (L - k) (f a) (g a)) :
    Agree M L (p >>= f) (q >>= g) := by
  intro s hL
  have hsafe := hs s hL
  have hpq := h s hL
  simp only [Code.exec, Program.exec_bind] at hpq ⊢
  rw [← hpq]
  unfold Wp at hsafe
  cases hx : Program.exec (sessionHandler M) p s with
  | error e t => rfl
  | ok a t =>
      simp only [Code.exec, hx] at hsafe
      exact hf a t (by omega)

theorem Agree.refl (p : Code σ α) : Agree M L p p := fun _ _ => rfl

theorem Agree.mono {p q : Code σ α} (h : Agree M L p q) {l : ℕ} (hl : l ≤ L) : Agree M l p q :=
  fun s hs => h s (by omega)

/-- Two ways to skip that agree on inputs of fewer than `L` bytes, and are safe there. -/
def AgreeSafely (M : Malloc) (L : ℕ) (p q : TType → Code σ UInt32) : Prop :=
  ∀ type, Agree M L (p type) (q type) ∧ Safe M L (p type) 0

theorem AgreeSafely.mono {p q : TType → Code σ UInt32} (h : AgreeSafely M L p q) {l : ℕ}
    (hl : l ≤ L) : AgreeSafely M l p q :=
  fun type => ⟨(h type).1.mono hl, (h type).2.mono hl⟩

theorem agree_skipTimes {p q : Code σ UInt32} (h : Agree M L p q) (hs : Safe M L p 0) (n : ℕ) :
    Agree M L (skipTimes p n) (skipTimes q n) := by
  induction n with
  | zero => exact Agree.refl _
  | succ n ih =>
      exact h.bind hs fun _ => ih.bind (safe_skipTimes hs n) fun _ => Agree.refl _

/-- Two readers of fields that agree, and are safe. -/
theorem agree_readFields {f g : α → TType → Int16 → Code σ (α × UInt32)} {fuel fuel' : ℕ}
    (hL : L ≤ fuel) (hL' : L ≤ fuel')
    (h : ∀ a type id, Agree M (L - 1) (f a type id) (g a type id) ∧
      Safe M (L - 1) (f a type id) 0) (a : α) :
    Agree M L (readFields f fuel a) (readFields g fuel' a) := by
  induction fuel generalizing fuel' L a with
  | zero =>
      intro s hs
      omega
  | succ fuel ih =>
      cases fuel' with
      | zero =>
          intro s hs
          omega
      | succ fuel' =>
          refine (Agree.refl _).bind safe_readFieldBegin fun r => ?_
          obtain ⟨⟨ftype, id⟩, n1⟩ := r
          simp only
          split_ifs
          · exact Agree.refl _
          · refine (h a ftype id).1.bind (h a ftype id).2 fun b => ?_
            have hrest : Agree M (L - 1 - 0) (readFields f fuel b.1) (readFields g fuel' b.1) :=
              ih (by omega) (by omega) (fun a type id =>
                ⟨(h a type id).1.mono (by omega), (h a type id).2.mono (by omega)⟩) b.1
            refine hrest.bind (k := 0) ?_ fun n3 => Agree.refl _
            exact (safe_readFields fuel (by omega) (fun a type id =>
              (h a type id).2.mono (by omega)) b.1).weaken (Nat.zero_le _)

theorem agree_skipFields {p q : TType → Code σ UInt32} {fuel fuel' : ℕ} (hL : L ≤ fuel)
    (hL' : L ≤ fuel') (h : AgreeSafely M (L - 1) p q) :
    Agree M L (skipFields p fuel) (skipFields q fuel') := by
  have hsafe (type : TType) :
      Safe M (L - 1) (do return ((), ← p type) : Code σ (Unit × UInt32)) 0 :=
    (h type).2.bind (m := 0) fun _ => Safe.ret _
  refine (agree_readFields hL hL' (fun _ type _ => ⟨?_, hsafe type⟩) ()).bind
    (safe_readFields fuel hL (fun _ type _ => hsafe type) ()) fun _ => Agree.refl _
  exact (h type).1.bind (h type).2 fun _ => Agree.refl _

theorem agree_skipElems {p q : TType → Code σ UInt32} (h : AgreeSafely M (L - 1) p q) :
    Agree M L (skipElems prot.readElemsBegin p) (skipElems prot.readElemsBegin q) := by
  refine (Agree.refl _).bind safe_readElemsBegin fun r => ?_
  have h5 := h.mono (l := L - 5) (by omega)
  exact (agree_skipTimes (h5 _).1 (h5 _).2 _).bind (safe_skipTimes (h5 _).2 _) fun _ =>
    Agree.refl _

theorem agree_skipEntries {p q : TType → Code σ UInt32} (h : AgreeSafely M (L - 1) p q) :
    Agree M L (prot.skipEntries p) (prot.skipEntries q) := by
  refine (Agree.refl _).bind safe_readMapBegin fun r => ?_
  obtain ⟨⟨k, v, size⟩, n1⟩ := r
  have h6 := h.mono (l := L - 6) (by omega)
  have hentry : Agree M (L - 6) (skipEntry p k v) (skipEntry q k v) :=
    (h6 k).1.bind (h6 k).2 fun _ => (h6 v).1.bind (h6 v).2 fun _ => Agree.refl _
  have hsafe : Safe M (L - 6) (skipEntry p k v) 0 :=
    (h6 k).2.bind (m := 0) fun _ => (h6 v).2.bind (m := 0) fun _ => Safe.ret _
  exact (agree_skipTimes hentry hsafe _).bind (safe_skipTimes hsafe _) fun _ => Agree.refl _

theorem agree_skipValue {p q : TType → Code σ UInt32} {fuel fuel' : ℕ} (hL : L ≤ fuel)
    (hL' : L ≤ fuel') (h : AgreeSafely M (L - 1) p q) (type : TType) :
    Agree M L (prot.skipValue p fuel type) (prot.skipValue q fuel' type) := by
  cases type with
  | struct => exact agree_skipFields hL hL' h
  | map => exact agree_skipEntries h
  | set => exact agree_skipElems h
  | list => exact agree_skipElems h
  | _ => exact Agree.refl _

/-- **More fuel changes nothing.** -/
theorem skip_fuel {fuel fuel' : ℕ} (hL : L ≤ fuel) (hL' : L ≤ fuel') (type : TType) :
    Agree M L (prot.skip fuel type : Code σ _) (prot.skip fuel' type) := by
  induction fuel generalizing fuel' L type with
  | zero =>
      intro s hs
      omega
  | succ fuel ih =>
      cases fuel' with
      | zero =>
          intro s hs
          omega
      | succ fuel' =>
          intro s hs
          have h : AgreeSafely M (L - 1) (prot.skip fuel : TType → Code σ _) (prot.skip fuel') :=
            fun type => ⟨ih (by omega) (by omega) type,
              ((skip_safe fuel type).mono (by omega)).weaken (Nat.zero_le _)⟩
          rw [skip, skip, exec_track, exec_track]
          rw [agree_skipValue hL hL' h type s.deeper hs]

end Fuel

/-! ## Accepted and refused inputs -/

/-- The value `w` of type `type` is skipped, from `s` to `t`. -/
def Skipped (prot : TBinaryProtocol) (type : TType) (s : Session Unread σ) (n : UInt32)
    (t : Session Unread σ) (w : Wire) : Prop :=
  (w.type = type ∧ w.Skippable s.inputRecursionDepth.toNat prot.recursionLimit.toNat) ∧
    Consumes w.bytes (w.spend prot) s n t

theorem Skipped.unique {type : TType} {s t t' : Session Unread σ} {n n' : UInt32} {w w' : Wire}
    (h : Skipped prot type s n t w) (h' : Skipped prot type s n' t' w') : w = w' := by
  obtain ⟨r, ht⟩ := h.2.took
  obtain ⟨r', ht'⟩ := h'.2.took
  exact (w.unique h.1.2.1 w' h'.1.2.1 (h.1.1.trans h'.1.1.symm) _ _ (ht.bytes.symm.trans ht'.bytes)).1

end ThriftBridge
