import ThriftBridge.Transport.Ownership

/-!
# What each method does

One equation for every method on a constructed object: how it ends and the world it leaves, in
terms of `newString`, `takeRef`, `dropRef` and `setObj`. Later modules use these equations and
never unfold a method.

* primitives: `zstr_run`, `zendStringRelease_run`, `memcpy_run`, `modifyObj_run`;
* `construct_run`, `write_run`, `read_run`, `flush_run`, `dtorObject_run`, and what each does when
  its arguments are rejected, its allocation is refused or the executor fails;
* the arithmetic of `read`: `clampLen_toNat`, `advance_toInt`.
-/

set_option autoImplicit false

namespace ThriftBridge

open RefCount World

variable {ε : Type}

/-! ## Sequencing -/

theorem bind_ok {α β : Type} {x : CM ε α} {f : α → CM ε β} {w w' : World ε} {a : α}
    (h : x w = .ok a w') : (x >>= f) w = f a w' := by
  simp only [bind, EStateM.bind, h]

theorem bind_error {α β : Type} {x : CM ε α} {f : α → CM ε β} {w w' : World ε} {s : Stop}
    (h : x w = .error s w') : (x >>= f) w = .error s w' := by
  simp only [bind, EStateM.bind, h]

theorem pure_run {α : Type} (a : α) (w : World ε) : (pure a : CM ε α) w = .ok a w := rfl

/-! ## Primitives -/

variable {w : World ε} {b : ℕ} {o : TransportObject} {r : StrRef} {s : ZendString}

theorem getObj_run (ho : w.objs b = some o) : getObj b w = .ok o w := by
  simp only [getObj, ho]

theorem modifyObj_run (ho : w.objs b = some o) (f : TransportObject → TransportObject) :
    modifyObj b f w = .ok () (w.setObj b (f o)) := by
  simp only [modifyObj, ho]

theorem zstr_run (hs : w.deref r = some s) : zstr (some r) w = .ok s w := by
  simp only [zstr, hs]

theorem zendStringCopy_run (h : Holder) (hs : w.deref r = some s) :
    zendStringCopy h r w = .ok r (w.takeRef h r) := by
  simp only [zendStringCopy, hs]

theorem zendStringRelease_run (h : Holder) (hs : w.deref r = some s) :
    zendStringRelease h (some r) w = .ok () (w.dropRef h r) := by
  simp only [zendStringRelease, hs]

theorem zendStringInit_run (Z : ZendApi) (h : Holder) (s : ZendString)
    (hg : Z.grant w.heap.next s.val.length = true) :
    zendStringInit Z h s.val w = .ok (.counted w.heap.next) (w.newString h s) := by
  simp only [zendStringInit, hg, dif_pos]

theorem zendStringInit_refused (Z : ZendApi) (h : Holder) (bytes : Bytes)
    (hg : Z.grant w.heap.next bytes.length = false) :
    zendStringInit Z h bytes w = .error .bailout w := by
  simp [zendStringInit, hg]

/-- A new string does not change the ones there are. -/
theorem deref_newString (h : Holder) (t : ZendString) (hs : w.deref r = some s) :
    (w.newString h t).deref r = some s := by
  cases r with
  | interned => exact hs
  | counted a =>
      obtain ⟨h1, h2⟩ := CountedHeap.get?_eq_some.mp hs
      refine CountedHeap.get?_eq_some.mpr ⟨?_, CountedHeap.content_alloc t h2⟩
      simp only [newString, CountedHeap.count_alloc]
      split_ifs <;> omega

theorem deref_newString_self (w : World ε) (h : Holder) (s : ZendString) :
    (w.newString h s).deref (.counted w.heap.next) = some s := by
  refine CountedHeap.get?_eq_some.mpr ⟨?_, CountedHeap.content_alloc_next _ s⟩
  simp only [newString, CountedHeap.count_alloc, if_true]
  omega

/-- `memcpy` into a new string. -/
theorem memcpy_run (w : World ε) (h : Holder) (s : ZendString) (off : UInt64) (src : Bytes)
    (hle : off.toNat + src.length ≤ s.val.length) :
    memcpy (.counted w.heap.next) off src (w.newString h s) =
      .ok () (w.newString h (s.splice off.toNat src hle)) := by
  have hg : (w.newString h s).heap.get? w.heap.next = some s := deref_newString_self w h s
  simp only [memcpy, hg, dif_pos hle]
  simp only [newString, CountedHeap.fill_alloc]

/-- Two updates of an object are one. -/
theorem setObj_setObj (w : World ε) (b : ℕ) (o o' : TransportObject) :
    (w.setObj b o).setObj b o' = w.setObj b o' := by
  simp only [setObj, Function.update_idem]

theorem setObj_self (w : World ε) (b : ℕ) (o : TransportObject) :
    (w.setObj b o).objs b = some o := by
  rw [setObj_objs, Function.update_self]

/-! ## `__construct` -/

/-- The object after a completed `__construct`. -/
def constructed (o : TransportObject) (name : StrRef) : TransportObject :=
  { o with serviceName := some name, wBuf := some emptyAlloc, rBuf := some emptyAlloc, rBufPos := 0 }

/-- The world after a completed `__construct`. -/
def constructedWorld (w : World ε) (b : ℕ) (o : TransportObject) (r : StrRef) : World ε :=
  (w.takeRef (some b) r).setObj b (constructed o r)

theorem construct_run {this : ℕ} (ho : w.objs (fetchObject this) = some o)
    (hs : w.deref r = some s) :
    construct this (some r) w = .ok .null (constructedWorld w (fetchObject this) o r) := by
  have ho' : (w.takeRef (some (fetchObject this)) r).objs (fetchObject this) = some o := by
    rw [takeRef_objs, ho]
  simp only [construct]
  rw [bind_ok (zendStringCopy_run _ hs), bind_ok (modifyObj_run ho' _),
    bind_ok (modifyObj_run (setObj_self _ _ _) _), bind_ok (modifyObj_run (setObj_self _ _ _) _),
    bind_ok (modifyObj_run (setObj_self _ _ _) _), pure_run]
  simp only [setObj_setObj, constructedWorld, constructed]

/-- A released service name is followed at once. -/
theorem construct_released {this : ℕ} (hd : w.deref r = none) :
    construct this (some r) w = .error .useAfterFree w := by
  simp only [construct]
  exact bind_error (by simp only [zendStringCopy, hd])

theorem construct_rejected (this : ℕ) (w : World ε) :
    construct this none w = .ok (.raised .badParameters) w := rfl

/-! ## `write` -/

/-- The contents of the buffer after a `write`. -/
def appended (a b : ZendString) (h : (a.val ++ b.val).length < 2 ^ 63) : ZendString :=
  ⟨a.val ++ b.val, h⟩

/-- The world after a `write` that leaves the string `s` in the buffer `rw` pointed to. -/
def wroteWorld (w : World ε) (b : ℕ) (o : TransportObject) (rw : StrRef) (s : ZendString) :
    World ε :=
  ((w.newString (some b) s).dropRef (some b) rw).setObj b
    { o with wBuf := some (.counted w.heap.next) }

theorem add_len_toNat (a b : ZendString) : (a.len + b.len).toNat = (a.val ++ b.val).length := by
  have h1 := a.len_lt
  have h2 := b.len_lt
  rw [UInt64.toNat_add, ZendString.len_toNat, ZendString.len_toNat, List.length_append]
  omega

theorem write_rejected (Z : ZendApi) (this : ℕ) (w : World ε) :
    write Z this none w = .ok (.raised .badParameters) w := rfl

/-- Without a buffer there is a null pointer to follow. -/
theorem write_null {Z : ZendApi} {this : ℕ} {buf : StrRef}
    (ho : w.objs (fetchObject this) = some o) (hw : o.wBuf = none) :
    write Z this (some buf) w = .error .nullDeref w := by
  simp only [write]
  rw [bind_ok (getObj_run ho), hw]
  exact bind_error rfl

/-- A released string is followed at once. -/
theorem write_released {Z : ZendApi} {this : ℕ} {buf rw : StrRef}
    (ho : w.objs (fetchObject this) = some o) (hw : o.wBuf = some rw)
    (hd : w.deref rw = none ∨ w.deref buf = none) :
    write Z this (some buf) w = .error .useAfterFree w := by
  simp only [write]
  rw [bind_ok (getObj_run ho), hw]
  cases hp : w.deref rw with
  | none => exact bind_error (by simp only [zstr, hp])
  | some p =>
      rw [bind_ok (zstr_run hp)]
      have hb := hd.resolve_left (by simp [hp])
      exact bind_error (by simp only [zstr, hb])

/-- A `write` whose allocation is refused has not done anything. -/
theorem write_refused {Z : ZendApi} {this : ℕ} {buf rw : StrRef} {p : ZendString}
    (ho : w.objs (fetchObject this) = some o) (hw : o.wBuf = some rw) (hp : w.deref rw = some p)
    (hs : w.deref buf = some s) (hg : Z.grant w.heap.next (p.val ++ s.val).length = false) :
    write Z this (some buf) w = .error .bailout w := by
  simp only [write]
  rw [bind_ok (getObj_run ho), hw, bind_ok (zstr_run hp), bind_ok (zstr_run hs)]
  refine bind_error (zendStringInit_refused Z _ _ ?_)
  rw [List.length_replicate, add_len_toNat, hg]

/-- **`write` appends.** -/
theorem write_run {Z : ZendApi} {this : ℕ} {buf rw : StrRef} {p : ZendString}
    (ho : w.objs (fetchObject this) = some o) (hw : o.wBuf = some rw) (hp : w.deref rw = some p)
    (hs : w.deref buf = some s) (hg : Z.grant w.heap.next (p.val ++ s.val).length = true) :
    write Z this (some buf) w = .ok .null
      (wroteWorld w (fetchObject this) o rw (appended p s (Z.lt_of_grant _ _ hg))) := by
  have hlen := add_len_toNat p s
  have hlt := Z.lt_of_grant _ _ hg
  -- the string as it is allocated, before the two copies
  obtain ⟨z, hz⟩ : ∃ z : ZendString, z.val = List.replicate (p.len + s.len).toNat 0 :=
    ⟨⟨List.replicate (p.len + s.len).toNat 0, by rw [List.length_replicate, hlen]; exact hlt⟩, rfl⟩
  have hzl : z.val.length = p.val.length + s.val.length := by
    rw [hz, List.length_replicate, hlen, List.length_append]
  have h₁ : (0 : UInt64).toNat + p.val.length ≤ z.val.length := by simp [hzl]
  have h₂ : p.len.toNat + s.val.length ≤ (z.splice (0 : UInt64).toNat p.val h₁).val.length := by
    rw [ZendString.splice_length, ZendString.len_toNat, hzl]
  have hfull : (z.splice (0 : UInt64).toNat p.val h₁).splice p.len.toNat s.val h₂ =
      appended p s hlt := by
    refine ZendString.ext ?_
    simp only [ZendString.len_toNat, UInt64.toNat_zero]
    exact ZendString.splice_splice_val z p.val s.val hzl _ _
  have ho' : ((w.newString (some (fetchObject this)) (appended p s hlt)).dropRef
      (some (fetchObject this)) rw).objs (fetchObject this) = some o := by
    rw [dropRef_objs, newString_objs, ho]
  simp only [write, zendStringSafeAlloc]
  rw [bind_ok (getObj_run ho), hw, bind_ok (zstr_run hp), bind_ok (zstr_run hs), ← hz,
    bind_ok (zendStringInit_run Z _ z (by rw [hzl, ← List.length_append, hg])),
    bind_ok (memcpy_run w _ z 0 p.val h₁), bind_ok (memcpy_run w _ _ p.len s.val h₂), hfull,
    bind_ok (zendStringRelease_run _ (deref_newString _ _ hp)), bind_ok (modifyObj_run ho' _),
    pure_run, wroteWorld]

/-! ## `read` -/

theorem read_rejected (Z : ZendApi) (this : ℕ) (w : World ε) :
    read Z this none w = .ok (.raised .badParameters) w := rfl

/-- A cursor inside the buffer. -/
def InBuffer (pos : Int64) (s : ZendString) : Prop :=
  0 ≤ pos.toInt ∧ pos.toInt ≤ s.val.length

theorem inBuffer_zero (s : ZendString) : InBuffer 0 s := by simp [InBuffer]

/-- The bytes a buffer still has for `read`. -/
def unread (s : ZendString) (pos : Int64) : Bytes := s.val.drop pos.toInt.toNat

/-- **The clamp.** With the cursor inside the buffer, a length that is not negative is clamped to
what is left, and a negative one takes all that is left. -/
theorem clampLen_toNat (len pos : Int64) {s : ZendString} (hp : InBuffer pos s) :
    (clampLen len pos s.len).toNat =
      if len.toInt < 0 then (unread s pos).length else min len.toInt.toNat (unread s pos).length := by
  obtain ⟨h0, h1⟩ := hp
  have hs := s.len_lt
  have hl := toNat_toUInt64 len
  have hlo := Int64.le_toInt len
  have hhi := Int64.toInt_lt len
  have hpos := toNat_toUInt64 pos
  have hrem : (s.len - pos.toUInt64).toNat = s.val.length - pos.toInt.toNat := by
    rw [UInt64.toNat_sub, ZendString.len_toNat]
    omega
  have hun : (unread s pos).length = s.val.length - pos.toInt.toNat := List.length_drop
  simp only [clampLen, gt_iff_lt, UInt64.lt_iff_toNat_lt, hrem, hun, apply_ite UInt64.toNat]
  split_ifs <;> omega

/-- The cursor after `n` bytes. -/
theorem advance_toInt (pos : Int64) (n : UInt64) (h0 : 0 ≤ pos.toInt)
    (hlt : pos.toInt + n.toNat < 2 ^ 63) :
    (pos.toUInt64 + n).toInt64.toInt = pos.toInt + n.toNat := by
  have hpos := toNat_toUInt64 pos
  rw [toInt_toInt64, UInt64.toNat_add, Int.bmod]
  omega

theorem clampLen_le (len pos : Int64) {s : ZendString} (hp : InBuffer pos s) :
    (clampLen len pos s.len).toNat ≤ (unread s pos).length := by
  rw [clampLen_toNat len pos hp]
  split_ifs <;> omega

/-- The cursor stays inside the buffer. -/
theorem inBuffer_advance (len pos : Int64) {s : ZendString} (hp : InBuffer pos s) :
    InBuffer (pos.toUInt64 + clampLen len pos s.len).toInt64 s := by
  have hle := clampLen_le len pos hp
  have hun : (unread s pos).length = s.val.length - pos.toInt.toNat := List.length_drop
  have hs := s.len_lt
  obtain ⟨h0, h1⟩ := hp
  have hadv := advance_toInt pos (clampLen len pos s.len) h0 (by omega)
  constructor <;> rw [hadv] <;> omega

/-- What is left after a `read`. -/
theorem unread_advance (len pos : Int64) {s : ZendString} (hp : InBuffer pos s) :
    unread s (pos.toUInt64 + clampLen len pos s.len).toInt64 =
      (unread s pos).drop (clampLen len pos s.len).toNat := by
  have hle := clampLen_le len pos hp
  have hun : (unread s pos).length = s.val.length - pos.toInt.toNat := List.length_drop
  have hs := s.len_lt
  obtain ⟨h0, h1⟩ := hp
  have hadv := advance_toInt pos (clampLen len pos s.len) h0 (by omega)
  simp only [unread, List.drop_drop, hadv]
  congr 1
  omega

theorem read_closed {Z : ZendApi} {this : ℕ} (len : Int64)
    (ho : w.objs (fetchObject this) = some o) (hr : o.rBuf = none) :
    read Z this (some len) w = .ok (.raised .closedOrNotFlushed) w := by
  simp only [read]
  rw [bind_ok (getObj_run ho), hr]
  rfl

/-- A released read buffer is followed at once. -/
theorem read_released {Z : ZendApi} {this : ℕ} {rr : StrRef} (len : Int64)
    (ho : w.objs (fetchObject this) = some o) (hr : o.rBuf = some rr) (hd : w.deref rr = none) :
    read Z this (some len) w = .error .useAfterFree w := by
  simp only [read]
  rw [bind_ok (getObj_run ho), hr]
  exact bind_error (by simp only [zstr, hd])

/-- `read` of a positive length raises when nothing is left. -/
theorem read_empty {Z : ZendApi} {this : ℕ} {len : Int64} {rr : StrRef} {t : ZendString}
    (ho : w.objs (fetchObject this) = some o) (hr : o.rBuf = some rr) (ht : w.deref rr = some t)
    (hp : InBuffer o.rBufPos t) (hlen : 0 < len.toInt) (hun : unread t o.rBufPos = []) :
    read Z this (some len) w = .ok (.raised (.cannotRead len)) w := by
  have hz : clampLen len o.rBufPos t.len = 0 := by
    rw [← UInt64.toNat_inj, clampLen_toNat len o.rBufPos hp, if_neg (by omega), hun]
    simp
  have hpos : len > 0 := by rw [gt_iff_lt, Int64.lt_iff_toInt_lt]; exact hlen
  simp only [read]
  rw [bind_ok (getObj_run ho), hr]
  simp only
  rw [bind_ok (zstr_run ht), hz, if_pos ⟨rfl, hpos⟩, pure_run]

/-- The bytes a `read` takes. -/
def slice (s : ZendString) (pos : Int64) (n : UInt64) : Bytes := (unread s pos).take n.toNat

theorem slice_length_lt (s : ZendString) (pos : Int64) (n : UInt64) :
    (slice s pos n).length < 2 ^ 63 := by
  have := s.len_lt
  simp only [slice, unread, List.length_take, List.length_drop]
  omega

theorem retvalStringl_run {Z : ZendApi} {pos : Int64} {n : UInt64} (hp : InBuffer pos s)
    (hn : n.toNat ≤ (unread s pos).length)
    (hg : Z.grant w.heap.next (slice s pos n).length = true) :
    retvalStringl Z s pos n w = .ok (.string (slice s pos n))
      (w.newString none ⟨slice s pos n, slice_length_lt s pos n⟩) := by
  obtain ⟨h0, h1⟩ := hp
  have hun : (unread s pos).length = s.val.length - pos.toInt.toNat := List.length_drop
  simp only [retvalStringl]
  rw [if_neg (by omega)]
  exact bind_ok (zendStringInit_run Z none ⟨slice s pos n, slice_length_lt s pos n⟩ hg)

theorem retvalStringl_refused {Z : ZendApi} {pos : Int64} {n : UInt64} (hp : InBuffer pos s)
    (hn : n.toNat ≤ (unread s pos).length)
    (hg : Z.grant w.heap.next (slice s pos n).length = false) :
    retvalStringl Z s pos n w = .error .bailout w := by
  obtain ⟨h0, h1⟩ := hp
  have hun : (unread s pos).length = s.val.length - pos.toInt.toNat := List.length_drop
  simp only [retvalStringl]
  rw [if_neg (by omega)]
  exact bind_error (zendStringInit_refused Z none _ hg)

/-- The world after a `read` that returned the string `s` and moved the cursor to `pos`. -/
def readWorld (w : World ε) (b : ℕ) (o : TransportObject) (s : ZendString) (pos : Int64) :
    World ε := (w.newString none s).setObj b { o with rBufPos := pos }

section Read

variable {Z : ZendApi} {this : ℕ} {len : Int64} {rr : StrRef} {t : ZendString}

/-- Nothing is raised unless the buffer is used up and the length is positive. -/
theorem clampLen_ne_zero (hp : InBuffer o.rBufPos t)
    (hne : ¬ (0 < len.toInt ∧ unread t o.rBufPos = [])) :
    ¬ (clampLen len o.rBufPos t.len = 0 ∧ len > 0) := by
  rintro ⟨hz, hpos⟩
  rw [gt_iff_lt, Int64.lt_iff_toInt_lt] at hpos
  have hpos' : 0 < len.toInt := hpos
  have hz' := congrArg UInt64.toNat hz
  rw [clampLen_toNat len o.rBufPos hp, if_neg (by omega), UInt64.toNat_zero] at hz'
  refine hne ⟨hpos', List.length_eq_zero_iff.mp ?_⟩
  omega

theorem read_refused (ho : w.objs (fetchObject this) = some o) (hr : o.rBuf = some rr)
    (ht : w.deref rr = some t) (hp : InBuffer o.rBufPos t)
    (hne : ¬ (0 < len.toInt ∧ unread t o.rBufPos = []))
    (hg : Z.grant w.heap.next (slice t o.rBufPos (clampLen len o.rBufPos t.len)).length = false) :
    read Z this (some len) w = .error .bailout w := by
  simp only [read]
  rw [bind_ok (getObj_run ho), hr]
  simp only
  rw [bind_ok (zstr_run ht), if_neg (clampLen_ne_zero hp hne)]
  exact bind_error (retvalStringl_refused hp (clampLen_le len o.rBufPos hp) hg)

/-- **`read` takes the next bytes and moves the cursor by their number.** -/
theorem read_run (ho : w.objs (fetchObject this) = some o) (hr : o.rBuf = some rr)
    (ht : w.deref rr = some t) (hp : InBuffer o.rBufPos t)
    (hne : ¬ (0 < len.toInt ∧ unread t o.rBufPos = []))
    (hg : Z.grant w.heap.next (slice t o.rBufPos (clampLen len o.rBufPos t.len)).length = true) :
    read Z this (some len) w = .ok (.string (slice t o.rBufPos (clampLen len o.rBufPos t.len)))
      (readWorld w (fetchObject this) o ⟨slice t o.rBufPos (clampLen len o.rBufPos t.len),
        slice_length_lt _ _ _⟩ (o.rBufPos.toUInt64 + clampLen len o.rBufPos t.len).toInt64) := by
  simp only [read]
  rw [bind_ok (getObj_run ho), hr]
  simp only
  rw [bind_ok (zstr_run ht), if_neg (clampLen_ne_zero hp hne),
    bind_ok (retvalStringl_run hp (clampLen_le len o.rBufPos hp) hg),
    bind_ok (modifyObj_run (o := o) (by rw [newString_objs, ho]) _), pure_run, readWorld]

/-- **What a `read` can do to the world**, wherever the cursor is. -/
theorem read_cases (Z : ZendApi) (len : Int64) (ho : w.objs (fetchObject this) = some o)
    (hr : o.rBuf = some rr) (ht : w.deref rr = some t) :
    (∃ e, (e = .outOfBounds ∨ e = .bailout) ∧ read Z this (some len) w = .error e w) ∨
      (∃ r, read Z this (some len) w = .ok r w) ∨
      ∃ r s, read Z this (some len) w = .ok r (readWorld w (fetchObject this) o s
        (o.rBufPos.toUInt64 + clampLen len o.rBufPos t.len).toInt64) := by
  simp only [read]
  rw [bind_ok (getObj_run ho), hr]
  simp only
  rw [bind_ok (zstr_run ht)]
  split_ifs with hraise
  · exact Or.inr (Or.inl ⟨_, rfl⟩)
  set n := clampLen len o.rBufPos t.len with hn
  by_cases hout : o.rBufPos.toInt < 0 ∨ (t.val.length : ℤ) < o.rBufPos.toInt + n.toNat
  · refine Or.inl ⟨.outOfBounds, Or.inl rfl, bind_error ?_⟩
    simp only [retvalStringl]
    rw [if_pos hout]
    rfl
  · have hret : retvalStringl Z t o.rBufPos n w =
        (zendStringInit Z none (slice t o.rBufPos n) >>=
          fun _ => pure (Ret.string (slice t o.rBufPos n))) w := by
      simp only [retvalStringl]
      rw [if_neg hout]
      rfl
    cases hg : Z.grant w.heap.next (slice t o.rBufPos n).length with
    | false =>
        refine Or.inl ⟨.bailout, Or.inr rfl, bind_error ?_⟩
        rw [hret, bind_error (zendStringInit_refused Z none _ hg)]
    | true =>
        refine Or.inr (Or.inr ⟨.string (slice t o.rBufPos n),
          ⟨slice t o.rBufPos n, slice_length_lt _ _ _⟩, ?_⟩)
        have hinit := zendStringInit_run (w := w) Z none
          ⟨slice t o.rBufPos n, slice_length_lt t o.rBufPos n⟩ hg
        rw [bind_ok (hret.trans (bind_ok hinit)),
          bind_ok (modifyObj_run (o := o) (by rw [newString_objs, ho]) _), pure_run, readWorld]

end Read

/-! ## `flush` -/

section Flush

variable {Z : ZendApi} {exec : Executor ε} {this : ℕ} {rs rw rr : StrRef} {n p : ZendString}
  {a : Answer} {e : ε}

/-- The world after the executor has answered. -/
def answered (w : World ε) (e : ε) (q : Asked) : World ε := { w with core := e, asked := some q }

/-- The buffers of `w` become `c`. -/
def withBuffers (w : World ε) (c : CountedHeap Bytes) : World ε := { w with cHeap := c }

theorem deref_answered (w : World ε) (e : ε) (q : Asked) (r : StrRef) :
    (answered w e q).deref r = w.deref r := by cases r <;> rfl

theorem deref_withBuffers (w : World ε) (c : CountedHeap Bytes) (r : StrRef) :
    (withBuffers w c).deref r = w.deref r := by cases r <;> rfl

theorem deref_setObj (w : World ε) (b : ℕ) (o : TransportObject) (r : StrRef) :
    (w.setObj b o).deref r = w.deref r := by cases r <;> rfl

theorem dropRef_withBuffers (w : World ε) (c : CountedHeap Bytes) (h : Holder) (r : StrRef) :
    (withBuffers w c).dropRef h r = withBuffers (w.dropRef h r) c := by cases r <;> rfl

/-- Without a write buffer or a service name there is a null pointer to follow. -/
theorem flush_unconstructed (ho : w.objs (fetchObject this) = some o)
    (hw : ∀ rw, o.wBuf = some rw → ∃ p, w.deref rw = some p)
    (hn : o.wBuf = none ∨ o.serviceName = none) :
    flush Z exec this w = .error .nullDeref w := by
  simp only [flush]
  rw [bind_ok (getObj_run ho)]
  cases hb : o.wBuf with
  | none => exact bind_error rfl
  | some rw =>
      obtain ⟨p, hp⟩ := hw rw hb
      rw [bind_ok (zstr_run hp), hn.resolve_left (by rw [hb]; simp)]
      exact bind_error rfl

theorem flush_null (ho : w.objs (fetchObject this) = some o) (hw : o.wBuf = some rw)
    (hn : o.serviceName = some rs) (hp : w.deref rw = some p) (hs : w.deref rs = some n)
    (he : exec w.core n.val p.val = (a, e)) (ha : a.reply = .null) :
    flush Z exec this w = .ok (.raised .rpcFailed) (answered w e ⟨n.val, p.val, a⟩) := by
  have hask : askCore exec n.val p.val w = .ok none (answered w e ⟨n.val, p.val, a⟩) := by
    simp only [askCore, he, ha]
    rfl
  simp only [flush]
  rw [bind_ok (getObj_run ho), hw, bind_ok (zstr_run hp), hn, bind_ok (zstr_run hs), bind_ok hask]
  rfl

theorem flush_unwound (ho : w.objs (fetchObject this) = some o) (hw : o.wBuf = some rw)
    (hn : o.serviceName = some rs) (hp : w.deref rw = some p) (hs : w.deref rs = some n)
    (he : exec w.core n.val p.val = (a, e)) (ha : a.reply = .unwound) :
    flush Z exec this w = .error .unwound (answered w e ⟨n.val, p.val, a⟩) := by
  have hask : askCore exec n.val p.val w = .error .unwound (answered w e ⟨n.val, p.val, a⟩) := by
    simp only [askCore, he, ha]
    rfl
  simp only [flush]
  rw [bind_ok (getObj_run ho), hw, bind_ok (zstr_run hp), hn, bind_ok (zstr_run hs), bind_error hask]

variable {bytes : Bytes}

/-- The world in which `flush` copies the response: the old buffer is released. -/
def released (w : World ε) (b : ℕ) (rr : StrRef) (e : ε) (q : Asked) (bytes : Bytes) : World ε :=
  (withBuffers (answered w e q) (w.cHeap.alloc bytes)).dropRef (some b) rr

theorem askCore_response (w : World ε) (he : exec w.core n.val p.val = (a, e))
    (ha : a.reply = .response bytes) :
    askCore exec n.val p.val w = .ok (some w.cHeap.next)
      (withBuffers (answered w e ⟨n.val, p.val, a⟩) (w.cHeap.alloc bytes)) := by
  simp only [askCore, he, ha]
  rfl

theorem released_heap_next (w : World ε) (b : ℕ) (rr : StrRef) (e : ε) (q : Asked)
    (bytes : Bytes) : (released w b rr e q bytes).heap.next = w.heap.next := by
  rw [released, dropRef_next]
  rfl

theorem readBuffer_released (w : World ε) (b : ℕ) (rr : StrRef) (e : ε) (q : Asked)
    (bytes : Bytes) : readBuffer w.cHeap.next (released w b rr e q bytes) =
      .ok bytes (released w b rr e q bytes) := by
  have hc : (released w b rr e q bytes).cHeap.get? w.cHeap.next = some bytes := by
    have : (released w b rr e q bytes).cHeap = w.cHeap.alloc bytes := by
      cases rr <;> rfl
    rw [this]
    refine CountedHeap.get?_eq_some.mpr ⟨?_, CountedHeap.content_alloc_next _ _⟩
    simp [CountedHeap.count_alloc]
  simp only [readBuffer, hc]

/-- Without a read buffer there is a null pointer to follow, once the response is there. -/
theorem flush_unbuffered (ho : w.objs (fetchObject this) = some o) (hw : o.wBuf = some rw)
    (hn : o.serviceName = some rs) (hr : o.rBuf = none) (hp : w.deref rw = some p)
    (hs : w.deref rs = some n) (he : exec w.core n.val p.val = (a, e))
    (ha : a.reply = .response bytes) :
    flush Z exec this w = .error .nullDeref
      (withBuffers (answered w e ⟨n.val, p.val, a⟩) (w.cHeap.alloc bytes)) := by
  simp only [flush]
  rw [bind_ok (getObj_run ho), hw, bind_ok (zstr_run hp), hn, bind_ok (zstr_run hs),
    bind_ok (askCore_response w he ha), hr]
  exact bind_error rfl

/-- A response that cannot be copied: the old buffer is gone, and the field still points to it. -/
theorem flush_refused {t : ZendString} (ho : w.objs (fetchObject this) = some o)
    (hw : o.wBuf = some rw) (hn : o.serviceName = some rs) (hr : o.rBuf = some rr)
    (hp : w.deref rw = some p) (hs : w.deref rs = some n) (ht : w.deref rr = some t)
    (he : exec w.core n.val p.val = (a, e)) (ha : a.reply = .response bytes)
    (hg : Z.grant w.heap.next bytes.length = false) :
    flush Z exec this w = .error .bailout
      (released w (fetchObject this) rr e ⟨n.val, p.val, a⟩ bytes) := by
  simp only [flush]
  rw [bind_ok (getObj_run ho), hw, bind_ok (zstr_run hp), hn, bind_ok (zstr_run hs),
    bind_ok (askCore_response w he ha), hr]
  simp only
  rw [bind_ok (zendStringRelease_run _ (by rw [deref_withBuffers, deref_answered, ht]))]
  change (readBuffer _ >>= _) (released w (fetchObject this) rr e ⟨n.val, p.val, a⟩ bytes) = _
  rw [bind_ok (readBuffer_released w (fetchObject this) rr e _ bytes)]
  exact bind_error (zendStringInit_refused Z _ _ (by rw [released_heap_next, hg]))

/-- The object after a successful `flush`. -/
def flushed (o : TransportObject) (a : ℕ) : TransportObject :=
  { o with rBuf := some (.counted a), rBufPos := 0, wBuf := some emptyAlloc }

/-- The world after a successful `flush`. -/
def flushedWorld (w : World ε) (b : ℕ) (o : TransportObject) (rw rr : StrRef) (e : ε) (q : Asked)
    (s : ZendString) : World ε :=
  (withBuffers ((((answered w e q).dropRef (some b) rr).newString (some b) s).dropRef (some b) rw)
    ((w.cHeap.alloc s.val).release w.cHeap.next)).setObj b (flushed o w.heap.next)

/-- **`flush` with a response** installs it and clears the write buffer. -/
theorem flush_run {t : ZendString} (ho : w.objs (fetchObject this) = some o)
    (hw : o.wBuf = some rw) (hn : o.serviceName = some rs) (hr : o.rBuf = some rr)
    (hp : w.deref rw = some p) (hs : w.deref rs = some n) (ht : w.deref rr = some t)
    (hp' : (w.dropRef (some (fetchObject this)) rr).deref rw = some p)
    (he : exec w.core n.val p.val = (a, e)) (ha : a.reply = .response bytes)
    (hg : Z.grant w.heap.next bytes.length = true) :
    flush Z exec this w = .ok .null (flushedWorld w (fetchObject this) o rw rr e
      ⟨n.val, p.val, a⟩ ⟨bytes, Z.lt_of_grant _ _ hg⟩) := by
  generalize hb : fetchObject this = b at ho hp' ⊢
  generalize hsd : (⟨bytes, Z.lt_of_grant _ _ hg⟩ : ZendString) = s
  have hsv : bytes = s.val := by rw [← hsd]
  subst hsv
  set q : Asked := ⟨n.val, p.val, a⟩ with hq
  set u := released w b rr e q s.val with hu
  have hnext : u.heap.next = w.heap.next := released_heap_next w b rr e q s.val
  have huo : (u.newString (some b) s).objs b = some o := by
    rw [newString_objs, hu, released, dropRef_objs]
    exact ho
  have hinit : zendStringInit Z (some b) s.val u =
      .ok (.counted w.heap.next) (u.newString (some b) s) := by
    rw [← hnext]
    exact zendStringInit_run Z (some b) s (by rw [hnext]; exact hg)
  have hc : (u.newString (some b) s).cHeap = w.cHeap.alloc s.val := by
    rw [hu, released]
    cases rr <;> rfl
  have hfree : ∀ v : World ε, v.cHeap = w.cHeap.alloc s.val →
      free w.cHeap.next v = .ok () (withBuffers v ((w.cHeap.alloc s.val).release w.cHeap.next)) := by
    intro v hv
    have hcount : 0 < v.cHeap.count w.cHeap.next := by
      rw [hv, CountedHeap.count_alloc, if_pos rfl]
      omega
    rw [free, if_pos hcount, hv]
    rfl
  have hwd : (u.newString (some b) s).deref rw = some p := by
    refine deref_newString _ _ ?_
    rw [hu, released, dropRef_withBuffers, deref_withBuffers]
    cases rr <;> cases rw <;> exact hp'
  simp only [flush, hb]
  rw [bind_ok (getObj_run ho), hw, bind_ok (zstr_run hp), hn, bind_ok (zstr_run hs),
    bind_ok (askCore_response w he ha), hr]
  simp only
  rw [bind_ok (zendStringRelease_run _ (by rw [deref_withBuffers, deref_answered, ht]))]
  change (readBuffer _ >>= _) u = _
  rw [bind_ok (readBuffer_released w b rr e q s.val), ← hu, bind_ok hinit,
    bind_ok (modifyObj_run huo _), bind_ok (hfree _ (by exact hc)),
    bind_ok (modifyObj_run (o := { o with rBuf := some (.counted w.heap.next) })
      (Function.update_self _ _ _) _),
    bind_ok (zendStringRelease_run _ (by
      rw [deref_setObj, deref_withBuffers, deref_setObj, hwd])),
    bind_ok (modifyObj_run (o := { o with rBuf := some (.counted w.heap.next), rBufPos := 0 }) (by
      rw [dropRef_objs, setObj_self]) _), pure_run]
  simp only [flushedWorld, flushed, hu, released]
  cases rr <;> cases rw <;> simp [withBuffers, answered, dropRef, newString, setObj]

end Flush

/-! ## The destructor handler -/

/-- The object in block `b` gives back its reference on a field that is not `NULL`. -/
def dropField (w : World ε) (b : ℕ) : Option StrRef → World ε
  | none => w
  | some r => w.dropRef (some b) r

theorem dropField_ledger (w : World ε) (b : ℕ) (f : Option StrRef) (a : ℕ) :
    (dropField w b f).ledger (some b) a =
      w.ledger (some b) a - (if f = some (.counted a) then 1 else 0 : ℕ) := by
  cases f with
  | none => simp [dropField]
  | some r => simp only [dropField, dropRef_ledger, Option.some.injEq]

theorem dropField_ledger_of_ne (w : World ε) {b : ℕ} {h : Holder} (f : Option StrRef)
    (hh : h ≠ some b) (a : ℕ) : (dropField w b f).ledger h a = w.ledger h a := by
  cases f with
  | none => rfl
  | some r => exact dropRef_ledger_of_ne w r hh a

theorem dropField_objs (w : World ε) (b : ℕ) (f : Option StrRef) :
    (dropField w b f).objs = w.objs := by
  cases f <;> simp [dropField]

/-- A field whose reference the object holds is released without an error. -/
theorem releaseField_run {f : Option StrRef} (hB : w.Balanced)
    (hf : ∀ r, f = some r → w.Holds (some b) r) :
    releaseField b f w = .ok () (dropField w b f) ∧ (dropField w b f).Balanced := by
  cases f with
  | none => exact ⟨rfl, hB⟩
  | some r =>
      obtain ⟨s, hs⟩ := exists_deref hB (hf r rfl)
      exact ⟨zendStringRelease_run (some b) hs, books_dropRef hB (hf r rfl)⟩

/-- The world after the destructor handler. -/
def dtorWorld (w : World ε) (b : ℕ) (o : TransportObject) : World ε :=
  dropField (dropField (dropField w b o.serviceName) b o.wBuf) b o.rBuf

theorem dtorWorld_ledger (w : World ε) (b : ℕ) (o : TransportObject) (a : ℕ) :
    (dtorWorld w b o).ledger (some b) a =
      w.ledger (some b) a - (o.refs.count (.counted a) : ℤ) := by
  rw [dtorWorld, dropField_ledger, dropField_ledger, dropField_ledger,
    TransportObject.count_refs]
  push_cast
  ring

theorem dtorWorld_ledger_of_ne (w : World ε) {b : ℕ} {h : Holder} (o : TransportObject)
    (hh : h ≠ some b) (a : ℕ) : (dtorWorld w b o).ledger h a = w.ledger h a := by
  rw [dtorWorld, dropField_ledger_of_ne _ _ hh, dropField_ledger_of_ne _ _ hh,
    dropField_ledger_of_ne _ _ hh]

theorem dtorWorld_objs (w : World ε) (b : ℕ) (o : TransportObject) :
    (dtorWorld w b o).objs = w.objs := by
  rw [dtorWorld, dropField_objs, dropField_objs, dropField_objs]

theorem dropField_brk (w : World ε) (b : ℕ) (f : Option StrRef) :
    (dropField w b f).brk = w.brk := by
  cases f <;> simp [dropField]

theorem keeps_dropField (w : World ε) (b : ℕ) (f : Option StrRef) : w.Keeps (dropField w b f) := by
  cases f with
  | none => exact Keeps.refl w
  | some r => exact keeps_dropRef w (some b) r

theorem dropField_core (w : World ε) (b : ℕ) (f : Option StrRef) :
    (dropField w b f).core = w.core ∧ (dropField w b f).asked = w.asked := by
  cases f <;> simp [dropField]

theorem dtorWorld_core (w : World ε) (b : ℕ) (o : TransportObject) :
    (dtorWorld w b o).core = w.core ∧ (dtorWorld w b o).asked = w.asked := by
  simp only [dtorWorld, dropField_core, and_self]

theorem keeps_dtor (w : World ε) (b : ℕ) (o : TransportObject) : w.Keeps (dtorWorld w b o) :=
  ((keeps_dropField w b _).trans (keeps_dropField _ b _)).trans (keeps_dropField _ b _)

theorem dtorWorld_brk (w : World ε) (b : ℕ) (o : TransportObject) :
    (dtorWorld w b o).brk = w.brk := by
  rw [dtorWorld, dropField_brk, dropField_brk, dropField_brk]

/-- **The destructor handler** gives back one reference for every field. -/
theorem dtorObject_run (object : ℕ) (hB : w.Balanced) (ho : w.objs (fetchObject object) = some o)
    (hown : w.Owns (fetchObject object) o) :
    dtorObject object w = .ok .null (dtorWorld w (fetchObject object) o) ∧
      (dtorWorld w (fetchObject object) o).Balanced := by
  generalize hb : fetchObject object = b at ho hown ⊢
  have h0 := hown
  simp only [Owns, TransportObject.count_refs] at h0
  -- each release leaves the references for the fields after it
  obtain ⟨e1, B1⟩ := releaseField_run (b := b) (f := o.serviceName) hB fun r hr =>
    hown.holds (TransportObject.mem_refs.mpr (Or.inl hr))
  obtain ⟨e2, B2⟩ := releaseField_run (b := b) (f := o.wBuf) B1 (by
    rintro (s | a) hr
    · trivial
    · have := h0 a
      simp only [Holds, dropField_ledger, hr, if_true] at this ⊢
      omega)
  obtain ⟨e3, B3⟩ := releaseField_run (b := b) (f := o.rBuf) B2 (by
    rintro (s | a) hr
    · trivial
    · have := h0 a
      simp only [Holds, dropField_ledger, hr, if_true] at this ⊢
      omega)
  refine ⟨?_, B3⟩
  simp only [dtorObject, hb]
  rw [bind_ok (getObj_run ho), bind_ok e1, bind_ok e2, bind_ok e3]
  rfl

end ThriftBridge
