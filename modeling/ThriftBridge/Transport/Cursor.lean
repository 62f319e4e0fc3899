import ThriftBridge.Transport.Buffers
import ThriftBridge.Transport.Calls
import ThriftBridge.Transport.Construction
import ThriftBridge.Transport.Exhaustion

/-!
# The read cursor

* `ReadFits`: the arithmetic of a `read` does not wrap, and what it copies is inside the buffer;
* `Cursors`: no cursor is outside of the string that its read buffer was allocated as, in all states
  of all runs (`cursors_step`);
* `CursorInside`: the read buffer can be followed, and the cursor is inside;
  `cursor_inside_iff_kept`: so it is in a run, if and only if no flush leaves a released buffer;
* `Bounded`: what a `read` may do; `bounded_iff_undrained`: when it does no more.
-/

set_option autoImplicit false

namespace ThriftBridge

open RefCount World Machine

variable {ε : Type} {Z : ZendApi} {exec : Executor ε} {w v : World ε} {b this : ℕ}
  {o o' : TransportObject} {r : StrRef} {s t : ZendString} {l : Label} {ev : Event}

/-! ## The arithmetic of `read` -/

/-- The subtraction `total_len - rBufPos` does not wrap, the slice is inside the buffer, and
`rBufPos += read_len` does not overflow. -/
structure ReadFits (len pos : Int64) (s : ZendString) : Prop where
  remaining : ((s.len - pos.toUInt64).toNat : ℤ) = s.val.length - pos.toInt
  slice : pos.toInt + (clampLen len pos s.len).toNat ≤ s.val.length
  advance : (pos.toUInt64 + clampLen len pos s.len).toInt64.toInt =
    pos.toInt + (clampLen len pos s.len).toNat

theorem readFits (len : Int64) {pos : Int64} (hp : InBuffer pos s) : ReadFits len pos s := by
  have hs := s.len_lt
  have hle := clampLen_le len pos hp
  have hun : (unread s pos).length = s.val.length - pos.toInt.toNat := List.length_drop
  obtain ⟨h0, h1⟩ := hp
  have hslice : pos.toInt + (clampLen len pos s.len).toNat ≤ s.val.length := by omega
  refine ⟨?_, hslice, advance_toInt pos _ h0 (by omega)⟩
  have hpos := toNat_toUInt64 pos
  rw [UInt64.toNat_sub, ZendString.len_toNat]
  omega

/-! ## The invariant -/

/-- The pointer was given out for the string `s`. This does not say that it can still be followed. -/
def World.AllocatedAs (w : World ε) : StrRef → ZendString → Prop
  | .interned t, s => t = s
  | .counted a, s => w.heap.content a = some s

theorem World.AllocatedAs.of_deref (hs : w.deref r = some s) : w.AllocatedAs r s := by
  cases r with
  | interned => exact Option.some.inj hs
  | counted a => exact (CountedHeap.get?_eq_some.mp hs).2

theorem World.AllocatedAs.unique (hs : w.AllocatedAs r s) (ht : w.AllocatedAs r t) : s = t := by
  cases r with
  | interned => exact hs.symm.trans ht
  | counted a => exact Option.some.inj (hs.symm.trans ht)

theorem World.AllocatedAs.mono (hK : w.Keeps v) (hs : w.AllocatedAs r s) : v.AllocatedAs r s := by
  cases r with
  | interned => exact hs
  | counted a => exact hK a s hs

/-- The cursor is inside the string that the read buffer was allocated as, if there is one. -/
def World.CursorOk (w : World ε) (o : TransportObject) : Prop :=
  ∀ r, o.rBuf = some r → ∃ s, w.AllocatedAs r s ∧ InBuffer o.rBufPos s

/-- So are all cursors. -/
def Cursors (w : World ε) : Prop := ∀ b o, w.objs b = some o → w.CursorOk o

theorem World.CursorOk.mono (hK : w.Keeps v) (ho : w.CursorOk o) : v.CursorOk o := by
  intro r hr
  obtain ⟨s, hs, hp⟩ := ho r hr
  exact ⟨s, hs.mono hK, hp⟩

/-- A read buffer that can be followed has the cursor inside. -/
theorem World.CursorOk.inBuffer (ho : w.CursorOk o) (hr : o.rBuf = some r) (hs : w.deref r = some s) :
    InBuffer o.rBufPos s := by
  obtain ⟨t, ht, hp⟩ := ho r hr
  rwa [(World.AllocatedAs.of_deref hs).unique ht]

/-- A change moves the cursor and the buffer together. -/
theorem Change.cursorOk (hK : w.Keeps v) (hc : Change w v o o') (ho : w.CursorOk o) :
    v.CursorOk o' := by
  have hkeep := ho.mono hK
  cases hc with
  | wrote => exact hkeep
  | flagged => exact hkeep
  | @took len rr t hrr ht =>
      intro r hr
      obtain ⟨s, hs, -⟩ := hkeep r hr
      have hrr' : rr = r := Option.some.inj (hrr.symm.trans hr)
      subst hrr'
      have hts : s = t := hs.unique ((World.AllocatedAs.of_deref ht).mono hK)
      subst hts
      exact ⟨s, hs, inBuffer_advance len o.rBufPos (ho.inBuffer hrr ht)⟩
  | @installed a s rw hnn hs =>
      intro r hr
      cases hr
      exact ⟨s, hs, inBuffer_zero s⟩

/-- One object changes. -/
theorem Cursors.update (hC : Cursors w) (hK : w.Keeps v)
    (hobjs : v.objs = Function.update w.objs b (some o')) (ho : v.CursorOk o') : Cursors v := by
  intro c p hp
  rw [hobjs] at hp
  by_cases hc : c = b
  · subst hc
    rw [Function.update_self] at hp
    cases hp
    exact ho
  · rw [Function.update_of_ne hc] at hp
    exact (hC c p hp).mono hK

/-- **Every event keeps the cursors inside.** -/
theorem cursors_step (hC : Cursors w) (hK : w.Keeps v) (he : Effect w v l) : Cursors v := by
  cases he with
  | same hobjs _ _ =>
      intro c p hp
      rw [hobjs] at hp
      exact (hC c p hp).mono hK
  | created hnull hobjs _ =>
      refine hC.update hK hobjs fun r hr => ?_
      rw [hnull.2.2] at hr
      cases hr
  | constructed hobjs _ =>
      refine hC.update hK hobjs fun r hr => ?_
      cases hr
      exact ⟨.empty, rfl, inBuffer_zero _⟩
  | changed ho hc hobjs _ _ => exact hC.update hK hobjs (hc.cursorOk hK (hC _ _ ho))
  | @freed b hobjs _ _ =>
      intro c p hp
      rw [hobjs, Function.update_apply] at hp
      split_ifs at hp
      exact (hC c p hp).mono hK

theorem cursors_init (core : ε) : Cursors (World.init core) := fun b o ho => by cases ho

/-! ## What a `read` does -/

/-- The read buffer is `NULL`, or it can be followed. -/
def readable (w : World ε) (b : ℕ) : Bool :=
  match w.objs b with
  | none => true
  | some o => o.rBuf.all fun r => (w.deref r).isSome

/-- There are bytes that a `read` can take, and the engine grants the copy of all of them. -/
def drains (Z : ZendApi) (w : World ε) (b : ℕ) : Bool :=
  match w.objs b with
  | none => false
  | some o =>
    match o.rBuf.bind w.deref with
    | none => false
    | some s =>
      !(unread s o.rBufPos).isEmpty && Z.grant w.heap.next (unread s o.rBufPos).length

theorem drains_of_some (Z : ZendApi) (ho : w.objs b = some o) (hr : o.rBuf = some r)
    (hs : w.deref r = some s) : drains Z w b =
      (!(unread s o.rBufPos).isEmpty && Z.grant w.heap.next (unread s o.rBufPos).length) := by
  simp only [drains, ho, hr, Option.bind_some, hs]

/-- The number of bytes that a `read` takes. -/
theorem slice_length (len pos : Int64) (hp : InBuffer pos s) :
    (slice s pos (clampLen len pos s.len)).length = (clampLen len pos s.len).toNat := by
  rw [slice, List.length_take, min_eq_left (clampLen_le len pos hp)]

/-- A negative length takes all that is left. -/
theorem slice_of_neg {len pos : Int64} (hp : InBuffer pos s) (hlen : len.toInt < 0) :
    slice s pos (clampLen len pos s.len) = unread s pos := by
  rw [slice, clampLen_toNat len pos hp, if_pos hlen, List.take_length]

/-- **What a `read` can be** in any state of a run. -/
theorem read_run_cases (Z : ZendApi) (len : Int64) (hC : Cursors w)
    (ho : w.objs (fetchObject this) = some o) :
    (readable w (fetchObject this) = false ∧
        read Z this (some len) w = .error .useAfterFree w) ∨
      readable w (fetchObject this) = true ∧
        (((0 ≤ len.toInt ∨ drains Z w (fetchObject this) = false) ∧
            (read Z this (some len) w = .error .bailout w ∨
              ∃ e, read Z this (some len) w = .ok (.raised e) w)) ∨
          ∃ r s t, o.rBuf = some r ∧ w.deref r = some s ∧ InBuffer o.rBufPos s ∧
            Z.grant w.heap.next (slice s o.rBufPos (clampLen len o.rBufPos s.len)).length = true ∧
            read Z this (some len) w =
              .ok (.string (slice s o.rBufPos (clampLen len o.rBufPos s.len)))
                (readWorld w (fetchObject this) o t
                  (o.rBufPos.toUInt64 + clampLen len o.rBufPos s.len).toInt64)) := by
  cases hr : o.rBuf with
  | none =>
      refine Or.inr ⟨by simp [readable, ho, hr], Or.inl ⟨Or.inr ?_, Or.inr ?_⟩⟩
      · simp [drains, ho, hr]
      · exact ⟨.closedOrNotFlushed, read_closed len ho hr⟩
  | some r =>
      cases hs : w.deref r with
      | none => exact Or.inl ⟨by simp [readable, ho, hr, hs], read_released len ho hr hs⟩
      | some s =>
          refine Or.inr ⟨by simp [readable, ho, hr, hs], ?_⟩
          have hd := drains_of_some Z ho hr hs
          have hp := (hC _ o ho).inBuffer hr hs
          by_cases hne : 0 < len.toInt ∧ unread s o.rBufPos = []
          · exact Or.inl ⟨Or.inl hne.1.le, Or.inr ⟨_, read_empty ho hr hs hp hne.1 hne.2⟩⟩
          · cases hg :
              Z.grant w.heap.next (slice s o.rBufPos (clampLen len o.rBufPos s.len)).length with
            | false =>
                refine Or.inl ⟨?_, Or.inl (read_refused ho hr hs hp hne hg)⟩
                by_cases hlen : 0 ≤ len.toInt
                · exact Or.inl hlen
                · rw [slice_of_neg hp (by omega)] at hg
                  exact Or.inr (by rw [hd, hg, Bool.and_false])
            | true => exact Or.inr ⟨r, s, _, rfl, hs, hp, hg, read_run ho hr hs hp hne hg⟩

/-! ## Inside the buffer -/

/-- The read buffer of an object can be followed, its cursor is inside, and a `read` of any length
fits. -/
def CursorInside (w : World ε) (o : TransportObject) : Prop :=
  ∃ r s, o.rBuf = some r ∧ w.deref r = some s ∧ InBuffer o.rBufPos s ∧
    ∀ len, ReadFits len o.rBufPos s

/-- The cursors of the constructed objects are inside their buffers until the objects are destroyed,
and a `read` of such an object is stopped by a refused allocation only. -/
def cursorSafe (h : ℕ → Bool) (m : Move (World ε) Event Label) : Prop :=
  (∀ b o, m.post.objs b = some o → o.destructorCalled = false →
      trackBuilt h m.output b = true → CursorInside m.post o) ∧
    ∀ this arg, m.input = .read this arg → m.pre.undestroyed this = true →
      ∀ e, m.output.outcome = .stopped e → e = .bailout

/-- An object without `NULL` fields has a completed `__construct`. -/
theorem TransportObject.BuiltAs.eq_true_of_noNull {x : Bool} (h : o.BuiltAs x) (hnn : o.NoNull) :
    x = true := by
  cases x with
  | true => rfl
  | false => exact absurd h.1 hnn.1

/-- **The buffers that are kept have their cursors inside.** -/
theorem cursorInside_of_kept (hK : w.Kept) (hC : Cursors w) (ho : w.objs b = some o)
    (hd : o.destructorCalled = false) (hnn : o.NoNull) : CursorInside w o := by
  obtain ⟨r, hr⟩ := Option.ne_none_iff_exists'.mp hnn.2.2
  obtain ⟨s, hs⟩ := hK.exists_deref ho hd (TransportObject.mem_refs.mpr (Or.inr (Or.inr hr)))
  have hp := (hC b o ho).inBuffer hr hs
  exact ⟨r, s, hr, hs, hp, fun len => readFits len hp⟩

theorem readable_of_kept (hK : w.Kept) (ho : w.objs b = some o) (hd : o.destructorCalled = false) :
    readable w b = true := by
  cases hr : o.rBuf with
  | none => simp [readable, ho, hr]
  | some r =>
      obtain ⟨s, hs⟩ := hK.exists_deref ho hd (TransportObject.mem_refs.mpr (Or.inr (Or.inr hr)))
      simp [readable, ho, hr, hs]

theorem read_of_kept {arg : Option Int64} {e : Stop} (hK : w.Kept) (hC : Cursors w)
    (hd : w.undestroyed this = true) (hs : engineStep Z exec w (.read this arg) = some (v, l))
    (hout : l.outcome = .stopped e) : e = .bailout := by
  obtain ⟨⟨o, ho⟩, hr⟩ := engineStep_eq_some hs
  have hd' : o.destructorCalled = false := by simpa [World.undestroyed, ho] using hd
  have hread : readable w.unasked (fetchObject this) = true :=
    readable_of_kept hK.unasked ho hd'
  cases arg with
  | none =>
      rw [runMethod_ok _ (read_rejected Z this w.unasked)] at hr
      cases hr
      cases hout
  | some len =>
      rcases read_run_cases (w := w.unasked) Z len hC ho with ⟨hno, -⟩ |
        ⟨-, ⟨-, hm | ⟨x, hm⟩⟩ | ⟨r, s, t, -, -, -, -, hm⟩⟩
      · cases hread.symm.trans hno
      · rw [runMethod_error _ hm] at hr
        cases hr
        exact (Outcome.stopped.inj hout).symm
      · rw [runMethod_ok _ hm] at hr
        cases hr
        cases hout
      · rw [runMethod_ok _ hm] at hr
        cases hr
        cases hout

/-- What a flush meets that is not harmless. -/
theorem exists_of_not_harmless (h : harmless Z exec w (.flush this) = false) :
    ∃ o rs rw a n p bytes, w.objs (fetchObject this) = some o ∧ o.serviceName = some rs ∧
      o.wBuf = some rw ∧ o.rBuf = some (.counted a) ∧ w.deref rs = some n ∧ w.deref rw = some p ∧
      (exec w.core n.val p.val).1.reply = .response bytes ∧
      Z.grant w.heap.next bytes.length = false := by
  simp only [harmless] at h
  split at h
  · cases h
  · rename_i o ho
    split at h
    · rename_i n p a hn hp hr
      split at h
      · rename_i bytes hx
        obtain ⟨rs, hs, hn⟩ := Option.bind_eq_some_iff.mp hn
        obtain ⟨rw, hw, hp⟩ := Option.bind_eq_some_iff.mp hp
        exact ⟨o, rs, rw, a, n, p, bytes, ho, hs, hw, hr, hn, hp, hx, h⟩
      · cases h
    · cases h

/-- **A flush that does not keep the buffer** leaves it released, with the pointer in the field. -/
theorem dangling_of_not_keepsBuffer (hK : w.Kept) (hk : keepsBuffer Z exec w ev = false)
    (hs : engineStep Z exec w ev = some (v, l)) :
    ∃ b o r, v.objs b = some o ∧ o.destructorCalled = false ∧ o.NoNull ∧ o.rBuf = some r ∧
      v.deref r = none := by
  cases ev with
  | flush this =>
      obtain ⟨-, hrun⟩ := engineStep_eq_some hs
      rw [keepsBuffer, Bool.or_eq_false_iff, Bool.not_eq_false'] at hk
      obtain ⟨o, rs, rw, a, n, p, bytes, ho, hn, hw, hr, hsv, hp, hx, hg⟩ :=
        exists_of_not_harmless hk.2
      have hd : o.destructorCalled = false := by simpa [World.undestroyed, ho] using hk.1
      obtain ⟨t, ht⟩ := hK.exists_deref ho hd (TransportObject.mem_refs.mpr (Or.inr (Or.inr hr)))
      have hm : flush Z exec this w.unasked = .error .bailout (released w.unasked (fetchObject this)
          (.counted a) (exec w.core n.val p.val).2
          ⟨n.val, p.val, (exec w.core n.val p.val).1⟩ bytes) :=
        flush_refused ho hw hn hr hp hsv ht rfl hx hg
      rw [runMethod_error _ hm] at hrun
      cases hrun
      have hown := (hK.unasked.buffers _ o ho).rBuf a hr
      have hheld := hown.holds hK.unasked.inv.books ht
      refine ⟨fetchObject this, o, .counted a, ho, hd, ⟨?_, ?_, ?_⟩, hr, ?_⟩
      · simp [hn]
      · simp [hw]
      · simp [hr]
      · exact hown.deref_dropRef hK.unasked.inv.books hheld
  | _ => cases hk

/-- **The read cursor never leaves the read buffer**, if and only if no flush leaves a released read
buffer behind. -/
theorem cursor_inside_iff_kept (Z : ZendApi) (exec : Executor ε) (core : ε) {w : World ε}
    {ms : List (Move (World ε) Event Label)} (hr : (engine Z exec).Runs (World.init core) ms w) :
    Always trackBuilt cursorSafe (fun _ => false) ms ↔
      ∀ m ∈ ms, keepsBuffer Z exec m.pre m.input = true := by
  rw [← always_iff_forall trackBuilt (fun m => keepsBuffer Z exec m.pre m.input = true)
    (fun _ => false)]
  refine hr.always_iff (fun w h => w.Kept ∧ Cursors w ∧ Built w h) (fun _ => True) ?_ ?_
    ⟨kept_init core, cursors_init core, fun b o ho => by cases ho⟩ fun _ _ => trivial
  · rintro w ev l v h ⟨hK, hC, hB⟩ - hs
    have hs' : engineStep Z exec w ev = some (v, l) := hs
    have hk := known_of_step hs'
    have hB' : Built v (trackBuilt h l) := built_step hB hk.effect
    have hC' : Cursors v := cursors_step hC hk.keeps hk.effect
    constructor
    · rintro ⟨hin, -⟩
      by_contra hno
      obtain ⟨b, o, r, ho, hd, hnn, hrb, hnone⟩ :=
        dangling_of_not_keepsBuffer hK (Bool.not_eq_true _ ▸ hno) hs'
      obtain ⟨r', s, hr', hs, -⟩ := hin b o ho hd ((hB' b o ho).eq_true_of_noNull hnn)
      cases hrb.symm.trans hr'
      cases hnone.symm.trans hs
    · intro hkeep
      have hK' : v.Kept := kept_step hK hs' hkeep
      refine ⟨fun b o ho hd hb => ?_, fun this arg hin hd e hout => ?_⟩
      · have hbuilt := hB' b o ho
        rw [show trackBuilt h l b = true from hb] at hbuilt
        exact cursorInside_of_kept hK' hC' ho hd hbuilt
      · have hin' : ev = .read this arg := hin
        subst hin'
        exact read_of_kept hK hC hd hs' hout
  · rintro w ev l v h ⟨hK, hC, hB⟩ - hkeep hs
    have hk := known_of_step hs
    exact ⟨kept_step hK hs hkeep, cursors_step hC hk.keeps hk.effect, built_step hB hk.effect⟩

/-- Reads of all kinds of lengths, around a failed flush and a rejected constructor. -/
def readsOfAllLengths : List Event :=
  [.createObject 0, .construct 4128 (some (zstrChar 7)), .write 4128 (some (zstrChar 1)),
    .flush 4128, .read 4128 (some 1), .read 4128 (some Int64.maxValue),
    .read 4128 (some Int64.minValue), .flush 4128, .construct 4128 none, .read 4128 (some 1)]

/-- The cursor stays inside through them. -/
theorem cursor_inside_lengths :
    ∃ w ms, (engine .unlimited everyOther).Runs (World.init 0) ms w ∧
      ms.map Move.input = readsOfAllLengths ∧
      (ms.map fun m => m.output.outcome).drop 4 =
        [.returned (.string [7]), .returned (.string [1]), .returned (.string []),
          .returned (.raised .rpcFailed), .returned (.raised .badParameters),
          .returned (.raised (.cannotRead 1))] ∧
      Always trackBuilt cursorSafe (fun _ => false) ms := by
  obtain ⟨w, ms, hr, hin, hg⟩ := Runs.exists_of_inputs (engine .unlimited everyOther)
    (World.init 0) readsOfAllLengths
    (fun r => (r.2.all fun m => keepsBuffer .unlimited everyOther m.pre m.input) &&
      decide ((r.2.map fun m => m.output.outcome).drop 4 =
        [.returned (.string [7]), .returned (.string [1]), .returned (.string []),
          .returned (.raised .rpcFailed), .returned (.raised .badParameters),
          .returned (.raised (.cannotRead 1))])) rfl
  rw [Bool.and_eq_true, List.all_eq_true, decide_eq_true_eq] at hg
  exact ⟨w, ms, hr, hin, hg.2, (cursor_inside_iff_kept _ _ _ hr).mpr hg.1⟩

/-- A flush runs out of memory for the copy of its response, and the next `read` follows the read
buffer that it has released. -/
theorem read_follows_released :
    ∃ w ms, (engine (.fewerThan 3) everyOther).Runs (World.init 0) ms w ∧
      ms.map Move.input = [.createObject 0, .construct 4128 (some (zstrChar 7)),
        .write 4128 (some (zstrChar 1)), .flush 4128, .write 4128 (some (zstrChar 2)), .flush 4128,
        .write 4128 (some (zstrChar 3)), .flush 4128, .read 4128 (some 1)] ∧
      (ms.map fun m => (m.output.outcome, readable m.post 4096)).drop 3 =
        [(.returned .null, true), (.returned .null, true), (.returned (.raised .rpcFailed), true),
          (.returned .null, true), (.stopped .bailout, false), (.stopped .useAfterFree, false)] ∧
      ¬ Always trackBuilt cursorSafe (fun _ => false) ms := by
  obtain ⟨w, ms, hr, hin, hg⟩ := Runs.exists_of_inputs (engine (.fewerThan 3) everyOther)
    (World.init 0) [.createObject 0, .construct 4128 (some (zstrChar 7)),
      .write 4128 (some (zstrChar 1)), .flush 4128, .write 4128 (some (zstrChar 2)), .flush 4128,
      .write 4128 (some (zstrChar 3)), .flush 4128, .read 4128 (some 1)]
    (fun r => decide ((r.2.map fun m => (m.output.outcome, readable m.post 4096)).drop 3 =
        [(.returned .null, true), (.returned .null, true), (.returned (.raised .rpcFailed), true),
          (.returned .null, true), (.stopped .bailout, false), (.stopped .useAfterFree, false)]) &&
      r.2.any fun m => m.input = .read 4128 (some 1) && m.pre.undestroyed 4128 &&
        m.output.outcome = .stopped .useAfterFree) rfl
  rw [Bool.and_eq_true, decide_eq_true_eq, List.any_eq_true] at hg
  obtain ⟨hout, m, hm, hread⟩ := hg
  rw [Bool.and_eq_true, Bool.and_eq_true, decide_eq_true_eq, decide_eq_true_eq] at hread
  refine ⟨w, ms, hr, hin, hout, fun hsafe => ?_⟩
  obtain ⟨h, -, hreads⟩ := hsafe.exists_of_mem hm
  cases hreads 4128 (some 1) hread.1.1 hread.1.2 _ hread.2

/-! ## No more than was asked for -/

/-- The string that a `read` of `len` returns is not longer than `len`, it is what the read buffer
has from the cursor on, and the cursor is moved by its length. A length that is not positive gives
the empty string. A `read` that raises, or is left for a refused allocation, consumes nothing, and
there is no other way to leave it. -/
def Bounded (len : Int64) (b : ℕ) (m : Move (World ε) Event Label) : Prop :=
  match m.output.outcome with
  | .returned (.string bytes) =>
      (bytes.length : ℤ) ≤ max len.toInt 0 ∧
      (∃ o r s pos, m.pre.objs b = some o ∧ o.rBuf = some r ∧ m.pre.deref r = some s ∧
        bytes <+: unread s o.rBufPos ∧ m.post.objs b = some { o with rBufPos := pos } ∧
        pos.toInt = o.rBufPos.toInt + bytes.length) ∧
      (len.toInt ≤ 0 → bytes = [] ∧ m.post.objs b = m.pre.objs b)
  | .returned (.raised _) => m.post.objs b = m.pre.objs b
  | .stopped .bailout => m.post.objs b = m.pre.objs b
  | _ => False

/-- When a `read` does no more: its buffer is `NULL` or can be followed, and the length is not negative
or finds nothing to take. -/
def undrained (Z : ZendApi) (w : World ε) : Event → Bool
  | .read this (some len) =>
    readable w (fetchObject this) && (0 ≤ len.toInt || !drains Z w (fetchObject this))
  | _ => true

theorem undrained_read {len : Int64} : undrained Z w (.read this (some len)) = true ↔
    readable w (fetchObject this) = true ∧
      (0 ≤ len.toInt ∨ drains Z w (fetchObject this) = false) := by
  simp [undrained]

/-- What a returned string says of the length. -/
theorem length_le_iff {len pos : Int64} (hp : InBuffer pos s) :
    ((slice s pos (clampLen len pos s.len)).length : ℤ) ≤ max len.toInt 0 ↔
      0 ≤ len.toInt ∨ unread s pos = [] := by
  rw [slice_length len pos hp, clampLen_toNat len pos hp, ← List.length_eq_zero_iff]
  split_ifs <;> omega

/-- To take nothing leaves the cursor where it is. -/
theorem advance_zero {len pos : Int64} (hp : InBuffer pos s)
    (hz : (clampLen len pos s.len).toNat = 0) :
    (pos.toUInt64 + clampLen len pos s.len).toInt64 = pos := by
  rw [← Int64.toInt_inj, (readFits len hp).advance, hz]
  simp

/-- A negative length with nothing to drain, and a granted string, finds all bytes read. -/
theorem unread_of_not_drains {len : Int64} (ho : w.objs b = some o) (hr : o.rBuf = some r)
    (hs : w.deref r = some s) (hp : InBuffer o.rBufPos s)
    (hg : Z.grant w.heap.next (slice s o.rBufPos (clampLen len o.rBufPos s.len)).length = true)
    (hlen : len.toInt < 0) (hd : drains Z w b = false) : unread s o.rBufPos = [] := by
  rw [slice_of_neg hp hlen] at hg
  rw [drains_of_some Z ho hr hs, hg, Bool.and_true, Bool.not_eq_false'] at hd
  exact List.isEmpty_iff.mp hd

/-- **One `read`.** -/
theorem bounded_iff {len : Int64} (hC : Cursors w)
    (hs : engineStep Z exec w (.read this (some len)) = some (v, l)) :
    Bounded len (fetchObject this) ⟨w, .read this (some len), l, v⟩ ↔
      undrained Z w (.read this (some len)) = true := by
  obtain ⟨⟨o, ho⟩, hrun⟩ := engineStep_eq_some hs
  rw [undrained_read]
  rcases read_run_cases (w := w.unasked) Z len hC ho with ⟨hno, hm⟩ |
    ⟨hread, ⟨hc, hm | ⟨e, hm⟩⟩ | ⟨r, s, t, hr, hd, hp, hg, hm⟩⟩
  · rw [runMethod_error _ hm] at hrun
    cases hrun
    exact iff_of_false id fun h => Bool.false_ne_true (hno.symm.trans h.1)
  · rw [runMethod_error _ hm] at hrun
    cases hrun
    exact iff_of_true rfl ⟨hread, hc⟩
  · rw [runMethod_ok _ hm] at hrun
    cases hrun
    exact iff_of_true rfl ⟨hread, hc⟩
  · rw [runMethod_ok _ hm] at hrun
    cases hrun
    have hobj := setObj_self (w.unasked.newString none t) (fetchObject this)
      { o with rBufPos := (o.rBufPos.toUInt64 + clampLen len o.rBufPos s.len).toInt64 }
    constructor
    · rintro ⟨hle, -, -⟩
      refine ⟨hread, ((length_le_iff hp).mp hle).imp_right fun hun => ?_⟩
      refine (drains_of_some (w := w.unasked) Z ho hr hd).trans ?_
      rw [hun]
      rfl
    · rintro ⟨-, hc⟩
      have hle : ((slice s o.rBufPos (clampLen len o.rBufPos s.len)).length : ℤ) ≤
          max len.toInt 0 := by
        refine (length_le_iff hp).mpr ?_
        by_cases hlen : 0 ≤ len.toInt
        · exact Or.inl hlen
        · exact Or.inr (unread_of_not_drains (w := w.unasked) ho hr hd hp hg (by omega)
            (hc.resolve_left hlen))
      refine ⟨hle, ⟨o, r, s, _, ho, hr, hd, List.take_prefix _ _, hobj, ?_⟩, fun hlen => ?_⟩
      · rw [slice_length len _ hp]
        exact (readFits len hp).advance
      · have hz : (clampLen len o.rBufPos s.len).toNat = 0 := by
          rw [slice_length len _ hp] at hle
          omega
        refine ⟨List.length_eq_zero_iff.mp ((slice_length len _ hp).trans hz), ?_⟩
        rw [readWorld, hobj, advance_zero hp hz]
        exact ho.symm

/-- **`read` never returns more than was asked for**, if and only if its buffer can be followed, where
there is one, and no negative length finds bytes to take. -/
theorem bounded_iff_undrained (Z : ZendApi) (exec : Executor ε) (core : ε) {w : World ε}
    {ms : List (Move (World ε) Event Label)} (hr : (engine Z exec).Runs (World.init core) ms w) :
    ∀ m ∈ ms, ∀ this len, m.input = .read this (some len) →
      (Bounded len (fetchObject this) m ↔ undrained Z m.pre m.input = true) := by
  rintro ⟨w, ev, l, v⟩ hm this len hin
  have hin' : ev = .read this (some len) := hin
  subst hin'
  obtain ⟨ns, ks, -, h1, hs, -⟩ := hr.exists_prefix hm
  have hC : Cursors w := by
    refine (h1.invariant Cursors (fun w ev l v hC hs => ?_) (cursors_init core)).1
    have hk := known_of_step hs
    exact cursors_step hC hk.keeps hk.effect
  have hs' : engineStep Z exec w (.read this (some len)) = some (v, l) := hs
  exact bounded_iff hC hs'

/-- The `read`s of `readsOfAllLengths` return no more than was asked for. -/
theorem bounded_all_lengths :
    ∃ w ms, (engine .unlimited everyOther).Runs (World.init 0) ms w ∧
      ms.map Move.input = readsOfAllLengths ∧
      ∀ m ∈ ms, ∀ len, m.input = .read 4128 (some len) → Bounded len 4096 m := by
  obtain ⟨w, ms, hr, hin, hg⟩ := Runs.exists_of_inputs (engine .unlimited everyOther)
    (World.init 0) readsOfAllLengths
    (fun r => r.2.all fun m => undrained .unlimited m.pre m.input) rfl
  refine ⟨w, ms, hr, hin, fun m hm len hread => ?_⟩
  have hc := List.all_eq_true.mp hg m hm
  exact (bounded_iff_undrained _ _ _ hr m hm 4128 len hread).mpr hc

/-- A `read` of the length `-1` drains the response. -/
theorem negative_length_drains :
    ∃ w ms, (engine .unlimited everyOther).Runs (World.init 0) ms w ∧
      ms.map Move.input = [.createObject 0, .construct 4128 (some (zstrChar 7)),
        .write 4128 (some (zstrChar 1)), .flush 4128, .read 4128 (some (-1))] ∧
      ∃ m ∈ ms, m.input = .read 4128 (some (-1)) ∧
        m.output.outcome = .returned (.string [7, 1]) ∧ ¬ Bounded (-1) 4096 m := by
  obtain ⟨w, ms, hr, hin, hg⟩ := Runs.exists_of_inputs (engine .unlimited everyOther)
    (World.init 0) [.createObject 0, .construct 4128 (some (zstrChar 7)),
      .write 4128 (some (zstrChar 1)), .flush 4128, .read 4128 (some (-1))]
    (fun r => r.2.any fun m => m.input = .read 4128 (some (-1)) &&
      m.output.outcome = .returned (.string [7, 1])) rfl
  obtain ⟨m, hm, hread⟩ := List.any_eq_true.mp hg
  rw [Bool.and_eq_true, decide_eq_true_eq, decide_eq_true_eq] at hread
  refine ⟨w, ms, hr, hin, m, hm, hread.1, hread.2, fun hb => ?_⟩
  unfold Bounded at hb
  rw [hread.2] at hb
  exact absurd hb.1 (by decide)

end ThriftBridge
