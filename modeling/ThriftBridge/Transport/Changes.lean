import ThriftBridge.Lib.Wp
import ThriftBridge.Transport.Invariant

/-!
# What an event can change

In any state, also in one where references are not accounted for:

* `Change`: what a method other than `__construct` can do to its object. `touches_*`: the methods do
  nothing else, and they follow a null pointer only on an object with a `NULL` field;
* `Effect`: what an event can do to the objects, and what is observed of it.
-/

set_option autoImplicit false

namespace ThriftBridge

open RefCount World Machine

variable {ε : Type} {Z : ZendApi} {exec : Executor ε} {w v u : World ε} {b this : ℕ}
  {o : TransportObject}

/-! ## Fields -/

/-- No field is `NULL`. -/
def TransportObject.NoNull (o : TransportObject) : Prop :=
  o.serviceName ≠ none ∧ o.wBuf ≠ none ∧ o.rBuf ≠ none

/-- All fields are `NULL`, as `create_object` leaves them. -/
def TransportObject.AllNull (o : TransportObject) : Prop :=
  o.serviceName = none ∧ o.wBuf = none ∧ o.rBuf = none

/-- What a method other than `__construct` can do to its object. -/
inductive Change (w v : World ε) (o : TransportObject) : TransportObject → Prop
  | wrote (r : StrRef) (hw : o.wBuf ≠ none) : Change w v o { o with wBuf := some r }
  | took (len : Int64) {rr : StrRef} {t : ZendString} (hr : o.rBuf = some rr)
      (ht : w.deref rr = some t) : Change w v o
      { o with rBufPos := (o.rBufPos.toUInt64 + clampLen len o.rBufPos t.len).toInt64 }
  | installed {a : ℕ} {s : ZendString} (rw : StrRef) (ho : o.NoNull)
      (hs : v.heap.content a = some s) :
      Change w v o { o with rBuf := some (.counted a), rBufPos := 0, wBuf := some rw }
  | flagged : Change w v o { o with destructorCalled := true }

/-- The strings of `w` have the same bytes in `v`, and only the object in block `b` may be
changed. -/
def Touch (w v : World ε) (b : ℕ) (o : TransportObject) : Prop :=
  w.Keeps v ∧ (v.objs = w.objs ∨
    ∃ o', Change w v o o' ∧ v.objs = Function.update w.objs b (some o'))

theorem Touch.refl (w : World ε) (b : ℕ) (o : TransportObject) : Touch w w b o :=
  ⟨Keeps.refl w, Or.inl rfl⟩

/-- A method that stops has touched its object only, and a null pointer is followed only if a field
is `NULL`. -/
def Stops (w : World ε) (b : ℕ) (o : TransportObject) (e : Stop) (v : World ε) : Prop :=
  Touch w v b o ∧ (e = .nullDeref → ¬ o.NoNull)

theorem Stops.of_same {e : Stop} (hK : w.Keeps v) (hobjs : v.objs = w.objs) (he : e ≠ .nullDeref) :
    Stops w b o e v :=
  ⟨⟨hK, Or.inl hobjs⟩, fun h => absurd h he⟩

/-- However `m` ends, it only touches the object in block `b`. -/
def Touches (w : World ε) (b : ℕ) (o : TransportObject) (m : CM ε Ret) : Prop :=
  Wp m w (fun _ v => Touch w v b o) (Stops w b o)

/-! ## Primitives -/

section Primitives

variable {α : Type} {r : Option StrRef} {E : Stop → World ε → Prop}

theorem wp_getObj {Q : TransportObject → World ε → Prop} (ho : w.objs b = some o) (h : Q o w) :
    Wp (getObj b) w Q E := .run_ok (getObj_run ho) h

theorem wp_modifyObj {Q : Unit → World ε → Prop} {f : TransportObject → TransportObject}
    (ho : w.objs b = some o) (h : Q () (w.setObj b (f o))) : Wp (modifyObj b f) w Q E :=
  .run_ok (modifyObj_run ho f) h

theorem wp_zstr {Q : ZendString → World ε → Prop}
    (h : ∀ p s, r = some p → w.deref p = some s → Q s w) (hn : r = none → E .nullDeref w)
    (hf : E .useAfterFree w) : Wp (zstr r) w Q E := by
  unfold Wp zstr
  cases r with
  | none => exact hn rfl
  | some p =>
      cases hd : w.deref p with
      | none => simpa only [hd] using hf
      | some s => simpa only [hd] using h p s rfl hd

theorem wp_zendStringRelease {h : Holder} {Q : Unit → World ε → Prop}
    (hok : ∀ p s, r = some p → w.deref p = some s → Q () (w.dropRef h p))
    (hn : r = none → E .nullDeref w) (hf : E .useAfterFree w) :
    Wp (zendStringRelease h r) w Q E := by
  unfold Wp zendStringRelease
  cases r with
  | none => exact hn rfl
  | some p =>
      cases hd : w.deref p with
      | none => simpa only [hd] using hf
      | some s => simpa only [hd] using hok p s rfl hd

theorem wp_zendStringInit {h : Holder} {bytes : Bytes} {Q : StrRef → World ε → Prop}
    (hok : Z.grant w.heap.next bytes.length = true → ∀ s : ZendString, s.val = bytes →
      Q (.counted w.heap.next) (w.newString h s))
    (hb : Z.grant w.heap.next bytes.length = false → E .bailout w) :
    Wp (zendStringInit Z h bytes) w Q E := by
  unfold Wp zendStringInit
  by_cases hg : Z.grant w.heap.next bytes.length = true
  · rw [dif_pos hg]
    exact hok hg _ rfl
  · rw [dif_neg hg]
    exact hb (Bool.eq_false_iff.mpr hg)

/-- The executor may do anything to its own state; a response is a new buffer. -/
theorem wp_askCore {s r : Bytes} {Q : Option ℕ → World ε → Prop}
    (hnull : (exec w.core s r).1.reply = .null → ∀ e q, Q none (answered w e q))
    (hok : ∀ bytes, (exec w.core s r).1.reply = .response bytes → ∀ e q,
      Q (some w.cHeap.next) (withBuffers (answered w e q) (w.cHeap.alloc bytes)))
    (hu : ∀ e q, E .unwound (answered w e q)) : Wp (askCore exec s r) w Q E := by
  unfold Wp askCore
  obtain ⟨⟨⟨reply, served⟩, e⟩, he⟩ : ∃ x : Answer × ε, exec w.core s r = x := ⟨_, rfl⟩
  rw [he] at hnull hok ⊢
  cases reply with
  | null => exact hnull rfl e _
  | response bytes => exact hok bytes rfl e _
  | unwound => exact hu e _

theorem wp_free {p : ℕ} {Q : Unit → World ε → Prop} (hp : 0 < w.cHeap.count p)
    (h : Q () (withBuffers w (w.cHeap.release p))) : Wp (free p) w Q E := by
  unfold Wp free
  rw [if_pos hp]
  exact h

theorem wp_releaseField {f : Option StrRef} {Q : Unit → World ε → Prop}
    (hok : Q () (dropField w b f)) (hf : E .useAfterFree w) : Wp (releaseField b f) w Q E := by
  cases f with
  | none => exact hok
  | some r =>
      refine wp_zendStringRelease (r := some r) (fun p s hp _ => ?_) (fun h => by cases h) hf
      cases hp
      exact hok

end Primitives

/-! ## Methods -/

theorem setObj_withBuffers (w : World ε) (c : CountedHeap Bytes) (b : ℕ) (o : TransportObject) :
    (withBuffers w c).setObj b o = withBuffers (w.setObj b o) c := rfl

/-- The strings that `flush` presents to the executor. -/
structure Presents (w : World ε) (o : TransportObject) (n p : ZendString) : Prop where
  service : o.serviceName.bind w.deref = some n
  request : o.wBuf.bind w.deref = some p

/-- What a flush has done that returns: it has raised, or it has installed the response. -/
inductive FlushReturn (Z : ZendApi) (exec : Executor ε) (w : World ε) (b : ℕ)
    (o : TransportObject) : Ret → World ε → Prop
  | failed {n p : ZendString} (e : ε) (q : Asked) (hp : Presents w o n p)
      (ha : (exec w.core n.val p.val).1.reply = .null) :
      FlushReturn Z exec w b o (.raised .rpcFailed) (answered w e q)
  | installed {rw rr : StrRef} {n p s t : ZendString} (e : ε) (q : Asked) (hp : Presents w o n p)
      (hn : o.NoNull) (hw : o.wBuf = some rw) (hr : o.rBuf = some rr) (ht : w.deref rr = some t)
      (ha : (exec w.core n.val p.val).1.reply = .response s.val)
      (hg : Z.grant w.heap.next s.val.length = true) :
      FlushReturn Z exec w b o .null (flushedWorld w b o rw rr e q s)

/-- What a flush has done that cannot copy the response. -/
inductive FlushExit (Z : ZendApi) (exec : Executor ε) (w : World ε) (b : ℕ)
    (o : TransportObject) : World ε → Prop
  | refused {rr : StrRef} {n p t : ZendString} (e : ε) (q : Asked) (bytes : Bytes)
      (hp : Presents w o n p) (hr : o.rBuf = some rr) (ht : w.deref rr = some t)
      (ha : (exec w.core n.val p.val).1.reply = .response bytes)
      (hg : Z.grant w.heap.next bytes.length = false) :
      FlushExit Z exec w b o (released w b rr e q bytes)

/-- The second half of `flush`. Once the string is there, nothing stops it before the cursor is
assigned. -/
theorem wp_install {p : ℕ} (hK : w.Keeps u) (hobjs : u.objs = w.objs) (ho : w.objs b = some o)
    (hnn : o.NoNull) (hp : 0 < u.cHeap.count p) (bytes : Bytes) :
    Wp (do
      let rBuf ← zendStringInit Z (some b) bytes
      modifyObj b fun o => { o with rBuf := some rBuf }
      free p
      modifyObj b fun o => { o with rBufPos := 0 }
      zendStringRelease (some b) o.wBuf
      modifyObj b fun o => { o with wBuf := some emptyAlloc }
      return Ret.null) u
      (fun r v => r = .null ∧ Z.grant u.heap.next bytes.length = true ∧
        ∃ rw s, o.wBuf = some rw ∧ s.val = bytes ∧
          v = (withBuffers ((u.newString (some b) s).dropRef (some b) rw)
            (u.cHeap.release p)).setObj b (flushed o u.heap.next))
      fun e v => Stops w b o e v ∧
        (e = .bailout → Z.grant u.heap.next bytes.length = false ∧ v = u) := by
  refine .bind (wp_zendStringInit (fun hg s hs => ?_)
    fun hg => ⟨.of_same hK hobjs (by decide), fun _ => ⟨hg, rfl⟩⟩)
  set x := u.newString (some b) s with hx
  have hxo : x.objs b = some o := by rw [hx, newString_objs, hobjs, ho]
  refine .bind (wp_modifyObj hxo (.bind (wp_free (by exact hp)
    (.bind (wp_modifyObj (setObj_self _ _ _) ?_)))))
  rw [setObj_withBuffers, setObj_setObj]
  refine .bind (wp_zendStringRelease (fun rw _ hw _ => ?_) (fun h => absurd h hnn.2.1) ?_)
  · refine .bind (wp_modifyObj (o := { o with rBuf := some (.counted u.heap.next), rBufPos := 0 }) ?_
      (.ret ⟨rfl, hg, rw, s, hw, hs, ?_⟩))
    · rw [dropRef_objs]
      exact setObj_self _ _ _
    · cases rw <;> simp only [dropRef, withBuffers, setObj, Function.update_idem, flushed] <;> rfl
  · -- the write buffer is released already: the new string is installed, and the old one kept
    obtain ⟨rw, hw⟩ := Option.ne_none_iff_exists'.mp hnn.2.1
    have hs' : x.heap.content u.heap.next = some s := CountedHeap.content_alloc_next _ _
    refine ⟨⟨⟨hK.trans (keeps_newString u (some b) s), Or.inr ⟨_, .installed rw hnn hs', ?_⟩⟩,
      fun h => by cases h⟩, fun h => by cases h⟩
    rw [← hw, ← hobjs]
    rfl

/-- **`flush`**, until it returns or is stopped. -/
theorem wp_flush (Z : ZendApi) (exec : Executor ε) (ho : w.objs (fetchObject this) = some o) :
    Wp (flush Z exec this) w (FlushReturn Z exec w (fetchObject this) o)
      fun e v => Stops w (fetchObject this) o e v ∧
        (e = .bailout → FlushExit Z exec w (fetchObject this) o v) := by
  have hsame : ∀ {e : Stop}, e ≠ .nullDeref → e ≠ .bailout → Stops w (fetchObject this) o e w ∧
      (e = .bailout → FlushExit Z exec w (fetchObject this) o w) :=
    fun hn hb => ⟨.of_same (Keeps.refl w) rfl hn, fun h => absurd h hb⟩
  simp only [flush]
  refine .bind (wp_getObj ho ?_)
  refine .bind (wp_zstr (fun rw p hw hp => ?_)
    (fun hw => ⟨⟨Touch.refl _ _ _, fun _ h => h.2.1 hw⟩, fun h => by cases h⟩)
    (hsame (by decide) (by decide)))
  refine .bind (wp_zstr (fun rs n hn hs => ?_)
    (fun hn => ⟨⟨Touch.refl _ _ _, fun _ h => h.1 hn⟩, fun h => by cases h⟩)
    (hsame (by decide) (by decide)))
  have hpres : Presents w o n p :=
    ⟨by rw [hn, Option.bind_some, hs], by rw [hw, Option.bind_some, hp]⟩
  refine .bind (wp_askCore (fun ha e q => .ret (.failed e q hpres ha)) (fun bytes ha e q => ?_)
    fun e q => ⟨.of_same (Keeps.refl w) rfl (by decide), fun h => by cases h⟩)
  have hKv : w.Keeps (withBuffers (answered w e q) (w.cHeap.alloc bytes)) := fun _ _ hs => hs
  refine .bind (wp_zendStringRelease (fun rr t hr ht => ?_)
    (fun hr => ⟨⟨⟨hKv, Or.inl rfl⟩, fun _ h => h.2.2 hr⟩, fun h => by cases h⟩)
    ⟨.of_same hKv rfl (by decide), fun h => by cases h⟩)
  rw [deref_withBuffers, deref_answered] at ht
  refine .bind (.run_ok (readBuffer_released w (fetchObject this) rr e q bytes) ?_)
  have hc : (released w (fetchObject this) rr e q bytes).cHeap = w.cHeap.alloc bytes := by
    cases rr <;> rfl
  have hnext := released_heap_next w (fetchObject this) rr e q bytes
  have hnn : o.NoNull := ⟨by simp [hn], by simp [hw], by simp [hr]⟩
  have hKr : w.Keeps (released w (fetchObject this) rr e q bytes) := hKv.trans (keeps_dropRef _ _ rr)
  refine (wp_install hKr (dropRef_objs _ _ rr) ho hnn ?_ bytes).mono (fun r v hv => ?_)
    fun e' v hv => ⟨hv.1, fun he => ?_⟩
  · rw [hc, CountedHeap.count_alloc, if_pos rfl]
    omega
  · obtain ⟨rfl, hg, rw', s, hw', rfl, hv⟩ := hv
    have hv' : v = flushedWorld w (fetchObject this) o rw' rr e q s := by
      rw [hv, hnext, hc]
      simp only [flushedWorld, released]
      cases rr <;> cases rw' <;> simp [withBuffers, answered, dropRef, newString, setObj]
    rw [hnext] at hg
    rw [hv']
    exact .installed e q hpres hnn hw' hr ht ha hg
  · obtain ⟨hg, rfl⟩ := hv.2 he
    rw [hnext] at hg
    exact .refused e q bytes hpres hr ht ha hg

theorem FlushReturn.touch {r : Ret} (h : FlushReturn Z exec w b o r v) : Touch w v b o := by
  cases h with
  | failed e q hp ha => exact ⟨Keeps.refl w, Or.inl rfl⟩
  | @installed rw rr n p s t e q hp hn hw hr ht ha hg =>
      have hs : (flushedWorld w b o rw rr e q s).heap.content w.heap.next = some s := by
        rw [flushedWorld_heap]
        refine keeps_dropRef _ (some b) rw _ _ ?_
        rw [← dropRef_next w (some b) rr]
        exact CountedHeap.content_alloc_next _ _
      exact ⟨keeps_flushed w b o rw rr e q s, Or.inr ⟨_, .installed emptyAlloc hn hs,
        flushedWorld_objs w b o rw rr e q s⟩⟩

theorem touches_flush (ho : w.objs (fetchObject this) = some o) :
    Touches w (fetchObject this) o (flush Z exec this) :=
  (wp_flush Z exec ho).mono (fun _ _ h => h.touch) fun _ _ h => h.1

/-- **What a `write` can be**: it stops or returns with nothing done, or it appends. -/
theorem write_ends (Z : ZendApi) (arg : Option StrRef) (ho : w.objs (fetchObject this) = some o) :
    (∃ e, (e = .nullDeref → o.wBuf = none) ∧ write Z this arg w = .error e w) ∨
      (∃ r, write Z this arg w = .ok r w) ∨
      ∃ rw p t, o.wBuf = some rw ∧ w.deref rw = some p ∧
        write Z this arg w = .ok .null (wroteWorld w (fetchObject this) o rw t) := by
  cases arg with
  | none => exact Or.inr (Or.inl ⟨_, write_rejected Z this w⟩)
  | some buf =>
      cases hw : o.wBuf with
      | none => exact Or.inl ⟨_, fun _ => rfl, write_null ho hw⟩
      | some rw =>
          cases hp : w.deref rw with
          | none => exact Or.inl ⟨_, by simp, write_released ho hw (Or.inl hp)⟩
          | some p =>
              cases hs : w.deref buf with
              | none => exact Or.inl ⟨_, by simp, write_released ho hw (Or.inr hs)⟩
              | some s =>
                  cases hg : Z.grant w.heap.next (p.val ++ s.val).length with
                  | false => exact Or.inl ⟨_, by simp, write_refused ho hw hp hs hg⟩
                  | true => exact Or.inr (Or.inr ⟨rw, p, _, rfl, hp, write_run ho hw hp hs hg⟩)

theorem touches_write {arg : Option StrRef} (ho : w.objs (fetchObject this) = some o) :
    Touches w (fetchObject this) o (write Z this arg) := by
  rcases write_ends Z arg ho with ⟨e, he, hm⟩ | ⟨r, hm⟩ | ⟨rw, p, t, hw, -, hm⟩
  · exact .run_error hm ⟨Touch.refl w _ o, fun h hnn => hnn.2.1 (he h)⟩
  · exact .run_ok hm (Touch.refl w _ o)
  · refine .run_ok hm ⟨keeps_wrote _ _ _ _ _, Or.inr ?_⟩
    exact ⟨_, .wrote _ (by simp [hw]), wroteWorld_objs _ _ _ _ _⟩

/-- **What a `read` can be**: it stops or returns with nothing done, or it moves the cursor. -/
theorem read_ends (Z : ZendApi) (arg : Option Int64) (ho : w.objs (fetchObject this) = some o) :
    (∃ e, e ≠ .nullDeref ∧ read Z this arg w = .error e w) ∨
      (∃ r, read Z this arg w = .ok r w) ∨
      ∃ len rr t r s, o.rBuf = some rr ∧ w.deref rr = some t ∧
        read Z this arg w = .ok r (readWorld w (fetchObject this) o s
          (o.rBufPos.toUInt64 + clampLen len o.rBufPos t.len).toInt64) := by
  cases arg with
  | none => exact Or.inr (Or.inl ⟨_, read_rejected Z this w⟩)
  | some len =>
      cases hr : o.rBuf with
      | none => exact Or.inr (Or.inl ⟨_, read_closed len ho hr⟩)
      | some rr =>
          cases ht : w.deref rr with
          | none => exact Or.inl ⟨_, by decide, read_released len ho hr ht⟩
          | some t =>
              rcases read_cases Z len ho hr ht with ⟨e, he, hm⟩ | ⟨r, hm⟩ | ⟨r, s, hm⟩
              · exact Or.inl ⟨e, by rcases he with rfl | rfl <;> decide, hm⟩
              · exact Or.inr (Or.inl ⟨r, hm⟩)
              · exact Or.inr (Or.inr ⟨len, rr, t, r, s, rfl, ht, hm⟩)

theorem touches_read {arg : Option Int64} (ho : w.objs (fetchObject this) = some o) :
    Touches w (fetchObject this) o (read Z this arg) := by
  rcases read_ends Z arg ho with ⟨e, he, hm⟩ | ⟨r, hm⟩ | ⟨len, rr, t, r, s, hr, ht, hm⟩
  · exact .run_error hm ⟨Touch.refl w _ o, fun h => absurd h he⟩
  · exact .run_ok hm (Touch.refl w _ o)
  · refine .run_ok hm ⟨keeps_newString w none s, Or.inr ?_⟩
    exact ⟨_, .took len hr ht, readWorld_objs _ _ _ _ _⟩

/-- The destructor handler leaves the pointers in the fields, and only a string that is released
already stops it. -/
theorem wp_dtorObject (object : ℕ) (ho : w.objs (fetchObject object) = some o) :
    Wp (dtorObject object) w (fun _ v => v = dtorWorld w (fetchObject object) o)
      fun e v => (w.Keeps v ∧ v.objs = w.objs) ∧ e = .useAfterFree := by
  have hdrop : ∀ {v : World ε} (f : Option StrRef), w.Keeps v ∧ v.objs = w.objs →
      w.Keeps (dropField v (fetchObject object) f) ∧
        (dropField v (fetchObject object) f).objs = w.objs :=
    fun f h => ⟨h.1.trans (keeps_dropField _ _ f), (dropField_objs _ _ f).trans h.2⟩
  have h0 : w.Keeps w ∧ w.objs = w.objs := ⟨Keeps.refl w, rfl⟩
  simp only [dtorObject]
  refine .bind (wp_getObj ho ?_)
  refine .bind (wp_releaseField ?_ ⟨h0, rfl⟩)
  have h1 := hdrop o.serviceName h0
  refine .bind (wp_releaseField ?_ ⟨h1, rfl⟩)
  have h2 := hdrop o.wBuf h1
  exact .bind (wp_releaseField (.ret rfl) ⟨h2, rfl⟩)

/-! ## Events -/

/-- A completed `__construct`. -/
def Label.completes (l : Label) : Bool :=
  match l.call, l.outcome with
  | .construct (some _), .returned _ => true
  | _, _ => false

/-- The object whose strings a method uses. -/
def Event.uses : Event → Option ℕ
  | .write this _ => some (fetchObject this)
  | .read this _ => some (fetchObject this)
  | .flush this => some (fetchObject this)
  | _ => none

/-- What an event can do to the objects, and what is observed of it. -/
inductive Effect (w v : World ε) (l : Label) : Prop
  | same (hobjs : v.objs = w.objs) (hcall : l.call ≠ .createObject) (hl : l.completes = false)
  | created {o : TransportObject} (hnull : o.AllNull)
      (hobjs : v.objs = Function.update w.objs l.intern (some o)) (hcall : l.call = .createObject)
  | constructed {o : TransportObject} {r : StrRef}
      (hobjs : v.objs = Function.update w.objs l.intern (some (constructed o r)))
      (hl : l.completes = true)
  | changed {b : ℕ} {o o' : TransportObject} (ho : w.objs b = some o) (hc : Change w v o o')
      (hobjs : v.objs = Function.update w.objs b (some o')) (hcall : l.call ≠ .createObject)
      (hl : l.completes = false)
  | freed {b : ℕ} (hobjs : v.objs = Function.update w.objs b none) (hcall : l.call ≠ .createObject)
      (hl : l.completes = false)

/-- Only the strings and their bytes matter to a change. -/
theorem Change.congr {w' v' : World ε} {o' : TransportObject} (hc : Change w v o o')
    (hw : ∀ r, w'.deref r = w.deref r) (hv : v'.heap = v.heap) : Change w' v' o o' := by
  cases hc with
  | wrote r h => exact .wrote r h
  | took len hr ht => exact .took len hr ((hw _).trans ht)
  | installed rw ho hs => exact .installed rw ho (by rw [hv]; exact hs)
  | flagged => exact .flagged

/-- A run of a method, by what is known of its code. -/
theorem runMethod_wp {m : CM ε Ret} {call : Call} {Q : Ret → World ε → Prop}
    {E : Stop → World ε → Prop} (h : Wp m w.unasked Q E) :
    (∃ r u, Q r u ∧
        runMethod w this call m = (u, ⟨fetchObject this, call, u.asked, .returned r⟩)) ∨
      ∃ e u, E e u ∧ runMethod w this call m =
        ({ u with alive := decide (e = .bailout) },
          ⟨fetchObject this, call, u.asked, .stopped e⟩) := by
  cases hm : m w.unasked with
  | ok r u => exact Or.inl ⟨r, u, h.of_ok hm, runMethod_ok call hm⟩
  | error e u => exact Or.inr ⟨e, u, h.of_error hm, runMethod_error call hm⟩

/-- What is known of an event: no string changes, and a null pointer is followed by a method that
uses the strings of an object with a `NULL` field. -/
structure Known (w v : World ε) (ev : Event) (l : Label) : Prop where
  keeps : w.Keeps v
  effect : Effect w v l
  null : l.outcome = .stopped .nullDeref →
    ∃ b o, ev.uses = some b ∧ w.objs b = some o ∧ ¬ o.NoNull

/-- A method that touches its object. -/
theorem Touches.known {m : CM ε Ret} {call : Call} {ev : Event} {l : Label}
    (ht : Touches w.unasked (fetchObject this) o m) (ho : w.objs (fetchObject this) = some o)
    (hcall : call ≠ .createObject) (hname : ∀ name, call ≠ .construct name)
    (hev : ev.uses = some (fetchObject this)) (hr : runMethod w this call m = (v, l)) :
    Known w v ev l := by
  have hl : l.call = call := by
    rw [show l = (runMethod w this call m).2 by rw [hr]]
    unfold runMethod
    split <;> rfl
  have hquiet : l.completes = false := by
    unfold Label.completes
    split
    · next name _ hc _ => exact absurd (hl.symm.trans hc) (hname _)
    · rfl
  have heffect : ∀ u, Touch w.unasked u (fetchObject this) o → v.objs = u.objs →
      v.heap = u.heap → Effect w v l := by
    intro u hT hobjs hheap
    rcases hT.2 with h | ⟨o', hc, h⟩
    · exact .same (hobjs.trans h) (by rwa [hl]) hquiet
    · exact .changed ho (hc.congr (fun r => (deref_unasked w r).symm) hheap) (hobjs.trans h)
        (by rwa [hl]) hquiet
  rcases runMethod_wp ht with ⟨r, u, hT, he⟩ | ⟨e, u, ⟨hT, hn⟩, he⟩
  · cases hr.symm.trans he
    exact ⟨hT.1, heffect _ hT rfl rfl, fun h => by cases h⟩
  · cases hr.symm.trans he
    refine ⟨hT.1, heffect u hT rfl rfl, fun h => ⟨_, o, hev, ho, hn ?_⟩⟩
    cases h
    rfl

/-- An event that is not a call of a method with the strings of an object, and leaves the objects
alone. -/
theorem Known.of_same {ev : Event} {l : Label} (hK : w.Keeps v) (hobjs : v.objs = w.objs)
    (hcall : l.call ≠ .createObject) (hl : l.completes = false)
    (hn : l.outcome ≠ .stopped .nullDeref) : Known w v ev l :=
  ⟨hK, .same hobjs hcall hl, fun h => absurd h hn⟩

theorem known_construct {arg : Option StrRef} {l : Label}
    (ho : w.objs (fetchObject this) = some o)
    (hr : runMethod w this (.construct (w.argBytes arg)) (construct this arg) = (v, l)) :
    Known w v (.construct this arg) l := by
  cases arg with
  | none =>
      rw [runMethod_ok _ (construct_rejected this w.unasked)] at hr
      cases hr
      exact .of_same (Keeps.refl w) rfl (by simp) rfl (by simp)
  | some r =>
      cases hs : w.deref r with
      | none =>
          rw [runMethod_error _ (construct_released ((deref_unasked w r).trans hs))] at hr
          cases hr
          refine .of_same (Keeps.refl w) rfl (by simp) ?_ (by simp)
          simp only [Label.completes]
          split <;> first | rfl | simp_all
      | some s =>
          have hs' := (deref_unasked w r).trans hs
          rw [runMethod_ok _ (construct_run (w := w.unasked) ho hs')] at hr
          cases hr
          refine ⟨keeps_takeRef w.unasked (some (fetchObject this)) r, ?_, fun h => by cases h⟩
          refine .constructed (constructedWorld_objs w.unasked _ o r) ?_
          simp [Label.completes, argBytes, hs]

/-- **What is known of an event.** -/
theorem known_of_step {ev : Event} {l : Label} (hs : engineStep Z exec w ev = some (v, l)) :
    Known w v ev l := by
  replace hs := engineStep_eq_some hs
  cases ev with
  | createObject n =>
      cases hs
      refine ⟨Keeps.refl w, .created (o := ⟨none, none, none, 0, false⟩) ⟨rfl, rfl, rfl⟩ ?_ rfl,
        fun h => by cases h⟩
      simp [createObject]
  | construct this arg =>
      obtain ⟨⟨o, ho⟩, -, hr⟩ := hs
      exact known_construct ho hr.symm
  | isOpen this | open' this | close this =>
      cases hs
      exact .of_same (Keeps.refl w) rfl (by simp) rfl (by simp)
  | write this arg =>
      obtain ⟨⟨o, ho⟩, -, hr⟩ := hs
      exact (touches_write (w := w.unasked) ho).known ho (by simp) (by simp) rfl hr.symm
  | read this arg =>
      obtain ⟨⟨o, ho⟩, hr⟩ := hs
      exact (touches_read (w := w.unasked) ho).known ho (by simp) (by simp) rfl hr.symm
  | flush this =>
      obtain ⟨⟨o, ho⟩, hr⟩ := hs
      exact (touches_flush (w := w.unasked) ho).known ho (by simp) (by simp) rfl hr.symm
  | dtorObject object =>
      obtain ⟨o, ho, -, hr⟩ := hs
      have hd := wp_dtorObject (w := (w.flagged (fetchObject object) o).unasked) object
        (setObj_self _ _ _)
      have hflag : Change w v o { o with destructorCalled := true } := .flagged
      rcases runMethod_wp hd with ⟨r, u, rfl, he⟩ | ⟨e, u, ⟨⟨hK, hobjs⟩, rfl⟩, he⟩
      · cases hr.trans he
        refine ⟨?_, .changed ho hflag (dtorWorld_objs _ _ _) (by simp) rfl, fun h => by cases h⟩
        exact keeps_dtor (w.flagged (fetchObject object) o).unasked (fetchObject object) _
      · cases hr.trans he
        exact ⟨hK, .changed ho hflag hobjs (by simp) rfl, fun h => by cases h⟩
  | freeObject object =>
      obtain ⟨o, -, -, hr⟩ := hs
      cases hr
      exact ⟨Keeps.refl w, .freed rfl (by simp) rfl, fun h => by cases h⟩
  | newString s =>
      cases hs
      exact .of_same (keeps_newString w none s) rfl (by simp [stringsLabel]) rfl
        (by simp [stringsLabel])
  | copyString a =>
      obtain ⟨-, hr⟩ := hs
      cases hr
      exact .of_same (keeps_takeRef w none _) (takeRef_objs w _ _) (by simp [stringsLabel]) rfl
        (by simp [stringsLabel])
  | dropString a =>
      obtain ⟨-, hr⟩ := hs
      cases hr
      exact .of_same (keeps_dropRef w none _) (dropRef_objs w _ _) (by simp [stringsLabel]) rfl
        (by simp [stringsLabel])

end ThriftBridge
