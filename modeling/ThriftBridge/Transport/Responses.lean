import ThriftBridge.Transport.Calls

/-!
# Responses, one after the other

* `ReadBytes`: the history of the responses. It is read off the observations: what is left of the
  last response, and whether the last flush attempt has failed;
* `reads_latest_iff`: when no read answers from an earlier call.
-/

set_option autoImplicit false

namespace ThriftBridge

open World Machine

variable {ε : Type} {Z : ZendApi} {exec : Executor ε}

/-- What is left of the last response, and whether the last flush attempt has failed. -/
structure ReadBytes where
  rest : Bytes
  failed : Bool

/-- The bytes that the last flush attempt has left to be read. -/
def ReadBytes.latest (h : ReadBytes) : Bytes := if h.failed then [] else h.rest

/-- The history of transport `b`. -/
def ReadBytes.track (b : ℕ) (h : ReadBytes) (l : Label) : ReadBytes :=
  if l.intern = b then
    match l.call, l.outcome with
    | .construct (some _), .returned _ => ⟨[], false⟩
    | .read (some _), .returned (.string s) => { h with rest := h.rest.drop s.length }
    | .flush, .returned (.raised _) => { h with failed := true }
    | .flush, .returned _ =>
      match l.asked.map Asked.answer with
      | some ⟨.response r, _⟩ => ⟨r, false⟩
      | _ => h
    | _, _ => h
  else h

/-- The queue of `b` is as the history has it. -/
def ReadBytes.Fits (h : ReadBytes) (q : Queues ε) (b : ℕ) : Prop :=
  ∀ Q, q.queue b = some Q → Q.unread = h.rest

theorem ReadBytes.fits_track {h : ReadBytes} {q q' : Queues ε} {b : ℕ} {l : Label}
    (hf : h.Fits q b) (hs : queueStep exec q l = some q') : (h.track b l).Fits q' b := by
  intro Q' hQ'
  unfold track
  rcases queueStep_queue hs hQ' with ⟨hQ, hb | hcall⟩ | ⟨hb, ⟨name, hcall, hout, rfl⟩ |
    ⟨Q, r, hQ, hr, hasked, hout, rfl⟩⟩
  · rw [if_neg hb]
    exact hf Q' hQ
  · split_ifs
    · rcases hcall with hcall | hcall | hcall | hcall <;> rw [hcall] <;> exact hf Q' hQ
    · exact hf Q' hQ
  · rw [if_pos hb, hcall, hout]
  · have hrest := hf Q hQ
    rw [if_pos hb, hout]
    rcases Queue.react_cases hr with ⟨buf, hcall, ho, hq⟩ | ⟨len, hcall, -, ho, hq⟩ |
      ⟨hcall, ha, ⟨s, hreply, ho, hq⟩ | ⟨-, ho, hq⟩ | ⟨-, ho, hq⟩⟩ | ⟨hq, hcall⟩
    · rw [hcall, ho, hq]
      exact hrest
    · rw [hcall, ho, hq]
      simp only [hrest, List.length_take, List.drop_eq_drop_iff]
      omega
    · rw [hcall, ho, hq, hasked, ha]
      generalize (exec q.core Q.service Q.pending).1 = a at hreply ⊢
      obtain ⟨reply, served⟩ := a
      cases hreply
      rfl
    · rw [hcall, ho, hq]
      exact hrest
    · rw [hcall, ho, hq]
      exact hrest
    · rw [hq]
      rcases hcall with hcall | hcall | hcall | hcall | hcall | ⟨len, hcall, -, ho⟩
      all_goals rw [hcall]
      any_goals exact hrest
      rw [ho]
      exact hrest

/-- If this is a read of `b`, it returns a part of what the last flush attempt has left, and raises
after a failed flush. -/
def answersLatest (b : ℕ) (h : ReadBytes) (m : Move (World ε) Event Label) : Bool :=
  match m.input, m.output.outcome with
  | .read this (some len), .returned (.string s) =>
    fetchObject this ≠ b || (s.isPrefixOf h.latest && (!h.failed || len.toInt ≤ 0))
  | _, _ => true

/-- If this is a read of `b` after a failed flush, it asks for nothing, or nothing is left of the
response before. -/
def freshRead (b : ℕ) (h : ReadBytes) (m : Move (World ε) Event Label) : Bool :=
  match m.input with
  | .read this (some len) => fetchObject this ≠ b || !h.failed || len = 0 || h.rest = []
  | _ => true

/-- The bytes a read takes after a failed flush. -/
theorem stale_iff {Q : Queue} {len : Int64} (hread : ¬ (0 < len.toInt ∧ Q.unread = [])) :
    Q.unread.take (Q.asks len) = [] ∧ len.toInt ≤ 0 ↔ len = 0 ∨ Q.unread = [] := by
  have hzero : len = 0 ↔ len.toInt = 0 := Int64.toInt_inj.symm
  rw [List.take_eq_nil_iff, hzero]
  unfold Queue.asks
  constructor
  · rintro ⟨h | h, hle⟩
    · split_ifs at h with hneg
      · exact Or.inr (List.length_eq_zero_iff.mp h)
      · exact Or.inl (by omega)
    · exact Or.inr h
  · rintro (h | h)
    · refine ⟨Or.inl ?_, by omega⟩
      rw [if_neg (by omega)]
      omega
    · exact ⟨Or.inr h, by_contra fun hpos => hread ⟨by omega, h⟩⟩

/-- **One read.** -/
theorem answers_read_iff {w w' : World ε} {q : Queues ε} {this : ℕ} {len : Int64} {l : Label}
    {h : ReadBytes} {b : ℕ} (hR : Refines w q) (hf : h.Fits q b)
    (hc : inContract w (.read this (some len)) = true)
    (hs : engineStep Z exec w (.read this (some len)) = some (w', l))
    (hret : l.returned = true) :
    answersLatest b h ⟨w, .read this (some len), l, w'⟩ = true ↔
      freshRead b h ⟨w, .read this (some len), l, w'⟩ = true := by
  obtain ⟨q', hq', -⟩ := queueStep_of_returned hR hc hs hret
  have hin := read_intern hs
  have hcall : l.call = .read (some len) := engineStep_call hs
  by_cases hb : fetchObject this = b
  · obtain ⟨o, rs, rw, rr, c, -, -, -, hq⟩ := hR.exists_contents hc
    have hrest : c.queue.unread = h.rest := hf _ (by rw [← hb]; exact hq)
    have hsome : (c.queue.react exec q.core (.read (some len))).isSome := by
      simp only [Queue.react]
      split_ifs <;> rfl
    obtain ⟨r, hr, -, hout⟩ := queueStep_react hq' (by rw [hin]; exact hq)
      (by rw [hcall]; exact hsome)
    rw [hcall] at hr
    rcases Queue.react_cases hr with ⟨_, hcall, -⟩ | ⟨_, hcall, hread, ho, -⟩ | ⟨hcall, -⟩ |
      ⟨-, hcall⟩
    · cases hcall
    · cases hcall
      have hstale := stale_iff hread
      rw [hrest] at hstale
      simp only [answersLatest, freshRead, hout, ho, hb, hrest, ReadBytes.latest]
      cases h.failed with
      | false => simp [List.take_prefix]
      | true => simpa using hstale
    · cases hcall
    · rcases hcall with hcall | hcall | hcall | hcall | hcall | ⟨_, hcall, ⟨-, hnil⟩, ho⟩
      any_goals cases hcall
      simp [answersLatest, freshRead, hout, ho, ← hrest, hnil]
  · simp only [answersLatest, freshRead, ne_eq, hb, not_false_eq_true, decide_true, Bool.true_or]
    split <;> simp_all

/-- The other calls read nothing. -/
theorem answers_of_not_read {w w' : World ε} {ev : Event} {l : Label} {h : ReadBytes} {b : ℕ}
    (hev : ∀ this len, ev ≠ .read this (some len)) :
    answersLatest b h ⟨w, ev, l, w'⟩ = freshRead b h ⟨w, ev, l, w'⟩ := by
  cases ev with
  | read this arg =>
      cases arg with
      | none => rfl
      | some len => exact absurd rfl (hev this len)
  | _ => rfl

/-- **No read answers from an earlier call** if and only if each read after a failed flush asks for
nothing, or finds nothing left of the response before. -/
theorem reads_latest_iff (Z : ZendApi) (exec : Executor ε) (core : ε) (b : ℕ) {w : World ε}
    {ms : List (Move (World ε) Event Label)} (hr : (engine Z exec).Runs (World.init core) ms w)
    (hc : ∀ m ∈ ms, wellEnded m = true) :
    Always (ReadBytes.track b) (fun h m => answersLatest b h m = true) ⟨[], false⟩ ms ↔
      Always (ReadBytes.track b) (fun h m => freshRead b h m = true) ⟨[], false⟩ ms := by
  refine hr.always_iff (fun w h => ∃ q, Refines w q ∧ h.Fits q b) (fun m => wellEnded m = true)
    ?_ ?_ ⟨_, refines_init _, fun Q hQ => by cases hQ⟩ hc
  · rintro w ev l w' h ⟨q, hR, hf⟩ hE hs
    obtain ⟨hin, hret⟩ := wellEnded_iff.mp hE
    by_cases hev : ∃ this len, ev = .read this (some len)
    · obtain ⟨this, len, rfl⟩ := hev
      have hs' : engineStep Z exec w (.read this (some len)) = some (w', l) := hs
      exact answers_read_iff hR hf hin hs' hret
    · simp only [not_exists] at hev
      rw [answers_of_not_read hev]
  · rintro w ev l w' h ⟨q, hR, hf⟩ hE - hs
    obtain ⟨hin, hret⟩ := wellEnded_iff.mp hE
    obtain ⟨q', hq', hR'⟩ := queueStep_of_returned hR hin hs hret
    exact ⟨q', hR', ReadBytes.fits_track hf hq'⟩

/-- An answered call and a failed call of the service 7, on the transport in block 4096. After each
flush a read of `len` bytes. -/
def answeredThenFailed (len : Int64) : List Event :=
  [.createObject 0, .construct 4128 (some (zstrChar 7)), .write 4128 (some (zstrChar 1)),
    .flush 4128, .read 4128 (some len), .flush 4128, .read 4128 (some len)]

/-- The response is read to its end before the next call. -/
theorem reads_latest_two :
    ∃ w ms, (engine .unlimited everyOther).Runs (World.init 0) ms w ∧
      ms.map Move.input = answeredThenFailed 2 ∧
      Always (ReadBytes.track 4096) (fun h m => answersLatest 4096 h m = true) ⟨[], false⟩ ms := by
  obtain ⟨w, ms, hr, hin, hg⟩ := Runs.exists_of_inputs (engine .unlimited everyOther)
    (World.init 0) (answeredThenFailed 2)
    (fun r => r.2.all wellEnded && decide (Always (ReadBytes.track 4096)
      (fun h m => freshRead 4096 h m = true) ⟨[], false⟩ r.2)) rfl
  rw [Bool.and_eq_true, List.all_eq_true, decide_eq_true_eq] at hg
  exact ⟨w, ms, hr, hin, (reads_latest_iff _ _ _ 4096 hr hg.1).mpr hg.2⟩

/-- The response is read in part. The read after the failed flush gives the other part of it. -/
theorem stale_read :
    ∃ w ms, (engine .unlimited everyOther).Runs (World.init 0) ms w ∧
      ms.map Move.input = answeredThenFailed 1 ∧ (∀ m ∈ ms, wellEnded m = true) ∧
      (ms.map fun m => m.output.outcome).drop 3 =
        [.returned .null, .returned (.string [7]), .returned (.raised .rpcFailed),
          .returned (.string [1])] ∧
      ¬ Always (ReadBytes.track 4096) (fun h m => answersLatest 4096 h m = true)
        ⟨[], false⟩ ms := by
  obtain ⟨w, ms, hr, hin, hg⟩ := Runs.exists_of_inputs (engine .unlimited everyOther)
    (World.init 0) (answeredThenFailed 1)
    (fun r => r.2.all wellEnded && (decide ((r.2.map fun m => m.output.outcome).drop 3 =
        [.returned .null, .returned (.string [7]), .returned (.raised .rpcFailed),
          .returned (.string [1])]) &&
      decide (¬ Always (ReadBytes.track 4096) (fun h m => answersLatest 4096 h m = true)
        ⟨[], false⟩ r.2))) rfl
  rw [Bool.and_eq_true, Bool.and_eq_true, List.all_eq_true, decide_eq_true_eq,
    decide_eq_true_eq] at hg
  exact ⟨w, ms, hr, hin, hg⟩

end ThriftBridge
