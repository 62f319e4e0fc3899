import ThriftBridge.Core.Generic

/-!
# How the output transport grows

* `TMemoryBuffer.write_size`: what a `write` does to the capacity, and to the number of allocations;
* `Grown`: the capacity against the bytes that were written, and against the number of times that it
  was enlarged;
* `Process.run_grown`: both bounds hold through a call, however it splits its output;
* `serve_grown`: `n` bytes need at most `log2 n - 9` enlargements, and at most `2 n` bytes of memory.
-/

set_option autoImplicit false

namespace ThriftBridge

variable {σ : Type} {M : Malloc}

namespace TMemoryBuffer

variable {t t' : TMemoryBuffer} {buf : Chunk} {k : ℕ}

/-- **A `write` that succeeds** leaves the capacity, or raises it to the next power of two. -/
theorem write_size (h : (t.write M buf k).1 = .ok t') :
    (t'.bufferSize = t.bufferSize ∧ (t.write M buf k).2 = k) ∨
      (t.bufferSize.toNat < t'.buffer.length ∧ t'.buffer.length ≤ 2 ^ 32 - 1 ∧
        t'.bufferSize = newSize t'.buffer.length ∧ (t.write M buf k).2 = k + 1) := by
  obtain ⟨hb, -⟩ := write_buffer h
  rw [hb]
  simp only [write] at h ⊢
  split_ifs at h ⊢ with h1 h2 h3 h4
  · cases h
    exact Or.inl ⟨rfl, rfl⟩
  · cases h
    exact Or.inr ⟨not_le.mp h1, h3, rfl, rfl⟩

/-- A `write` that is granted its allocation and fails has allocated nothing. -/
theorem write_error {e : WriteError} (hM : ∀ k n, M k n = true)
    (h : (t.write M buf k).1 = .error e) : (t.write M buf k).2 = k := by
  simp only [write, hM, if_true] at h ⊢
  split_ifs at h ⊢ <;> rfl

end TMemoryBuffer

/-- After `r` enlargements: the capacity is at most 1024 or below twice the written bytes, and it was
doubled each time, up to the limit. -/
structure Grown (t : TMemoryBuffer) (r : ℕ) : Prop where
  capacity : t.bufferSize.toNat ≤ 1024 ∨ t.bufferSize.toNat < 2 * t.buffer.length
  doubled : t.bufferSize.toNat = 2 ^ 32 - 1 ∨ 2 ^ (10 + r) ≤ t.bufferSize.toNat
  needed : r = 0 ∨ 2 ^ (9 + r) < t.buffer.length

namespace Grown

variable {t t' : TMemoryBuffer} {r : ℕ}

theorem owned : Grown TMemoryBuffer.owned 0 where
  capacity := Or.inl le_rfl
  doubled := Or.inr le_rfl
  needed := Or.inl rfl

/-- The capacity stays. -/
theorem append (h : Grown t r) (hsize : t'.bufferSize = t.bufferSize)
    (hle : t.buffer.length ≤ t'.buffer.length) : Grown t' r where
  capacity := by
    rw [hsize]
    exact h.capacity.imp_right fun hc => by omega
  doubled := by
    rw [hsize]
    exact h.doubled
  needed := h.needed.imp_right fun hn => by omega

/-- **The next power of two** is enough, and not too much. -/
theorem enlarge (h : Grown t r) (hlt : t.bufferSize.toNat < t'.buffer.length)
    (hle : t'.buffer.length ≤ 2 ^ 32 - 1)
    (hsize : t'.bufferSize = TMemoryBuffer.newSize t'.buffer.length) : Grown t' (r + 1) := by
  set n := t'.buffer.length with hn
  have hpow : 2 ^ (10 + r) < n := by
    have := h.doubled
    omega
  have hone : 1 < n := lt_of_le_of_lt Nat.one_le_two_pow hpow
  have hclog : 10 + r < Nat.clog 2 n := (Nat.lt_clog_iff_pow_lt (by norm_num)).mpr hpow
  have hup : 2 ^ Nat.clog 2 n < 2 * n := by
    have hpred := Nat.pow_pred_clog_lt_self (b := 2) (by norm_num) hone
    have hsucc : Nat.clog 2 n = (Nat.clog 2 n).pred + 1 := (Nat.succ_pred_eq_of_pos (by omega)).symm
    rw [hsucc, pow_succ]
    omega
  have hcap : t'.bufferSize.toNat = min (2 ^ Nat.clog 2 n) (2 ^ 32 - 1) := by
    rw [hsize, TMemoryBuffer.newSize_toNat]
  refine ⟨Or.inr ?_, ?_, Or.inr ?_⟩
  · rw [hcap]
    exact lt_of_le_of_lt (min_le_left _ _) hup
  · rw [hcap]
    have hmono : 2 ^ (10 + (r + 1)) ≤ 2 ^ Nat.clog 2 n := Nat.pow_le_pow_right (by norm_num) hclog
    omega
  · rw [show 9 + (r + 1) = 10 + r by omega]
    exact hpow

end Grown

/-- **However a call splits its output**, the capacity grows with the bytes. -/
theorem Process.run_grown (hM : ∀ k n, M k n = true) (p : Process σ) (T : Transports) {r : ℕ}
    (h : Grown T.output r) : ∃ r', Grown (p.run M T).2.2.output r' ∧
      (p.run M T).2.2.mallocs + r = T.mallocs + r' := by
  induction p generalizing T r with
  | done ended s => exact ⟨r, h, rfl⟩
  | read len k ih => exact ih _ _ h
  | readAll len k ih => exact ih _ _ h
  | borrow len k ih => exact ih _ _ h
  | consume len k ih => exact ih _ _ h
  | readEnd k ih => exact ih _ _ h
  | write buf k ih =>
      simp only [Process.run]
      cases hw : T.output.write M buf T.mallocs with
      | mk res mallocs =>
          cases res with
          | error e =>
              have hcount := TMemoryBuffer.write_error hM (congrArg Prod.fst hw)
              rw [hw] at hcount
              obtain ⟨r', hg, hm⟩ := ih (some e) { T with mallocs := mallocs } h
              refine ⟨r', hg, ?_⟩
              rw [hm, show mallocs = T.mallocs from hcount]
          | ok output =>
              have hsize := TMemoryBuffer.write_size (congrArg Prod.fst hw)
              obtain ⟨hb, -⟩ := TMemoryBuffer.write_buffer (congrArg Prod.fst hw)
              rw [hw] at hsize
              rcases hsize with ⟨hsame, rfl⟩ | ⟨hlt, hle, hnew, rfl⟩
              · refine ih none { T with output := output, wrote := _, mallocs := _ }
                  (h.append hsame ?_)
                rw [hb, List.length_append]
                exact Nat.le_add_right _ _
              · obtain ⟨r', hg, hm⟩ := ih none
                  { T with output := output, wrote := _, mallocs := _ } (h.enlarge hlt hle hnew)
                exact ⟨r', hg, Nat.succ.inj (hm.trans (Nat.succ_add T.mallocs r'))⟩

/-- **The output of `n` bytes** takes a block of 1024 bytes, or of less than `2 n`. The block has been
enlarged `r` times only if `2 ^ (9 + r) < n`. -/
theorem serve_grown (hM : ∀ k n, M k n = true) (c : Core σ) (p : TProcessor σ) (request : Bytes)
    (len : UInt64) :
    let T := (c.serve M p request len).2.2
    (T.output.bufferSize.toNat ≤ 1024 ∨ T.output.bufferSize.toNat < 2 * T.wrote.length) ∧
      c.mallocs + 1 ≤ T.mallocs ∧
      (T.mallocs = c.mallocs + 1 ∨ 2 ^ (9 + (T.mallocs - (c.mallocs + 1))) < T.wrote.length) := by
  intro T
  obtain ⟨hbuf, -⟩ := serve_written M c p request len
  obtain ⟨r, hg, hm⟩ := (p.process c.handlers).run_grown hM
    ⟨TMemoryBuffer.observe request len.toUInt32, TMemoryBuffer.owned, [], c.mallocs + 1⟩ Grown.owned
  have hcount : T.mallocs = c.mallocs + 1 + r := hm
  have hwrote : T.output.buffer = T.wrote := hbuf
  refine ⟨?_, by omega, ?_⟩
  · rw [← hwrote]
    exact hg.capacity
  · rw [hcount, Nat.add_sub_cancel_left, ← hwrote]
    exact hg.needed.imp_left fun h => by rw [h, Nat.add_zero]

/-- The transports after an output of 1025 bytes. -/
def grownOnce : Transports :=
  ((scriptedCore []).serve (fun _ _ => true) scripted (List.replicate 1025 7) 1025).2.2

set_option maxRecDepth 8000 in
/-- The block of 1024 bytes is enlarged once. -/
theorem serve_grown_once :
    (grownOnce.wrote.length = 1025 ∧ grownOnce.output.bufferSize = 2048 ∧ grownOnce.mallocs = 2) ∧
      (grownOnce.output.bufferSize.toNat ≤ 1024 ∨
        grownOnce.output.bufferSize.toNat < 2 * grownOnce.wrote.length) ∧
      1 ≤ grownOnce.mallocs ∧ (grownOnce.mallocs = 1 ∨
        2 ^ (9 + (grownOnce.mallocs - 1)) < grownOnce.wrote.length) :=
  ⟨by decide +kernel, serve_grown (fun _ _ => rfl) (scriptedCore []) scripted
    (List.replicate 1025 7) 1025⟩

end ThriftBridge
