import ThriftBridge.Transport.Accounts

/-!
# The balance of an object's life

* `leak_run`: over a run, what is leaked is what was overwritten; `buffers_run`: a buffer that is
  left stays;
* `LifeBalanced`: all that an object took is given back when its block is released;
* `tidy`: the calls that overwrite no reference and leave no response;
* `life_never_balanced`: the balance at the end of an object's life.
-/

set_option autoImplicit false

namespace ThriftBridge

open RefCount World Machine

variable {ε : Type} {Z : ZendApi} {exec : Executor ε} {w v : World ε} {b : ℕ} {ev : Event}
  {l : Label}

/-! ## Runs -/

variable {ms ns : List (Move (World ε) Event Label)}

/-- If the process lives at the end of a run, it lives at its start. -/
theorem alive_of_runs (hr : (engine Z exec).Runs w ms v) (hv : v.alive = true) : w.alive = true := by
  cases hr with
  | nil => exact hv
  | cons hs _ => exact engineStep_alive hs

/-- The accounts of a run. -/
theorem accounts_run (hr : (engine Z exec).Runs w ms v) (hF : w.Fresh)
    (hb : ∀ m ∈ ms, beforeDtor m.pre m.input = true) (hv : v.alive = true) :
    ∀ m ∈ ms, Accounts Z exec m.pre m.post m.input := by
  induction hr with
  | nil => exact fun m hm => by cases hm
  | @cons s u t ev l ms hs hrest ih =>
      have hA : Accounts Z exec s u ev :=
        accounts_step hF (hb _ List.mem_cons_self) hs (alive_of_runs hrest hv)
      exact List.forall_mem_cons.mpr
        ⟨hA, ih hA.fresh (fun m hm => hb m (List.mem_cons_of_mem _ hm)) hv⟩

/-- A buffer that is there is not touched any more. -/
theorem buffers_run (hr : (engine Z exec).Runs w ms v)
    (hA : ∀ m ∈ ms, Accounts Z exec m.pre m.post m.input) :
    ∀ i < w.cHeap.next, v.cHeap.count i = w.cHeap.count i := by
  induction hr with
  | nil => exact fun i _ => rfl
  | @cons s u t ev l ms hs hrest ih =>
      rw [List.forall_mem_cons] at hA
      obtain ⟨⟨-, hB, -⟩, hA⟩ := hA
      have hB : Buffers s u _ := hB
      intro i hi
      rw [ih hA i (lt_of_lt_of_le hi hB.next), hB.old i hi]

/-- **What an object leaks over a run is what the events have overwritten.** -/
theorem leak_run (hr : (engine Z exec).Runs w ms v)
    (hA : ∀ m ∈ ms, Accounts Z exec m.pre m.post m.input)
    (hg : ∀ m ∈ ms, ∀ this, m.input = .flush this → fetchObject this = b →
      copyGranted Z exec m.pre m.input = true) (a : ℕ) :
    v.leak b a = w.leak b a + ((ms.map fun m => lost m.pre b a m.input).sum : ℕ) := by
  induction hr with
  | nil => simp
  | @cons s u t ev l ms hs hrest ih =>
      rw [List.forall_mem_cons] at hA hg
      have hstep : u.leak b a = s.leak b a + lost s b a ev := hA.1.leak b hg.1 a
      rw [ih hA.2 hg.2, hstep, List.map_cons, List.sum_cons]
      push_cast
      ring

/-! ## A life -/

/-- No reference on a string is left with the object that was in block `b`. -/
def RefsReturned (b : ℕ) (w : World ε) : Prop := ∀ a, w.ledger (some b) a = 0

/-- The response buffers that the calls on the object in block `b` have allocated are freed. -/
def ResponsesFreed (b : ℕ) (ms : List (Move (World ε) Event Label)) (w : World ε) : Prop :=
  ∀ k ∈ ms, k.output.intern = b →
    ∀ i, k.pre.cHeap.next ≤ i → i < k.post.cHeap.next → w.cHeap.count i = 0

/-- The block that `m` releases is the block that `m₀` has allocated. -/
def BlockReleased (m₀ m : Move (World ε) Event Label) : Prop :=
  ∃ p, m₀.post.allocated = p :: m₀.pre.allocated ∧ m.post.released = p :: m.pre.released

/-- What the object that `m₀` has created took over the calls `ms` is given back when `m` has
released its block. -/
structure LifeBalanced (ms : List (Move (World ε) Event Label))
    (m₀ m : Move (World ε) Event Label) : Prop where
  refs : RefsReturned m₀.output.intern m.post
  responses : ResponsesFreed m₀.output.intern ms m.post
  block : BlockReleased m₀ m

/-- A call on the object in block `b` overwrites no reference and leaves no response: a completed
`__construct` finds no counted string in its fields, and the copy of a response is granted. -/
def tidy (Z : ZendApi) (exec : Executor ε) (b : ℕ) (w : World ε) : Event → Bool
  | .construct this (some _) => fetchObject this ≠ b ||
    match w.objs b with
    | none => true
    | some o => o.refs.all StrRef.isInterned
  | .flush this => fetchObject this ≠ b || copyGranted Z exec w (.flush this)
  | _ => true

theorem tidy_iff (hb : beforeDtor w ev = true) (hs : engineStep Z exec w ev = some (v, l)) :
    tidy Z exec b w ev = true ↔
      (l.intern = b → copyGranted Z exec w ev = true) ∧ ∀ a, lost w b a ev = 0 := by
  cases ev with
  | flush this =>
      rw [flush_intern hs]
      simp only [tidy, lost, Bool.or_eq_true, decide_eq_true_eq, implies_true, and_true]
      exact Decidable.imp_iff_not_or.symm
  | construct this arg =>
      cases arg with
      | none => exact iff_of_true rfl ⟨fun _ => rfl, fun _ => rfl⟩
      | some r =>
          have hg : (l.intern = b → copyGranted Z exec w (.construct this (some r)) = true) ↔ True :=
            iff_of_true (fun _ => rfl) trivial
          rw [hg, true_and]
          by_cases hbt : fetchObject this = b
          · subst hbt
            obtain ⟨⟨o, ho⟩, -⟩ := engineStep_eq_some hs
            simp only [tidy, lost, ne_eq, not_true_eq_false, decide_false, Bool.false_or, ho,
              if_true, owed_of_some ho (not_destroyed hb ho), all_isInterned_iff, List.count_eq_zero]
          · simp [tidy, lost, hbt]
  | _ => exact iff_of_true rfl ⟨fun _ => rfl, fun _ => rfl⟩

/-- The buffers of an object are freed if and only if its copies are granted. -/
theorem responsesFreed_iff (hr : (engine Z exec).Runs w ms v)
    (hA : ∀ m ∈ ms, Accounts Z exec m.pre m.post m.input) :
    ResponsesFreed b ms v ↔
      ∀ k ∈ ms, k.output.intern = b → copyGranted Z exec k.pre k.input = true := by
  refine forall₂_congr fun k hk => imp_congr_right fun _ => ?_
  obtain ⟨n₁, n₂, rfl, -, -, hrest⟩ := hr.exists_prefix hk
  have hkeep := buffers_run hrest fun m hm =>
    hA m (List.mem_append_right _ (List.mem_cons_of_mem _ hm))
  rw [← (hA k hk).buffers.new]
  refine forall_congr' fun i => imp_congr_right fun _ => ?_
  exact ⟨fun h hi => (hkeep i hi).symm.trans (h hi), fun h hi => (hkeep i hi).trans (h hi)⟩

theorem fresh_init (core : ε) : (World.init core).Fresh := fun _ _ => rfl

/-- **The balance of an object's life.** It is never even: the standard handlers have no offset, and
the block that is released is not the block that was allocated. Its references and responses balance, if no method is called after the
destructor handler, exactly when all calls are tidy. -/
theorem life_never_balanced (Z : ZendApi) (exec : Executor ε) (core : ε)
    (hstd : Z.stdObjectHandlers.offset = 0) {w : World ε}
    {ns : List (Move (World ε) Event Label)} {m₀ m : Move (World ε) Event Label}
    (hr : (engine Z exec).Runs (World.init core) (ns ++ [m]) w) (h₀ : m₀ ∈ ns) {n : ℕ}
    (hin₀ : m₀.input = .createObject n) (hin : m.input = .freeObject (stdOf m₀.output.intern)) :
    ¬ LifeBalanced ns m₀ m ∧
      ((∀ k ∈ ns, beforeDtor k.pre k.input = true) →
        (RefsReturned m₀.output.intern m.post ∧ ResponsesFreed m₀.output.intern ns m.post ↔
          ∀ k ∈ ns, tidy Z exec m₀.output.intern k.pre k.input = true)) := by
  obtain ⟨hrun, hs, -⟩ := hr.of_append_cons
  have hs' : engineStep Z exec m.pre (.freeObject (stdOf m₀.output.intern)) =
      some (m.post, m.output) := hin ▸ hs
  obtain ⟨o, ho, hd, hpost⟩ := engineStep_eq_some hs'
  have hm : m.post = freeObject Z (stdOf m₀.output.intern) m.pre := congrArg Prod.fst hpost
  set b := m₀.output.intern with hbdef
  rw [fetchObject_stdOf] at ho
  refine ⟨fun hL => ?_, fun hb => ?_⟩
  · -- the handlers' offset is that of the standard handlers, and not that of `std`
    obtain ⟨k₁, k₂, -, -, hs₀, -⟩ := hrun.exists_prefix h₀
    have hs₀' : engineStep Z exec m₀.pre (.createObject n) = some (m₀.post, m₀.output) := hin₀ ▸ hs₀
    have hc := engineStep_eq_some hs₀'
    have hpost₀ : m₀.post = (createObject n m₀.pre).1 := congrArg Prod.fst hc
    have hintern : b = m₀.pre.brk := by
      rw [hbdef, show m₀.output = _ from congrArg Prod.snd hc]
      exact fetchObject_stdOf _
    obtain ⟨p, hp₀, hp⟩ := hL.block
    rw [hpost₀] at hp₀
    rw [hm] at hp
    have h1 : m₀.pre.brk = p := (List.cons.inj hp₀).1
    have h2 : stdOf b - (thriftBridgeHandlers Z).offset = p := (List.cons.inj hp).1
    rw [← h1, hintern] at h2
    simp only [stdOf, offsetOfStd, thriftBridgeHandlers, hstd] at h2
    omega
  · have hA := accounts_run hrun (fresh_init core) hb (engineStep_alive hs')
    have hfreed : ResponsesFreed b ns m.post ↔
        ∀ k ∈ ns, k.output.intern = b → copyGranted Z exec k.pre k.input = true := by
      have hpre := responsesFreed_iff (b := b) hrun hA
      rw [hm]
      exact hpre
    have hrefs : RefsReturned b m.post ↔ ∀ a, m.pre.leak b a = 0 := by
      refine forall_congr' fun a => ?_
      rw [hm, leak, owed_of_destroyed ho hd, Nat.cast_zero, sub_zero]
      rfl
    have htidy : (∀ k ∈ ns, tidy Z exec b k.pre k.input = true) ↔
        (∀ k ∈ ns, k.output.intern = b → copyGranted Z exec k.pre k.input = true) ∧
          ∀ k ∈ ns, ∀ a, lost k.pre b a k.input = 0 := by
      rw [← forall₂_and]
      refine forall₂_congr fun k hk => ?_
      obtain ⟨-, -, -, -, hk', -⟩ := hrun.exists_prefix hk
      exact tidy_iff (hb k hk) hk'
    rw [hrefs, htidy, and_comm, hfreed]
    refine and_congr_right fun hg => ?_
    -- all copies are granted, so what is leaked is what was overwritten
    have hleak := leak_run (b := b) hrun hA fun k hk this hflush hthis => by
      obtain ⟨-, -, -, -, hk', -⟩ := hrun.exists_prefix hk
      refine hg k hk ?_
      have hk'' : engineStep Z exec k.pre (.flush this) = some (k.post, k.output) := hflush ▸ hk'
      rw [flush_intern hk'', hthis]
    have h0 : ∀ a, (World.init core).leak b a = 0 := fun a => rfl
    simp only [hleak, h0, zero_add, Nat.cast_eq_zero, List.sum_eq_zero_iff, List.mem_map,
      forall_exists_index, and_imp, forall_apply_eq_imp_iff₂]
    exact ⟨fun h k hk a => h a k hk, fun h a k hk => h k hk a⟩

/-- A life with one call: all is given back but the block. -/
theorem life_of_one_call :
    ∃ w ns m₀ m, (engine .unlimited echo).Runs (World.init ()) (ns ++ [m]) w ∧
      (ns ++ [m]).map Move.input = [.createObject 0, .construct 4128 (some (zstrChar 7)),
        .write 4128 (some (zstrChar 1)), .flush 4128, .read 4128 (some 1), .dtorObject 4128,
        .freeObject 4128] ∧ m₀ ∈ ns ∧ m₀.input = .createObject 0 ∧ m.input = .freeObject 4128 ∧
      ¬ LifeBalanced ns m₀ m ∧ RefsReturned 4096 m.post ∧ ResponsesFreed 4096 ns m.post := by
  obtain ⟨w, ms, hr, hin, hg⟩ := Runs.exists_of_inputs (engine .unlimited echo) (World.init ())
    [.createObject 0, .construct 4128 (some (zstrChar 7)), .write 4128 (some (zstrChar 1)),
      .flush 4128, .read 4128 (some 1), .dtorObject 4128, .freeObject 4128]
    (fun r => (r.2.all fun m => beforeDtor m.pre m.input) &&
      ((r.2.all fun m => tidy .unlimited echo 4096 m.pre m.input) &&
        r.2.head?.map (fun m => m.output.intern) = some 4096)) rfl
  rw [Bool.and_eq_true, Bool.and_eq_true, List.all_eq_true, List.all_eq_true,
    decide_eq_true_eq] at hg
  obtain ⟨hb, ht, h₀⟩ := hg
  have hin' := hin
  simp only [List.map_eq_cons_iff, List.map_eq_nil_iff] at hin'
  obtain ⟨m₀, _, rfl, hin₀, k₁, _, rfl, -, k₂, _, rfl, -, k₃, _, rfl, -, k₄, _, rfl, -, k₅, _, rfl,
    -, m, _, rfl, hinm, rfl⟩ := hin'
  have hintern : m₀.output.intern = 4096 := Option.some.inj h₀
  have hrun : (engine .unlimited echo).Runs (World.init ()) ([m₀, k₁, k₂, k₃, k₄, k₅] ++ [m]) w := hr
  obtain ⟨hne, hiff⟩ := life_never_balanced .unlimited echo () rfl hrun List.mem_cons_self hin₀
    (by rw [hintern]; exact hinm)
  have hback := (hiff fun k hk => hb k (List.mem_append_left [m] hk)).mpr fun k hk => by
    rw [hintern]
    exact ht k (List.mem_append_left [m] hk)
  rw [hintern] at hback
  exact ⟨w, [m₀, k₁, k₂, k₃, k₄, k₅], m₀, m, hr, hin, List.mem_cons_self, hin₀, hinm, hne, hback⟩

/-- The block at 4096 is allocated, and the address of its `zend_object` is released. -/
theorem released_at_std :
    ∃ w ns m₀ m, (engine .unlimited echo).Runs (World.init ()) (ns ++ [m]) w ∧
      (ns ++ [m]).map Move.input = [.createObject 0, .construct 4128 (some (zstrChar 7)),
        .dtorObject 4128, .freeObject 4128] ∧ m₀ ∈ ns ∧ m₀.input = .createObject 0 ∧
      m₀.post.allocated = [4096] ∧ m.post.released = [4128] ∧ ¬ LifeBalanced ns m₀ m := by
  obtain ⟨w, ms, hr, hin, hg⟩ := Runs.exists_of_inputs (engine .unlimited echo) (World.init ())
    [.createObject 0, .construct 4128 (some (zstrChar 7)), .dtorObject 4128, .freeObject 4128]
    (fun r => decide ((r.2.head?.map fun m => m.post.allocated) = some [4096] ∧
      (r.2.getLast?.map fun m => m.post.released) = some [4128])) rfl
  obtain ⟨hfst, hlast⟩ := of_decide_eq_true hg
  have hin' := hin
  simp only [List.map_eq_cons_iff, List.map_eq_nil_iff] at hin'
  obtain ⟨m₀, _, rfl, hin₀, k₁, _, rfl, -, k₂, _, rfl, -, m, _, rfl, -, rfl⟩ := hin'
  have h1 : m₀.post.allocated = [4096] := Option.some.inj hfst
  have h2 : m.post.released = [4128] := Option.some.inj hlast
  refine ⟨w, [m₀, k₁, k₂], m₀, m, hr, hin, List.mem_cons_self, hin₀, h1, h2, fun hL => ?_⟩
  obtain ⟨p, hp₀, hp⟩ := hL.block
  rw [h1] at hp₀
  rw [h2] at hp
  have := (List.cons.inj hp₀).1.trans (List.cons.inj hp).1.symm
  omega

end ThriftBridge
