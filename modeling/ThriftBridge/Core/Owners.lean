import ThriftBridge.Core.Factory

/-!
# Owners of processors

* `factoryMachine`: registrations, lookups whose results are held and dropped, and `clean`, in any
  order. It refuses the registration of a processor that is already deleted;
* `FactoryUse.Safe`: whatever is registered or held is not deleted;
* `FactoryUse.DestroyedOnce`: what was ever registered is deleted once, and nothing else is;
* `destroyed_once_iff`: both hold in a run that ends with `clean` exactly if no raw pointer is
  registered twice.
-/

set_option autoImplicit false

namespace ThriftBridge

open RefCount Machine ProcessorFactory

variable {π : Type} [DecidableEq π]

/-- What plugins and calls do. A held result is given by its control block. -/
inductive FactoryEvent (π : Type)
  | register (serviceName : CString) (ptr : π)
  | lookup (serviceName : Bytes)
  | drop (b : ℕ)
  | clean

/-- The factory, the results that calls hold, and the pointers that were ever registered. -/
structure FactoryUse (π : Type) where
  factory : ProcessorFactory π
  held : List ℕ
  registered : List π

namespace FactoryUse

/-- Nothing is registered yet. -/
def init : FactoryUse π := ⟨.empty, [], []⟩

/-- One event; a lookup answers with the processor. A pointer stands for its processor: that `new`
gives the address of a deleted processor to another one, which may then be registered, is not
here. -/
def step (u : FactoryUse π) : FactoryEvent π → Option (FactoryUse π × Option π)
  | .register serviceName ptr =>
    if ptr ∈ u.factory.destroyed then none
    else some (⟨u.factory.staticRegisterCallback serviceName ptr, u.held, ptr :: u.registered⟩, none)
  | .lookup serviceName =>
    let (factory, r) := u.factory.getProcessor serviceName
    some (⟨factory, r.toList ++ u.held, u.registered⟩, r.bind factory.blocks.content)
  | .drop b =>
    if b ∈ u.held then
      some (⟨u.factory.release b, u.held.erase b, u.registered⟩, none)
    else none
  | .clean => some (⟨u.factory.clean, u.held, u.registered⟩, none)

theorem registered_step {u v : FactoryUse π} {e : FactoryEvent π} {r : Option π}
    (hs : u.step e = some (v, r)) : u.registered <:+ v.registered := by
  cases e with
  | register s p =>
      simp only [step] at hs
      split_ifs at hs
      cases hs
      exact List.suffix_cons p _
  | lookup s => cases hs; exact List.suffix_rfl
  | drop b =>
      simp only [step] at hs
      split_ifs at hs
      cases hs
      exact List.suffix_rfl
  | clean => cases hs; exact List.suffix_rfl

theorem refs_drop {u v : FactoryUse π} {b : ℕ} {r : Option π}
    (hs : u.step (.drop b) = some (v, r)) : v.factory.refs = u.factory.refs := by
  simp only [step] at hs
  split_ifs at hs
  cases hs
  rfl

/-- What is registered or held is not deleted. -/
def Safe (u : FactoryUse π) : Prop :=
  ∀ b ∈ u.factory.refs + u.held, ∃ p, u.factory.blocks.content b = some p ∧
    p ∉ u.factory.destroyed

/-- Every registered processor is deleted exactly once. -/
def DestroyedOnce (u : FactoryUse π) : Prop :=
  ∀ p, u.factory.destroyed.count p = if p ∈ u.registered then 1 else 0

/-- The `shared_ptr`s are those of the map and the held ones, and the accounts are in order. -/
def Inv (u : FactoryUse π) : Prop :=
  u.factory.Accounts (u.factory.refs + u.held) u.registered

omit [DecidableEq π] in
theorem inv_init : Inv (init : FactoryUse π) := accounts_empty

theorem inv_step {u v : FactoryUse π} {e : FactoryEvent π} {r : Option π} (hI : u.Inv)
    (hs : u.step e = some (v, r)) : v.Inv := by
  cases e with
  | register s p =>
      simp only [step] at hs
      split_ifs at hs
      cases hs
      exact Accounts.staticRegisterCallback hI s p
  | lookup s =>
      simp only [step] at hs
      cases hs
      have h := Accounts.getProcessor hI s
      rwa [Multiset.coe_add] at h
  | drop b =>
      simp only [step] at hs
      split_ifs at hs with hb
      cases hs
      refine Accounts.release ?_
      have hsplit : (u.held : Multiset ℕ) = b ::ₘ (u.held.erase b : List ℕ) := by
        rw [Multiset.cons_coe, Multiset.coe_eq_coe]
        exact List.perm_cons_erase hb
      rw [refs_release, ← Multiset.add_cons, ← hsplit]
      exact hI
  | clean =>
      simp only [step] at hs
      cases hs
      exact Accounts.clean hI

omit [DecidableEq π] in
theorem Inv.safe {u : FactoryUse π} (hI : u.Inv) (hreg : u.registered.Nodup) : u.Safe := by
  intro b hb
  obtain ⟨p, hp⟩ := CountedHeap.exists_content (hI.tally.pos_iff.mpr hb)
  exact ⟨p, hp, hI.notMem_destroyed (Multiset.coe_nodup.mpr hreg) hb hp⟩

/-- With no `shared_ptr` left, every registration has led to one deletion. -/
theorem Inv.count_destroyed {u : FactoryUse π} (hI : u.Inv) (hrefs : u.factory.refs = 0)
    (hheld : u.held = []) (p : π) : u.factory.destroyed.count p = u.registered.count p := by
  have h : u.factory.Accounts 0 u.registered := by
    have := hI
    rwa [Inv, hrefs, hheld] at this
  exact List.Perm.count_eq (Multiset.coe_eq_coe.mp h.destroyed_eq) p

theorem Inv.destroyedOnce_iff {u : FactoryUse π} (hI : u.Inv) (hrefs : u.factory.refs = 0)
    (hheld : u.held = []) : u.DestroyedOnce ↔ u.registered.Nodup := by
  have hcount := hI.count_destroyed hrefs hheld
  constructor
  · intro h
    rw [List.nodup_iff_count_le_one]
    intro p
    rw [← hcount p, h p]
    split_ifs <;> omega
  · intro h p
    rw [hcount p]
    split_ifs with hp
    · exact List.count_eq_one_of_mem h hp
    · exact List.count_eq_zero_of_not_mem hp

end FactoryUse

/-- The factory under plugins and calls that may do anything, in any order. -/
def factoryMachine (π : Type) [DecidableEq π] :
    Machine (FactoryUse π) (FactoryEvent π) (Option π) where
  step := FactoryUse.step

open FactoryUse

variable {u v : FactoryUse π} {ns ks : List (Move (FactoryUse π) (FactoryEvent π) (Option π))}

/-- What has been registered stays on record. -/
theorem registered_suffix (h : (factoryMachine π).Runs u ns v) : u.registered <:+ v.registered := by
  induction h with
  | nil => exact List.suffix_rfl
  | cons hs _ ih => exact (registered_step hs).trans ih

/-- The map stays empty while results are dropped. -/
theorem refs_of_drops (h : (factoryMachine π).Runs u ks v) (h0 : u.factory.refs = 0)
    (hd : ∀ k ∈ ks, ∃ b, k.input = .drop b) : v.factory.refs = 0 := by
  refine (h.invariant_of (fun u => u.factory.refs = 0) (fun _ e => ∃ b, e = .drop b) ?_ h0 hd).1
  rintro u _ r v hu ⟨b, rfl⟩ hs
  rw [refs_drop hs, hu]

/-- **Each registered processor is deleted exactly once, and never while it is served**, in a run
that ends with `clean` and the last results dropped, if and only if every registration was of a
different raw pointer. -/
theorem destroyed_once_iff {ms : List (Move (FactoryUse π) (FactoryEvent π) (Option π))}
    {is ds : List (FactoryEvent π)} (h : (factoryMachine π).Runs init ms u)
    (hin : ms.map Move.input = is ++ .clean :: ds) (hd : ∀ d ∈ ds, ∃ b, d = .drop b)
    (hheld : u.held = []) :
    ((∀ m ∈ ms, m.post.Safe) ∧ u.DestroyedOnce) ↔ u.registered.Nodup := by
  have hinv := h.invariant Inv (fun _ _ _ _ hI hs => inv_step hI hs) inv_init
  have hrefs : u.factory.refs = 0 := by
    obtain ⟨ns, ks', rfl, -, hks'⟩ := List.map_eq_append_iff.mp hin
    obtain ⟨m, ks, rfl, hm, rfl⟩ := List.map_eq_cons_iff.mp hks'
    obtain ⟨-, hs, hr⟩ := h.of_append_cons
    rw [hm] at hs
    have hp : _ = m.post := congrArg Prod.fst (Option.some.inj hs)
    refine refs_of_drops hr ?_ fun k hk => hd _ (List.mem_map_of_mem hk)
    rw [← hp]
    exact refs_clean _
  refine ⟨fun hP => (hinv.1.destroyedOnce_iff hrefs hheld).mp hP.2, fun hreg => ⟨?_, ?_⟩⟩
  · intro k hk
    obtain ⟨ns', ks', -, -, -, hr⟩ := h.exists_prefix hk
    exact (hinv.2 k hk).2.safe (hreg.sublist (registered_suffix hr).sublist)
  · exact (hinv.1.destroyedOnce_iff hrefs hheld).mpr hreg

/-- Two services with a processor each, and a lookup that outlasts the re-registration of its
service and `clean`. -/
theorem destroyed_once_two :
    ∃ (u : FactoryUse ℕ) (ms : _), (factoryMachine ℕ).Runs init ms u ∧
      (∀ m ∈ ms, m.post.Safe) ∧ u.DestroyedOnce ∧ u.factory.destroyed.Perm [1, 2, 3] := by
  obtain ⟨u, ms, h, hin, hu⟩ := Runs.exists_of_inputs (factoryMachine ℕ) init
    ([.register (.ofBuffer [65]) 1, .register (.ofBuffer [66]) 2, .lookup [65],
      .register (.ofBuffer [65]) 3] ++ .clean :: [.drop 0])
    (fun r => r.1.held = [] ∧ r.1.registered.Nodup ∧ r.1.factory.destroyed.Perm [1, 2, 3]) (by decide)
  obtain ⟨hh, hreg, hdes⟩ := of_decide_eq_true hu
  have hP := (destroyed_once_iff h hin (by simp) hh).mpr hreg
  exact ⟨u, ms, h, hP.1, hP.2, hdes⟩

/-- One pointer under two names: it is deleted twice. -/
theorem destroyed_twice :
    ∃ (u : FactoryUse ℕ) (ms : _), (factoryMachine ℕ).Runs init ms u ∧
      ms.map Move.input = [.register (.ofBuffer [65]) 1, .register (.ofBuffer [66]) 1, .clean] ∧
      u.held = [] ∧ u.factory.destroyed = [1, 1] ∧ ¬ u.DestroyedOnce := by
  obtain ⟨u, ms, h, hin, hu⟩ := Runs.exists_of_inputs (factoryMachine ℕ) init
    [.register (.ofBuffer [65]) 1, .register (.ofBuffer [66]) 1, .clean]
    (fun r => r.1.held = [] ∧ r.1.factory.destroyed = [1, 1] ∧ r.1.registered = [1, 1])
    (by decide)
  obtain ⟨hh, hdes, hreg⟩ := of_decide_eq_true hu
  refine ⟨u, ms, h, hin, hh, hdes, fun hD => ?_⟩
  have := hD 1
  rw [hdes, hreg] at this
  revert this
  decide

end ThriftBridge
