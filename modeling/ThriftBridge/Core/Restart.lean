import ThriftBridge.Core.Scan
import ThriftBridge.Lib.Machine

/-!
# Restarts of the module

* `moduleMachine fs dir`: rounds of `MINIT`, any number of `RINIT`s and `MSHUTDOWN`, in one
  process, with the directory and its plugins unchanged;
* `Serves fs dir L`: the static state is that of one scan from the empty state;
* `serves_after_rinit_iff`: the `RINIT`s after which it is.
-/

set_option autoImplicit false

namespace ThriftBridge

open Machine CoreLib ProcessorFactory LastWrite

variable {π : Type}

/-- What the engine does to the module. -/
inductive ModuleEvent
  | minit
  | rinit
  | mshutdown
deriving DecidableEq

/-- The static state, whether the module is started, the `RINIT`s of this round and those of the
rounds that are over. -/
structure Module (π : Type) where
  lib : CoreLib π
  up : Bool
  requests : ℕ
  earlier : ℕ

namespace Module

/-- The start of the process. -/
def init : Module π := ⟨.init, false, 0, 0⟩

/-- The engine's order. `MINIT` does not touch the static state. -/
def step (fs : Filesystem π) (dir : Option Bytes) (m : Module π) :
    ModuleEvent → Option (Module π × Unit)
  | .minit => if m.up then none else some ({ m with up := true, requests := 0 }, ())
  | .rinit =>
    if m.up then
      some ({ m with lib := rinit fs dir m.lib, requests := m.requests + 1 }, ())
    else none
  | .mshutdown =>
    if m.up then
      some (⟨mshutdown m.lib, false, 0, m.earlier + m.requests⟩, ())
    else none

end Module

/-- The module in an engine that starts and stops it any number of times. -/
def moduleMachine (fs : Filesystem π) (dir : Option Bytes) :
    Machine (Module π) ModuleEvent Unit where
  step := Module.step fs dir

/-- The static state is that of a core that has scanned the directory once, from the empty state. -/
structure Serves (fs : Filesystem π) (dir : Option Bytes) (L : CoreLib π) : Prop where
  initialized : L.coreInitialized = true
  resolve : ∀ s, L.globalFactory.resolve s =
    (loadPluginsFromDirectory fs (scanDir dir) init).globalFactory.resolve s
  handles : L.pluginHandles = (loadPluginsFromDirectory fs (scanDir dir) init).pluginHandles

/-- No file that a scan loads can be opened. -/
def NoneOpens (fs : Filesystem π) (dir : Option Bytes) : Prop :=
  ∀ path ∈ plugins fs (scanDir dir), fs.dlopen path = none

/-- Nothing is registered and no handle is kept. -/
structure Bare (L : CoreLib π) : Prop where
  processors : L.globalFactory.processors = ∅
  handles : L.pluginHandles = []

variable {fs : Filesystem π} {dir : Option Bytes} {L : CoreLib π}

theorem bare_init : Bare (init : CoreLib π) := ⟨rfl, rfl⟩

theorem bare_mshutdown (L : CoreLib π) : Bare (mshutdown L) := by
  rw [mshutdown_eq]
  exact ⟨clean_processors _, rfl⟩

theorem mshutdown_coreInitialized (L : CoreLib π) :
    (mshutdown L).coreInitialized = L.coreInitialized := by
  rw [mshutdown_eq]
  rfl

/-- The first `RINIT` on an empty state scans. -/
theorem serves_rinit (hb : Bare L) (hinit : L.coreInitialized = false) :
    Serves fs dir (rinit fs dir L) where
  initialized := by
    rw [rinit, initializeCoreLib, hinit, if_neg (by simp)]
  resolve s := by
    rw [rinit, resolve_initializeCoreLib fs _ hinit hb.processors, loadPluginsFromDirectory_eq,
      resolve_loadAll fs _ (allocated_of_empty rfl), resolve_of_empty rfl, Option.or_none]
  handles := by
    rw [rinit, initializeCoreLib, hinit, if_neg (by simp)]
    show (loadPluginsFromDirectory fs (scanDir dir) L).pluginHandles = _
    rw [loadPluginsFromDirectory_eq, loadPluginsFromDirectory_eq, pluginHandles_loadAll,
      pluginHandles_loadAll, hb.handles]
    rfl

/-- An empty state serves the directory only if the directory gives nothing. -/
theorem serves_bare_iff (hb : Bare L) (hinit : L.coreInitialized = true) :
    Serves fs dir L ↔ NoneOpens fs dir := by
  constructor
  · intro h path hpath
    have hh := h.handles
    rw [hb.handles, loadPluginsFromDirectory_eq, pluginHandles_loadAll] at hh
    have := List.filterMap_eq_nil_iff.mp hh.symm path hpath
    simpa using this
  · intro h
    refine ⟨hinit, fun s => ?_, ?_⟩
    · rw [resolve_of_empty hb.processors, loadPluginsFromDirectory_eq,
        resolve_loadAll fs _ (allocated_of_empty rfl), resolve_of_empty rfl, Option.or_none, eq_comm,
        last_eq_none_iff]
      intro w hw
      obtain ⟨path, hpath, hw⟩ := List.mem_flatMap.mp hw
      simp [registrations, h path hpath] at hw
    · rw [hb.handles, loadPluginsFromDirectory_eq, pluginHandles_loadAll, eq_comm]
      refine List.filterMap_eq_nil_iff.mpr fun path hpath => ?_
      rw [h path hpath, Option.map_none]

/-! ## Rounds -/

/-- What is known of the static state, by the `RINIT`s there have been. -/
structure Module.Inv (fs : Filesystem π) (dir : Option Bytes) (m : Module π) : Prop where
  down : m.up = false → m.requests = 0
  fresh : m.earlier = 0 → m.requests = 0 → Bare m.lib ∧ m.lib.coreInitialized = false
  serves : m.earlier = 0 → 0 < m.requests → Serves fs dir m.lib
  late : 0 < m.earlier → Bare m.lib ∧ m.lib.coreInitialized = true

theorem Module.inv_init : (Module.init : Module π).Inv fs dir where
  down _ := rfl
  fresh _ _ := ⟨bare_init, rfl⟩
  serves _ h := absurd h (by simp [Module.init])
  late h := absurd h (by simp [Module.init])

theorem rinit_of_initialized (h : L.coreInitialized = true) : rinit fs dir L = L := if_pos h

theorem Module.inv_step {m n : Module π} {e : ModuleEvent} {u : Unit} (hI : m.Inv fs dir)
    (hs : m.step fs dir e = some (n, u)) : n.Inv fs dir := by
  cases e with
  | minit =>
      simp only [step] at hs
      split_ifs at hs with hup
      cases hs
      have hreq := hI.down (by simpa using hup)
      exact ⟨fun _ => rfl, fun he _ => hI.fresh he hreq, fun _ h => absurd h (by simp),
        fun h => hI.late h⟩
  | rinit =>
      simp only [step] at hs
      split_ifs at hs with hup
      cases hs
      refine ⟨fun h => absurd h (by simp [hup]), fun _ h => absurd h (by simp), fun he _ => ?_,
        fun h => ?_⟩
      · by_cases hreq : m.requests = 0
        · obtain ⟨hb, hinit⟩ := hI.fresh he hreq
          exact serves_rinit hb hinit
        · have hS := hI.serves he (by omega)
          show Serves fs dir (CoreLib.rinit fs dir m.lib)
          rw [rinit_of_initialized hS.initialized]
          exact hS
      · obtain ⟨hb, hinit⟩ := hI.late h
        show Bare (CoreLib.rinit fs dir m.lib) ∧ (CoreLib.rinit fs dir m.lib).coreInitialized = true
        rw [rinit_of_initialized hinit]
        exact ⟨hb, hinit⟩
  | mshutdown =>
      simp only [step] at hs
      split_ifs at hs with hup
      cases hs
      refine ⟨fun _ => rfl, fun he _ => ⟨bare_mshutdown _, ?_⟩, fun _ h => absurd h (by simp),
        fun h => ⟨bare_mshutdown _, ?_⟩⟩
      · simp only [Nat.add_eq_zero_iff] at he
        rw [mshutdown_coreInitialized]
        exact (hI.fresh he.1 he.2).2
      · rw [mshutdown_coreInitialized]
        by_cases he : m.earlier = 0
        · exact (hI.serves he (by simp only at h; omega)).initialized
        · exact (hI.late (by omega)).2

/-- **An initialised core serves its plugins** after each `RINIT` of a run, if and only if each
`RINIT` is in the first round that has one, or the directory has no plugin that opens. -/
theorem serves_after_rinit_iff (fs : Filesystem π) (dir : Option Bytes) {m : Module π}
    {ms : List (Move (Module π) ModuleEvent Unit)}
    (h : (moduleMachine fs dir).Runs Module.init ms m) :
    (∀ k ∈ ms, k.input = .rinit → Serves fs dir k.post.lib) ↔
      ∀ k ∈ ms, k.input = .rinit → k.pre.earlier = 0 ∨ NoneOpens fs dir := by
  refine h.forall_iff (Module.Inv fs dir)
    (fun m e => e = .rinit → m.earlier = 0 ∨ NoneOpens fs dir)
    (fun k => k.input = .rinit → Serves fs dir k.post.lib) ?_
    (fun _ _ _ _ hI _ hs => Module.inv_step hI hs) Module.inv_init
  intro m e u n hI hs
  refine imp_congr_right fun he => ?_
  have hI' := Module.inv_step hI hs
  subst he
  simp only [moduleMachine, Module.step] at hs
  split_ifs at hs
  cases hs
  by_cases h0 : m.earlier = 0
  · exact ⟨fun _ => Or.inl h0, fun _ => hI'.serves h0 (Nat.succ_pos _)⟩
  · obtain ⟨hb, hinit⟩ := hI'.late (by show 0 < m.earlier; omega)
    rw [serves_bare_iff hb hinit]
    exact ⟨Or.inr, fun h => h.resolve_left h0⟩

/-- One round with two requests. -/
theorem serves_after_rinit_once :
    ∃ m ms, (moduleMachine mixedDisk (some [112])).Runs Module.init ms m ∧
      ms.map Move.input = [.minit, .rinit, .rinit, .mshutdown] ∧
      ∀ k ∈ ms, k.input = .rinit → Serves mixedDisk (some [112]) k.post.lib := by
  obtain ⟨m, ms, h, hin, hm⟩ := Runs.exists_of_inputs (moduleMachine mixedDisk (some [112]))
    Module.init [.minit, .rinit, .rinit, .mshutdown]
    (fun r => r.2.all fun k => k.pre.earlier = 0) (by decide)
  refine ⟨m, ms, h, hin, (serves_after_rinit_iff _ _ h).mpr fun k hk _ => Or.inl ?_⟩
  exact of_decide_eq_true (List.all_eq_true.mp hm k hk)

/-- A restart: the core is initialised, and no service resolves. -/
theorem not_serves_after_restart :
    ∃ m ms, (moduleMachine mixedDisk (some [112])).Runs Module.init ms m ∧
      ms.map Move.input = [.minit, .rinit, .mshutdown, .minit, .rinit] ∧
      m.lib.coreInitialized = true ∧ ¬ Serves mixedDisk (some [112]) m.lib := by
  obtain ⟨m, ms, h, hin, hm⟩ := Runs.exists_of_inputs (moduleMachine mixedDisk (some [112]))
    Module.init [.minit, .rinit, .mshutdown, .minit, .rinit]
    (fun r => r.1.lib.coreInitialized ∧ r.1.lib.globalFactory.resolve [65] = none) (by decide)
  obtain ⟨hinit, hres⟩ := of_decide_eq_true hm
  refine ⟨m, ms, h, hin, hinit, fun hS => ?_⟩
  have := hS.resolve [65]
  rw [hres] at this
  revert this
  decide

end ThriftBridge
