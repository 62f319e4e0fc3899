import ThriftBridge.Core.Scan
import ThriftBridge.Lib.Machine

/-!
# Open handles

`library p` is the handle of the library that the code of processor `p` is in.

* `PluginDisk library`: a disk whose plugins register only processors of their own library;
* `loaderMachine library`: `RINIT`s, loads, lookups and `MSHUTDOWN`s, in any order;
* `Mapped library L`: the processors that are not deleted are in open libraries, and
  `plugin_handles` is what is open;
* `no_processor_outlives_its_library`: the law, over runs.
-/

set_option autoImplicit false

namespace ThriftBridge

open RefCount Machine CoreLib ProcessorFactory

variable {π : Type}

/-- A disk on which a plugin registers only processors of its own library. -/
structure PluginDisk (library : π → Handle) extends Filesystem π where
  own : ∀ path lib regs, dlopen path = some lib → lib.entry = some regs →
    ∀ r ∈ regs, library r.2 = lib.handle

/-- What happens to the static state. -/
inductive LoaderEvent (library : π → Handle)
  | rinit (fs : PluginDisk library) (pluginDir : Option Bytes)
  | load (fs : PluginDisk library) (pluginPath : Bytes)
  | lookup (serviceName : Bytes)
  | mshutdown

variable {library : π → Handle}

/-- One event. The result of a lookup lives as long as the call it is for. -/
def loaderStep (L : CoreLib π) : LoaderEvent library → CoreLib π
  | .rinit fs pluginDir => rinit fs.toFilesystem pluginDir L
  | .load fs pluginPath => loadPlugin fs.toFilesystem pluginPath L
  | .lookup serviceName =>
    L.onFactory fun F => (F.getProcessor serviceName).1.letGo (F.getProcessor serviceName).2
  | .mshutdown => mshutdown L

/-- The static state under any sequence of events. -/
def loaderMachine (library : π → Handle) : Machine (CoreLib π) (LoaderEvent library) Unit where
  step L e := some (loaderStep L e, ())

/-! ## What the factory deletes -/

namespace ProcessorFactory

variable {F : ProcessorFactory π}

theorem destroyed_release (F : ProcessorFactory π) (b : ℕ) :
    F.destroyed <+: (F.release b).destroyed := by
  unfold release
  split_ifs
  · exact List.prefix_append _ _
  · exact List.prefix_rfl

theorem destroyed_staticRegisterCallback (F : ProcessorFactory π) (n : CString) (p : π) :
    F.destroyed <+: (F.staticRegisterCallback n p).destroyed := by
  refine List.IsPrefix.trans ?_ (destroyed_release _ _)
  unfold registerProcessor
  cases F.processors.lookup n.val with
  | none => exact List.prefix_rfl
  | some b =>
      refine List.IsPrefix.trans ?_ (destroyed_release _ b)
      exact List.prefix_rfl

theorem destroyed_lookup (F : ProcessorFactory π) (s : Bytes) :
    F.destroyed <+: ((F.getProcessor s).1.letGo (F.getProcessor s).2).destroyed := by
  unfold getProcessor
  cases F.processors.lookup s with
  | none => exact List.prefix_rfl
  | some b =>
      refine List.IsPrefix.trans ?_ (destroyed_release _ b)
      exact List.prefix_rfl

theorem destroyed_clean (F : ProcessorFactory π) : F.destroyed <+: F.clean.destroyed := by
  have hfold : ∀ (l : List ((_ : Bytes) × ℕ)) (F : ProcessorFactory π),
      F.destroyed <+: (l.foldl (fun F e => F.release e.2) F).destroyed := by
    intro l
    induction l with
    | nil => intro F; exact List.prefix_rfl
    | cons e l ih => intro F; exact (destroyed_release F e.2).trans (ih _)
  exact hfold _ { F with processors := ∅ }

theorem Accounts.lookup {reg : Multiset π} (h : F.Accounts F.refs reg) (s : Bytes) :
    Accounts ((F.getProcessor s).1.letGo (F.getProcessor s).2)
      ((F.getProcessor s).1.letGo (F.getProcessor s).2).refs reg := by
  rw [← Multiset.add_zero F.refs] at h
  have h' := h.getProcessor s
  cases hr : (F.getProcessor s).2 with
  | none => simpa [hr, letGo] using h'
  | some b =>
      rw [hr, Option.toList_some, Multiset.coe_singleton, Multiset.add_zero, Multiset.add_comm,
        Multiset.singleton_add] at h'
      exact h'.release

end ProcessorFactory

/-! ## The invariant -/

/-- Processors that are not deleted are in open libraries, deleted ones were when they were
deleted, and `plugin_handles` holds each handle as often as it is open. -/
structure Mapped (library : π → Handle) (L : CoreLib π) : Prop where
  tally : Tally L.globalFactory.blocks.count L.globalFactory.refs
  live : ∀ p ∈ L.globalFactory.blocks.live, 0 < L.dl.openCount (library p)
  deleted : ∀ d ∈ L.deleted, 0 < d.2.openCount (library d.1)
  log : L.deleted.map Prod.fst = L.globalFactory.destroyed
  handles : ∀ h, (L.pluginHandles.count h : ℤ) = L.dl.openCount h

variable {L : CoreLib π}

theorem mapped_init : Mapped library (init : CoreLib π) where
  tally _ := rfl
  live p hp := by simp [init, ProcessorFactory.empty] at hp
  deleted d hd := by simp [init] at hd
  log := rfl
  handles _ := rfl

theorem Mapped.accounts (hM : Mapped library L) :
    L.globalFactory.Accounts L.globalFactory.refs
      (L.globalFactory.destroyed + L.globalFactory.blocks.live) := ⟨hM.tally, rfl⟩

/-- **A call into the factory** deletes only processors that were live, or are new. -/
theorem Mapped.onFactory {f : ProcessorFactory π → ProcessorFactory π}
    (hM : Mapped library L) (new : Multiset π)
    (hpre : L.globalFactory.destroyed <+: (f L.globalFactory).destroyed)
    (hacc : (f L.globalFactory).Accounts (f L.globalFactory).refs
      (new + (L.globalFactory.destroyed + L.globalFactory.blocks.live)))
    (hnew : ∀ p ∈ new, 0 < L.dl.openCount (library p)) : Mapped library (L.onFactory f) := by
  obtain ⟨tail, htail⟩ := hpre
  have hdrop : (f L.globalFactory).destroyed.drop L.globalFactory.destroyed.length = tail := by
    rw [← htail, List.drop_left]
  have hsum : (tail : Multiset π) + (f L.globalFactory).blocks.live =
      new + L.globalFactory.blocks.live := by
    have := hacc.total
    rw [← htail, ← Multiset.coe_add, add_left_comm new, Multiset.add_assoc] at this
    exact Multiset.add_right_inj.mp this
  have hopen : ∀ p ∈ (tail : Multiset π) + (f L.globalFactory).blocks.live,
      0 < L.dl.openCount (library p) := by
    intro p hp
    rw [hsum] at hp
    rcases Multiset.mem_add.mp hp with hp | hp
    · exact hnew p hp
    · exact hM.live p hp
  refine ⟨hacc.tally, fun p hp => hopen p (Multiset.mem_add.mpr (Or.inr hp)), ?_, ?_, hM.handles⟩
  · intro d hd
    simp only [CoreLib.onFactory, hdrop] at hd
    rcases List.mem_append.mp hd with hd | hd
    · exact hM.deleted d hd
    · obtain ⟨p, hp, rfl⟩ := List.mem_map.mp hd
      exact hopen p (Multiset.mem_add.mpr (Or.inl (Multiset.mem_coe.mpr hp)))
  · simp only [CoreLib.onFactory, hdrop, List.map_append, hM.log, List.map_map]
    rw [← htail]
    congr 1
    exact List.map_id tail

theorem Mapped.registerAll {regs : List (CString × π)} (hM : Mapped library L)
    (hown : ∀ r ∈ regs, 0 < L.dl.openCount (library r.2)) :
    Mapped library (registerAll regs L) := by
  induction regs generalizing L with
  | nil => exact hM
  | cons r regs ih =>
      have hstep : Mapped library (L.onFactory fun F => F.staticRegisterCallback r.1 r.2) := by
        refine hM.onFactory {r.2} (destroyed_staticRegisterCallback _ _ _) ?_ ?_
        · have h := hM.accounts
          rw [← Multiset.add_zero (refs _)] at h
          have h' := h.staticRegisterCallback r.1 r.2
          rwa [Multiset.add_zero, ← Multiset.singleton_add] at h'
        · intro p hp
          rw [Multiset.mem_singleton.mp hp]
          exact hown r List.mem_cons_self
      exact ih hstep fun r' hr' => hown r' (List.mem_cons_of_mem _ hr')

/-- A handle more. -/
theorem Mapped.dlopen (hM : Mapped library L) (h : Handle) (entered : List Bytes) :
    Mapped library { L with
      dl := { L.dl with opened := h :: L.dl.opened }
      pluginHandles := L.pluginHandles ++ [h]
      entered := entered } := by
  have hcount : ∀ k, Dl.openCount { L.dl with opened := h :: L.dl.opened } k =
      L.dl.openCount k + if h = k then 1 else 0 := by
    intro k
    simp only [Dl.openCount, List.count_cons, beq_iff_eq]
    split_ifs <;> push_cast <;> ring
  refine ⟨hM.tally, fun p hp => ?_, hM.deleted, hM.log, fun k => ?_⟩
  · have := hM.live p hp
    simp only [hcount]
    split_ifs <;> omega
  · have := hM.handles k
    simp only [hcount, List.count_append, List.count_singleton, beq_iff_eq]
    split_ifs <;> push_cast <;> omega

theorem Mapped.loadPlugin (hM : Mapped library L) (fs : PluginDisk library) (path : Bytes) :
    Mapped library (loadPlugin fs.toFilesystem path L) := by
  rw [loadPlugin_eq]
  cases hd : fs.dlopen path with
  | none =>
      simpa [hd, hasEntry, CoreLib.registerAll] using hM
  | some lib =>
      have hM' := hM.dlopen lib.handle
        (L.entered ++ if hasEntry fs.toFilesystem path then [path] else [])
      refine Mapped.registerAll hM' ?_
      intro r hr
      cases he : lib.entry with
      | none => simp [he] at hr
      | some regs =>
          simp only [Option.bind_some, he, Option.getD_some] at hr
          rw [fs.own path lib regs hd he r hr]
          refine lt_of_lt_of_eq ?_ (hM'.handles lib.handle)
          simp

theorem Mapped.rinit (hM : Mapped library L) (fs : PluginDisk library) (dir : Option Bytes) :
    Mapped library (rinit fs.toFilesystem dir L) := by
  have hall : ∀ (paths : List Bytes) {L : CoreLib π}, Mapped library L →
      Mapped library (loadAll fs.toFilesystem paths L) := by
    intro paths
    induction paths with
    | nil => intro L hM; exact hM
    | cons path paths ih => intro L hM; exact ih (hM.loadPlugin fs path)
  unfold CoreLib.rinit initializeCoreLib
  split_ifs
  · exact hM
  · rw [loadPluginsFromDirectory_eq]
    have h := hall (plugins fs.toFilesystem (scanDir dir)) hM
    exact ⟨h.tally, h.live, h.deleted, h.log, h.handles⟩

theorem Mapped.lookup (hM : Mapped library L) (s : Bytes) :
    Mapped library (L.onFactory fun F => (F.getProcessor s).1.letGo (F.getProcessor s).2) := by
  refine hM.onFactory 0 (destroyed_lookup _ _) ?_ (by simp)
  rw [Multiset.zero_add]
  exact hM.accounts.lookup s

/-- **`MSHUTDOWN`**: the last `shared_ptr`s go before the first handle is closed. -/
theorem Mapped.mshutdown (hM : Mapped library L) :
    Mapped library (mshutdown L) ∧ ∀ h, (mshutdown L).dl.openCount h = 0 := by
  have hacc : L.globalFactory.clean.Accounts L.globalFactory.clean.refs
      (0 + (L.globalFactory.destroyed + L.globalFactory.blocks.live)) := by
    have h := hM.accounts
    rw [← Multiset.add_zero (refs _)] at h
    have h' := h.clean
    rwa [Multiset.add_zero, ← Multiset.zero_add (_ + _)] at h'
  have hC := hM.onFactory 0 (destroyed_clean L.globalFactory) hacc (by simp)
  have hlive : L.globalFactory.clean.blocks.live = 0 := by
    refine CountedHeap.live_eq_zero fun i => ?_
    rw [hacc.tally i, refs_clean, Multiset.count_zero]
  have hzero : ∀ h, (CoreLib.mshutdown L).dl.openCount h = 0 := by
    intro h
    have hh := hM.handles h
    simp only [mshutdown_eq, Dl.openCount, List.count_append, List.count_reverse] at hh ⊢
    push_cast
    omega
  refine ⟨⟨?_, ?_, ?_, ?_, ?_⟩, hzero⟩
  · rw [mshutdown_eq]
    exact hC.tally
  · intro p hp
    rw [mshutdown_eq] at hp
    change p ∈ L.globalFactory.clean.blocks.live at hp
    rw [hlive] at hp
    simp at hp
  · rw [mshutdown_eq]
    exact hC.deleted
  · rw [mshutdown_eq]
    exact hC.log
  · intro h
    rw [hzero, mshutdown_eq]
    rfl

/-! ## Runs -/

/-- What holds in every state: the `shared_ptr`s of the map, and so the results of lookups, are of
processors in open libraries; deleted ones were in open libraries then; `plugin_handles` is what is
open; and no handle is closed more often than it was opened. -/
structure CodeMapped (library : π → Handle) (L : CoreLib π) : Prop where
  registered : ∀ b ∈ L.globalFactory.refs, ∃ p, L.globalFactory.blocks.get? b = some p ∧
    0 < L.dl.openCount (library p)
  resolved : ∀ s p, L.globalFactory.resolve s = some p → 0 < L.dl.openCount (library p)
  deleted : ∀ d ∈ L.deleted, 0 < d.2.openCount (library d.1)
  log : L.deleted.map Prod.fst = L.globalFactory.destroyed
  handles : ∀ h, (L.pluginHandles.count h : ℤ) = L.dl.openCount h
  closed : ∀ h, L.dl.closed.count h ≤ L.dl.opened.count h

theorem Mapped.codeMapped (hM : Mapped library L) : CodeMapped library L where
  registered b hb := by
    have hpos := hM.tally.pos_iff.mpr hb
    obtain ⟨p, hp⟩ := CountedHeap.exists_content hpos
    exact ⟨p, CountedHeap.get?_eq_some.mpr ⟨hpos, hp⟩, hM.live p (CountedHeap.mem_live hpos hp)⟩
  resolved s p hp := by
    rw [resolve_eq] at hp
    obtain ⟨b, hb, hc⟩ := Option.bind_eq_some_iff.mp hp
    have hmem : b ∈ L.globalFactory.refs := by
      rw [L.globalFactory.refs_eq s, hb]
      simp
    exact hM.live p (hM.accounts.mem_live hmem hc)
  deleted := hM.deleted
  log := hM.log
  handles := hM.handles
  closed h := by
    have := hM.handles h
    simp only [Dl.openCount] at this
    omega

theorem Mapped.step {e : LoaderEvent library} (hM : Mapped library L) :
    Mapped library (loaderStep L e) := by
  cases e with
  | rinit fs dir => exact hM.rinit fs dir
  | load fs path => exact hM.loadPlugin fs path
  | lookup s => exact hM.lookup s
  | mshutdown => exact hM.mshutdown.1

/-- **No processor outlives its plugin's code, and every open is closed once.** -/
theorem no_processor_outlives_its_library (library : π → Handle)
    {ms : List (Move (CoreLib π) (LoaderEvent library) Unit)}
    (h : (loaderMachine library).Runs init ms L) :
    ∀ m ∈ ms, CodeMapped library m.pre ∧ CodeMapped library m.post ∧
      (m.input = .mshutdown → ∀ k, m.post.dl.openCount k = 0) := by
  have hinv := h.invariant (Mapped library) (fun L e u L' hM hs => by cases hs; exact hM.step)
    mapped_init
  intro m hm
  obtain ⟨hpre, hpost⟩ := hinv.2 m hm
  refine ⟨hpre.codeMapped, hpost.codeMapped, fun he => ?_⟩
  obtain ⟨ns, ks, -, -, hs, -⟩ := h.exists_prefix hm
  rw [he] at hs
  have hp : mshutdown m.pre = m.post := congrArg Prod.fst (Option.some.inj hs)
  rw [← hp]
  exact hpre.mshutdown.2

/-- In the mixed directory, the code of `10` to `12` is in library `1` and that of `20` in `3`. -/
def mixedLibrary (p : ℕ) : Handle := if p < 20 then 1 else 3

/-- The mixed directory. -/
def mixedPlugins : PluginDisk mixedLibrary where
  toFilesystem := mixedDisk
  own path lib regs hd he r hr := by
    simp only [mixedDisk] at hd
    split_ifs at hd <;> cases hd <;> cases he <;> revert r <;> decide

/-- A scan, a library opened once more, a lookup, and the shutdown. -/
theorem no_processor_outlives_its_library_mixed :
    ∃ L ms, (loaderMachine mixedLibrary).Runs init ms L ∧
      ms.map Move.input = [.rinit mixedPlugins (some [112]),
        .load mixedPlugins [112, 47, 99, 46, 115, 111], .lookup [65], .mshutdown] ∧
      L.dl = ⟨[2, 3, 2, 1], [2, 3, 2, 1]⟩ ∧ (L.deleted.map Prod.fst).Perm [10, 11, 12, 20] ∧
      ∀ m ∈ ms, CodeMapped mixedLibrary m.pre ∧ CodeMapped mixedLibrary m.post ∧
        (m.input = .mshutdown → ∀ k, m.post.dl.openCount k = 0) := by
  obtain ⟨L, ms, h, hin, hL⟩ := Runs.exists_of_inputs (loaderMachine mixedLibrary) init
    [.rinit mixedPlugins (some [112]), .load mixedPlugins [112, 47, 99, 46, 115, 111],
      .lookup [65], .mshutdown]
    (fun r => r.1.dl = ⟨[2, 3, 2, 1], [2, 3, 2, 1]⟩ ∧
      (r.1.deleted.map Prod.fst).Perm [10, 11, 12, 20]) (by decide)
  obtain ⟨hdl, hdel⟩ := of_decide_eq_true hL
  exact ⟨L, ms, h, hin, hdl, hdel, no_processor_outlives_its_library mixedLibrary h⟩

end ThriftBridge
