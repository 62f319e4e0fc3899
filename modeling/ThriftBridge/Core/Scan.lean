import ThriftBridge.Core.Loader

/-!
# What a plugin scan registers

* `plugins fs dir`: the paths of the entries with the suffix, in listing order;
* `registrations fs path`: the registrations of the plugin at a path, none if it is broken;
* `resolve_loadAll`, `entered_loadAll`, `payloads_loadAll`, `pluginHandles_loadAll`: a scan, plugin
  by plugin;
* `registered_by_scan`: the first scan, through any number of later `RINIT`s.
-/

set_option autoImplicit false

namespace ThriftBridge

open LastWrite RefCount

variable {π : Type}

/-! ## Registrations -/

namespace ProcessorFactory

/-- The control blocks in the map have been allocated. -/
def Allocated (F : ProcessorFactory π) : Prop :=
  ∀ s b, F.processors.lookup s = some b → b < F.blocks.next

variable {F : ProcessorFactory π}

theorem resolve_eq (F : ProcessorFactory π) (s : Bytes) :
    F.resolve s = (F.processors.lookup s).bind F.blocks.content := by
  unfold resolve getProcessor
  cases F.processors.lookup s with
  | none => rfl
  | some b => exact CountedHeap.content_retain _ b b

theorem staticRegisterCallback_processors (F : ProcessorFactory π) (n : CString) (p : π) :
    (F.staticRegisterCallback n p).processors = F.processors.insert n.val F.blocks.next := by
  simp only [staticRegisterCallback, registerProcessor, release, retain]
  cases F.processors.lookup n.val <;> rfl

theorem staticRegisterCallback_content (F : ProcessorFactory π) (n : CString) (p : π) (b : ℕ) :
    (F.staticRegisterCallback n p).blocks.content b = (F.blocks.alloc p).content b := by
  simp only [staticRegisterCallback, registerProcessor, release, retain]
  cases F.processors.lookup n.val <;> simp

theorem staticRegisterCallback_next (F : ProcessorFactory π) (n : CString) (p : π) :
    (F.staticRegisterCallback n p).blocks.next = F.blocks.next + 1 := by
  simp only [staticRegisterCallback, registerProcessor, release, retain]
  cases F.processors.lookup n.val <;> simp

theorem staticRegisterCallback_payloads (F : ProcessorFactory π) (n : CString) (p : π) :
    (F.staticRegisterCallback n p).blocks.payloads = F.blocks.payloads ++ [p] := by
  simp only [staticRegisterCallback, registerProcessor, release, retain]
  cases F.processors.lookup n.val <;> simp

theorem Allocated.staticRegisterCallback (h : F.Allocated) (n : CString) (p : π) :
    (F.staticRegisterCallback n p).Allocated := by
  intro s b hb
  rw [staticRegisterCallback_processors] at hb
  rw [staticRegisterCallback_next]
  by_cases hs : s = n.val
  · subst hs
    rw [AList.lookup_insert] at hb
    cases hb
    omega
  · rw [AList.lookup_insert_ne hs] at hb
    have := h s b hb
    omega

/-- **A registration** gives its name the new processor, and leaves the other names alone. -/
theorem resolve_staticRegisterCallback (h : F.Allocated) (n : CString) (p : π) (s : Bytes) :
    (F.staticRegisterCallback n p).resolve s = if n.val = s then some p else F.resolve s := by
  rw [resolve_eq, resolve_eq, staticRegisterCallback_processors]
  split_ifs with hs
  · subst hs
    rw [AList.lookup_insert, Option.bind_some, staticRegisterCallback_content,
      CountedHeap.content_alloc_next]
  · rw [AList.lookup_insert_ne (Ne.symm hs)]
    cases hl : F.processors.lookup s with
    | none => rfl
    | some b =>
        obtain ⟨q, hq⟩ := Option.isSome_iff_exists.mp (CountedHeap.content_isSome (h s b hl))
        rw [Option.bind_some, Option.bind_some, staticRegisterCallback_content, hq,
          CountedHeap.content_alloc p hq]

end ProcessorFactory

namespace CoreLib

open ProcessorFactory

/-- A registration, as a write to the registry. -/
def registration (r : CString × π) : Bytes × π := (r.1.val, r.2)

/-- The loop of an entry point. -/
def registerAll (regs : List (CString × π)) (L : CoreLib π) : CoreLib π :=
  regs.foldl (fun L r => L.onFactory fun F => F.staticRegisterCallback r.1 r.2) L

variable {L : CoreLib π}

theorem registerAll_allocated (regs : List (CString × π)) (h : L.globalFactory.Allocated) :
    (registerAll regs L).globalFactory.Allocated := by
  induction regs generalizing L with
  | nil => exact h
  | cons r regs ih => exact ih (h.staticRegisterCallback r.1 r.2)

theorem resolve_registerAll (regs : List (CString × π)) (h : L.globalFactory.Allocated)
    (s : Bytes) : (registerAll regs L).globalFactory.resolve s =
      (last s (regs.map registration)).or (L.globalFactory.resolve s) := by
  induction regs generalizing L with
  | nil => rfl
  | cons r regs ih =>
      have h' : (registerAll (r :: regs) L).globalFactory.resolve s = _ :=
        ih (h.staticRegisterCallback r.1 r.2)
      rw [h', List.map_cons, ← List.singleton_append, last_append, last_singleton, Option.or_assoc]
      congr 1
      show (L.globalFactory.staticRegisterCallback r.1 r.2).resolve s = _
      rw [resolve_staticRegisterCallback h, registration]
      split_ifs <;> rfl

/-- Every registration makes a control block. -/
theorem payloads_registerAll (regs : List (CString × π)) (L : CoreLib π) :
    (registerAll regs L).globalFactory.blocks.payloads =
      L.globalFactory.blocks.payloads ++ regs.map Prod.snd := by
  induction regs generalizing L with
  | nil => exact (List.append_nil _).symm
  | cons r regs ih =>
      have h' : (registerAll (r :: regs) L).globalFactory.blocks.payloads = _ :=
        ih (L.onFactory fun F => F.staticRegisterCallback r.1 r.2)
      rw [h', List.map_cons, ← List.singleton_append, ← List.append_assoc]
      congr 1
      exact staticRegisterCallback_payloads L.globalFactory r.1 r.2

/-- A registration touches the factory and nothing else of the static state. -/
theorem registerAll_rest (regs : List (CString × π)) (L : CoreLib π) :
    (registerAll regs L).coreInitialized = L.coreInitialized ∧
      (registerAll regs L).pluginHandles = L.pluginHandles ∧
      (registerAll regs L).entered = L.entered ∧ (registerAll regs L).dl = L.dl := by
  induction regs generalizing L with
  | nil => exact ⟨rfl, rfl, rfl, rfl⟩
  | cons r regs ih => exact ih _

/-! ## Plugins -/

/-- The entries that a scan loads, as paths, in listing order: longer than the suffix, and ending
in it. -/
def plugins (fs : Filesystem π) (dirPath : Bytes) : List Bytes :=
  (((fs.opendir dirPath).getD []).filter fun d =>
    pluginSuffix.length < d.val.length ∧ pluginSuffix <:+ d.val).map fun d => fullPath dirPath d.val

/-- The file opens and has the entry point. -/
def hasEntry (fs : Filesystem π) (path : Bytes) : Bool :=
  ((fs.dlopen path).bind Library.entry).isSome

/-- What the plugin at a path registers. -/
def registrations (fs : Filesystem π) (path : Bytes) : List (Bytes × π) :=
  (((fs.dlopen path).bind Library.entry).getD []).map registration

theorem selects_iff (d : Bytes) :
    selects d = true ↔ pluginSuffix.length < d.length ∧ pluginSuffix <:+ d := by
  rw [selects, Bool.and_eq_true, Bool.and_eq_true, decide_eq_true_eq, beq_iff_eq]
  constructor
  · rintro ⟨-, hlen, hdrop⟩
    exact ⟨hlen, hdrop ▸ List.drop_suffix _ d⟩
  · rintro ⟨hlen, hsuf⟩
    refine ⟨?_, hlen, (List.suffix_iff_eq_drop.mp hsuf).symm⟩
    -- the two names that are skipped are too short
    have h1 : d ≠ [46] := by rintro rfl; revert hlen; decide
    have h2 : d ≠ [46, 46] := by rintro rfl; revert hlen; decide
    simp [h1, h2]

/-- Plugins, loaded one after the other. -/
def loadAll (fs : Filesystem π) (paths : List Bytes) (L : CoreLib π) : CoreLib π :=
  paths.foldl (fun L path => loadPlugin fs path L) L

theorem loadPluginsFromDirectory_eq (fs : Filesystem π) (dirPath : Bytes) (L : CoreLib π) :
    loadPluginsFromDirectory fs dirPath L = loadAll fs (plugins fs dirPath) L := by
  unfold loadPluginsFromDirectory plugins loadAll
  cases fs.opendir dirPath with
  | none => rfl
  | some names =>
      simp only [Option.getD_some]
      induction names generalizing L with
      | nil => rfl
      | cons d names ih =>
          rw [List.foldl_cons, ih]
          by_cases hd : selects d.val = true
          · rw [if_pos hd, List.filter_cons_of_pos (by simpa using (selects_iff d.val).mp hd)]
            rfl
          · rw [if_neg hd, List.filter_cons_of_neg
              (by simpa only [decide_eq_true_eq] using fun h => hd ((selects_iff d.val).mpr h))]

/-- One plugin, broken or not. -/
theorem loadPlugin_eq (fs : Filesystem π) (path : Bytes) (L : CoreLib π) :
    loadPlugin fs path L = registerAll (((fs.dlopen path).bind Library.entry).getD [])
      { L with
        dl := { L.dl with
          opened := ((fs.dlopen path).map Library.handle).toList ++ L.dl.opened }
        pluginHandles := L.pluginHandles ++ ((fs.dlopen path).map Library.handle).toList
        entered := L.entered ++ if hasEntry fs path then [path] else [] } := by
  unfold loadPlugin hasEntry
  cases fs.dlopen path with
  | none => simp [registerAll]
  | some lib =>
      cases he : lib.entry with
      | none => simp [he, registerAll]
      | some regs => simp [he, registerAll]

theorem loadPlugin_allocated (fs : Filesystem π) (path : Bytes) (h : L.globalFactory.Allocated) :
    (loadPlugin fs path L).globalFactory.Allocated := by
  rw [loadPlugin_eq]
  exact registerAll_allocated _ h

theorem resolve_loadAll (fs : Filesystem π) (paths : List Bytes) (h : L.globalFactory.Allocated)
    (s : Bytes) : (loadAll fs paths L).globalFactory.resolve s =
      (last s (paths.flatMap (registrations fs))).or (L.globalFactory.resolve s) := by
  induction paths generalizing L with
  | nil => rfl
  | cons path paths ih =>
      have h' : (loadAll fs (path :: paths) L).globalFactory.resolve s = _ :=
        ih (loadPlugin_allocated fs path h)
      rw [h', List.flatMap_cons, last_append, Option.or_assoc]
      congr 1
      show (loadPlugin fs path L).globalFactory.resolve s = _
      rw [loadPlugin_eq, resolve_registerAll _ (by exact h)]
      rfl

theorem entered_loadAll (fs : Filesystem π) (paths : List Bytes) (L : CoreLib π) :
    (loadAll fs paths L).entered = L.entered ++ paths.filter (hasEntry fs) := by
  induction paths generalizing L with
  | nil => simp [loadAll]
  | cons path paths ih =>
      have h' : (loadAll fs (path :: paths) L).entered = _ := ih (loadPlugin fs path L)
      rw [h', loadPlugin_eq, (registerAll_rest _ _).2.2.1, List.filter_cons, List.append_assoc]
      split_ifs <;> rfl

theorem payloads_loadAll (fs : Filesystem π) (paths : List Bytes) (L : CoreLib π) :
    (loadAll fs paths L).globalFactory.blocks.payloads =
      L.globalFactory.blocks.payloads ++ (paths.flatMap (registrations fs)).map Prod.snd := by
  induction paths generalizing L with
  | nil => exact (List.append_nil _).symm
  | cons path paths ih =>
      have h' : (loadAll fs (path :: paths) L).globalFactory.blocks.payloads = _ :=
        ih (loadPlugin fs path L)
      rw [h', loadPlugin_eq, payloads_registerAll, List.flatMap_cons, List.map_append,
        List.append_assoc, registrations, List.map_map]
      rfl

theorem pluginHandles_loadAll (fs : Filesystem π) (paths : List Bytes) (L : CoreLib π) :
    (loadAll fs paths L).pluginHandles =
      L.pluginHandles ++ paths.filterMap fun path => (fs.dlopen path).map Library.handle := by
  induction paths generalizing L with
  | nil => simp [loadAll]
  | cons path paths ih =>
      have h' : (loadAll fs (path :: paths) L).pluginHandles = _ := ih (loadPlugin fs path L)
      rw [h', loadPlugin_eq, (registerAll_rest _ _).2.1, List.filterMap_cons, List.append_assoc]
      cases fs.dlopen path <;> rfl

/-! ## The first scan -/

/-- `RINIT`s, one after the other. -/
def rinits (rs : List (Filesystem π × Option Bytes)) (L : CoreLib π) : CoreLib π :=
  rs.foldl (fun L r => rinit r.1 r.2 L) L

/-- Once the core is initialised, an `RINIT` does nothing. -/
theorem rinits_of_initialized (rs : List (Filesystem π × Option Bytes))
    (h : L.coreInitialized = true) : rinits rs L = L := by
  induction rs with
  | nil => rfl
  | cons r rs ih =>
      have h1 : rinit r.1 r.2 L = L := if_pos h
      rw [rinits, List.foldl_cons, h1]
      exact ih

theorem allocated_of_empty {F : ProcessorFactory π} (h : F.processors = ∅) : F.Allocated := by
  intro s b hb
  rw [h, AList.lookup_empty] at hb
  cases hb

theorem resolve_of_empty {F : ProcessorFactory π} (h : F.processors = ∅) (s : Bytes) :
    F.resolve s = none := by
  rw [resolve_eq, h, AList.lookup_empty, Option.bind_none]

/-- The registry after the first initialisation. -/
theorem resolve_initializeCoreLib (fs : Filesystem π) (dir : Bytes)
    (hinit : L.coreInitialized = false) (hempty : L.globalFactory.processors = ∅) (s : Bytes) :
    (initializeCoreLib fs dir L).globalFactory.resolve s =
      last s ((plugins fs dir).flatMap (registrations fs)) := by
  rw [initializeCoreLib, hinit, if_neg (by simp)]
  show (loadPluginsFromDirectory fs dir L).globalFactory.resolve s = _
  rw [loadPluginsFromDirectory_eq, resolve_loadAll fs _ (allocated_of_empty hempty),
    resolve_of_empty hempty, Option.or_none]

/-- The same disk with the directory listed in another order. -/
def relist (fs : Filesystem π) (dir : Bytes) (names : List CString) : Filesystem π :=
  { fs with opendir := fun d => if d = dir then some names else fs.opendir d }

theorem plugins_relist_perm {fs : Filesystem π} {dir : Bytes} {names names' : List CString}
    (hdir : fs.opendir dir = some names) (hp : names'.Perm names) :
    (plugins (relist fs dir names') dir).Perm (plugins fs dir) := by
  simp only [plugins, relist, if_true, hdir, Option.getD_some]
  exact (hp.filter _).map _

/-- **What a scan registers.** The entry points of exactly the entries with the suffix that open and
have one are run, once each and in listing order: each of their registrations makes a control block,
in this order, and nothing else does. A service resolves to the processor of the last
registration under exactly its name, whatever else is in the directory; a name with a zero byte
resolves to nothing. If all plugins that register a name are the same one, the name resolves to the
same processor in every order of the listing. Later `RINIT`s change nothing. -/
theorem registered_by_scan (fs : Filesystem π) (dir : Bytes) {names : List CString}
    (hdir : fs.opendir dir = some names) (hinit : L.coreInitialized = false)
    (hempty : L.globalFactory.processors = ∅) (later : List (Filesystem π × Option Bytes)) :
    (rinits later (initializeCoreLib fs dir L)).entered =
        L.entered ++ (plugins fs dir).filter (hasEntry fs) ∧
      (rinits later (initializeCoreLib fs dir L)).globalFactory.blocks.payloads =
        L.globalFactory.blocks.payloads ++
          ((plugins fs dir).flatMap (registrations fs)).map Prod.snd ∧
      (∀ s p, (rinits later (initializeCoreLib fs dir L)).globalFactory.resolve s = some p ↔
        ∃ rs₁ rs₂, (plugins fs dir).flatMap (registrations fs) = rs₁ ++ (s, p) :: rs₂ ∧
          ∀ r ∈ rs₂, r.1 ≠ s) ∧
      (∀ s, 0 ∈ s → (rinits later (initializeCoreLib fs dir L)).globalFactory.resolve s = none) ∧
      ∀ names', names'.Perm names → ∀ s,
        (∀ p ∈ plugins fs dir, ∀ q ∈ plugins fs dir, s ∈ (registrations fs p).map Prod.fst →
          s ∈ (registrations fs q).map Prod.fst → p = q) →
        (rinits later (initializeCoreLib (relist fs dir names') dir L)).globalFactory.resolve s =
          (rinits later (initializeCoreLib fs dir L)).globalFactory.resolve s := by
  have hon : ∀ fs, (initializeCoreLib fs dir L).coreInitialized = true := by
    intro fs
    rw [initializeCoreLib, hinit, if_neg (by simp)]
  simp only [rinits_of_initialized later (hon _)]
  have hres := resolve_initializeCoreLib fs dir hinit hempty
  refine ⟨?_, ?_, ?_, ?_, ?_⟩
  · rw [initializeCoreLib, hinit, if_neg (by simp)]
    show (loadPluginsFromDirectory fs dir L).entered = _
    rw [loadPluginsFromDirectory_eq, entered_loadAll]
  · rw [initializeCoreLib, hinit, if_neg (by simp)]
    show (loadPluginsFromDirectory fs dir L).globalFactory.blocks.payloads = _
    rw [loadPluginsFromDirectory_eq, payloads_loadAll]
  · intro s p
    rw [hres, last_eq_some_iff]
  · intro s hs
    rw [hres, last_eq_none_iff]
    intro r hr
    obtain ⟨path, -, hr⟩ := List.mem_flatMap.mp hr
    obtain ⟨r', -, rfl⟩ := List.mem_map.mp hr
    -- the name of a registration is a C string
    rintro rfl
    exact r'.1.noNul hs
  · intro names' hp s huniq
    rw [hres, resolve_initializeCoreLib _ dir hinit hempty]
    have hwrites : ∀ p, last s (registrations fs p) ≠ none →
        s ∈ (registrations fs p).map Prod.fst := by
      intro p hne
      by_contra hs
      refine hne (last_eq_none_iff.mpr fun w hw hws => hs ?_)
      rw [← hws]
      exact List.mem_map_of_mem hw
    refine (last_flatMap_perm (plugins_relist_perm hdir hp).symm ?_).symm
    intro p hpm q hqm hp' hq'
    exact huniq p hpm q hqm (hwrites p hp') (hwrites q hq')

/-- A directory `p` with two plugins, `a.so` and `e.so`, a file `b.so` that does not open, a library
`c.so` without the entry point, and names without the suffix. -/
def mixedDisk : Filesystem ℕ where
  opendir dir :=
    if dir = [112] then
      some [.ofBuffer [46], .ofBuffer [97, 46, 115, 111], .ofBuffer [98, 46, 115, 111],
        .ofBuffer [46, 115, 111], .ofBuffer [99, 46, 115, 111], .ofBuffer [46, 115, 111, 46],
        .ofBuffer [101, 46, 115, 111]]
    else none
  dlopen path :=
    if path = [112, 47, 97, 46, 115, 111] then
      some ⟨1, some [(.ofBuffer [65], 10), (.ofBuffer [66], 11), (.ofBuffer [65], 12)]⟩
    else if path = [112, 47, 99, 46, 115, 111] then some ⟨2, none⟩
    else if path = [112, 47, 101, 46, 115, 111] then some ⟨3, some [(.ofBuffer [66, 0, 1], 20)]⟩
    else none

/-- The mixed directory: `A` is what `a.so` registered last, in every order; `B` is what `e.so`
registered. -/
theorem registered_by_scan_mixed :
    (initializeCoreLib mixedDisk [112] (init : CoreLib ℕ)).entered =
        [[112, 47, 97, 46, 115, 111], [112, 47, 101, 46, 115, 111]] ∧
      (initializeCoreLib mixedDisk [112] (init : CoreLib ℕ)).globalFactory.blocks.payloads =
        [10, 11, 12, 20] ∧
      (initializeCoreLib mixedDisk [112] (init : CoreLib ℕ)).globalFactory.resolve [65] = some 12 ∧
      (initializeCoreLib mixedDisk [112] (init : CoreLib ℕ)).globalFactory.resolve [66] = some 20 ∧
      (initializeCoreLib mixedDisk [112] (init : CoreLib ℕ)).globalFactory.resolve [65, 0] = none ∧
      (initializeCoreLib (relist mixedDisk [112]
        ((mixedDisk.opendir [112]).getD []).reverse) [112] (init : CoreLib ℕ)).globalFactory.resolve
          [65] = some 12 := by
  obtain ⟨h1, hp, h2, h3, h4⟩ := registered_by_scan (L := init) mixedDisk [112] rfl rfl rfl []
  have hA := (h2 [65] 12).mpr ⟨[([65], 10), ([66], 11)], [([66], 20)], by decide, by decide⟩
  refine ⟨h1.trans (by decide), hp.trans (by decide), hA, ?_, h3 [65, 0] (by decide), ?_⟩
  · exact (h2 [66] 20).mpr ⟨[([65], 10), ([66], 11), ([65], 12)], [], by decide, by decide⟩
  · exact (h4 _ (List.reverse_perm _) [65] (by decide)).trans hA

end CoreLib

end ThriftBridge
