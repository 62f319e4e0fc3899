import ThriftBridge.Core.Factory
import ThriftBridge.Lib.LastWrite

/-!
# The plugin loader

* `Filesystem π`: what the process finds on disk. A library is its handle and, if it has the entry
  point, the registrations that the entry point makes;
* `CoreLib π`: the static state of the extension, with what the dynamic loader has done for it;
* `loadPlugin`, `loadPluginsFromDirectory`, `initializeCoreLib`, `rinit`, `mshutdown`: as in the
  source;
* `mshutdown_eq`: what `MSHUTDOWN` leaves.
-/

set_option autoImplicit false

namespace ThriftBridge

open LastWrite

/-- What `dlopen` returns. -/
abbrev Handle := ℕ

/-- A shared library that `dlopen` can open: `entry` is what `register_thrift_processors` registers,
`none` if `dlsym` does not find it. -/
structure Library (π : Type) where
  handle : Handle
  entry : Option (List (CString × π))

/-- The disk: directories as `readdir` lists them, `none` if `opendir` fails, and libraries, `none`
if `dlopen` fails. -/
structure Filesystem (π : Type) where
  opendir : Bytes → Option (List CString)
  dlopen : Bytes → Option (Library π)

/-- What the dynamic loader has done: the handles it has returned, and those it has been given
back. -/
structure Dl where
  opened : List Handle
  closed : List Handle
deriving DecidableEq

/-- How often a handle is open. -/
def Dl.openCount (d : Dl) (h : Handle) : ℤ := d.opened.count h - d.closed.count h

/-- The static state: `global_factory`, `core_initialized`, `plugin_handles`. With it go the loader,
the paths whose entry points were run, and the deleted processors, each with the loader's state at
that time. -/
structure CoreLib (π : Type) where
  globalFactory : ProcessorFactory π
  coreInitialized : Bool
  pluginHandles : List Handle
  dl : Dl
  entered : List Bytes
  deleted : List (π × Dl)

namespace CoreLib

variable {π : Type}

/-- The static state at the start of the process. -/
def init : CoreLib π := ⟨.empty, false, [], ⟨[], []⟩, [], []⟩

/-- A call into `global_factory`. -/
def onFactory (L : CoreLib π) (f : ProcessorFactory π → ProcessorFactory π) : CoreLib π :=
  let F := f L.globalFactory
  { L with
    globalFactory := F
    deleted := L.deleted ++
      (F.destroyed.drop L.globalFactory.destroyed.length).map fun p => (p, L.dl) }

/-- `load_plugin`. -/
def loadPlugin (fs : Filesystem π) (pluginPath : Bytes) (L : CoreLib π) : CoreLib π :=
  match fs.dlopen pluginPath with
  | none => L
  | some lib =>
    let L := { L with
      dl := { L.dl with opened := lib.handle :: L.dl.opened }
      pluginHandles := L.pluginHandles ++ [lib.handle] }
    match lib.entry with
    | none => L
    | some regs =>
      let L := { L with entered := L.entered ++ [pluginPath] }
      regs.foldl (fun L r => L.onFactory fun F => F.staticRegisterCallback r.1 r.2) L

/-- `PLUGIN_SUFFIX`, `".so"`. -/
def pluginSuffix : Bytes := [46, 115, 111]

/-- The names that the loop of the scan does not skip. -/
def selects (dName : Bytes) : Bool :=
  !(dName == [46] || dName == [46, 46]) &&
    (pluginSuffix.length < dName.length &&
      dName.drop (dName.length - pluginSuffix.length) == pluginSuffix)

/-- `std::string(dir_path) + "/" + d_name`. -/
def fullPath (dirPath dName : Bytes) : Bytes := dirPath ++ [47] ++ dName

/-- `load_plugins_from_directory`. -/
def loadPluginsFromDirectory (fs : Filesystem π) (dirPath : Bytes) (L : CoreLib π) : CoreLib π :=
  match fs.opendir dirPath with
  | none => L
  | some names =>
    names.foldl (fun L d =>
      if selects d.val then loadPlugin fs (fullPath dirPath d.val) L else L) L

/-- `initialize_core_lib`. -/
def initializeCoreLib (fs : Filesystem π) (pluginDir : Bytes) (L : CoreLib π) : CoreLib π :=
  if L.coreInitialized then L
  else { loadPluginsFromDirectory fs pluginDir L with coreInitialized := true }

/-- The directory of plugins: the value of the INI entry `thrift_bridge.plugin_dir`, or
`"./plugins"`. -/
def scanDir (pluginDir : Option Bytes) : Bytes :=
  pluginDir.getD [46, 47, 112, 108, 117, 103, 105, 110, 115]

/-- `RINIT`. -/
def rinit (fs : Filesystem π) (pluginDir : Option Bytes) (L : CoreLib π) : CoreLib π :=
  initializeCoreLib fs (scanDir pluginDir) L

/-- `dlclose`. -/
def dlclose (L : CoreLib π) (handle : Handle) : CoreLib π :=
  { L with dl := { L.dl with closed := handle :: L.dl.closed } }

/-- `MSHUTDOWN`. -/
def mshutdown (L : CoreLib π) : CoreLib π :=
  let L := L.onFactory ProcessorFactory.clean
  let L := L.pluginHandles.foldl dlclose L
  { L with pluginHandles := [] }

theorem foldl_dlclose (hs : List Handle) (L : CoreLib π) :
    hs.foldl dlclose L = { L with dl := { L.dl with closed := hs.reverse ++ L.dl.closed } } := by
  induction hs generalizing L with
  | nil => rfl
  | cons h hs ih =>
      rw [List.foldl_cons, ih, dlclose, List.reverse_cons, List.append_assoc]
      rfl

/-- **`MSHUTDOWN`** clears the factory, closes each handle, and leaves `core_initialized` alone. -/
theorem mshutdown_eq (L : CoreLib π) :
    mshutdown L = { L.onFactory ProcessorFactory.clean with
      pluginHandles := []
      dl := { L.dl with closed := L.pluginHandles.reverse ++ L.dl.closed } } := by
  simp only [mshutdown, foldl_dlclose]
  rfl

end CoreLib

end ThriftBridge
