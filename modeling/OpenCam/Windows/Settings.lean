import OpenCam.Bytes.Decimal
import OpenCam.Bytes.Lines
import OpenCam.Store.OrderedMap
import OpenCam.Windows.Application

/-!
The settings file of the Windows controller. Global settings and the states of
known devices share one text of `key=value` lines under section headers; while
the states are not to be saved, the sections are carried over as raw lines. The
file is a byte string as the program sees it in text mode.
-/

namespace OpenCam.Windows

open Octets OrderedMap

abbrev StreamOptions.Registry := List (Bytes × StreamOptions)

instance : IsStrictTotalOrder Bytes keyLess where
  irrefl key := lt_irrefl (α := List Nat) (key.map UInt8.toNat)
  trans _ _ _ := keyLess_trans
  trichotomous left right hleft hright := by
    by_contra hne
    exact hright (keyLess_of_not (Ne.symm hne) hleft)

/-- The static members of `Settings`. -/
structure Settings where
  settings : List (Bytes × Int) := []
  loadedDeviceStates : StreamOptions.Registry := []
  preservedDeviceLines : List Bytes := []
deriving DecidableEq, Repr

namespace Settings

def Get (store : Settings) (name : Bytes) : Int := (value? name store.settings).getD (-1)

def Set (store : Settings) (name : Bytes) (value : Int) : Settings :=
  { store with settings := update keyLess name (fun _ => value) store.settings }

def GetDeviceStates (store : Settings) : StreamOptions.Registry :=
  if store.Get (ascii "SAVE_DEVICE_STATES") = 1 then store.loadedDeviceStates else []

def ParseDeviceLine (state : StreamOptions) (key val : Bytes) : StreamOptions :=
  if key = ascii "fps" then { state with fps := atoi val }
  else if key = ascii "back_cam" then { state with backCameraActive := val = ascii "1" }
  else if key = ascii "res" then
    match find val 120 with
    | none => state
    | some xPos =>
        { state with resolution := (atoi (val.take xPos), atoi (val.drop (xPos + 1))) }
  else if key = ascii "adaptive_br" then { state with adaptiveBitrate := val = ascii "1" }
  else if key = ascii "bitrate" then { state with bitrate := atoi val }
  else if key = ascii "min_br" then { state with minBitrate := atoi val }
  else if key = ascii "max_br" then { state with maxBitrate := atoi val }
  else if key = ascii "stab" then { state with stabilizationEnabled := val = ascii "1" }
  else if key = ascii "flash" then { state with flashEnabled := val = ascii "1" }
  else if key = ascii "h265" then { state with h265Enabled := val = ascii "1" }
  else if key = ascii "focus" then { state with focusMode := atoi val }
  else if (ascii "C:").isPrefixOf key then
    { state with
      filterSliderValues :=
        update keyLess (key.drop 2) (fun _ => atoi val) state.filterSliderValues }
  else if (ascii "E:").isPrefixOf key then { state with activeEffectFilter := val }
  else state

/-- The lines that `std::getline` reads. -/
def getlines (content : Bytes) : List Bytes :=
  let (lines, rest) := splitLines content
  if rest = [] then lines else lines ++ [rest]

/-- The variables of the loop of `Load`. The current device is an entry of the
states, named by its key. -/
structure Loading where
  settings : List (Bytes × Int) := []
  loadedDeviceStates : StreamOptions.Registry := []
  currentDevice : Option Bytes := none

/-- The line starts with `[` and ends with `]`. -/
def isHeader (line : Bytes) : Bool := line.head? = some 91 && line.getLast? = some 93

/-- The body of the loop of `Load`. -/
def loadLine (loading : Loading) (line : Bytes) : Loading :=
  if line = [] then loading
  else if isHeader line then
    let currentSection := (line.drop 1).take (line.length - 2)
    if (ascii "DEVICE:").isPrefixOf currentSection then
      let devName := currentSection.drop 7
      { loading with
        loadedDeviceStates :=
          update keyLess devName (fun old => old.getD {}) loading.loadedDeviceStates
        currentDevice := some devName }
    else { loading with currentDevice := none }
  else
    match find line 61 with
    | none => loading
    | some pos =>
        let key := line.take pos
        let valStr := line.drop (pos + 1)
        match loading.currentDevice with
        | some devName =>
            { loading with
              loadedDeviceStates := update keyLess devName
                (fun old => ParseDeviceLine (old.getD {}) key valStr) loading.loadedDeviceStates }
        | none =>
            { loading with
              settings := update keyLess key (fun _ => atoi valStr) loading.settings }

def loadLines (content : Bytes) : Loading := (getlines content).foldl loadLine {}

/-- `line.find("DEVICE:") != std::string::npos`. -/
def namesDevice (line : Bytes) : Bool := line.tails.any fun rest => (ascii "DEVICE:").isPrefixOf rest

/-- The body of the loop of `CachePreservedLines`: whether the line stands in a
device section, and the lines to keep. -/
def cacheLine (insideDeviceSection : Bool) (line : Bytes) : Bool × List Bytes :=
  if line = [] then (insideDeviceSection, [])
  else if line.head? = some 91 && namesDevice line then (true, [line])
  else if line.head? = some 91 && !namesDevice line then (false, [])
  else if !insideDeviceSection && (find line 61).isSome then (insideDeviceSection, [])
  else (insideDeviceSection, if insideDeviceSection then [line] else [])

def cacheLines : Bool → List Bytes → List Bytes
  | _, [] => []
  | insideDeviceSection, line :: rest =>
      (cacheLine insideDeviceSection line).2 ++
        cacheLines (cacheLine insideDeviceSection line).1 rest

def CachePreservedLines (content : Bytes) : List Bytes := cacheLines false (getlines content)

/-- `Load`; the file may be missing. -/
def Load (store : Settings) (file : Option Bytes) : Settings :=
  match file with
  | none => store
  | some content =>
      let loaded : Settings :=
        { settings := (loadLines content).settings
          loadedDeviceStates := (loadLines content).loadedDeviceStates
          preservedDeviceLines := [] }
      if loaded.Get (ascii "SAVE_DEVICE_STATES") ≠ 1 then
        { loaded with preservedDeviceLines := CachePreservedLines content }
      else loaded

def putFlag (value : Bool) : Bytes := putInt (if value then 1 else 0)

/-- The `key=value` pairs of a section, in the order in which they are written. -/
def statePairs (state : StreamOptions) : List (Bytes × Bytes) :=
  [(ascii "fps", putInt state.fps),
    (ascii "res", putInt state.resolution.1 ++ ascii "x" ++ putInt state.resolution.2),
    (ascii "back_cam", putFlag state.backCameraActive),
    (ascii "adaptive_br", putFlag state.adaptiveBitrate),
    (ascii "bitrate", putInt state.bitrate),
    (ascii "min_br", putInt state.minBitrate),
    (ascii "max_br", putInt state.maxBitrate),
    (ascii "stab", putFlag state.stabilizationEnabled),
    (ascii "flash", putFlag state.flashEnabled),
    (ascii "h265", putFlag state.h265Enabled),
    (ascii "focus", putInt state.focusMode)] ++
  state.filterSliderValues.map (fun slider => (ascii "C:" ++ slider.1, putInt slider.2)) ++
  [(ascii "E:", state.activeEffectFilter)]

def pairLine (pair : Bytes × Bytes) : Bytes := pair.1 ++ ascii "=" ++ pair.2

/-- The lines that `Save` writes for a device. -/
def deviceLines (device : Bytes × StreamOptions) : List Bytes :=
  [ascii "[DEVICE:" ++ device.1 ++ ascii "]"] ++ (statePairs device.2).map pairLine ++ [[]]

/-- The file that `Save` writes. -/
def Save (store : Settings) : Bytes :=
  joinLines (store.settings.map (fun entry => pairLine (entry.1, putInt entry.2)) ++ [[]] ++
    if store.Get (ascii "SAVE_DEVICE_STATES") = 1 then
      store.loadedDeviceStates.flatMap deviceLines
    else store.preservedDeviceLines)

section Lines

theorem mem_pairLine (pair : Bytes × Bytes) : 61 ∈ pairLine pair :=
  List.mem_append_left _ (List.mem_append_right _ (List.mem_singleton.mpr rfl))

theorem pairLine_ne_nil (pair : Bytes × Bytes) : pairLine pair ≠ [] :=
  List.ne_nil_of_mem (mem_pairLine pair)

theorem find_pairLine {pair : Bytes × Bytes} (h : 61 ∉ pair.1) :
    find (pairLine pair) 61 = some pair.1.length := by
  have hline : pairLine pair = pair.1 ++ 61 :: pair.2 := by
    rw [pairLine, List.append_assoc]
    rfl
  rw [hline, find_append h]

/-- The key and the value of a line are those that were written. -/
theorem split_pairLine (pair : Bytes × Bytes) :
    (pairLine pair).take pair.1.length = pair.1 ∧
      (pairLine pair).drop (pair.1.length + 1) = pair.2 := by
  have hline : pairLine pair = pair.1 ++ ([61] ++ pair.2) := by
    rw [pairLine, List.append_assoc]
    rfl
  constructor
  · rw [hline, List.take_left]
  · rw [hline, ← List.drop_drop, List.drop_left]
    rfl

theorem isHeader_of_head {line : Bytes} (h : line.head? ≠ some 91) : isHeader line = false := by
  simp [isHeader, h]

/-- A line that ends in a number is no header. -/
theorem isHeader_number (key : Bytes) (value : Int) :
    isHeader (pairLine (key, putInt value)) = false := by
  obtain ⟨character, hlast, hdigit⟩ := getLast_putInt value
  have hline : (pairLine (key, putInt value)).getLast? = some character := by
    rw [pairLine, List.getLast?_append, hlast]
    rfl
  have hne : character ≠ 93 := by
    rintro rfl
    cases hdigit
  simp [isHeader, hline, hne]

/-- What a line of a section does to the state of its device. -/
def readLine (state : StreamOptions) (line : Bytes) : StreamOptions :=
  match find line 61 with
  | none => state
  | some pos => ParseDeviceLine state (line.take pos) (line.drop (pos + 1))

theorem readLine_pair {pair : Bytes × Bytes} (h : 61 ∉ pair.1) (state : StreamOptions) :
    readLine state (pairLine pair) = ParseDeviceLine state pair.1 pair.2 := by
  rw [readLine, find_pairLine h]
  dsimp only
  rw [(split_pairLine pair).1, (split_pairLine pair).2]

/-- The state that a section gives back. -/
def readBack (state : StreamOptions) : StreamOptions :=
  ((statePairs state).map pairLine).foldl readLine {}

theorem loadLine_global {loading : Loading} {key : Bytes} {value : Int} (h : 61 ∉ key)
    (hvalue : IsInt value) (hdevice : loading.currentDevice = none) :
    loadLine loading (pairLine (key, putInt value)) =
      { loading with settings := update keyLess key (fun _ => value) loading.settings } := by
  have hsplit := split_pairLine (key, putInt value)
  rw [loadLine, if_neg (pairLine_ne_nil _), isHeader_number, find_pairLine h, hdevice]
  dsimp only at hsplit ⊢
  rw [if_neg Bool.false_ne_true, hsplit.1, hsplit.2, atoi_putInt hvalue]

theorem loadLine_header (loading : Loading) (name : Bytes) :
    loadLine loading (ascii "[DEVICE:" ++ name ++ ascii "]") =
      { loading with
        loadedDeviceStates :=
          update keyLess name (fun old => old.getD {}) loading.loadedDeviceStates
        currentDevice := some name } := by
  have hlast : (ascii "[DEVICE:" ++ name ++ ascii "]").getLast? = some 93 := by
    rw [List.getLast?_append]
    rfl
  have hsection : ((ascii "[DEVICE:" ++ name ++ ascii "]").drop 1).take
      ((ascii "[DEVICE:" ++ name ++ ascii "]").length - 2) = ascii "DEVICE:" ++ name := by
    have hdrop : (ascii "[DEVICE:" ++ name ++ ascii "]").drop 1 =
        (ascii "DEVICE:" ++ name) ++ ascii "]" := rfl
    have hlength : (ascii "[DEVICE:" ++ name ++ ascii "]").length - 2 =
        (ascii "DEVICE:" ++ name).length := by
      simp only [List.length_append]
      change 8 + name.length + 1 - 2 = 7 + name.length
      omega
    rw [hdrop, hlength, List.take_left]
  have hheader : isHeader (ascii "[DEVICE:" ++ name ++ ascii "]") = true := by
    rw [isHeader, hlast]
    rfl
  have hprefix : (ascii "DEVICE:").isPrefixOf (ascii "DEVICE:" ++ name) = true :=
    List.isPrefixOf_iff_prefix.mpr (List.prefix_append _ _)
  have hne : ascii "[DEVICE:" ++ name ++ ascii "]" ≠ [] := List.cons_ne_nil _ _
  rw [loadLine, if_neg hne, if_pos hheader, hsection]
  dsimp only
  rw [if_pos hprefix]
  rfl

theorem loadLine_device {loading : Loading} {line name : Bytes} (hequals : 61 ∈ line)
    (hheader : isHeader line = false) (hdevice : loading.currentDevice = some name) :
    loadLine loading line =
      { loading with
        loadedDeviceStates := update keyLess name (fun old => readLine (old.getD {}) line)
          loading.loadedDeviceStates } := by
  have hfind : find line 61 ≠ none := fun h => find_eq_none.mp h hequals
  obtain ⟨pos, hpos⟩ := Option.ne_none_iff_exists'.mp hfind
  rw [loadLine, if_neg (List.ne_nil_of_mem hequals), hheader, if_neg Bool.false_ne_true, hpos,
    hdevice]
  simp only [readLine, hpos]

end Lines

section Sections

/-- The lines of a section below its header. -/
structure SectionLine (line : Bytes) : Prop where
  equals : 61 ∈ line
  plain : isHeader line = false

/-- The keys of a section that are the same for every device. -/
def fixedKeys : List Bytes :=
  [ascii "fps", ascii "res", ascii "back_cam", ascii "adaptive_br", ascii "bitrate",
    ascii "min_br", ascii "max_br", ascii "stab", ascii "flash", ascii "h265", ascii "focus",
    ascii "E:"]

theorem fixedKeys_plain {key : Bytes} (h : key ∈ fixedKeys) :
    key.head? ≠ some 91 ∧ 61 ∉ key ∧ 10 ∉ key := by
  have hall : fixedKeys.all (fun key =>
      key.head? != some 91 && (!key.contains 61 && !key.contains 10)) = true := by decide
  simpa using List.all_eq_true.mp hall key h

theorem key_statePairs {state : StreamOptions} {pair : Bytes × Bytes}
    (h : pair ∈ statePairs state) :
    pair.1 ∈ fixedKeys ∨
      ∃ slider ∈ state.filterSliderValues, pair.1 = ascii "C:" ++ slider.1 := by
  rw [statePairs, List.mem_append, List.mem_append] at h
  rcases h with (h | h) | h
  · refine Or.inl (List.mem_of_mem_dropLast (l := fixedKeys) ?_)
    exact List.mem_map_of_mem (f := Prod.fst) h
  · obtain ⟨slider, hslider, rfl⟩ := List.mem_map.mp h
    exact Or.inr ⟨slider, hslider, rfl⟩
  · rw [List.mem_singleton.mp h]
    exact Or.inl (List.mem_of_getLast? (l := fixedKeys) rfl)

theorem sectionLine_statePairs (state : StreamOptions) :
    ∀ line ∈ (statePairs state).map pairLine, SectionLine line := by
  intro line hline
  obtain ⟨pair, hpair, rfl⟩ := List.mem_map.mp hline
  refine ⟨mem_pairLine pair, isHeader_of_head ?_⟩
  rw [pairLine, List.append_assoc, List.head?_append]
  rcases key_statePairs hpair with hkey | ⟨slider, _, hkey⟩
  · have hhead := (fixedKeys_plain hkey).1
    cases hfirst : pair.1.head? with
    | none => exact fun h => absurd (show (61 : UInt8) = 91 from Option.some.inj h) (by decide)
    | some first => exact fun h => hhead (hfirst.trans h)
  · rw [hkey]
    exact fun h => absurd (show (67 : UInt8) = 91 from Option.some.inj h) (by decide)

variable {states : StreamOptions.Registry} {name : Bytes}

/-- The lines of a section change the last entry only. -/
theorem foldl_sectionLines (hbehind : ∀ entry ∈ states, keyLess entry.1 name)
    (settings : List (Bytes × Int)) {lines : List Bytes} (hlines : ∀ line ∈ lines, SectionLine line)
    (state : StreamOptions) :
    lines.foldl loadLine ⟨settings, states ++ [(name, state)], some name⟩ =
      ⟨settings, states ++ [(name, lines.foldl readLine state)], some name⟩ := by
  induction lines generalizing state with
  | nil => rfl
  | cons line lines ih =>
      rw [List.forall_mem_cons] at hlines
      rw [List.foldl_cons, List.foldl_cons,
        loadLine_device hlines.1.equals hlines.1.plain rfl]
      dsimp only
      rw [update_last hbehind]
      exact ih hlines.2 (readLine state line)

/-- A section adds its device behind the others. -/
theorem foldl_deviceLines {loading : Loading} {device : Bytes × StreamOptions}
    (hbehind : ∀ entry ∈ loading.loadedDeviceStates, keyLess entry.1 device.1) :
    (deviceLines device).foldl loadLine loading =
      ⟨loading.settings, loading.loadedDeviceStates ++ [(device.1, readBack device.2)],
        some device.1⟩ := by
  have hlines : deviceLines device = (ascii "[DEVICE:" ++ device.1 ++ ascii "]") ::
      ((statePairs device.2).map pairLine ++ [[]]) := rfl
  rw [hlines, List.foldl_cons, loadLine_header, update_append hbehind, List.foldl_append]
  have hempty : (none : Option StreamOptions).getD {} = {} := rfl
  rw [hempty, foldl_sectionLines hbehind loading.settings (sectionLine_statePairs device.2)]
  rfl

theorem foldl_registry {registry : StreamOptions.Registry} (hregistry : Sorted keyLess registry)
    {loading : Loading}
    (hbehind : ∀ entry ∈ loading.loadedDeviceStates, ∀ device ∈ registry,
      keyLess entry.1 device.1) :
    ((registry.flatMap deviceLines).foldl loadLine loading).settings = loading.settings ∧
      ((registry.flatMap deviceLines).foldl loadLine loading).loadedDeviceStates =
        loading.loadedDeviceStates ++ registry.map fun device => (device.1, readBack device.2) := by
  induction registry generalizing loading with
  | nil => exact ⟨rfl, (List.append_nil _).symm⟩
  | cons device registry ih =>
      obtain ⟨hfirst, hrest⟩ := List.pairwise_cons.mp hregistry
      have hdevice : ∀ entry ∈ loading.loadedDeviceStates, keyLess entry.1 device.1 :=
        fun entry hentry => hbehind entry hentry device List.mem_cons_self
      rw [List.flatMap_cons, List.foldl_append, foldl_deviceLines hdevice]
      have hnext : ∀ entry ∈ loading.loadedDeviceStates ++ [(device.1, readBack device.2)],
          ∀ other ∈ registry, keyLess entry.1 other.1 := by
        intro entry hentry other hother
        rcases List.mem_append.mp hentry with hentry | hentry
        · exact hbehind entry hentry other (List.mem_cons_of_mem device hother)
        · rw [List.mem_singleton.mp hentry]
          exact hfirst other hother
      obtain ⟨hsettings, hstates⟩ := @ih hrest
        ⟨loading.settings, loading.loadedDeviceStates ++ [(device.1, readBack device.2)],
          some device.1⟩ hnext
      refine ⟨hsettings, hstates.trans ?_⟩
      rw [List.map_cons, List.append_assoc]
      rfl

/-- The lines of the global settings, read outside of any section. -/
theorem foldl_globals {globals : List (Bytes × Int)}
    (hglobals : ∀ entry ∈ globals, 61 ∉ entry.1 ∧ IsInt entry.2) {loading : Loading}
    (hdevice : loading.currentDevice = none) :
    (globals.map fun entry => pairLine (entry.1, putInt entry.2)).foldl loadLine loading =
      { loading with
        settings := globals.foldl
          (fun map entry => update keyLess entry.1 (fun _ => entry.2) map) loading.settings } := by
  induction globals generalizing loading with
  | nil => rfl
  | cons entry globals ih =>
      rw [List.forall_mem_cons] at hglobals
      rw [List.map_cons, List.foldl_cons, List.foldl_cons,
        loadLine_global hglobals.1.1 hglobals.1.2 hdevice, ih hglobals.2]
      exact hdevice

end Sections

section RoundTrip

/-- The members of a state are C++ integers and a map. -/
structure Representable (state : StreamOptions) : Prop where
  fps : IsInt state.fps
  resolution : IsInt state.resolution.1 ∧ IsInt state.resolution.2
  bitrate : IsInt state.bitrate
  minBitrate : IsInt state.minBitrate
  maxBitrate : IsInt state.maxBitrate
  focusMode : IsInt state.focusMode
  sliders : ∀ slider ∈ state.filterSliderValues, IsInt slider.2
  sorted : Sorted keyLess state.filterSliderValues

/-- No name of a device and its state has a line break. -/
structure OneLine (device : Bytes × StreamOptions) : Prop where
  name : 10 ∉ device.1
  sliders : ∀ slider ∈ device.2.filterSliderValues, 10 ∉ slider.1
  effect : 10 ∉ device.2.activeEffectFilter

/-- Global settings that are a map and stand each in a line of its own. -/
structure WritableGlobals (globals : List (Bytes × Int)) : Prop where
  sorted : Sorted keyLess globals
  keys : ∀ entry ∈ globals, 61 ∉ entry.1 ∧ 10 ∉ entry.1
  values : ∀ entry ∈ globals, IsInt entry.2

variable {state : StreamOptions}

theorem not_mem_putInt {character : UInt8} (hsign : character ≠ 45)
    (hdigit : isDigit character = false) (value : Int) : character ∉ putInt value := by
  intro hmem
  rcases mem_putInt hmem with h | h
  · exact hsign h
  · rw [h] at hdigit
    cases hdigit

theorem putFlag_eq_one (value : Bool) : (decide (putFlag value = ascii "1")) = value := by
  cases value <;> decide

theorem ParseDeviceLine_res (state : StreamOptions) {width height : Int} (hwidth : IsInt width)
    (hheight : IsInt height) :
    ParseDeviceLine state (ascii "res") (putInt width ++ ascii "x" ++ putInt height) =
      { state with resolution := (width, height) } := by
  have hval : putInt width ++ ascii "x" ++ putInt height =
      putInt width ++ 120 :: putInt height := by
    rw [List.append_assoc]
    rfl
  have hfind : find (putInt width ++ 120 :: putInt height) 120 = some (putInt width).length :=
    find_append (not_mem_putInt (by decide) rfl width)
  have hdrop : (putInt width ++ 120 :: putInt height).drop ((putInt width).length + 1) =
      putInt height := by
    rw [← List.drop_drop, List.drop_left]
    rfl
  have hparse : ParseDeviceLine state (ascii "res") (putInt width ++ 120 :: putInt height) =
      match find (putInt width ++ 120 :: putInt height) 120 with
      | none => state
      | some xPos =>
          { state with
            resolution := (atoi ((putInt width ++ 120 :: putInt height).take xPos),
              atoi ((putInt width ++ 120 :: putInt height).drop (xPos + 1))) } := rfl
  rw [hval, hparse, hfind]
  dsimp only
  rw [List.take_left, hdrop, atoi_putInt hwidth, atoi_putInt hheight]

theorem ParseDeviceLine_slider (state : StreamOptions) (name val : Bytes) :
    ParseDeviceLine state (ascii "C:" ++ name) val =
      { state with
        filterSliderValues :=
          update keyLess name (fun _ => atoi val) state.filterSliderValues } := rfl

/-- The lines below the header up to the sliders. -/
theorem foldl_fixed (h : Representable state) :
    [(ascii "fps", putInt state.fps),
      (ascii "res", putInt state.resolution.1 ++ ascii "x" ++ putInt state.resolution.2),
      (ascii "back_cam", putFlag state.backCameraActive),
      (ascii "adaptive_br", putFlag state.adaptiveBitrate),
      (ascii "bitrate", putInt state.bitrate),
      (ascii "min_br", putInt state.minBitrate),
      (ascii "max_br", putInt state.maxBitrate),
      (ascii "stab", putFlag state.stabilizationEnabled),
      (ascii "flash", putFlag state.flashEnabled),
      (ascii "h265", putFlag state.h265Enabled),
      (ascii "focus", putInt state.focusMode)].foldl
        (fun state pair => ParseDeviceLine state pair.1 pair.2) {} =
      { state with filterSliderValues := [], activeEffectFilter := [] } := by
  rw [List.foldl_cons, List.foldl_cons,
    ParseDeviceLine_res _ h.resolution.1 h.resolution.2]
  -- the other keys are compared with literals
  change (⟨atoi (putInt state.fps), state.resolution, decide (putFlag state.backCameraActive =
      ascii "1"), [], [], decide (putFlag state.adaptiveBitrate = ascii "1"),
      atoi (putInt state.bitrate), atoi (putInt state.minBitrate),
      atoi (putInt state.maxBitrate), decide (putFlag state.stabilizationEnabled = ascii "1"),
      decide (putFlag state.flashEnabled = ascii "1"),
      decide (putFlag state.h265Enabled = ascii "1"), atoi (putInt state.focusMode)⟩ :
        StreamOptions) = _
  rw [atoi_putInt h.fps, atoi_putInt h.bitrate, atoi_putInt h.minBitrate,
    atoi_putInt h.maxBitrate, atoi_putInt h.focusMode]
  simp only [putFlag_eq_one]

theorem foldl_sliders {sliders : List (Bytes × Int)} (hvalues : ∀ slider ∈ sliders, IsInt slider.2)
    (state : StreamOptions) :
    (sliders.map fun slider => (ascii "C:" ++ slider.1, putInt slider.2)).foldl
        (fun state pair => ParseDeviceLine state pair.1 pair.2) state =
      { state with
        filterSliderValues := sliders.foldl
          (fun map slider => update keyLess slider.1 (fun _ => slider.2) map)
          state.filterSliderValues } := by
  induction sliders generalizing state with
  | nil => rfl
  | cons slider sliders ih =>
      rw [List.forall_mem_cons] at hvalues
      rw [List.map_cons, List.foldl_cons, List.foldl_cons, ParseDeviceLine_slider,
        atoi_putInt hvalues.1, ih hvalues.2]

/-- A section gives back its state when no slider has an equals sign in its name. -/
theorem readBack_eq (h : Representable state)
    (hnames : ∀ slider ∈ state.filterSliderValues, 61 ∉ slider.1) : readBack state = state := by
  have hkeys : ∀ pair ∈ statePairs state, 61 ∉ pair.1 := by
    intro pair hpair
    rcases key_statePairs hpair with hkey | ⟨slider, hslider, hkey⟩
    · exact (fixedKeys_plain hkey).2.1
    · rw [hkey, List.mem_append]
      rintro (hmem | hmem)
      · exact absurd hmem (by decide)
      · exact hnames slider hslider hmem
  have hpairs : ∀ (pairs : List (Bytes × Bytes)) (start : StreamOptions),
      (∀ pair ∈ pairs, 61 ∉ pair.1) →
      (pairs.map pairLine).foldl readLine start =
        pairs.foldl (fun state pair => ParseDeviceLine state pair.1 pair.2) start := by
    intro pairs
    induction pairs with
    | nil => intro _ _; rfl
    | cons pair pairs ih =>
        intro start hpairs
        rw [List.forall_mem_cons] at hpairs
        rw [List.map_cons, List.foldl_cons, List.foldl_cons, readLine_pair hpairs.1,
          ih _ hpairs.2]
  have hsliders : state.filterSliderValues.foldl
      (fun map slider => update keyLess slider.1 (fun _ => slider.2) map) [] =
        state.filterSliderValues := by
    rw [@foldl_update Bytes Int _ keyLess _ _ [] Int (fun value _ => value) _ h.sorted
      (fun entry hentry => absurd hentry List.not_mem_nil)]
    simp
  rw [readBack, hpairs _ _ hkeys, statePairs, List.foldl_append, List.foldl_append,
    foldl_fixed h, foldl_sliders h.sliders, hsliders]
  rfl

end RoundTrip

section Loaded

/-- A section of a file: its slider names have no equals sign. -/
structure Readable (device : Bytes × StreamOptions) : Prop extends OneLine device where
  values : Representable device.2
  keys : ∀ slider ∈ device.2.filterSliderValues, 61 ∉ slider.1

/-- What the loop of `Load` keeps. -/
structure LoadInvariant (loading : Loading) : Prop where
  globals : WritableGlobals loading.settings
  sorted : Sorted keyLess loading.loadedDeviceStates
  states : ∀ device ∈ loading.loadedDeviceStates, Readable device
  current : ∀ name, loading.currentDevice = some name → 10 ∉ name

variable {name : Bytes}

theorem representable_default : Representable {} where
  fps := by decide
  resolution := by decide
  bitrate := by decide
  minBitrate := by decide
  maxBitrate := by decide
  focusMode := by decide
  sliders _ h := absurd h List.not_mem_nil
  sorted := List.Pairwise.nil

theorem readable_default (hname : 10 ∉ name) : Readable (name, {}) where
  name := hname
  sliders _ h := absurd h List.not_mem_nil
  effect := List.not_mem_nil
  values := representable_default
  keys _ h := absurd h List.not_mem_nil

theorem readable_slider {state : StreamOptions} (h : Readable (name, state)) {key : Bytes}
    (hequals : 61 ∉ key) (hnewline : 10 ∉ key) (val : Bytes) :
    Readable (name, { state with
      filterSliderValues :=
        update keyLess key (fun _ => atoi val) state.filterSliderValues }) where
  name := h.name
  effect := h.effect
  sliders := by
    intro slider hslider
    rcases mem_update hslider with rfl | ⟨_, _, rfl⟩ | hmem
    · exact hnewline
    · exact hnewline
    · exact h.sliders slider hmem
  values :=
    { h.values with
      sliders := by
        intro slider hslider
        rcases mem_update hslider with rfl | ⟨_, _, rfl⟩ | hmem
        · exact atoi_isInt val
        · exact atoi_isInt val
        · exact h.values.sliders slider hmem
      sorted := update_sorted h.values.sorted }
  keys := by
    intro slider hslider
    rcases mem_update hslider with rfl | ⟨_, _, rfl⟩ | hmem
    · exact hequals
    · exact hequals
    · exact h.keys slider hmem

theorem readable_ParseDeviceLine {state : StreamOptions} (h : Readable (name, state))
    {key val : Bytes} (hequals : 61 ∉ key) (hkey : 10 ∉ key) (hval : 10 ∉ val) :
    Readable (name, ParseDeviceLine state key val) := by
  have hint := atoi_isInt
  have hdrop : ∀ character : UInt8, character ∉ key → character ∉ key.drop 2 :=
    fun _ hnot hmem => hnot (List.mem_of_mem_drop hmem)
  have hif : ∀ {condition : Prop} [Decidable condition] {yes no : StreamOptions},
      Readable (name, yes) → Readable (name, no) →
        Readable (name, if condition then yes else no) := by
    intro condition _ yes no hyes hno
    split
    · exact hyes
    · exact hno
  have hres : Readable (name, match find val 120 with
      | none => state
      | some xPos =>
          { state with resolution := (atoi (val.take xPos), atoi (val.drop (xPos + 1))) }) := by
    cases find val 120 with
    | none => exact h
    | some xPos => exact { h with values := { h.values with resolution := ⟨hint _, hint _⟩ } }
  unfold ParseDeviceLine
  -- the branches of the source in their order
  apply hif
  · exact { h with values := { h.values with fps := hint val } }
  apply hif
  · exact { h with values := { h.values with } }
  apply hif
  · exact hres
  apply hif
  · exact { h with values := { h.values with } }
  apply hif
  · exact { h with values := { h.values with bitrate := hint val } }
  apply hif
  · exact { h with values := { h.values with minBitrate := hint val } }
  apply hif
  · exact { h with values := { h.values with maxBitrate := hint val } }
  apply hif
  · exact { h with values := { h.values with } }
  apply hif
  · exact { h with values := { h.values with } }
  apply hif
  · exact { h with values := { h.values with } }
  apply hif
  · exact { h with values := { h.values with focusMode := hint val } }
  apply hif
  · exact readable_slider h (hdrop 61 hequals) (hdrop 10 hkey) val
  apply hif
  · exact { h with values := { h.values with }, effect := hval }
  exact h

/-- An entry that is changed and readable keeps all entries readable. -/
theorem readable_update {change : Option StreamOptions → StreamOptions}
    {states : StreamOptions.Registry} (h : ∀ device ∈ states, Readable device)
    (hnew : Readable (name, change none))
    (hold : ∀ old, Readable (name, old) → Readable (name, change (some old))) :
    ∀ device ∈ update keyLess name change states, Readable device := by
  intro device hdevice
  rcases mem_update hdevice with rfl | ⟨old, hmem, rfl⟩ | hmem
  · exact hnew
  · exact hold old (h _ hmem)
  · exact h device hmem

theorem writableGlobals_update {globals : List (Bytes × Int)} (h : WritableGlobals globals)
    {key : Bytes} (hequals : 61 ∉ key) (hnewline : 10 ∉ key) {value : Int} (hvalue : IsInt value) :
    WritableGlobals (update keyLess key (fun _ => value) globals) where
  sorted := update_sorted h.sorted
  keys := by
    intro entry hentry
    rcases mem_update hentry with rfl | ⟨_, _, rfl⟩ | hmem
    · exact ⟨hequals, hnewline⟩
    · exact ⟨hequals, hnewline⟩
    · exact h.keys entry hmem
  values := by
    intro entry hentry
    rcases mem_update hentry with rfl | ⟨_, _, rfl⟩ | hmem
    · exact hvalue
    · exact hvalue
    · exact h.values entry hmem

theorem loadLine_invariant {loading : Loading} (h : LoadInvariant loading) {line : Bytes}
    (hline : 10 ∉ line) : LoadInvariant (loadLine loading line) := by
  unfold loadLine
  split
  · exact h
  split
  · dsimp only
    split
    · have hname : 10 ∉ ((line.drop 1).take (line.length - 2)).drop 7 :=
        fun hmem => hline (List.mem_of_mem_drop (List.mem_of_mem_take (List.mem_of_mem_drop hmem)))
      exact
        { globals := h.globals
          sorted := update_sorted h.sorted
          states := readable_update h.states (readable_default hname) fun _ hold => hold
          current := fun _ hcurrent => Option.some.inj hcurrent ▸ hname }
    · exact { h with current := fun _ hcurrent => absurd hcurrent (by simp) }
  split
  · exact h
  · next pos hpos =>
      obtain ⟨front, back, hfront, hlength, hequals⟩ := find_eq_some hpos
      have hkey : line.take pos = front := by
        rw [hfront, ← hlength, List.take_left]
      have hnewline : 10 ∉ line.take pos := fun hmem => hline (List.mem_of_mem_take hmem)
      have hval : 10 ∉ line.drop (pos + 1) := fun hmem => hline (List.mem_of_mem_drop hmem)
      have hnot : 61 ∉ line.take pos := hkey ▸ hequals
      split
      · next devName hdevice =>
          have hname := h.current devName hdevice
          exact
            { globals := h.globals
              sorted := update_sorted h.sorted
              states := readable_update h.states
                (readable_ParseDeviceLine (readable_default hname) hnot hnewline hval)
                fun _ hold => readable_ParseDeviceLine hold hnot hnewline hval
              current := h.current }
      · exact { h with globals := writableGlobals_update h.globals hnot hnewline (atoi_isInt _) }

theorem getlines_newline (content : Bytes) : ∀ line ∈ getlines content, 10 ∉ line := by
  obtain ⟨_, hlines, htail⟩ := splitLines_spec content
  intro line hline
  unfold getlines at hline
  dsimp only at hline
  split at hline
  · exact hlines line hline
  · rcases List.mem_append.mp hline with hline | hline
    · exact hlines line hline
    · rw [List.mem_singleton.mp hline]
      exact htail

theorem foldl_loadLine_invariant {lines : List Bytes} (hlines : ∀ line ∈ lines, 10 ∉ line)
    {loading : Loading} (h : LoadInvariant loading) : LoadInvariant (lines.foldl loadLine loading) := by
  induction lines generalizing loading with
  | nil => exact h
  | cons line lines ih =>
      rw [List.forall_mem_cons] at hlines
      exact ih hlines.2 (loadLine_invariant h hlines.1)

/-- Whatever the file holds, the stores are maps of C++ values. -/
theorem loadLines_invariant (content : Bytes) : LoadInvariant (loadLines content) := by
  apply foldl_loadLine_invariant (getlines_newline content)
  exact
    { globals :=
        { sorted := List.Pairwise.nil
          keys := fun _ h => absurd h List.not_mem_nil
          values := fun _ h => absurd h List.not_mem_nil }
      sorted := List.Pairwise.nil
      states := fun _ h => absurd h List.not_mem_nil
      current := fun _ hcurrent => absurd hcurrent (by simp) }

end Loaded

section SaveLoad

theorem getlines_join {lines : List Bytes} (h : ∀ line ∈ lines, 10 ∉ line) :
    getlines (joinLines lines) = lines := by
  have hsplit := splitLines_join h []
  rw [List.append_nil] at hsplit
  rw [getlines, hsplit]
  exact (if_pos rfl).trans (List.append_nil lines)

theorem newline_pairLine {pair : Bytes × Bytes} (hkey : 10 ∉ pair.1) (hval : 10 ∉ pair.2) :
    10 ∉ pairLine pair := by
  rw [pairLine, List.mem_append, List.mem_append]
  rintro ((hmem | hmem) | hmem)
  · exact hkey hmem
  · exact absurd hmem (by decide)
  · exact hval hmem

theorem newline_statePairs {device : Bytes × StreamOptions} (h : OneLine device) :
    ∀ pair ∈ statePairs device.2, 10 ∉ pair.1 ∧ 10 ∉ pair.2 := by
  have hint : ∀ value, 10 ∉ putInt value := not_mem_putInt (by decide) rfl
  intro pair hpair
  constructor
  · rcases key_statePairs hpair with hkey | ⟨slider, hslider, hkey⟩
    · exact (fixedKeys_plain hkey).2.2
    · rw [hkey, List.mem_append]
      rintro (hmem | hmem)
      · exact absurd hmem (by decide)
      · exact h.sliders slider hslider hmem
  · rw [statePairs, List.mem_append, List.mem_append] at hpair
    rcases hpair with (hpair | hpair) | hpair
    · have hres : 10 ∉ putInt device.2.resolution.1 ++ ascii "x" ++ putInt device.2.resolution.2 := by
        rw [List.mem_append, List.mem_append]
        rintro ((hmem | hmem) | hmem)
        · exact hint _ hmem
        · exact absurd hmem (by decide)
        · exact hint _ hmem
      simp only [List.mem_cons, List.not_mem_nil, or_false] at hpair
      rcases hpair with rfl | rfl | rfl | rfl | rfl | rfl | rfl | rfl | rfl | rfl | rfl
      all_goals first | exact hres | exact hint _
    · obtain ⟨slider, _, rfl⟩ := List.mem_map.mp hpair
      exact hint slider.2
    · rw [List.mem_singleton.mp hpair]
      exact h.effect

theorem newline_deviceLines {device : Bytes × StreamOptions} (h : OneLine device) :
    ∀ line ∈ deviceLines device, 10 ∉ line := by
  intro line hline
  rw [deviceLines, List.mem_append, List.mem_append] at hline
  rcases hline with (hline | hline) | hline
  · rw [List.mem_singleton.mp hline, List.mem_append, List.mem_append]
    rintro ((hmem | hmem) | hmem)
    · exact absurd hmem (by decide)
    · exact h.name hmem
    · exact absurd hmem (by decide)
  · obtain ⟨pair, hpair, rfl⟩ := List.mem_map.mp hline
    have hnewline := newline_statePairs h pair hpair
    exact newline_pairLine hnewline.1 hnewline.2
  · rw [List.mem_singleton.mp hline]
    exact List.not_mem_nil

theorem newline_globals {globals : List (Bytes × Int)} (h : WritableGlobals globals) :
    ∀ line ∈ globals.map fun entry => pairLine (entry.1, putInt entry.2), 10 ∉ line := by
  intro line hline
  obtain ⟨entry, hentry, rfl⟩ := List.mem_map.mp hline
  exact newline_pairLine (h.keys entry hentry).2 (not_mem_putInt (by decide) rfl _)

/-- The lines of a saved file, and what `Load` has read after the global settings. -/
theorem loadLines_join {globals : List (Bytes × Int)} (h : WritableGlobals globals)
    {lines : List Bytes} (hlines : ∀ line ∈ lines, 10 ∉ line) :
    loadLines (joinLines (globals.map (fun entry => pairLine (entry.1, putInt entry.2)) ++
        [[]] ++ lines)) =
      lines.foldl loadLine { settings := globals } := by
  have hall : ∀ line ∈ globals.map (fun entry => pairLine (entry.1, putInt entry.2)) ++
      [[]] ++ lines, 10 ∉ line := by
    intro line hline
    rcases List.mem_append.mp hline with hline | hline
    · rcases List.mem_append.mp hline with hline | hline
      · exact newline_globals h line hline
      · rw [List.mem_singleton.mp hline]
        exact List.not_mem_nil
    · exact hlines line hline
  have hfold : globals.foldl (fun map entry => update keyLess entry.1 (fun _ => entry.2) map) [] =
      globals := by
    rw [@foldl_update Bytes Int _ keyLess _ _ [] Int (fun value _ => value) _ h.sorted
      (fun entry hentry => absurd hentry List.not_mem_nil)]
    simp
  have hkeys : ∀ entry ∈ globals, 61 ∉ entry.1 ∧ IsInt entry.2 :=
    fun entry hentry => ⟨(h.keys entry hentry).1, h.values entry hentry⟩
  rw [loadLines, getlines_join hall, List.foldl_append, List.foldl_append,
    foldl_globals hkeys rfl]
  dsimp only
  rw [hfold]
  rfl

theorem Load_some (store : Settings) (content : Bytes) :
    (store.Load (some content)).settings = (loadLines content).settings ∧
      (store.Load (some content)).loadedDeviceStates =
        (loadLines content).loadedDeviceStates := by
  unfold Load
  dsimp only
  split
  · exact ⟨rfl, rfl⟩
  · exact ⟨rfl, rfl⟩

/-- While the states are saved, a file gives back the global settings, and each
state as its section spells it. -/
theorem loadLines_Save {store : Settings} (hglobals : WritableGlobals store.settings)
    (hflag : store.Get (ascii "SAVE_DEVICE_STATES") = 1)
    (hregistry : Sorted keyLess store.loadedDeviceStates)
    (hnames : ∀ device ∈ store.loadedDeviceStates, OneLine device) :
    (loadLines store.Save).settings = store.settings ∧
      (loadLines store.Save).loadedDeviceStates =
        store.loadedDeviceStates.map fun device => (device.1, readBack device.2) := by
  have hlines : ∀ line ∈ store.loadedDeviceStates.flatMap deviceLines, 10 ∉ line := by
    intro line hline
    obtain ⟨device, hdevice, hmem⟩ := List.mem_flatMap.mp hline
    exact newline_deviceLines (hnames device hdevice) line hmem
  rw [Save, if_pos hflag, loadLines_join hglobals hlines]
  exact foldl_registry hregistry fun _ hentry => absurd hentry List.not_mem_nil

/-- The names under which the program keeps its global settings. -/
def settingNames : List Bytes :=
  [ascii "MINIMIZE_TASKBAR", ascii "SHOW_STATS", ascii "SAVE_DEVICE_STATES",
    ascii "SAVE_DEVICE_STATE", ascii "DIRECTSHOW_RESOLUTION"]

structure GlobalSettings (globals : List (Bytes × Int)) : Prop where
  sorted : Sorted keyLess globals
  names : ∀ entry ∈ globals, entry.1 ∈ settingNames
  values : ∀ entry ∈ globals, IsInt entry.2

/-- What the decoder of the device descriptor asks of a name. -/
structure AdmittedName (name : Bytes) : Prop where
  nonempty : name ≠ []
  utf8 : WellFormedUtf8 name
  printable : ∀ character ∈ name, 0x20 ≤ character ∧ character ≠ 0x7f

structure AdmittedDevice (device : Bytes × StreamOptions) : Prop where
  name : AdmittedName device.1
  sliders : ∀ slider ∈ device.2.filterSliderValues, AdmittedName slider.1
  effect : device.2.activeEffectFilter = [] ∨ AdmittedName device.2.activeEffectFilter
  values : Representable device.2

theorem AdmittedName.newline {name : Bytes} (h : AdmittedName name) : 10 ∉ name :=
  fun hmem => absurd (h.printable 10 hmem).1 (by decide)

theorem AdmittedDevice.oneLine {device : Bytes × StreamOptions} (h : AdmittedDevice device) :
    OneLine device where
  name := h.name.newline
  sliders slider hslider := (h.sliders slider hslider).newline
  effect := by
    rcases h.effect with hempty | hname
    · rw [hempty]
      exact List.not_mem_nil
    · exact hname.newline

theorem GlobalSettings.writable {globals : List (Bytes × Int)} (h : GlobalSettings globals) :
    WritableGlobals globals where
  sorted := h.sorted
  keys := by
    have hall : settingNames.all (fun name => !name.contains 61 && !name.contains 10) = true := by
      decide
    intro entry hentry
    simpa using List.all_eq_true.mp hall entry.1 (h.names entry hentry)
  values := h.values

/-- A saved file gives back what was saved exactly when no filter has an equals
sign in its name. -/
theorem Load_Save_iff {globals : List (Bytes × Int)} {registry : StreamOptions.Registry}
    (hglobals : GlobalSettings globals) (hflag : (ascii "SAVE_DEVICE_STATES", 1) ∈ globals)
    (hregistry : Sorted keyLess registry) (hdevices : ∀ device ∈ registry, AdmittedDevice device)
    (preserved : List Bytes) (store : Settings) :
    ((store.Load (some (Save ⟨globals, registry, preserved⟩))).settings = globals ∧
      (store.Load (some (Save ⟨globals, registry, preserved⟩))).loadedDeviceStates = registry) ↔
      ∀ device ∈ registry, ∀ slider ∈ device.2.filterSliderValues, 61 ∉ slider.1 := by
  have hget : Get ⟨globals, registry, preserved⟩ (ascii "SAVE_DEVICE_STATES") = 1 := by
    rw [Get, value?_of_mem hglobals.sorted hflag]
    rfl
  obtain ⟨hsettings, hstates⟩ := @loadLines_Save ⟨globals, registry, preserved⟩
    hglobals.writable hget hregistry fun device hdevice => (hdevices device hdevice).oneLine
  rw [(Load_some store _).1, (Load_some store _).2]
  constructor
  · rintro ⟨_, hsame⟩ device hdevice
    have hread := (loadLines_invariant (Save ⟨globals, registry, preserved⟩)).states
    rw [hsame] at hread
    exact (hread device hdevice).keys
  · intro hkeys
    refine ⟨hsettings, hstates.trans ?_⟩
    have hback : ∀ device ∈ registry, (device.1, readBack device.2) = device := by
      intro device hdevice
      rw [readBack_eq (hdevices device hdevice).values (hkeys device hdevice)]
    rw [List.map_congr_left hback, List.map_id']

theorem admittedName_ascii {text : String} (hne : ascii text ≠ [])
    (hutf8 : ascii text = text.toList.flatMap String.utf8EncodeChar)
    (hprintable : (ascii text).all (fun c => 0x20 ≤ c && c != 0x7f) = true) :
    AdmittedName (ascii text) where
  nonempty := hne
  utf8 := ⟨text.toList, hutf8⟩
  printable := by simpa using List.all_eq_true.mp hprintable

/-- A phone with one adjusted filter. -/
def pixel (filter : Bytes) : Bytes × StreamOptions :=
  (ascii "Pixel", { filterSliderValues := [(filter, 5)] })

theorem pixel_admitted {filter : Bytes} (h : AdmittedName filter) : AdmittedDevice (pixel filter) where
  name := @admittedName_ascii "Pixel" (by decide) (by decide +kernel) (by decide)
  sliders slider hslider := by
    rw [List.mem_singleton.mp hslider]
    exact h
  effect := Or.inl rfl
  values :=
    { representable_default with
      sliders := by
        intro slider hslider
        rw [List.mem_singleton.mp hslider]
        exact (by decide : IsInt 5)
      sorted := List.pairwise_singleton _ _ }

theorem saving_globals : GlobalSettings [(ascii "SAVE_DEVICE_STATES", 1)] where
  sorted := List.pairwise_singleton _ _
  names entry hentry := by
    rw [List.mem_singleton.mp hentry]
    exact List.mem_of_mem_drop (i := 2) List.mem_cons_self
  values entry hentry := by
    rw [List.mem_singleton.mp hentry]
    exact (by decide : IsInt 1)

theorem Load_Save_pixel :
    ((Load {} (some (Save ⟨[(ascii "SAVE_DEVICE_STATES", 1)], [pixel (ascii "blur")], []⟩))).settings =
        [(ascii "SAVE_DEVICE_STATES", 1)] ∧
      (Load {} (some (Save ⟨[(ascii "SAVE_DEVICE_STATES", 1)], [pixel (ascii "blur")], []⟩))).loadedDeviceStates =
        [pixel (ascii "blur")]) ↔
      ∀ device ∈ [pixel (ascii "blur")], ∀ slider ∈ device.2.filterSliderValues, 61 ∉ slider.1 := by
  have hname : AdmittedName (ascii "blur") :=
    admittedName_ascii (by decide) (by decide +kernel) (by decide)
  apply Load_Save_iff saving_globals List.mem_cons_self (List.pairwise_singleton _ _)
  intro device hdevice
  rw [List.mem_singleton.mp hdevice]
  exact pixel_admitted hname

/-- The slider of a filter `x=y` comes back as a slider of `x` at zero. -/
theorem Load_Save_equals :
    ∃ (globals : List (Bytes × Int)) (registry : StreamOptions.Registry),
      GlobalSettings globals ∧ (ascii "SAVE_DEVICE_STATES", 1) ∈ globals ∧
        Sorted keyLess registry ∧ (∀ device ∈ registry, AdmittedDevice device) ∧
        (Load {} (some (Save ⟨globals, registry, []⟩))).loadedDeviceStates ≠ registry := by
  have hname : AdmittedName (ascii "x=y") :=
    admittedName_ascii (by decide) (by decide +kernel) (by decide)
  refine ⟨[(ascii "SAVE_DEVICE_STATES", 1)], [pixel (ascii "x=y")], saving_globals,
    List.mem_cons_self, List.pairwise_singleton _ _, ?_, ?_⟩
  · intro device hdevice
    rw [List.mem_singleton.mp hdevice]
    exact pixel_admitted hname
  · have hloaded : (Load {} (some (Save ⟨[(ascii "SAVE_DEVICE_STATES", 1)],
        [pixel (ascii "x=y")], []⟩))).loadedDeviceStates =
          [(ascii "Pixel", { filterSliderValues := [(ascii "x", 0)] })] := by decide +kernel
    rw [hloaded]
    exact by decide +kernel

end SaveLoad

end Settings

end OpenCam.Windows
