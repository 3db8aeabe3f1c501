import Mathlib.Data.List.AList
import Mathlib.Logic.Function.Basic
import XInputSwitch.Numerals

/-! # The settings of the GUI

`load_settings`, `reload_settings`, `collect_settings` and `save_current` of
`SwitchAutomationGui.py`.  Eighteen settings have a widget, which holds a text or a flag;
the table `guiFields` says how each is read back.  What is saved is made of the defaults
and the widgets alone: a setting that has no widget is lost, and `playniteMode`, which has
a default and no widget, is set back (`gui_save_keeps`).

A settings file is a dictionary here; `SettingsFile` goes down to its characters.
-/
namespace XInputSwitch

open Python (Value Numerals)

/-- A dictionary of settings. -/
abbrev Settings := AList fun _ : String => Value

/-- The default paths.  They are absolute, so neither empty nor with blanks around them. -/
structure GuiPaths where
  socketStatusFile : String
  sessionExitSignalFile : String
  status_trimmed : Python.strip socketStatusFile = socketStatusFile ∧ socketStatusFile ≠ ""
  signal_trimmed :
    Python.strip sessionExitSignalFile = sessionExitSignalFile ∧ sessionExitSignalFile ≠ ""

/-- `DEFAULT_SETTINGS`. -/
def defaultEntries (paths : GuiPaths) : List (String × Value) :=
  [("pythonExe", .str "C:\\Python312\\python.exe"),
   ("obsDir", .str "C:\\Program Files\\obs-studio\\bin\\64bit"),
   ("obsExe", .str "C:\\Program Files\\obs-studio\\bin\\64bit\\obs64.exe"),
   ("projectorTitle", .str "Projector"), ("playniteMode", .str "controller"),
   ("mode", .str "controller"), ("controllerBackend", .str "auto"), ("serialPort", .str "COM3"),
   ("controllerSlot", .int 0), ("bindToProjectorFocus", .bool true),
   ("inactiveAction", .str "home"), ("disconnectAction", .str "home"),
   ("homeDuration", .float (.finite (1 / 4))), ("homeCooldown", .float (.finite 5)),
   ("debugBridge", .bool false), ("socketHost", .str "127.0.0.1"), ("socketPort", .int 8765),
   ("socketStatusFile", .str paths.socketStatusFile),
   ("sessionExitSignalFile", .str paths.sessionExitSignalFile)]

/-- `dict(DEFAULT_SETTINGS)`. -/
def defaultSettings (paths : GuiPaths) : Settings :=
  ((defaultEntries paths).map fun e => ⟨e.1, e.2⟩).toAList

/-- How `collect_settings` reads a widget. -/
inductive FieldRule where
  /-- `get().strip()` -/
  | stripped
  /-- `get().strip() or default` -/
  | strippedOr (default : String)
  /-- `get()` -/
  | plain
  /-- `None` for a blank text, else `int` -/
  | slot
  | float
  | int
  | flag
deriving DecidableEq

/-- The widgets, in the order `collect_settings` reads them. -/
def guiFields (paths : GuiPaths) : List (String × FieldRule) :=
  [("pythonExe", .stripped), ("obsDir", .stripped), ("obsExe", .stripped),
   ("projectorTitle", .strippedOr "Projector"), ("mode", .plain), ("controllerBackend", .plain),
   ("serialPort", .stripped), ("controllerSlot", .slot), ("bindToProjectorFocus", .flag),
   ("inactiveAction", .plain), ("disconnectAction", .plain), ("homeDuration", .float),
   ("homeCooldown", .float), ("debugBridge", .flag), ("socketHost", .strippedOr "127.0.0.1"),
   ("socketPort", .int), ("socketStatusFile", .strippedOr paths.socketStatusFile),
   ("sessionExitSignalFile", .strippedOr paths.sessionExitSignalFile)]

/-- What the widgets hold. -/
structure GuiVars where
  text : String → String
  flag : String → Bool

/-- The text that shows a value. -/
def shownText (nums : Numerals) : Value → String
  | .none => ""
  | value => nums.str value

/-- `load_settings`, of the dictionary in the file. -/
def loadSettings (paths : GuiPaths) (loaded : Settings) : Settings :=
  loaded ∪ defaultSettings paths

/-- The body of the loop of `reload_settings`. -/
def GuiVars.set (nums : Numerals) (paths : GuiPaths) (vars : GuiVars) (key : String)
    (value : Value) : GuiVars :=
  match (guiFields paths).lookup key with
  | none => vars
  | some .flag => { vars with flag := Function.update vars.flag key value.truthy }
  | some _ => { vars with text := Function.update vars.text key (shownText nums value) }

/-- `reload_settings`. -/
def reloadSettings (nums : Numerals) (paths : GuiPaths) (vars : GuiVars) (loaded : Settings) :
    GuiVars :=
  (loadSettings paths loaded).entries.foldl (fun vars e => vars.set nums paths e.1 e.2) vars

/-- What `collect_settings` makes of one widget, if it does not raise. -/
def FieldRule.read (nums : Numerals) (vars : GuiVars) (key : String) : FieldRule → Option Value
  | .stripped => some (.str (Python.strip (vars.text key)))
  | .strippedOr default =>
    let text := Python.strip (vars.text key)
    some (.str (if text = "" then default else text))
  | .plain => some (.str (vars.text key))
  | .slot =>
    let text := Python.strip (vars.text key)
    if text = "" then some .none else (nums.parseInt text).map .int
  | .float => (nums.parseFloat (vars.text key)).map .float
  | .int => (nums.parseInt (vars.text key)).map .int
  | .flag => some (.bool (vars.flag key))

/-- `collect_settings`. -/
def collectSettings (nums : Numerals) (paths : GuiPaths) (vars : GuiVars) : Option Settings :=
  (guiFields paths).foldlM
    (fun settings field =>
      (field.2.read nums vars field.1).map fun value => settings.insert field.1 value)
    (defaultSettings paths)

/-- `save_current`: the file it writes, if no number is refused. -/
def saveCurrent (nums : Numerals) (paths : GuiPaths) (vars : GuiVars) : Option Settings :=
  collectSettings nums paths vars

/-! ## What the widgets hold after a reload -/

section Reload
variable {nums : Numerals} {paths : GuiPaths} {vars : GuiVars} {key : String} {value : Value}

/-- The widget of a setting shows a value. -/
def GuiVars.Shows (nums : Numerals) (vars : GuiVars) (key : String) (value : Value) :
    FieldRule → Prop
  | .flag => vars.flag key = value.truthy
  | _ => vars.text key = shownText nums value

theorem GuiVars.set_shows {rule : FieldRule} (h : (guiFields paths).lookup key = some rule) :
    (vars.set nums paths key value).Shows nums key value rule := by
  cases rule with
  | flag =>
    simp only [GuiVars.set, h]
    exact Function.update_self ..
  | _ =>
    simp only [GuiVars.set, h]
    exact Function.update_self ..

theorem GuiVars.set_of_ne {key' : String} (hne : key ≠ key') {shown : Value} {rule : FieldRule}
    (h : vars.Shows nums key shown rule) :
    (vars.set nums paths key' value).Shows nums key shown rule := by
  have htext : (vars.set nums paths key' value).text key = vars.text key := by
    unfold GuiVars.set
    split
    · rfl
    · rfl
    · exact Function.update_of_ne hne ..
  have hflag : (vars.set nums paths key' value).flag key = vars.flag key := by
    unfold GuiVars.set
    split
    · rfl
    · exact Function.update_of_ne hne ..
    · rfl
  cases rule with
  | flag => exact hflag.trans h
  | _ => exact htext.trans h

theorem foldl_set_of_not_mem {entries : List ((_ : String) × Value)} (hkey : key ∉ entries.keys)
    {rule : FieldRule} (h : vars.Shows nums key value rule) :
    (entries.foldl (fun vars e => vars.set nums paths e.1 e.2) vars).Shows nums key value rule := by
  induction entries generalizing vars with
  | nil => exact h
  | cons e entries ih =>
    rw [List.keys_cons, List.mem_cons, not_or] at hkey
    exact ih hkey.2 (GuiVars.set_of_ne hkey.1 h)

/-- The loop sets each widget once, since no key occurs twice. -/
theorem foldl_set_shows {entries : List ((_ : String) × Value)} (hnodup : entries.NodupKeys)
    (hmem : ⟨key, value⟩ ∈ entries) {rule : FieldRule}
    (h : (guiFields paths).lookup key = some rule) :
    (entries.foldl (fun vars e => vars.set nums paths e.1 e.2) vars).Shows nums key value rule := by
  induction entries generalizing vars with
  | nil => cases hmem
  | cons e entries ih =>
    obtain ⟨hnot, hnodup⟩ := List.nodupKeys_cons.mp hnodup
    rcases List.mem_cons.mp hmem with rfl | hmem
    · exact foldl_set_of_not_mem hnot (GuiVars.set_shows h)
    · exact ih hnodup hmem

theorem reloadSettings_shows {loaded : Settings} (hvalue : (loadSettings paths loaded).lookup key =
    some value) {rule : FieldRule} (h : (guiFields paths).lookup key = some rule) :
    (reloadSettings nums paths vars loaded).Shows nums key value rule :=
  foldl_set_shows (AList.nodupKeys _) (AList.mem_lookup_iff.mp hvalue) h

end Reload

/-! ## What the GUI reads back -/

/-- A value the GUI itself could have written. -/
def FieldRule.Writable (nums : Numerals) (key : String) (value : Value) (rule : FieldRule) : Prop :=
  ∃ vars, rule.read nums vars key = some value

/-- The same by its shape (`fits_of_read`, `read_of_fits`). -/
def FieldRule.Fits : FieldRule → Value → Prop
  | .stripped, .str text => Python.strip text = text
  | .strippedOr _, .str text => Python.strip text = text ∧ text ≠ ""
  | .plain, .str _ => True
  | .slot, .none => True
  | .slot, .int n => Python.Legible n
  | .float, .float _ => True
  | .int, .int n => Python.Legible n
  | .flag, .bool _ => True
  | _, _ => False

theorem FieldRule.fits_of_read {nums : Numerals} {vars : GuiVars} {key : String} {value : Value}
    {rule : FieldRule}
    (hdefault : ∀ default, rule = .strippedOr default →
      Python.strip default = default ∧ default ≠ "")
    (h : rule.read nums vars key = some value) : rule.Fits value := by
  cases rule with
  | stripped =>
    obtain rfl := Option.some.inj h
    exact Python.strip_strip _
  | strippedOr default =>
    obtain rfl := Option.some.inj h
    show Python.strip _ = _ ∧ _
    split
    · exact hdefault default rfl
    · exact ⟨Python.strip_strip _, ‹_›⟩
  | plain =>
    obtain rfl := Option.some.inj h
    trivial
  | slot =>
    rw [FieldRule.read] at h
    split at h
    · obtain rfl := Option.some.inj h
      trivial
    · obtain ⟨n, hparse, rfl⟩ := Option.map_eq_some_iff.mp h
      exact nums.parseInt_legible _ n hparse
  | float =>
    obtain ⟨x, -, rfl⟩ := Option.map_eq_some_iff.mp h
    trivial
  | int =>
    obtain ⟨n, hparse, rfl⟩ := Option.map_eq_some_iff.mp h
    exact nums.parseInt_legible _ n hparse
  | flag =>
    obtain rfl := Option.some.inj h
    trivial

/-- **What the GUI shows, it reads back.** -/
theorem FieldRule.read_of_fits {nums : Numerals} {vars : GuiVars} {key : String} {value : Value}
    {rule : FieldRule} (hfits : rule.Fits value) (hshows : vars.Shows nums key value rule) :
    rule.read nums vars key = some value := by
  match rule, value with
  | .stripped, .str text =>
    have htext : vars.text key = text := hshows
    rw [FieldRule.read, htext]
    exact congrArg (some ∘ Value.str) hfits
  | .strippedOr default, .str text =>
    have htext : vars.text key = text := hshows
    obtain ⟨hstrip, hnonempty⟩ : Python.strip text = text ∧ text ≠ "" := hfits
    rw [FieldRule.read, htext, hstrip]
    exact congrArg (some ∘ Value.str) (if_neg hnonempty)
  | .plain, .str text => exact congrArg (some ∘ Value.str) hshows
  | .slot, .none =>
    have htext : vars.text key = "" := hshows
    rw [FieldRule.read, htext]
    rfl
  | .slot, .int n =>
    have htext : vars.text key = nums.repr (.int n) := hshows
    have hparse : nums.parseInt (Python.strip (vars.text key)) = some n := by
      rw [htext, nums.strip_repr n hfits, nums.parseInt_repr n hfits]
    -- a blank text would be no number
    have hnonempty : Python.strip (vars.text key) ≠ "" := by
      intro hempty
      rw [hempty, nums.parseInt_empty] at hparse
      cases hparse
    rw [FieldRule.read, if_neg hnonempty, hparse]
    rfl
  | .float, .float x =>
    have htext : vars.text key = nums.repr (.float x) := hshows
    rw [FieldRule.read, htext, nums.parseFloat_repr]
    rfl
  | .int, .int n =>
    have htext : vars.text key = nums.repr (.int n) := hshows
    rw [FieldRule.read, htext, nums.parseInt_repr n hfits]
    rfl
  | .flag, .bool b => exact congrArg (some ∘ Value.bool) hshows

/-- The texts that stand in for an empty one are not blank themselves. -/
theorem guiFields_default (paths : GuiPaths) : ∀ field ∈ guiFields paths,
    ∀ default, field.2 = .strippedOr default → Python.strip default = default ∧ default ≠ "" := by
  have hprojector : Python.strip "Projector" = "Projector" := by decide
  have hhost : Python.strip "127.0.0.1" = "127.0.0.1" := by decide
  simp [guiFields, hprojector, hhost, paths.status_trimmed, paths.signal_trimmed]

/-- A dictionary made of its entries. -/
theorem lookup_toAList {entries : List (String × Value)} (key : String) :
    (entries.map fun e => (⟨e.1, e.2⟩ : (_ : String) × Value)).toAList.lookup key =
      entries.lookup key := by
  rw [AList.lookup_to_alist]
  induction entries with
  | nil => rfl
  | cons e entries ih =>
    obtain ⟨name, value⟩ := e
    by_cases hkey : key = name
    · subst hkey
      simp
    · rw [List.map_cons, List.dlookup_cons_ne _ _ hkey, ih, List.lookup_cons,
        beq_false_of_ne hkey]

theorem defaultSettings_lookup (paths : GuiPaths) (key : String) :
    (defaultSettings paths).lookup key = (defaultEntries paths).lookup key :=
  lookup_toAList key

/-- Every default is one the GUI could have written. -/
theorem defaultEntries_fits (paths : GuiPaths) : ∀ field ∈ guiFields paths,
    ∃ value, (defaultEntries paths).lookup field.1 = some value ∧ field.2.Fits value := by
  simp only [guiFields, List.forall_mem_cons, List.not_mem_nil, false_imp_iff, implies_true,
    and_true]
  have htrimmed : FieldRule.stripped.Fits (.str "C:\\Python312\\python.exe") ∧
      FieldRule.stripped.Fits (.str "C:\\Program Files\\obs-studio\\bin\\64bit") ∧
      FieldRule.stripped.Fits (.str "C:\\Program Files\\obs-studio\\bin\\64bit\\obs64.exe") ∧
      FieldRule.stripped.Fits (.str "COM3") := by
    simp only [FieldRule.Fits]
    decide +kernel
  have hnonempty : (FieldRule.strippedOr "Projector").Fits (.str "Projector") ∧
      (FieldRule.strippedOr "127.0.0.1").Fits (.str "127.0.0.1") := by
    simp only [FieldRule.Fits]
    decide +kernel
  have hlegible : FieldRule.slot.Fits (.int 0) ∧ FieldRule.int.Fits (.int 8765) := by
    simp only [FieldRule.Fits]
    decide +kernel
  exact ⟨⟨_, rfl, htrimmed.1⟩, ⟨_, rfl, htrimmed.2.1⟩, ⟨_, rfl, htrimmed.2.2.1⟩,
    ⟨_, rfl, hnonempty.1⟩, ⟨_, rfl, trivial⟩, ⟨_, rfl, trivial⟩, ⟨_, rfl, htrimmed.2.2.2⟩,
    ⟨_, rfl, hlegible.1⟩, ⟨_, rfl, trivial⟩, ⟨_, rfl, trivial⟩, ⟨_, rfl, trivial⟩,
    ⟨_, rfl, trivial⟩, ⟨_, rfl, trivial⟩, ⟨_, rfl, trivial⟩, ⟨_, rfl, hnonempty.2⟩,
    ⟨_, rfl, hlegible.2⟩, ⟨_, rfl, paths.status_trimmed⟩, ⟨_, rfl, paths.signal_trimmed⟩⟩

/-- What is collected, if every widget can be read. -/
theorem collect_lookup {nums : Numerals} {vars : GuiVars} {values : String → Value}
    {fields : List (String × FieldRule)} (base : Settings)
    (h : ∀ field ∈ fields, field.2.read nums vars field.1 = some (values field.1)) :
    ∃ saved, fields.foldlM (fun settings field =>
        (field.2.read nums vars field.1).map fun value => AList.insert field.1 value settings)
        base = some saved ∧
      ∀ key, saved.lookup key =
        if key ∈ fields.map Prod.fst then some (values key) else base.lookup key := by
  induction fields generalizing base with
  | nil => exact ⟨base, rfl, fun key => by simp⟩
  | cons field fields ih =>
    obtain ⟨name, rule⟩ := field
    rw [List.forall_mem_cons] at h
    obtain ⟨saved, hsaved, hlookup⟩ := ih (base.insert name (values name)) h.2
    refine ⟨saved, ?_, fun key => ?_⟩
    · rw [List.foldlM_cons, h.1]
      exact hsaved
    · rw [hlookup, List.map_cons]
      by_cases hkey : key = name
      · subst hkey
        simp
      · rw [AList.lookup_insert_ne hkey]
        simp only [List.mem_cons, hkey, false_or]

/-! ## The round trip -/

theorem guiFields_lookup (paths : GuiPaths) : ∀ field ∈ guiFields paths,
    (guiFields paths).lookup field.1 = some field.2 := by
  simp only [guiFields, List.forall_mem_cons, List.not_mem_nil, false_imp_iff, implies_true,
    and_true]
  and_intros <;> rfl

theorem loadSettings_lookup_of_mem {paths : GuiPaths} {loaded : Settings} {key : String}
    {value : Value} (h : loaded.lookup key = some value) :
    (loadSettings paths loaded).lookup key = some value := by
  have hmem : key ∈ loaded := AList.lookup_isSome.mp (by rw [h]; rfl)
  rw [loadSettings, AList.lookup_union_left hmem, h]

/-- What a field shows after a reload is one the GUI could have written: the file's value, or
the default. -/
theorem loadSettings_fits {nums : Numerals} {paths : GuiPaths} {loaded : Settings}
    (hwritable : ∀ field ∈ guiFields paths, ∀ value, loaded.lookup field.1 = some value →
      field.2.Writable nums field.1 value) :
    ∀ field ∈ guiFields paths, ∃ value,
      (loadSettings paths loaded).lookup field.1 = some value ∧ field.2.Fits value := by
  intro field hfield
  cases hloaded : loaded.lookup field.1 with
  | some value =>
    obtain ⟨before, hread⟩ := hwritable field hfield value hloaded
    exact ⟨value, loadSettings_lookup_of_mem hloaded,
      FieldRule.fits_of_read (guiFields_default paths field hfield) hread⟩
  | none =>
    obtain ⟨value, hvalue, hfits⟩ := defaultEntries_fits paths field hfield
    refine ⟨value, ?_, hfits⟩
    rw [loadSettings, AList.lookup_union_right (AList.lookup_eq_none.mp hloaded),
      defaultSettings_lookup, hvalue]

/-- **What is saved**: the loaded settings that have a widget, and the defaults of the
others. -/
theorem saveCurrent_reload {nums : Numerals} {paths : GuiPaths} {loaded : Settings}
    (hwritable : ∀ field ∈ guiFields paths, ∀ value, loaded.lookup field.1 = some value →
      field.2.Writable nums field.1 value) (vars : GuiVars) :
    ∃ saved, saveCurrent nums paths (reloadSettings nums paths vars loaded) = some saved ∧
      ∀ key, saved.lookup key =
        if key ∈ (guiFields paths).map Prod.fst then (loadSettings paths loaded).lookup key
        else (defaultSettings paths).lookup key := by
  have hfits := loadSettings_fits hwritable
  let values (key : String) : Value := ((loadSettings paths loaded).lookup key).getD .none
  have hread : ∀ field ∈ guiFields paths,
      field.2.read nums (reloadSettings nums paths vars loaded) field.1 =
        some (values field.1) := by
    intro field hfield
    obtain ⟨value, hvalue, hfits⟩ := hfits field hfield
    simp only [values, hvalue]
    exact FieldRule.read_of_fits hfits
      (reloadSettings_shows hvalue (guiFields_lookup paths field hfield))
  obtain ⟨saved, hsaved, hlookup⟩ := collect_lookup (defaultSettings paths) hread
  refine ⟨saved, hsaved, fun key => ?_⟩
  rw [hlookup]
  by_cases hkey : key ∈ (guiFields paths).map Prod.fst
  · rw [if_pos hkey, if_pos hkey]
    obtain ⟨field, hfield, rfl⟩ := List.mem_map.mp hkey
    obtain ⟨value, hvalue, -⟩ := hfits field hfield
    simp only [values, hvalue]
    rfl
  · rw [if_neg hkey, if_neg hkey]

/-- The one default without a widget. -/
theorem defaultEntries_playniteMode (paths : GuiPaths) : ∀ e ∈ defaultEntries paths,
    e.1 ∉ (guiFields paths).map Prod.fst → e = ("playniteMode", .str "controller") := by
  simp [defaultEntries, guiFields]

theorem playniteMode_not_mem (paths : GuiPaths) :
    "playniteMode" ∉ (guiFields paths).map Prod.fst := by
  simp [guiFields]

/-- **What saving keeps.**  If the values that have a widget are ones the GUI could have
written, then saving what was loaded keeps every setting of the file if and only if it has
none without a widget, `playniteMode` with its default apart. -/
theorem gui_save_keeps (nums : Numerals) (paths : GuiPaths) (vars : GuiVars) (loaded : Settings)
    (hwritable : ∀ field ∈ guiFields paths, ∀ value, loaded.lookup field.1 = some value →
      field.2.Writable nums field.1 value) :
    (∃ saved, saveCurrent nums paths (reloadSettings nums paths vars loaded) = some saved ∧
      ∀ key value, loaded.lookup key = some value →
        ∃ value', saved.lookup key = some value' ∧ value.Same value') ↔
    ∀ key value, loaded.lookup key = some value →
      key ∈ (guiFields paths).map Prod.fst ∨ key = "playniteMode" ∧ value = .str "controller" := by
  obtain ⟨saved, hsaved, hlookup⟩ := saveCurrent_reload hwritable vars
  constructor
  · rintro ⟨saved', hsaved', hkeeps⟩ key value hvalue
    obtain rfl : saved = saved' := Option.some.inj (hsaved.symm.trans hsaved')
    by_cases hkey : key ∈ (guiFields paths).map Prod.fst
    · exact .inl hkey
    · obtain ⟨value', hvalue', hsame⟩ := hkeeps key value hvalue
      rw [hlookup, if_neg hkey, defaultSettings_lookup] at hvalue'
      obtain ⟨rfl, rfl⟩ := Prod.mk.inj
        (defaultEntries_playniteMode paths _ (Python.mem_of_lookup hvalue') hkey)
      rcases hsame with rfl | ⟨x, -, hx⟩
      · exact .inr ⟨rfl, rfl⟩
      · cases hx
  · intro h
    refine ⟨saved, hsaved, fun key value hvalue => ⟨value, ?_, .inl rfl⟩⟩
    rw [hlookup]
    rcases h key value hvalue with hkey | ⟨rfl, rfl⟩
    · rw [if_pos hkey, loadSettings_lookup_of_mem hvalue]
    · rw [if_neg (playniteMode_not_mem paths), defaultSettings_lookup]
      rfl

/-! The shipped settings file names these default paths. -/

theorem installed_status :
    let path := "C:\\Nintendo Automation\\xInput-Switch\\Playnite Launcher Scripts\\" ++
      "xinput2serial-socket-status.json"
    Python.strip path = path ∧ path ≠ "" := by
  decide +kernel

theorem installed_signal :
    let path := "C:\\Nintendo Automation\\xInput-Switch\\Playnite Launcher Scripts\\" ++
      "switch-session-exit.signal"
    Python.strip path = path ∧ path ≠ "" := by
  decide +kernel

def GuiPaths.installed : GuiPaths := ⟨_, _, installed_status, installed_signal⟩

/-- A file with numbers, a slot that is not set and an empty port. -/
theorem gui_save_keeps_numbers :
    let file : List (String × Value) := [("mode", .str "socket"), ("serialPort", .str ""),
      ("controllerSlot", .none), ("homeDuration", .float (.finite (1 / 2))),
      ("socketPort", .int 9000)]
    let loaded : Settings := (file.map fun e => ⟨e.1, e.2⟩).toAList
    ∃ saved, saveCurrent .fractions .installed
        (reloadSettings .fractions .installed ⟨fun _ => "", fun _ => false⟩ loaded) = some saved ∧
      ∀ e ∈ file, ∃ value, saved.lookup e.1 = some value ∧ e.2.Same value := by
  intro file loaded
  have hfile : ∀ e ∈ file, ∃ rule, (guiFields .installed).lookup e.1 = some rule ∧
      rule.Writable .fractions e.1 e.2 := by
    have hblank : Python.strip " " = "" := by decide
    have hhalf : Numerals.fractions.parseFloat "1/2" = some (.finite (1 / 2)) := by decide +kernel
    have hport : Numerals.fractions.parseInt "9000" = some 9000 := by decide +kernel
    simp only [file, List.forall_mem_cons, List.not_mem_nil, false_imp_iff, implies_true, and_true]
    refine ⟨⟨.plain, rfl, ⟨fun _ => "socket", fun _ => false⟩, rfl⟩,
      ⟨.stripped, rfl, ⟨fun _ => " ", fun _ => false⟩, ?_⟩,
      ⟨.slot, rfl, ⟨fun _ => " ", fun _ => false⟩, ?_⟩,
      ⟨.float, rfl, ⟨fun _ => "1/2", fun _ => false⟩, congrArg (Option.map Value.float) hhalf⟩,
      ⟨.int, rfl, ⟨fun _ => "9000", fun _ => false⟩, congrArg (Option.map Value.int) hport⟩⟩
    · rw [FieldRule.read, hblank]
    · rw [FieldRule.read, hblank]
      rfl
  have hwritable : ∀ field ∈ guiFields .installed, ∀ value, loaded.lookup field.1 = some value →
      field.2.Writable .fractions field.1 value := by
    intro field hfield value hvalue
    rw [lookup_toAList] at hvalue
    obtain ⟨rule, hrule, hwritable⟩ := hfile _ (Python.mem_of_lookup hvalue)
    rw [guiFields_lookup .installed field hfield] at hrule
    obtain rfl := Option.some.inj hrule
    exact hwritable
  have hwidget : ∀ e ∈ file, e.1 ∈ (guiFields .installed).map Prod.fst := by decide
  have hlookup : ∀ e ∈ file, file.lookup e.1 = some e.2 := by
    simp only [file, List.forall_mem_cons, List.not_mem_nil, false_imp_iff, implies_true, and_true]
    exact ⟨rfl, rfl, rfl, rfl, rfl⟩
  obtain ⟨saved, hsaved, hkeeps⟩ := (gui_save_keeps .fractions .installed
    ⟨fun _ => "", fun _ => false⟩ loaded hwritable).mpr fun key value hvalue => by
      rw [lookup_toAList] at hvalue
      exact .inl (hwidget _ (Python.mem_of_lookup hvalue))
  refine ⟨saved, hsaved, fun e he => hkeeps e.1 e.2 ?_⟩
  rw [lookup_toAList, hlookup e he]

/-- `playniteMode`, which has no widget, is set back to its default. -/
theorem gui_save_resets_playniteMode :
    let loaded : Settings := AList.insert "playniteMode" (.str "keyboard") ∅
    ∃ saved, saveCurrent .fractions .installed
        (reloadSettings .fractions .installed ⟨fun _ => "", fun _ => false⟩ loaded) = some saved ∧
      loaded.lookup "playniteMode" = some (.str "keyboard") ∧
      saved.lookup "playniteMode" = some (.str "controller") := by
  intro loaded
  have hwritable : ∀ field ∈ guiFields .installed, ∀ value, loaded.lookup field.1 = some value →
      field.2.Writable .fractions field.1 value := by
    intro field hfield value hvalue
    have hne : field.1 ≠ "playniteMode" := fun h =>
      playniteMode_not_mem .installed (h ▸ List.mem_map_of_mem hfield)
    rw [AList.lookup_insert_ne hne, AList.lookup_empty] at hvalue
    cases hvalue
  obtain ⟨saved, hsaved, hlookup⟩ := saveCurrent_reload hwritable ⟨fun _ => "", fun _ => false⟩
  refine ⟨saved, hsaved, AList.lookup_insert _, ?_⟩
  rw [hlookup, if_neg (playniteMode_not_mem _), defaultSettings_lookup]
  rfl

end XInputSwitch
