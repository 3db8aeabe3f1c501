import XInputSwitch.BridgeArguments

/-! # Two launchers

The bridge is started by the GUI (`start_bridge` of `SwitchAutomationGui.py`) or by Playnite
(`PlaynitePostStart.ps1`), from the same settings.  Between the settings and the variables of the
bridge lie two languages, two ways to quote an argument, and one parser.

The GUI hands its list to `Popen`, which quotes so that every argument arrives.  Playnite puts
quotes around each argument, which loses a backslash before a quote (`Sound` excludes this), and
its conversions (`PowerShell`) are known only as far as their laws say.  `Portable` lists what the
two must agree on for the same bridge to be started.
-/
namespace XInputSwitch

open Python (Value Numerals Double)
open ArgParse (Setting)

/-! ## Settings by type -/

def textOf (settings : Settings) (key : String) : String :=
  match settings.lookup key with
  | some (.str s) => s
  | _ => ""

def flagOf (settings : Settings) (key : String) : Bool :=
  match settings.lookup key with
  | some (.bool b) => b
  | _ => false

def floatOf (settings : Settings) (key : String) : Double :=
  match settings.lookup key with
  | some (.float x) => x
  | _ => .nan

def intOf (settings : Settings) (key : String) : Option Int :=
  match settings.lookup key with
  | some (.int n) => some n
  | _ => none

/-- `str(settings[key])`. -/
def strOf (nums : Numerals) (settings : Settings) (key : String) : String :=
  (settings.lookup key).elim "" nums.str

/-! ## The GUI -/

/-- `BRIDGE_SCRIPT` and `PLAYNITE_LOG_DIR`. -/
structure GuiInstall where
  bridgeScript : String
  logDir : String

/-- `build_bridge_command`. -/
def buildBridgeCommand (nums : Numerals) (install : GuiInstall) (settings : Settings)
    (diagnose : Bool) : List String :=
  let python := textOf settings "pythonExe"
  let mode := textOf settings "mode"
  let backend := if mode = "socket" then "socket" else textOf settings "controllerBackend"
  let logName := if diagnose then "xinput2serial-gui-diagnose.log" else "xinput2serial-gui.log"
  let command := [python, install.bridgeScript, "--auto", "--backend", backend, "--startup-debug",
    "--log-file", install.logDir ++ "\\" ++ logName]
  if diagnose then command ++ ["--diagnose"]
  else
    command ++
    (if flagOf settings "bindToProjectorFocus" then
      ["--window", textOf settings "projectorTitle", "--inactive-action",
        textOf settings "inactiveAction"]
    else ["--inactive-action", "neutral"]) ++
    ["--disconnect-action", textOf settings "disconnectAction", "--home-duration",
      strOf nums settings "homeDuration", "--home-cooldown", strOf nums settings "homeCooldown"] ++
    (if mode = "keyboard" then ["--keyboard"] else []) ++
    (if mode = "socket" then
      ["--socket-host", textOf settings "socketHost", "--socket-port",
        strOf nums settings "socketPort", "--socket-status-file",
        textOf settings "socketStatusFile"]
    else []) ++
    (if flagOf settings "debugBridge" then ["--debug"] else []) ++
    (if textOf settings "serialPort" ≠ "" then ["--port", textOf settings "serialPort"] else []) ++
    (if mode ≠ "socket" then
      match settings.lookup "controllerSlot" with
      | some .none | none => []
      | some slot => ["--controller", nums.str slot]
    else [])

/-- The arguments the bridge sees: those after the program, which `Popen` writes as a line. -/
def guiArguments (command : List String) : List String :=
  receivedArguments (String.ofList (CommandLine.list2cmdline (command.tail.map String.toList)))

theorem guiArguments_eq (command : List String) : guiArguments command = command.tail := by
  rw [guiArguments, receivedArguments, String.toList_ofList, CommandLine.split_list2cmdline,
    List.map_map]
  simp

/-- `ap.parse_args()`, of `sys.argv`. -/
def parseArgs (nums : Numerals) (decimal : Char → Bool) (argv : List String) :
    Option BridgeOptions :=
  ArgParse.parse decimal (bridgeParser nums) .default (argv.drop 1)

/-- The settings of the GUI as a launch. -/
def guiLaunch (nums : Numerals) (install : GuiInstall) (settings : Settings) : Launch where
  xinputScript := install.bridgeScript
  bridgeLogFile := install.logDir ++ "\\" ++ "xinput2serial-gui.log"
  mode :=
    if textOf settings "mode" = "socket" then .socket
    else if textOf settings "mode" = "keyboard" then .keyboard
    else .controller
  controllerBackend := textOf settings "controllerBackend"
  bindToProjectorFocus := flagOf settings "bindToProjectorFocus"
  projectorTitle := textOf settings "projectorTitle"
  inactiveAction := textOf settings "inactiveAction"
  disconnectAction := textOf settings "disconnectAction"
  homeDuration := strOf nums settings "homeDuration"
  homeCooldown := strOf nums settings "homeCooldown"
  sessionExitSignalFile := textOf settings "sessionExitSignalFile"
  socketHost := textOf settings "socketHost"
  socketPort := strOf nums settings "socketPort"
  socketStatusFile := textOf settings "socketStatusFile"
  debugBridge := flagOf settings "debugBridge"
  serialPort := textOf settings "serialPort"
  controllerSlot := (intOf settings "controllerSlot").map fun n => nums.repr (.int n)

theorem repr_int_ne_empty (nums : Numerals) {n : Int} (hn : Python.Legible n) :
    nums.repr (.int n) ≠ "" := by
  intro h
  have hread := nums.parseInt_repr n hn
  rw [h, nums.parseInt_empty] at hread
  cases hread

/-! ## What is collected -/

section Collected
variable {nums : Numerals} {paths : GuiPaths} {vars : GuiVars} {settings : Settings}

theorem read_of_collect {fields : List (String × FieldRule)} {base saved : Settings}
    (h : fields.foldlM (fun settings field =>
      (field.2.read nums vars field.1).map fun value => AList.insert field.1 value settings)
      base = some saved) :
    ∀ field ∈ fields, ∃ value, field.2.read nums vars field.1 = some value := by
  induction fields generalizing base with
  | nil => simp
  | cons field fields ih =>
    rw [List.foldlM_cons] at h
    cases hread : field.2.read nums vars field.1 with
    | none =>
      rw [hread] at h
      cases h
    | some value =>
      rw [hread] at h
      exact List.forall_mem_cons.mpr ⟨⟨value, hread⟩, ih h⟩

/-- Every setting of the GUI has been collected, and is of its type; the one setting without a
widget has its default. -/
theorem collectSettings_fits (h : collectSettings nums paths vars = some settings) :
    (∀ field ∈ guiFields paths, ∃ value,
        settings.lookup field.1 = some value ∧ field.2.Fits value) ∧
      settings.lookup "playniteMode" = some (.str "controller") := by
  let values (key : String) : Value :=
    (((guiFields paths).lookup key).bind fun rule => rule.read nums vars key).getD .none
  have hread : ∀ field ∈ guiFields paths,
      field.2.read nums vars field.1 = some (values field.1) := by
    intro field hfield
    obtain ⟨value, hvalue⟩ := read_of_collect h field hfield
    simp [values, guiFields_lookup paths field hfield, hvalue]
  obtain ⟨saved, hsaved, hlookup⟩ := collect_lookup (defaultSettings paths) hread
  obtain rfl : saved = settings := Option.some.inj (hsaved.symm.trans h)
  refine ⟨fun field hfield => ⟨values field.1, ?_, ?_⟩, ?_⟩
  · rw [hlookup, if_pos (List.mem_map_of_mem hfield)]
  · exact FieldRule.fits_of_read (guiFields_default paths field hfield) (hread field hfield)
  · rw [hlookup, if_neg (playniteMode_not_mem paths), defaultSettings_lookup]
    rfl

theorem lookup_float (h : collectSettings nums paths vars = some settings) {key : String}
    (hfield : (key, FieldRule.float) ∈ guiFields paths) :
    settings.lookup key = some (.float (floatOf settings key)) := by
  obtain ⟨value, hvalue, hfits⟩ := (collectSettings_fits h).1 _ hfield
  cases value with
  | float x => simp only [floatOf, hvalue]
  | _ => exact hfits.elim

theorem lookup_socketPort (h : collectSettings nums paths vars = some settings) :
    ∃ n, settings.lookup "socketPort" = some (.int n) ∧ Python.Legible n := by
  have hfield : ("socketPort", FieldRule.int) ∈ guiFields paths := by simp [guiFields]
  obtain ⟨value, hvalue, hfits⟩ := (collectSettings_fits h).1 _ hfield
  cases value with
  | int n => exact ⟨n, hvalue, hfits⟩
  | _ => exact hfits.elim

theorem lookup_controllerSlot (h : collectSettings nums paths vars = some settings) :
    settings.lookup "controllerSlot" = some .none ∨
      ∃ n, settings.lookup "controllerSlot" = some (.int n) ∧ Python.Legible n := by
  have hfield : ("controllerSlot", FieldRule.slot) ∈ guiFields paths := by simp [guiFields]
  obtain ⟨value, hvalue, hfits⟩ := (collectSettings_fits h).1 _ hfield
  cases value with
  | none => exact .inl hvalue
  | int n => exact .inr ⟨n, hvalue, hfits⟩
  | _ => exact hfits.elim

theorem parseFloat_strOf {key : String} {x : Double}
    (h : settings.lookup key = some (.float x)) :
    nums.parseFloat (strOf nums settings key) = some x := by
  rw [strOf, h]
  exact nums.parseFloat_repr x

end Collected

/-- The action without focus that is configured. -/
def inactiveOf (settings : Settings) : Option Action :=
  if flagOf settings "bindToProjectorFocus" then Action.ofText (textOf settings "inactiveAction")
  else some .neutral

/-- **What the settings of the GUI mean** to the bridge, if the choices are valid. -/
def guiOptions (install : GuiInstall) (settings : Settings) : Option BridgeOptions := do
  let socket : Bool := textOf settings "mode" = "socket"
  let backend ← Backend.ofText (bif socket then "socket" else textOf settings "controllerBackend")
  let inactiveAction ← inactiveOf settings
  let disconnectAction ← Action.ofText (textOf settings "disconnectAction")
  return {
    keyboard := textOf settings "mode" = "keyboard"
    port := if textOf settings "serialPort" ≠ "" then some (textOf settings "serialPort") else none
    baud := 1000000
    controller := if socket then none else intOf settings "controllerSlot"
    backend
    socketHost := if socket then textOf settings "socketHost" else "127.0.0.1"
    socketPort := if socket then (intOf settings "socketPort").getD 8765 else 8765
    socketStatusFile := if socket then some (textOf settings "socketStatusFile") else none
    window :=
      if flagOf settings "bindToProjectorFocus" then some (textOf settings "projectorTitle")
      else none
    auto := true
    debug := flagOf settings "debugBridge"
    logFile := some (install.logDir ++ "\\" ++ "xinput2serial-gui.log")
    startupDebug := true
    diagnose := false
    syncAttempts := 3
    inactiveAction
    disconnectAction
    homeDuration := floatOf settings "homeDuration"
    homeCooldown := floatOf settings "homeCooldown"
    exitChordSignalFile := none }

section Gui
variable {nums : Numerals} {install : GuiInstall} {paths : GuiPaths} {vars : GuiVars}
  {settings : Settings}

theorem guiLaunch_mode :
    ((guiLaunch nums install settings).mode = .socket ↔ textOf settings "mode" = "socket") ∧
      ((guiLaunch nums install settings).mode = .keyboard ↔
        textOf settings "mode" = "keyboard") := by
  simp only [guiLaunch]
  by_cases hsocket : textOf settings "mode" = "socket"
  · simp [hsocket]
  · by_cases hkeyboard : textOf settings "mode" = "keyboard" <;> simp [hsocket, hkeyboard]

theorem guiLaunch_backend :
    (guiLaunch nums install settings).backend =
      if textOf settings "mode" = "socket" then "socket"
      else textOf settings "controllerBackend" := by
  simp only [Launch.backend, guiLaunch_mode.1]
  rfl

/-- The last words of the command. -/
theorem words_controllerSettings (h : collectSettings nums paths vars = some settings) :
    (guiLaunch nums install settings).controllerSettings.flatMap Setting.words =
      if textOf settings "mode" ≠ "socket" then
        match settings.lookup "controllerSlot" with
        | some .none | none => []
        | some slot => ["--controller", nums.str slot]
      else [] := by
  have hslot : (guiLaunch nums install settings).controllerSlot =
    (intOf settings "controllerSlot").map fun n => nums.repr (.int n) := rfl
  rw [Launch.controllerSettings, hslot]
  rcases lookup_controllerSlot h with hnone | ⟨n, hint, hn⟩
  · simp [intOf, hnone]
  · by_cases hmode : textOf settings "mode" = "socket"
    · simp [intOf, hint, guiLaunch_mode.1, hmode]
    · simp [intOf, hint, guiLaunch_mode.1, hmode, repr_int_ne_empty nums hn, Setting.words,
        Python.Runtime.str]

theorem buildBridgeCommand_eq (h : collectSettings nums paths vars = some settings) :
    buildBridgeCommand nums install settings false =
      textOf settings "pythonExe" :: install.bridgeScript ::
        ((guiLaunch nums install settings).settings false).flatMap Setting.words := by
  unfold buildBridgeCommand Launch.settings Launch.focusSettings Launch.socketSettings
  simp only [List.flatMap_append, words_controllerSettings h,
    apply_ite (List.flatMap Setting.words), List.flatMap_cons, List.flatMap_nil, Setting.words,
    List.append_nil, guiLaunch_mode.1, guiLaunch_mode.2, guiLaunch_backend, Bool.false_eq_true,
    if_false]
  rfl

theorem guiLaunch_socketPort (h : collectSettings nums paths vars = some settings) :
    (guiLaunch nums install settings).socketPortNumber nums =
      some (if textOf settings "mode" = "socket" then (intOf settings "socketPort").getD 8765
        else 8765) := by
  obtain ⟨n, hport, hn⟩ := lookup_socketPort h
  have hread : nums.parseInt (guiLaunch nums install settings).socketPort = some n := by
    show nums.parseInt (strOf nums settings "socketPort") = some n
    rw [strOf, hport]
    exact nums.parseInt_repr n hn
  simp only [Launch.socketPortNumber, guiLaunch_mode.1, hread, intOf, hport, Option.getD_some]
  split <;> rfl

theorem guiLaunch_controller (h : collectSettings nums paths vars = some settings) :
    (guiLaunch nums install settings).controllerNumber nums =
      some (if textOf settings "mode" = "socket" then none
        else intOf settings "controllerSlot") := by
  have hslot : (guiLaunch nums install settings).controllerSlot =
    (intOf settings "controllerSlot").map fun n => nums.repr (.int n) := rfl
  rw [Launch.controllerNumber, hslot]
  rcases lookup_controllerSlot h with hnone | ⟨n, hint, hn⟩
  · simp [intOf, hnone]
  · by_cases hmode : textOf settings "mode" = "socket"
    · simp [intOf, hint, guiLaunch_mode.1, hmode]
    · simp [intOf, hint, guiLaunch_mode.1, hmode, repr_int_ne_empty nums hn,
        nums.parseInt_repr n hn]

theorem options_guiLaunch (h : collectSettings nums paths vars = some settings) :
    (guiLaunch nums install settings).options nums false = guiOptions install settings := by
  have hduration : nums.parseFloat (guiLaunch nums install settings).homeDuration = _ :=
    parseFloat_strOf (lookup_float h (by simp [guiFields]))
  have hcooldown : nums.parseFloat (guiLaunch nums install settings).homeCooldown = _ :=
    parseFloat_strOf (lookup_float h (by simp [guiFields]))
  unfold Launch.options guiOptions
  simp only [hduration, hcooldown, guiLaunch_socketPort h, guiLaunch_controller h,
    guiLaunch_backend, guiLaunch_mode.1, guiLaunch_mode.2, Option.bind_eq_bind, Option.bind_some,
    Bool.cond_decide, decide_eq_true_eq, Bool.false_eq_true, if_false]
  rfl

end Gui

/-- **A bridge started by the GUI runs with the settings shown, or not at all.**  Whatever the
widgets hold, if they can be read, then the words after the program reach the bridge unchanged, and
its own parser makes of them exactly what the settings mean; only if a text looks like an option,
or a choice is not valid, the bridge refuses it and exits. -/
theorem gui_starts_bridge (nums : Numerals) (decimal : Char → Bool) (install : GuiInstall)
    (paths : GuiPaths) (vars : GuiVars) (settings : Settings)
    (h : collectSettings nums paths vars = some settings) :
    let command := buildBridgeCommand nums install settings false
    guiArguments command = command.tail ∧
      parseArgs nums decimal (guiArguments command) =
        if ((guiLaunch nums install settings).texts false).all
            (ArgParse.isArgument decimal (bridgeParser nums)) then
          guiOptions install settings
        else none := by
  refine ⟨guiArguments_eq _, ?_⟩
  rw [guiArguments_eq, buildBridgeCommand_eq h, parseArgs, List.tail_cons, List.drop_one,
    List.tail_cons, Launch.parse_settings, options_guiLaunch h]

/-- What the GUI shows when there is no file yet. -/
def GuiVars.initial : GuiVars :=
  reloadSettings .fractions .installed ⟨fun _ => "", fun _ => false⟩ ∅

/-- The GUI as it comes up. -/
theorem gui_starts_bridge_initial :
    ∃ settings, collectSettings .fractions .installed .initial = some settings ∧
      (parseArgs .fractions Char.isDigit (guiArguments
        (buildBridgeCommand .fractions ⟨"bridge.py", "C:\\logs"⟩ settings false))).map
          (fun o => (o.backend, o.port, o.controller, o.window)) =
        some (.auto, some "COM3", some 0, some "Projector") := by
  have hsome : (collectSettings .fractions .installed .initial).isSome = true := by decide +kernel
  obtain ⟨settings, h⟩ := Option.isSome_iff_exists.mp hsome
  refine ⟨settings, h, ?_⟩
  rw [(gui_starts_bridge _ _ _ _ _ _ h).2]
  have hresult : (collectSettings .fractions .installed .initial).map (fun settings =>
      (if ((guiLaunch .fractions ⟨"bridge.py", "C:\\logs"⟩ settings).texts false).all
          (ArgParse.isArgument Char.isDigit (bridgeParser .fractions)) then
        guiOptions ⟨"bridge.py", "C:\\logs"⟩ settings
      else none).map fun o => (o.backend, o.port, o.controller, o.window)) =
      some (some (.auto, some "COM3", some 0, some "Projector")) := by decide +kernel
  rw [h] at hresult
  exact Option.some.inj hresult

/-! ## Playnite -/

/-- Conversions of PowerShell. -/
structure PowerShell where
  /-- `[string]` -/
  text : Value → String
  text_str : ∀ s, text (.str s) = s
  /-- `[bool]` -/
  truth : Value → Bool
  truth_bool : ∀ b, truth (.bool b) = b
  /-- `[double]`, if it does not throw -/
  double : Value → Option Double
  double_float : ∀ x, double (.float x) = some x
  /-- `[int]`, of 32 bits -/
  int : Value → Option Int
  int_int : ∀ n, -2147483648 ≤ n → n ≤ 2147483647 → int (.int n) = some n
  /-- `-eq` on texts, which does not tell cases apart -/
  same : String → String → Bool
  same_self : ∀ s, same s s = true
  same_letters : ∀ s t, s.toList.all Char.isAlpha = true → t.toList.all Char.isAlpha = true →
    same s t = decide (s.toList.map Char.toLower = t.toList.map Char.toLower)

/-- A PowerShell whose numbers are written as by `Numerals.fractions`. -/
def PowerShell.plain : PowerShell where
  text
    | .str s => s
    | value => Numerals.fractions.repr value
  text_str _ := rfl
  truth := Value.truthy
  truth_bool _ := rfl
  double
    | .float x => some x
    | _ => none
  double_float _ := rfl
  int
    | .int n => if -2147483648 ≤ n ∧ n ≤ 2147483647 then some n else none
    | _ => none
  int_int _ hlow hhigh := if_pos ⟨hlow, hhigh⟩
  same s t := s.toList.map Char.toLower = t.toList.map Char.toLower
  same_self _ := decide_eq_true rfl
  same_letters _ _ _ _ := rfl

/-- `Get-Setting`. -/
def getSetting (settings : Option Settings) (name : String) (default : Value) : Value :=
  match settings.bind fun settings => settings.lookup name with
  | none | some .none => default
  | some value => value

/-- A text that is not among the valid ones is replaced. -/
def PowerShell.oneOf (ps : PowerShell) (valid : List String) (fallback text : String) : String :=
  if valid.any (ps.same text) then text else fallback

/-- What `PlaynitePostStart.ps1` starts the bridge with, if no conversion throws. -/
def playniteLaunch (ps : PowerShell) (baseDir : String) (settings : Option Settings) :
    Option Launch := do
  let text (name default : String) : String := ps.text (getSetting settings name (.str default))
  let mode := text "playniteMode" "controller"
  let homeDuration ← ps.double (getSetting settings "homeDuration" (.float (.finite (1 / 4))))
  let homeCooldown ← ps.double (getSetting settings "homeCooldown" (.float (.finite 5)))
  let socketPort ← ps.int (getSetting settings "socketPort" (.int 8765))
  return {
    xinputScript := baseDir ++ "\\xInput2Serial\\xinput2serial.py"
    bridgeLogFile := baseDir ++ "\\Playnite Launcher Scripts\\xinput2serial.log"
    mode :=
      if ps.same mode "socket" then .socket
      else if ps.same mode "keyboard" then .keyboard
      else .controller
    controllerBackend := ps.oneOf ["auto", "xinput", "pygame"] "auto"
      (text "controllerBackend" "auto")
    bindToProjectorFocus := ps.truth (getSetting settings "bindToProjectorFocus" (.bool true))
    projectorTitle := text "projectorTitle" "Projector"
    inactiveAction := ps.oneOf ["neutral", "home", "none"] "home" (text "inactiveAction" "home")
    disconnectAction :=
      ps.oneOf ["neutral", "home", "none"] "home" (text "disconnectAction" "home")
    homeDuration := ps.text (.float homeDuration)
    homeCooldown := ps.text (.float homeCooldown)
    sessionExitSignalFile := text "sessionExitSignalFile"
      (baseDir ++ "\\Playnite Launcher Scripts\\switch-session-exit.signal")
    socketHost := text "socketHost" "127.0.0.1"
    socketPort := ps.text (.int socketPort)
    socketStatusFile := text "socketStatusFile"
      (baseDir ++ "\\Playnite Launcher Scripts\\xinput2serial-socket-status.json")
    debugBridge := ps.truth (getSetting settings "debugBridge" (.bool false))
    serialPort := text "serialPort" "COM3"
    controllerSlot := some (ps.text (getSetting settings "controllerSlot" (.int 0))) }

/-- The arguments of the bridge, if none loses a backslash. -/
theorem parseArgs_xinputArgs (nums : Numerals) (decimal : Char → Bool) {launch : Launch}
    (hsound : ∀ a ∈ launch.configured, Sound a) :
    parseArgs nums decimal (receivedArguments (joinProcessArguments launch.xinputArgs)) =
      if (launch.texts true).all (ArgParse.isArgument decimal (bridgeParser nums)) then
        launch.options nums true
      else none := by
  rw [Launch.receivedArguments_xinputArgs hsound, Launch.xinputArgs_eq, parseArgs, List.drop_one,
    List.tail_cons, Launch.parse_settings]

section Playnite
variable {nums : Numerals} {ps : PowerShell} {paths : GuiPaths} {vars : GuiVars}
  {settings : Settings}

theorem getSetting_of_lookup {name : String} {default value : Value}
    (h : settings.lookup name = some value) (hvalue : value ≠ .none) :
    getSetting (some settings) name default = value := by
  have hbind : ((some settings).bind fun settings => AList.lookup name settings) = some value := h
  unfold getSetting
  rw [hbind]
  split
  · rename_i hnone
    cases hnone
  · rename_i hnone
    exact absurd (Option.some.inj hnone) hvalue
  · rename_i hsome
    exact (Option.some.inj hsome).symm

/-- The fields that hold a text. -/
def FieldRule.isText : FieldRule → Bool
  | .stripped | .strippedOr _ | .plain => true
  | .slot | .float | .int | .flag => false

theorem FieldRule.Fits.text {rule : FieldRule} {value : Value} (h : rule.Fits value)
    (hrule : rule.isText = true) : ∃ s, value = .str s := by
  cases value with
  | str s => exact ⟨s, rfl⟩
  | _ => cases rule <;> first | exact h.elim | cases hrule

/-- A text that the GUI has written. -/
theorem text_getSetting (h : collectSettings nums paths vars = some settings) {name : String}
    {rule : FieldRule} (hfield : (name, rule) ∈ guiFields paths) (hrule : rule.isText = true)
    (default : String) :
    ps.text (getSetting (some settings) name (.str default)) = textOf settings name := by
  obtain ⟨value, hvalue, hfits⟩ := (collectSettings_fits h).1 _ hfield
  obtain ⟨s, rfl⟩ := hfits.text hrule
  rw [getSetting_of_lookup hvalue (by simp), ps.text_str, textOf, hvalue]

theorem truth_getSetting (h : collectSettings nums paths vars = some settings) (name : String)
    (hfield : (name, FieldRule.flag) ∈ guiFields paths) (default : Bool) :
    ps.truth (getSetting (some settings) name (.bool default)) = flagOf settings name := by
  obtain ⟨value, hvalue, hfits⟩ := (collectSettings_fits h).1 _ hfield
  cases value with
  | bool b => rw [getSetting_of_lookup hvalue (by simp), ps.truth_bool, flagOf, hvalue]
  | _ => exact hfits.elim

theorem oneOf_of_mem {valid : List String} {text : String} (h : text ∈ valid)
    (fallback : String) : ps.oneOf valid fallback text = text :=
  if_pos (List.any_eq_true.mpr ⟨text, h, ps.same_self text⟩)

/-- Settings that PowerShell reads and writes as the GUI does. -/
structure Portable (nums : Numerals) (ps : PowerShell) (settings : Settings) : Prop where
  controllerBackend : textOf settings "controllerBackend" ∈ ["auto", "xinput", "pygame"]
  inactiveAction : textOf settings "inactiveAction" ∈ ["neutral", "home", "none"]
  disconnectAction : textOf settings "disconnectAction" ∈ ["neutral", "home", "none"]
  socketPort : ∀ n, intOf settings "socketPort" = some n → -2147483648 ≤ n ∧ n ≤ 2147483647
  homeDuration : nums.parseFloat (ps.text (.float (floatOf settings "homeDuration"))) =
    some (floatOf settings "homeDuration")
  homeCooldown : nums.parseFloat (ps.text (.float (floatOf settings "homeCooldown"))) =
    some (floatOf settings "homeCooldown")
  controllerSlot : nums.parseInt (ps.text (.int ((intOf settings "controllerSlot").getD 0))) =
    some ((intOf settings "controllerSlot").getD 0)

/-- The launch by Playnite from settings of the GUI. -/
def savedLaunch (ps : PowerShell) (baseDir : String) (settings : Settings) : Launch where
  xinputScript := baseDir ++ "\\xInput2Serial\\xinput2serial.py"
  bridgeLogFile := baseDir ++ "\\Playnite Launcher Scripts\\xinput2serial.log"
  mode := .controller
  controllerBackend := textOf settings "controllerBackend"
  bindToProjectorFocus := flagOf settings "bindToProjectorFocus"
  projectorTitle := textOf settings "projectorTitle"
  inactiveAction := textOf settings "inactiveAction"
  disconnectAction := textOf settings "disconnectAction"
  homeDuration := ps.text (.float (floatOf settings "homeDuration"))
  homeCooldown := ps.text (.float (floatOf settings "homeCooldown"))
  sessionExitSignalFile := textOf settings "sessionExitSignalFile"
  socketHost := textOf settings "socketHost"
  socketPort := ps.text (.int ((intOf settings "socketPort").getD 8765))
  socketStatusFile := textOf settings "socketStatusFile"
  debugBridge := flagOf settings "debugBridge"
  serialPort := textOf settings "serialPort"
  controllerSlot := some (ps.text (.int ((intOf settings "controllerSlot").getD 0)))

theorem double_getSetting (h : collectSettings nums paths vars = some settings) (name : String)
    (hfield : (name, FieldRule.float) ∈ guiFields paths) (default : Value) :
    ps.double (getSetting (some settings) name default) = some (floatOf settings name) := by
  rw [getSetting_of_lookup (lookup_float h hfield) (by simp), ps.double_float]

theorem int_getSetting (h : collectSettings nums paths vars = some settings)
    (hportable : Portable nums ps settings) :
    ps.int (getSetting (some settings) "socketPort" (.int 8765)) =
      some ((intOf settings "socketPort").getD 8765) := by
  obtain ⟨n, hn, -⟩ := lookup_socketPort h
  have hint : intOf settings "socketPort" = some n := by rw [intOf, hn]
  obtain ⟨hlow, hhigh⟩ := hportable.socketPort n hint
  rw [getSetting_of_lookup hn (by simp), ps.int_int n hlow hhigh, hint, Option.getD_some]

/-- A slot that is not set is passed as the first one. -/
theorem slot_getSetting (h : collectSettings nums paths vars = some settings) :
    getSetting (some settings) "controllerSlot" (.int 0) =
      .int ((intOf settings "controllerSlot").getD 0) := by
  rcases lookup_controllerSlot h with hnone | ⟨n, hint, -⟩
  · simp [getSetting, intOf, hnone]
  · simp [getSetting, intOf, hint]

/-- Playnite can start the bridge from settings of the GUI. -/
theorem playniteLaunch_eq (h : collectSettings nums paths vars = some settings)
    (hportable : Portable nums ps settings) (baseDir : String) :
    playniteLaunch ps baseDir (some settings) = some (savedLaunch ps baseDir settings) := by
  have hmode : ps.text (getSetting (some settings) "playniteMode" (.str "controller")) =
      "controller" := by
    rw [getSetting_of_lookup (collectSettings_fits h).2 (by simp), ps.text_str]
  have hsocket : ps.same "controller" "socket" = false := by
    rw [ps.same_letters _ _ (by decide) (by decide)]
    decide
  have hkeyboard : ps.same "controller" "keyboard" = false := by
    rw [ps.same_letters _ _ (by decide) (by decide)]
    decide
  have htext : ∀ name ∈ ((guiFields paths).filter fun field => field.2.isText).map Prod.fst,
      ∀ default, ps.text (getSetting (some settings) name (.str default)) =
        textOf settings name := by
    intro name hname default
    obtain ⟨field, hfield, rfl⟩ := List.mem_map.mp hname
    obtain ⟨hmem, hrule⟩ := List.mem_filter.mp hfield
    exact text_getSetting h hmem hrule default
  simp only [guiFields, FieldRule.isText, List.filter_cons, if_true, Bool.false_eq_true, if_false,
    List.filter_nil, List.map_cons, List.map_nil, List.forall_mem_cons] at htext
  unfold playniteLaunch
  simp only [hmode, hsocket, hkeyboard, htext, Bool.false_eq_true, if_false,
    double_getSetting h "homeDuration" (by simp [guiFields]),
    double_getSetting h "homeCooldown" (by simp [guiFields]),
    truth_getSetting h "bindToProjectorFocus" (by simp [guiFields]),
    truth_getSetting h "debugBridge" (by simp [guiFields]),
    int_getSetting h hportable, slot_getSetting h, Option.bind_eq_bind, Option.bind_some,
    oneOf_of_mem hportable.controllerBackend, oneOf_of_mem hportable.inactiveAction,
    oneOf_of_mem hportable.disconnectAction]
  rfl

/-- A change of the mode changes nothing else. -/
theorem insert_mode (settings : Settings) (mode : Value) :
    (∀ name, name ≠ "mode" →
      textOf (settings.insert "mode" mode) name = textOf settings name) ∧
    (∀ name, name ≠ "mode" →
      flagOf (settings.insert "mode" mode) name = flagOf settings name) ∧
    (∀ name, name ≠ "mode" →
      floatOf (settings.insert "mode" mode) name = floatOf settings name) ∧
    ∀ name, name ≠ "mode" → intOf (settings.insert "mode" mode) name = intOf settings name := by
  refine ⟨?_, ?_, ?_, ?_⟩ <;> intro name hname <;>
    simp only [textOf, flagOf, floatOf, intOf, AList.lookup_insert_ne hname]

theorem options_savedLaunch (hportable : Portable nums ps settings) (install : GuiInstall)
    (baseDir : String) :
    (savedLaunch ps baseDir settings).options nums true =
      (guiOptions install (settings.insert "mode" (.str "controller"))).map fun o =>
        { o with
          logFile := some (savedLaunch ps baseDir settings).bridgeLogFile
          controller := some (o.controller.getD 0)
          exitChordSignalFile := some (textOf settings "sessionExitSignalFile") } := by
  have hslot : ps.text (.int ((intOf settings "controllerSlot").getD 0)) ≠ "" := by
    intro hempty
    have hread := hportable.controllerSlot
    rw [hempty, nums.parseInt_empty] at hread
    cases hread
  have hcontroller : (savedLaunch ps baseDir settings).controllerNumber nums =
      some (some ((intOf settings "controllerSlot").getD 0)) := by
    simp [Launch.controllerNumber, savedLaunch, hslot, hportable.controllerSlot]
  have hport : (savedLaunch ps baseDir settings).socketPortNumber nums = some 8765 := rfl
  have hduration : nums.parseFloat (savedLaunch ps baseDir settings).homeDuration = _ :=
    hportable.homeDuration
  have hcooldown : nums.parseFloat (savedLaunch ps baseDir settings).homeCooldown = _ :=
    hportable.homeCooldown
  unfold Launch.options guiOptions
  obtain ⟨htext, hflag, hfloat, hint⟩ := insert_mode settings (.str "controller")
  have hmode : textOf (settings.insert "mode" (.str "controller")) "mode" = "controller" := by
    rw [textOf, AList.lookup_insert]
  simp only [hcontroller, hduration, hcooldown, inactiveOf, hmode, htext, hflag, hfloat, hint,
    ne_eq, String.reduceEq, not_false_eq_true, decide_false, cond_false, Bool.false_eq_true,
    if_false, Option.bind_eq_bind, Option.bind_some, Option.map_bind, Function.comp_def, hport]
  rfl

end Playnite

/-- **Both launchers start the same bridge**, from settings that the GUI has saved.  Playnite's
bridge differs in the log file, in the mode, which is the controller whatever the GUI shows, in the
slot, which is the first if none is set, and in that it writes the exit signal. -/
theorem launchers_agree (nums : Numerals) (decimal : Char → Bool) (ps : PowerShell)
    (install : GuiInstall) (baseDir : String) (paths : GuiPaths) (vars : GuiVars)
    (settings : Settings) (h : collectSettings nums paths vars = some settings)
    (hportable : Portable nums ps settings) :
    ∃ launch, playniteLaunch ps baseDir (some settings) = some launch ∧
      ((∀ a ∈ launch.configured, Sound a) →
        ((launch.texts true).all (ArgParse.isArgument decimal (bridgeParser nums))) = true →
        parseArgs nums decimal (receivedArguments (joinProcessArguments launch.xinputArgs)) =
          (guiOptions install (settings.insert "mode" (.str "controller"))).map fun o =>
            { o with
              logFile := some launch.bridgeLogFile
              controller := some (o.controller.getD 0)
              exitChordSignalFile := some (textOf settings "sessionExitSignalFile") }) := by
  refine ⟨savedLaunch ps baseDir settings, playniteLaunch_eq h hportable baseDir, ?_⟩
  intro hsound htexts
  rw [parseArgs_xinputArgs nums decimal hsound, if_pos htexts,
    options_savedLaunch hportable install baseDir]

/-- The settings that the GUI comes up with. -/
theorem launchers_agree_initial :
    ∃ settings launch, collectSettings .fractions .installed .initial = some settings ∧
      playniteLaunch .plain "C:\\switch" (some settings) = some launch ∧
      (parseArgs .fractions Char.isDigit
        (receivedArguments (joinProcessArguments launch.xinputArgs))).map
          (fun o => (o.port, o.controller, o.logFile)) =
        some (some "COM3", some 0,
          some "C:\\switch\\Playnite Launcher Scripts\\xinput2serial.log") := by
  have hsome : (collectSettings .fractions .installed .initial).isSome = true := by decide +kernel
  obtain ⟨settings, h⟩ := Option.isSome_iff_exists.mp hsome
  have hvalues : (collectSettings .fractions .installed .initial).map (fun settings =>
      (textOf settings "controllerBackend", textOf settings "inactiveAction",
        textOf settings "disconnectAction", intOf settings "socketPort",
        intOf settings "controllerSlot")) =
      some ("auto", "home", "home", some 8765, some 0) := by decide +kernel
  rw [h] at hvalues
  simp only [Option.map_some, Option.some.injEq, Prod.mk.injEq] at hvalues
  obtain ⟨hbackend, hinactive, hdisconnect, hport, hslot⟩ := hvalues
  have hportable : Portable .fractions .plain settings :=
    { controllerBackend := by simp [hbackend]
      inactiveAction := by simp [hinactive]
      disconnectAction := by simp [hdisconnect]
      socketPort := by simp [hport]
      homeDuration := Numerals.fractions.parseFloat_repr _
      homeCooldown := Numerals.fractions.parseFloat_repr _
      controllerSlot := by
        rw [hslot, Option.getD_some]
        exact Numerals.fractions.parseInt_repr 0 (by decide) }
  obtain ⟨launch, hlaunch, hagree⟩ := launchers_agree .fractions Char.isDigit .plain
    ⟨"bridge.py", "C:\\logs"⟩ "C:\\switch" .installed .initial settings h hportable
  have hplain : ((collectSettings .fractions .installed .initial).bind fun settings =>
      playniteLaunch .plain "C:\\switch" (some settings)).map (fun launch =>
        (decide (∀ a ∈ launch.configured, Sound a),
          (launch.texts true).all (ArgParse.isArgument Char.isDigit (bridgeParser .fractions)),
          launch.bridgeLogFile)) =
      some (true, true, "C:\\switch\\Playnite Launcher Scripts\\xinput2serial.log") := by
    decide +kernel
  rw [h, Option.bind_some, hlaunch] at hplain
  simp only [Option.map_some, Option.some.injEq, Prod.mk.injEq, decide_eq_true_eq] at hplain
  obtain ⟨hsound, htexts, hlog⟩ := hplain
  have hoptions : ((collectSettings .fractions .installed .initial).bind fun settings =>
      guiOptions ⟨"bridge.py", "C:\\logs"⟩ (settings.insert "mode" (.str "controller"))).map
        (fun o => (o.port, o.controller.getD 0)) = some (some "COM3", 0) := by decide +kernel
  rw [h, Option.bind_some] at hoptions
  obtain ⟨o, ho, hvalues⟩ := Option.map_eq_some_iff.mp hoptions
  simp only [Prod.mk.injEq] at hvalues
  refine ⟨settings, launch, h, hlaunch, ?_⟩
  rw [hagree hsound htexts, ho]
  simp only [Option.map_some, hvalues, hlog]

end XInputSwitch
