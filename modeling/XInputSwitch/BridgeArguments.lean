import XInputSwitch.ArgParse
import XInputSwitch.Controllers
import XInputSwitch.ProcessArguments
import XInputSwitch.Settings

/-! # The command line of the bridge

`bridgeParser` is the parser of `xinput2serial.py`, `Launch.settings` what a launcher asks for.
`Launch.parse_settings`: whatever texts are configured, the bridge either runs with what was asked
for or refuses the line.  A text is refused as a value if it looks like an option.
-/
namespace XInputSwitch

open Python (Value Numerals Double)
open ArgParse (Setting)

/-! ## What the bridge accepts -/

/-- `choices=("auto","xinput","pygame","socket")`. -/
def Backend.ofText : String → Option Backend
  | "auto" => some .auto
  | "xinput" => some .xinput
  | "pygame" => some .pygame
  | "socket" => some .socket
  | _ => none

/-- `choices=("neutral","home","none")`. -/
def Action.ofText : String → Option Action
  | "neutral" => some .neutral
  | "home" => some .home
  | "none" => some .none
  | _ => none

/-- What `parse_args` returns. -/
structure BridgeOptions where
  keyboard : Bool
  port : Option String
  baud : Int
  controller : Option Int
  backend : Backend
  socketHost : String
  socketPort : Int
  socketStatusFile : Option String
  window : Option String
  auto : Bool
  debug : Bool
  logFile : Option String
  startupDebug : Bool
  diagnose : Bool
  syncAttempts : Int
  inactiveAction : Action
  disconnectAction : Action
  homeDuration : Double
  homeCooldown : Double
  exitChordSignalFile : Option String
deriving DecidableEq

namespace BridgeOptions

def default : BridgeOptions where
  keyboard := false
  port := none
  baud := 1000000
  controller := none
  backend := .xinput
  socketHost := "127.0.0.1"
  socketPort := 8765
  socketStatusFile := none
  window := none
  auto := false
  debug := false
  logFile := none
  startupDebug := false
  diagnose := false
  syncAttempts := 3
  inactiveAction := .neutral
  disconnectAction := .neutral
  homeDuration := .finite (1 / 4)
  homeCooldown := .finite 5
  exitChordSignalFile := none

end BridgeOptions

/-- The calls of `add_argument`. -/
def bridgeParser (nums : Numerals) : ArgParse.Parser BridgeOptions :=
  [("-h", .help), ("--help", .help),
   ("--keyboard", .flag fun o => { o with keyboard := true }),
   ("--port", .store fun text o => some { o with port := some text }),
   ("--baud", .store fun text o => (nums.parseInt text).map fun n => { o with baud := n }),
   ("--controller", .store fun text o =>
     (nums.parseInt text).map fun n => { o with controller := some n }),
   ("--backend", .store fun text o => (Backend.ofText text).map fun b => { o with backend := b }),
   ("--socket-host", .store fun text o => some { o with socketHost := text }),
   ("--socket-port", .store fun text o =>
     (nums.parseInt text).map fun n => { o with socketPort := n }),
   ("--socket-status-file", .store fun text o => some { o with socketStatusFile := some text }),
   ("--window", .store fun text o => some { o with window := some text }),
   ("--auto", .flag fun o => { o with auto := true }),
   ("--debug", .flag fun o => { o with debug := true }),
   ("--log-file", .store fun text o => some { o with logFile := some text }),
   ("--startup-debug", .flag fun o => { o with startupDebug := true }),
   ("--diagnose", .flag fun o => { o with diagnose := true }),
   ("--sync-attempts", .store fun text o =>
     (nums.parseInt text).map fun n => { o with syncAttempts := n }),
   ("--inactive-action", .store fun text o =>
     (Action.ofText text).map fun a => { o with inactiveAction := a }),
   ("--disconnect-action", .store fun text o =>
     (Action.ofText text).map fun a => { o with disconnectAction := a }),
   ("--home-duration", .store fun text o =>
     (nums.parseFloat text).map fun x => { o with homeDuration := x }),
   ("--home-cooldown", .store fun text o =>
     (nums.parseFloat text).map fun x => { o with homeCooldown := x }),
   ("--exit-chord-signal-file", .store fun text o =>
     some { o with exitChordSignalFile := some text })]

namespace Launch

/-- `--window` and `--inactive-action`. -/
def focusSettings (launch : Launch) : List Setting :=
  if launch.bindToProjectorFocus then
    [.store "--window" launch.projectorTitle, .store "--inactive-action" launch.inactiveAction]
  else [.store "--inactive-action" "neutral"]

/-- The options of a socket. -/
def socketSettings (launch : Launch) : List Setting :=
  if launch.mode = .socket then
    [.store "--socket-host" launch.socketHost, .store "--socket-port" launch.socketPort,
      .store "--socket-status-file" launch.socketStatusFile]
  else []

/-- `--controller`. -/
def controllerSettings (launch : Launch) : List Setting :=
  match launch.controllerSlot with
  | some slot => if launch.mode ≠ .socket ∧ slot ≠ "" then [.store "--controller" slot] else []
  | none => []

/-- What the bridge is started with.  Only Playnite asks for the exit chord. -/
def settings (launch : Launch) (exitChord : Bool) : List Setting :=
  [.flag "--auto", .store "--backend" launch.backend, .flag "--startup-debug",
    .store "--log-file" launch.bridgeLogFile] ++
  launch.focusSettings ++
  [.store "--disconnect-action" launch.disconnectAction,
    .store "--home-duration" launch.homeDuration, .store "--home-cooldown" launch.homeCooldown] ++
  (if exitChord then [.store "--exit-chord-signal-file" launch.sessionExitSignalFile] else []) ++
  (if launch.mode = .keyboard then [.flag "--keyboard"] else []) ++
  launch.socketSettings ++
  (if launch.debugBridge then [.flag "--debug"] else []) ++
  (if launch.serialPort ≠ "" then [.store "--port" launch.serialPort] else []) ++
  launch.controllerSettings

theorem xinputArgs_eq (launch : Launch) :
    launch.xinputArgs = launch.xinputScript :: (launch.settings true).flatMap Setting.words := by
  unfold xinputArgs settings focusSettings socketSettings controllerSettings
  simp only [List.flatMap_append, apply_ite (List.flatMap Setting.words), List.flatMap_cons,
    List.flatMap_nil, Setting.words, List.append_nil, if_true]
  cases launch.controllerSlot with
  | none => rfl
  | some slot =>
    simp only [apply_ite (List.flatMap Setting.words), List.flatMap_cons, List.flatMap_nil,
      Setting.words, List.append_nil]
    rfl

/-- The action without focus, if it is valid. -/
def inactiveChoice (launch : Launch) : Option Action :=
  if launch.bindToProjectorFocus then Action.ofText launch.inactiveAction else some .neutral

/-- The port of the socket, if it is a number. -/
def socketPortNumber (nums : Numerals) (launch : Launch) : Option Int :=
  if launch.mode = .socket then nums.parseInt launch.socketPort else some 8765

/-- The number after `--controller`; `none` if it is not one. -/
def controllerNumber (nums : Numerals) (launch : Launch) : Option (Option Int) :=
  match launch.controllerSlot with
  | some slot =>
    if launch.mode ≠ .socket ∧ slot ≠ "" then (nums.parseInt slot).map some else some none
  | none => some none

/-- What the bridge is meant to run with, if the configured values are valid. -/
def options (nums : Numerals) (launch : Launch) (exitChord : Bool) : Option BridgeOptions := do
  let backend ← Backend.ofText launch.backend
  let inactiveAction ← launch.inactiveChoice
  let disconnectAction ← Action.ofText launch.disconnectAction
  let homeDuration ← nums.parseFloat launch.homeDuration
  let homeCooldown ← nums.parseFloat launch.homeCooldown
  let socketPort ← launch.socketPortNumber nums
  let controller ← launch.controllerNumber nums
  return {
    keyboard := launch.mode = .keyboard
    port := if launch.serialPort ≠ "" then some launch.serialPort else none
    baud := 1000000
    controller
    backend
    socketHost := if launch.mode = .socket then launch.socketHost else "127.0.0.1"
    socketPort
    socketStatusFile := if launch.mode = .socket then some launch.socketStatusFile else none
    window := if launch.bindToProjectorFocus then some launch.projectorTitle else none
    auto := true
    debug := launch.debugBridge
    logFile := some launch.bridgeLogFile
    startupDebug := true
    diagnose := false
    syncAttempts := 3
    inactiveAction
    disconnectAction
    homeDuration
    homeCooldown
    exitChordSignalFile := if exitChord then some launch.sessionExitSignalFile else none }

section Fold
variable (nums : Numerals) (launch : Launch) (o : BridgeOptions)

theorem foldlM_focusSettings :
    launch.focusSettings.foldlM (Setting.apply (bridgeParser nums)) o =
      launch.inactiveChoice.map fun action =>
        { o with
          window := if launch.bindToProjectorFocus then some launch.projectorTitle else o.window
          inactiveAction := action } := by
  unfold focusSettings inactiveChoice
  cases launch.bindToProjectorFocus with
  | false => rfl
  | true =>
    cases hact : Action.ofText launch.inactiveAction <;>
      simp [List.foldlM, Setting.apply, bridgeParser, List.lookup_cons, hact]

theorem foldlM_socketSettings (ho : o.socketPort = 8765) :
    launch.socketSettings.foldlM (Setting.apply (bridgeParser nums)) o =
      (launch.socketPortNumber nums).map fun port =>
        { o with
          socketHost := if launch.mode = .socket then launch.socketHost else o.socketHost
          socketPort := port
          socketStatusFile :=
            if launch.mode = .socket then some launch.socketStatusFile
            else o.socketStatusFile } := by
  unfold socketSettings socketPortNumber
  by_cases hmode : launch.mode = .socket
  · simp only [if_pos hmode]
    cases hport : nums.parseInt launch.socketPort <;>
      simp [List.foldlM, Setting.apply, bridgeParser, List.lookup_cons, hport]
  · simp only [if_neg hmode, ← ho]
    rfl

theorem foldlM_controllerSettings (ho : o.controller = none) :
    launch.controllerSettings.foldlM (Setting.apply (bridgeParser nums)) o =
      (launch.controllerNumber nums).map fun controller => { o with controller } := by
  have hkeep : { o with controller := none } = o := by rw [← ho]
  unfold controllerSettings controllerNumber
  cases launch.controllerSlot with
  | none => exact congrArg some hkeep.symm
  | some slot =>
    by_cases hslot : launch.mode ≠ .socket ∧ slot ≠ ""
    · simp only [if_pos hslot]
      cases hnumber : nums.parseInt slot <;>
        simp [List.foldlM, Setting.apply, bridgeParser, List.lookup_cons, hnumber]
    · simp only [if_neg hslot]
      exact congrArg some hkeep.symm

theorem foldlM_base :
    [Setting.flag "--auto", .store "--backend" launch.backend, .flag "--startup-debug",
        .store "--log-file" launch.bridgeLogFile].foldlM (Setting.apply (bridgeParser nums)) o =
      (Backend.ofText launch.backend).map fun backend =>
        { o with
          auto := true
          backend
          startupDebug := true
          logFile := some launch.bridgeLogFile } := by
  cases hbackend : Backend.ofText launch.backend <;>
    simp [List.foldlM, Setting.apply, bridgeParser, List.lookup_cons, hbackend]

theorem foldlM_actions :
    [Setting.store "--disconnect-action" launch.disconnectAction,
        .store "--home-duration" launch.homeDuration,
        .store "--home-cooldown" launch.homeCooldown].foldlM
          (Setting.apply (bridgeParser nums)) o =
      (Action.ofText launch.disconnectAction).bind fun disconnectAction =>
        (nums.parseFloat launch.homeDuration).bind fun homeDuration =>
          (nums.parseFloat launch.homeCooldown).map fun homeCooldown =>
            { o with disconnectAction, homeDuration, homeCooldown } := by
  cases hact : Action.ofText launch.disconnectAction <;>
    cases hduration : nums.parseFloat launch.homeDuration <;>
      cases hcooldown : nums.parseFloat launch.homeCooldown <;>
        simp [List.foldlM, Setting.apply, bridgeParser, List.lookup_cons, hact, hduration,
          hcooldown]

theorem foldlM_exitChord (exitChord : Bool) :
    (if exitChord then [Setting.store "--exit-chord-signal-file" launch.sessionExitSignalFile]
        else []).foldlM (Setting.apply (bridgeParser nums)) o =
      some { o with
        exitChordSignalFile :=
          if exitChord then some launch.sessionExitSignalFile else o.exitChordSignalFile } := by
  cases exitChord <;> rfl

theorem foldlM_keyboard :
    (if launch.mode = .keyboard then [Setting.flag "--keyboard"] else []).foldlM
        (Setting.apply (bridgeParser nums)) o =
      some { o with keyboard := decide (launch.mode = .keyboard) || o.keyboard } := by
  by_cases hmode : launch.mode = .keyboard
  · simp [hmode, List.foldlM, Setting.apply, bridgeParser, List.lookup_cons]
  · simp [hmode]

theorem foldlM_debug :
    (if launch.debugBridge then [Setting.flag "--debug"] else []).foldlM
        (Setting.apply (bridgeParser nums)) o =
      some { o with debug := launch.debugBridge || o.debug } := by
  cases launch.debugBridge <;> rfl

theorem foldlM_port :
    (if launch.serialPort ≠ "" then [Setting.store "--port" launch.serialPort] else []).foldlM
        (Setting.apply (bridgeParser nums)) o =
      some { o with
        port := if launch.serialPort ≠ "" then some launch.serialPort else o.port } := by
  split <;> rfl

/-- Carried out one after the other, the settings give the options. -/
theorem foldlM_settings (exitChord : Bool) :
    (launch.settings exitChord).foldlM (Setting.apply (bridgeParser nums)) .default =
      launch.options nums exitChord := by
  unfold settings options
  simp only [List.foldlM_append, List.append_assoc, foldlM_base, foldlM_focusSettings,
    foldlM_actions, foldlM_exitChord, foldlM_keyboard, foldlM_debug, foldlM_port,
    Option.bind_eq_bind, Option.bind_map, Function.comp_def, Option.bind_assoc, Option.bind_some]
  congr 1
  funext backend
  congr 1
  funext inactiveAction
  congr 1
  funext disconnectAction
  congr 1
  funext homeDuration
  congr 1
  funext homeCooldown
  rw [foldlM_socketSettings _ _ _ rfl, Option.bind_map]
  congr 1
  funext socketPort
  simp only [Function.comp_def]
  rw [foldlM_controllerSettings _ _ _ rfl]
  cases launch.controllerNumber nums with
  | none => rfl
  | some controller => simp [BridgeOptions.default]

end Fold

/-- The options that are used exist. -/
theorem known_settings (nums : Numerals) (launch : Launch) (exitChord : Bool) :
    ∀ s ∈ launch.settings exitChord, s.Known (bridgeParser nums) := by
  have hflag : ∀ name ∈ ["--auto", "--startup-debug", "--keyboard", "--debug"],
      (Setting.flag name).Known (bridgeParser nums) := by
    simp only [List.forall_mem_cons, List.not_mem_nil, false_imp_iff, implies_true, and_true]
    and_intros <;> first | rfl | decide | exact ⟨_, rfl⟩
  have hstore : ∀ name ∈ ["--backend", "--log-file", "--window", "--inactive-action",
      "--disconnect-action", "--home-duration", "--home-cooldown", "--exit-chord-signal-file",
      "--socket-host", "--socket-port", "--socket-status-file", "--port", "--controller"],
      ∀ value, (Setting.store name value).Known (bridgeParser nums) := by
    simp only [List.forall_mem_cons, List.not_mem_nil, false_imp_iff, implies_true, and_true]
    and_intros <;> intro value <;> and_intros <;> first | rfl | decide | exact ⟨_, rfl⟩
  simp only [List.forall_mem_cons, List.not_mem_nil, false_imp_iff, implies_true, and_true]
    at hflag hstore
  unfold settings focusSettings socketSettings controllerSettings
  simp only [List.forall_mem_append]
  refine ⟨⟨⟨⟨⟨⟨⟨⟨?_, ?_⟩, ?_⟩, ?_⟩, ?_⟩, ?_⟩, ?_⟩, ?_⟩, ?_⟩
  · simp [hflag, hstore]
  · split <;> simp [hstore]
  · simp [hstore]
  · split <;> simp [hstore]
  · split <;> simp [hflag]
  · split <;> simp [hstore]
  · split <;> simp [hflag]
  · split <;> simp [hstore]
  · split
    · split <;> simp [hstore]
    · simp

/-- The texts that a launch passes as values. -/
def texts (launch : Launch) (exitChord : Bool) : List String :=
  (launch.settings exitChord).flatMap Setting.values

/-- **A launch is understood, or refused**: never do the options mean anything else. -/
theorem parse_settings (nums : Numerals) (decimal : Char → Bool) (launch : Launch)
    (exitChord : Bool) :
    ArgParse.parse decimal (bridgeParser nums) .default
        ((launch.settings exitChord).flatMap Setting.words) =
      if (launch.texts exitChord).all (ArgParse.isArgument decimal (bridgeParser nums)) then
        launch.options nums exitChord
      else none := by
  rw [ArgParse.parse_words (launch.known_settings nums exitChord), foldlM_settings]
  rfl

end Launch
end XInputSwitch
