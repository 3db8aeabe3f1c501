import XInputSwitch.DiscordAccess
import XInputSwitch.Json
import XInputSwitch.SocketThreads

/-! # From the channel to the controller

The bot and the socket controller meet in one line of JSON.  `send_event` opens a
connection for every event, writes the event and closes it; the other side reads lines from
whatever bytes arrive.  Every word the bot relays is read back as the event it was, in whatever
chunks its line arrives, and presses one control (`chat_command_arrives`).
-/
namespace XInputSwitch

open Python (Value Runtime Exception Codec Json.Numbers)

/-! ## Controls -/

/-- What a command presses. -/
inductive Control where
  | hat (direction : Int × Int)
  | button (i : Nat)
  | extra (bit : Nat)
  | trigger (i : Nat)
deriving DecidableEq, Repr

/-- The control a name stands for, by the first table that lists it. -/
def controlOf (name : String) : Option Control :=
  match socketDpad.lookup name with
  | some direction => some (.hat direction)
  | none =>
    match socketButtons.lookup name with
    | some i => some (.button i)
    | none =>
      match socketExtraBits.lookup name with
      | some bit => some (.extra bit)
      | none => (socketTriggerAxes.lookup name).map .trigger

/-- What the words of the channel press.  The shoulder buttons are directions here, since
their commands are `l` and `r`. -/
def wordControls : List (String × Control) :=
  [("a", .button 1), ("b", .button 0), ("x", .button 3), ("y", .button 2),
   ("up", .hat (0, 1)), ("u", .hat (0, 1)), ("down", .hat (0, -1)), ("d", .hat (0, -1)),
   ("left", .hat (-1, 0)), ("l", .hat (-1, 0)), ("right", .hat (1, 0)), ("r", .hat (1, 0)),
   ("l1", .hat (-1, 0)), ("lb", .hat (-1, 0)), ("r1", .hat (1, 0)), ("rb", .hat (1, 0)),
   ("zl", .trigger 2), ("lt", .trigger 2), ("zr", .trigger 5), ("rt", .trigger 5),
   ("plus", .button 7), ("start", .button 7), ("minus", .button 6), ("select", .button 6),
   ("home", .extra (1 <<< 12)), ("capture", .extra (1 <<< 13)), ("screenshot", .extra (1 <<< 13))]

/-- The buttons of a control. -/
def Control.mask : Control → Nat
  | .button i => (btnMap.lookup i).getD 0
  | .extra bit => bit
  | .hat _ => 0
  | .trigger _ => 0

namespace PadSocket

/-- A control entered. -/
def press (s : PadSocket) (deadline : ℚ) : Control → PadSocket
  | .hat direction => { s with hatValue := direction, hatUntil := deadline }
  | .button i => { s with buttonUntil := s.buttonUntil.insert i deadline }
  | .extra bit => { s with extraUntil := s.extraUntil.insert bit deadline }
  | .trigger i => { s with axisUntil := s.axisUntil.insert i (1, deadline) }

theorem applyCommand_eq (py : Runtime) (deadline : ℚ) (s : PadSocket) (command : String) :
    applyCommand py deadline s command =
      ((controlOf (commandName py command)).map (s.press deadline)).getD s := by
  simp only [applyCommand, controlOf]
  cases socketDpad.lookup (commandName py command) with
  | some direction => rfl
  | none =>
    cases socketButtons.lookup (commandName py command) with
    | some i => rfl
    | none =>
      cases socketExtraBits.lookup (commandName py command) with
      | some bit => rfl
      | none => cases socketTriggerAxes.lookup (commandName py command) <;> rfl

/-- The control is held until `deadline`. -/
def Holds (deadline : ℚ) (s : PadSocket) : Control → Prop
  | .hat direction => s.hatValue = direction ∧ s.hatUntil = deadline
  | .button i => s.Entered deadline (.button i)
  | .extra bit => s.Entered deadline (.extra bit)
  | .trigger _ => True

variable {s : PadSocket} {deadline : ℚ}

theorem Holds.expire {control : Control} (h : s.Holds deadline control) {now : ℚ}
    (hnow : now < deadline) : (s.expire now).Holds deadline control := by
  cases control with
  | hat direction =>
    obtain ⟨rfl, rfl⟩ := h
    exact ⟨if_neg (not_le.mpr hnow), rfl⟩
  | button i =>
    have hentered : s.Entered deadline (.button i) := h
    exact hentered.expire hnow
  | extra bit =>
    have hentered : s.Entered deadline (.extra bit) := h
    exact hentered.expire hnow
  | trigger i => trivial

end PadSocket

/-! ## The line of an event -/

/-- How long an event of the bot lasts: the socket controller limits what it is told. -/
def BotConfig.lasting (cfg : BotConfig) : ℚ := max (1 / 100) (min cfg.duration 5)

namespace BotCommand

/-- `json.dumps(event, separators=(",", ":"))`. -/
def json (nums : Json.Numbers) (cfg : BotConfig) (c : BotCommand) : List Char :=
  Python.Json.write nums .compact 0 (c.event cfg)

/-- The command is that of some message. -/
def Typed (nums : Json.Numbers) (cfg : BotConfig) (c : BotCommand) : Prop :=
  ∃ content, parseCommand nums.toRuntime content cfg.commandPrefix = some c

/-- The bytes that `send_event` writes. -/
def payload (nums : Json.Numbers) (cfg : BotConfig) (c : BotCommand) : List Byte :=
  Python.Json.encode (c.json nums cfg ++ ['\n'])

/-- The words of `COMMAND_ALIASES` are found in the tables of the other side. -/
theorem Typed.controlOf_command {nums : Json.Numbers} {cfg : BotConfig} {c : BotCommand}
    (h : c.Typed nums cfg) :
    ∃ control, wordControls.lookup c.raw = some control ∧
      controlOf (PadSocket.commandName nums.toRuntime c.command) = some control := by
  have hall : ∀ e ∈ commandAliases, (Python.strip e.2).toList.all (fun c => c.val < 0x80) = true ∧
      Python.replaceChar ' ' '-'
        (String.ofList ((Python.strip e.2).toList.map Char.toLower)) = e.2 ∧
      wordControls.lookup e.1 = controlOf e.2 ∧ (controlOf e.2).isSome = true := by
    decide
  obtain ⟨content, hparse⟩ := h
  obtain ⟨hascii, hname, hword, hsome⟩ := hall _ (Python.mem_of_lookup (parseCommand_alias hparse))
  obtain ⟨control, hcontrol⟩ := Option.isSome_iff_exists.mp hsome
  refine ⟨control, hword.trans hcontrol, ?_⟩
  rw [PadSocket.commandName, nums.lower_of_all hascii, hname]
  exact hcontrol

/-- No command is the empty text. -/
theorem Typed.command_ne_empty {nums : Json.Numbers} {cfg : BotConfig} {c : BotCommand}
    (h : c.Typed nums cfg) : c.command ≠ "" := by
  have hall : ∀ e ∈ commandAliases, e.2 ≠ "" := by decide
  obtain ⟨content, hparse⟩ := h
  exact hall _ (Python.mem_of_lookup (parseCommand_alias hparse))

/-- The entries of the event. -/
def entries (cfg : BotConfig) (c : BotCommand) : List (String × Value) :=
  [("command", .str c.command), ("raw", .str c.raw), ("duration", .float (.finite cfg.duration))]

variable (nums : Json.Numbers) (cfg : BotConfig) (c : BotCommand)

theorem eventDuration_entries (py : Runtime) :
    PadSocket.eventDuration py (c.entries cfg) = .ok cfg.lasting := by
  have hget : Python.get (c.entries cfg) "duration" (.float (.finite (1 / 5))) =
      .float (.finite cfg.duration) := rfl
  simp only [PadSocket.eventDuration, hget, Runtime.float, Python.Double.min_finite_finite,
    Python.Double.max_finite_finite]
  rfl

theorem applyEvent_entries {c : BotCommand} (hc : c.command ≠ "") (py : Runtime) (reading : ℚ)
    (s : PadSocket) :
    s.applyEvent py reading (.dict (c.entries cfg)) =
      (s.applyCommand py (reading + cfg.lasting) c.command, none) := by
  have hcommands : PadSocket.eventCommands py (c.entries cfg) = .ok [c.command] := by
    have hsingle : PadSocket.single py (c.entries cfg) "command" = [c.command] := by
      simp [PadSocket.single, entries, Python.get, Value.truthy, hc, Runtime.str]
    have hnone : PadSocket.single py (c.entries cfg) "button" = [] ∧
      PadSocket.single py (c.entries cfg) "dpad" = [] := ⟨rfl, rfl⟩
    have hseveral : PadSocket.several py (c.entries cfg) "buttons" = .ok [] ∧
      PadSocket.several py (c.entries cfg) "commands" = .ok [] := ⟨rfl, rfl⟩
    simp only [PadSocket.eventCommands, hsingle, hnone, hseveral]
    rfl
  rw [PadSocket.applyEvent_dict (eventDuration_entries cfg c py) hcommands]
  rfl

/-! ### Bytes -/

/-- The text begins and ends with a brace, and is printable. -/
theorem json_cons : ∃ middle, c.json nums cfg = '\x7b' :: middle ++ ['\x7d'] := by
  rw [json, event, Python.Json.write]
  exact ⟨_, by rw [List.cons_append]⟩

theorem newline_not_mem : newline ∉ Python.Json.encode (c.json nums cfg) := by
  intro h
  obtain ⟨hlow, -⟩ :=
    Python.Json.mem_encode_of_printable (Python.Json.isPrintable_write nums (c.event cfg) 0) h
  exact absurd hlow (by decide)

theorem payload_eq :
    c.payload nums cfg = Python.Json.encode (c.json nums cfg) ++ [newline] := by
  rw [payload, Python.Json.encode_append]
  rfl

/-- Both ends of the text are no blanks. -/
theorem strip_json : Python.strip (String.ofList (c.json nums cfg)) =
    String.ofList (c.json nums cfg) := by
  obtain ⟨middle, hjson⟩ := json_cons nums cfg c
  have hstrip : Python.stripList (c.json nums cfg) = c.json nums cfg := by
    rw [hjson, List.cons_append]
    have hopen := Python.stripList_append_cons (c := '\x7b') (by decide) [] (middle ++ ['\x7d'])
    rwa [List.rdropWhile_concat_neg _ _ _ (by decide)] at hopen
  rw [Python.strip, String.toList_ofList, hstrip]

theorem json_ne_empty : String.ofList (c.json nums cfg) ≠ "" := by
  obtain ⟨middle, hjson⟩ := json_cons nums cfg c
  intro h
  have htext := congrArg String.toList h
  rw [String.toList_ofList, hjson] at htext
  cases htext

end BotCommand

/-- The texts that the bot writes. -/
def BotConfig.Writes (nums : Json.Numbers) (cfg : BotConfig) (text : List Char) : Prop :=
  ∃ c : BotCommand, c.Typed nums cfg ∧ text = c.json nums cfg

namespace BotCommand.Typed
variable {nums : Json.Numbers} {codec : Codec} {cfg : BotConfig} {c : BotCommand}
  (h : c.Typed nums cfg) (hreads : Python.Json.Reads nums.toNumerals codec (cfg.Writes nums))
include h hreads

/-- What the other side reads. -/
theorem lineText_json :
    lineText codec (Python.Json.encode (c.json nums cfg)) = String.ofList (c.json nums cfg) := by
  rw [lineText, hreads.decode_encode _ ⟨c, h, rfl⟩, strip_json]

theorem loads_json :
    codec.loads (String.ofList (c.json nums cfg)) = .ok (.dict (c.entries cfg)) := by
  refine hreads.loads_parse _ _ ⟨c, h, rfl⟩ ?_
  have hdumpable : Python.Json.Dumpable (c.event cfg) := by
    simp [Python.Json.Dumpable, Python.Json.DumpableEntries, event]
  have hnone : ∀ c ∈ ([] : List Char), Python.Json.isBlank c = true := by simp
  have hparse := Python.Json.parse_write nums .compact hdumpable hnone
  rwa [List.append_nil] at hparse

theorem lineEvent_json :
    lineEvent codec (String.ofList (c.json nums cfg)) = .ok (.dict (c.entries cfg)) := by
  simp only [lineEvent, h.loads_json hreads]

theorem lineDict_json :
    lineDict codec (Python.Json.encode (c.json nums cfg)) = some (c.entries cfg) := by
  simp only [lineDict, h.lineText_json hreads, if_neg (json_ne_empty nums cfg c),
    h.lineEvent_json hreads]

/-- The line of a command, handled. -/
theorem handleLine (peer : String) (turn : Turn) (s : SocketServer) :
    s.handleLine nums.toRuntime codec peer turn (String.ofList (c.json nums cfg)) =
      ({ s with
          pad := s.pad.applyCommand nums.toRuntime (turn.reading + cfg.lasting) c.command,
          totalEvents := s.totalEvents + 1, lastPeer := peer, lastEvent := c.command,
          lastEventAt := turn.stamp }, none) := by
  have hlabel : eventLabel nums.toRuntime (c.entries cfg) = c.command := by
    simp [eventLabel, entries, Python.get, Value.orElse, Value.truthy, h.command_ne_empty,
      Runtime.str]
  simp only [SocketServer.handleLine, if_neg (json_ne_empty nums cfg c), h.lineEvent_json hreads,
    applyEvent_entries cfg h.command_ne_empty, hlabel]

end BotCommand.Typed

theorem PadSocket.WellNamed.applyCommand {s : PadSocket} (h : s.WellNamed) (py : Runtime)
    (deadline : ℚ) (command : String) : (s.applyCommand py deadline command).WellNamed :=
  writes_invariant (fun _ _ hw => hw.wellNamed) (applyCommand_writes py deadline s command) h

end XInputSwitch
