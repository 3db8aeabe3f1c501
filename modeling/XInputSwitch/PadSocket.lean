import XInputSwitch.BuildPacket
import XInputSwitch.ExpiryTable
import XInputSwitch.Python
import XInputSwitch.Trace

/-! # The socket controller

`PadSocket` of `xinput2serial.py`: other programs press buttons by sending events, and
every press ends by itself.  An event is a Python value (`applyEvent`); handling it may
raise, and what was done before that stays done, so a call returns the new state with
the exception, if there was one.

Threads meet here.  Each connection applies its events under a lock, with a deadline
computed from a clock reading made before the lock is taken; the main loop reads under
no lock, but throws expired entries out under the lock before each read.  A run is
therefore any order of such steps (`SocketStep`), and a packet is built from one moment
for each question asked (`Query`, `readings`).  The loop of `extra_buttons` is no single
question: a thread that enters a new key while it runs ends it with a `RuntimeError`
(`extraLoop`).  `extraButtons` is what it returns if no thread does anything meanwhile
(`extraLoop_undisturbed`).  The two reads of `hat` count as one moment.

Clock readings are seconds since the epoch, not negative.
-/
namespace XInputSwitch

open Python (Value Runtime Exception)

/-! ## Names -/

/-- `SOCKET_BUTTONS`. -/
def socketButtons : List (String × Nat) :=
  [("b", 0), ("a", 1), ("y", 2), ("x", 3), ("l", 4), ("r", 5), ("minus", 6), ("select", 6),
   ("back", 6), ("plus", 7), ("start", 7), ("lclick", 9), ("ls", 9), ("rclick", 10), ("rs", 10)]

/-- `SOCKET_EXTRA_BITS`. -/
def socketExtraBits : List (String × Nat) :=
  [("home", 1 <<< 12), ("capture", 1 <<< 13), ("screenshot", 1 <<< 13)]

/-- `SOCKET_TRIGGER_AXES`. -/
def socketTriggerAxes : List (String × Nat) := [("zl", 2), ("lt", 2), ("zr", 5), ("rt", 5)]

/-- `SOCKET_DPAD`. -/
def socketDpad : List (String × (Int × Int)) :=
  [("up", (0, 1)), ("u", (0, 1)), ("down", (0, -1)), ("d", (0, -1)), ("right", (1, 0)),
   ("r", (1, 0)), ("left", (-1, 0)), ("l", (-1, 0)), ("up-right", (1, 1)), ("upright", (1, 1)),
   ("ur", (1, 1)), ("up-left", (-1, 1)), ("upleft", (-1, 1)), ("ul", (-1, 1)),
   ("down-right", (1, -1)), ("downright", (1, -1)), ("dr", (1, -1)), ("down-left", (-1, -1)),
   ("downleft", (-1, -1)), ("dl", (-1, -1))]

/-! ## The state -/

structure PadSocket where
  buttonUntil : AList fun _ : Nat => ℚ
  extraUntil : AList fun _ : Nat => ℚ
  /-- value and deadline -/
  axisUntil : AList fun _ : Nat => ℚ × ℚ
  hatUntil : ℚ
  hatValue : Int × Int
deriving DecidableEq

namespace PadSocket

def initial : PadSocket := ⟨∅, ∅, ∅, 0, (0, 0)⟩

/-! What the methods return once `_expire` is done, with the clock they read then. -/

def btn (s : PadSocket) (now : ℚ) (i : Nat) : Bool := now < (s.buttonUntil.lookup i).getD 0

/-- `extra_buttons`, if its loop is not disturbed. -/
def extraButtons (s : PadSocket) (now : ℚ) : Nat :=
  s.extraUntil.entries.foldl (fun bits e => if now < e.2 then bits ||| e.1 else bits) 0

def axis (s : PadSocket) (now : ℚ) (i : Nat) : ℚ :=
  let (value, deadline) := (s.axisUntil.lookup i).getD (0, 0)
  if now < deadline then value else 0

def hat (s : PadSocket) (now : ℚ) : Int × Int := if now < s.hatUntil then s.hatValue else (0, 0)

/-- `_expire`. -/
def expire (s : PadSocket) (now : ℚ) : PadSocket where
  buttonUntil := ExpiryTable.expire id now s.buttonUntil
  extraUntil := ExpiryTable.expire id now s.extraUntil
  axisUntil := ExpiryTable.expire Prod.snd now s.axisUntil
  hatUntil := s.hatUntil
  hatValue := if s.hatUntil ≤ now then (0, 0) else s.hatValue

/-! ## Events -/

/-- The name a command is looked up by. -/
def commandName (py : Runtime) (command : String) : String :=
  Python.replaceChar ' ' '-' (py.lower (Python.strip command))

/-- `_apply_command`. -/
def applyCommand (py : Runtime) (deadline : ℚ) (s : PadSocket) (command : String) : PadSocket :=
  let name := commandName py command
  match socketDpad.lookup name with
  | some direction => { s with hatValue := direction, hatUntil := deadline }
  | none =>
    match socketButtons.lookup name with
    | some i => { s with buttonUntil := s.buttonUntil.insert i deadline }
    | none =>
      match socketExtraBits.lookup name with
      | some bit => { s with extraUntil := s.extraUntil.insert bit deadline }
      | none =>
        match socketTriggerAxes.lookup name with
        | some i => { s with axisUntil := s.axisUntil.insert i (1, deadline) }
        | none => s

/-- `_clamp_axis`. -/
def clampAxis (py : Runtime) (value : Value) : Except Exception ℚ :=
  match py.float value with
  | .ok x => .ok (Python.Double.max (.finite (-1)) (Python.Double.min (.finite 1) x)).toRat
  | .error .typeError => .ok 0
  | .error .valueError => .ok 0
  | .error e => .error e

/-- How long an event lasts. -/
def eventDuration (py : Runtime) (event : List (String × Value)) : Except Exception ℚ :=
  match py.float (Python.get event "duration" (.float (.finite (1 / 5)))) with
  | .ok x =>
    .ok (Python.Double.max (.finite (1 / 100)) (Python.Double.min x (.finite 5))).toRat
  | .error e => .error e

/-- The command at a key that holds one. -/
def single (py : Runtime) (event : List (String × Value)) (key : String) : List String :=
  let value := Python.get event key .none
  if value.truthy then [py.str value] else []

/-- The commands at a key that holds several. -/
def several (py : Runtime) (event : List (String × Value)) (key : String) :
    Except Exception (List String) :=
  match (Python.get event key .none).orElse (.list []) with
  | .str s => .ok [s]
  | values =>
    match values.elements with
    | .ok vs => .ok (vs.map py.str)
    | .error e => .error e

/-- The commands of an event, in the order they are applied. -/
def eventCommands (py : Runtime) (event : List (String × Value)) :
    Except Exception (List String) :=
  match several py event "buttons" with
  | .error e => .error e
  | .ok buttons =>
    match several py event "commands" with
    | .error e => .error e
    | .ok commands =>
      .ok (single py event "command" ++ single py event "button" ++ single py event "dpad" ++
        buttons ++ commands)

/-- What an event gives for the left and the right stick. -/
def eventSticks (py : Runtime) (event : List (String × Value)) : Value × Value :=
  let left := Python.get event "left" .none
  let right := Python.get event "right" .none
  let target : Value :=
    .dict [("x", Python.get event "x" (.int 0)), ("y", Python.get event "y" (.int 0))]
  if (Python.get event "stick" .none).truthy ∧
      (Python.has event "x" ∨ Python.has event "y") then
    let stick := py.lower (py.str (Python.get event "stick" .none))
    if stick = "left" ∨ stick = "l" then (target, right)
    else if stick = "right" ∨ stick = "r" then (left, target)
    else (left, right)
  else (left, right)

/-- The assignments to the axes of one stick. -/
def stickAxes (x y : Nat) : Value → List (Nat × Value)
  | .dict d => [(x, Python.get d "x" (.int 0)), (y, Python.get d "y" (.int 0))]
  | _ => []

/-- Assignments to axes, up to the first that raises. -/
def assignAxes (py : Runtime) (deadline : ℚ) (s : PadSocket) :
    List (Nat × Value) → PadSocket × Option Exception
  | [] => (s, none)
  | (i, value) :: rest =>
    match clampAxis py value with
    | .error e => (s, some e)
    | .ok x =>
      assignAxes py deadline { s with axisUntil := s.axisUntil.insert i (x, deadline) } rest

/-- `apply_event`, with the clock it reads. -/
def applyEvent (py : Runtime) (reading : ℚ) (s : PadSocket) (event : Value) :
    PadSocket × Option Exception :=
  match event with
  | .dict event =>
    match eventDuration py event with
    | .error e => (s, some e)
    | .ok duration =>
      match eventCommands py event with
      | .error e => (s, some e)
      | .ok commands =>
        let deadline := reading + duration
        let sticks := eventSticks py event
        assignAxes py deadline (commands.foldl (applyCommand py deadline) s)
          (stickAxes 0 1 sticks.1 ++ stickAxes 3 4 sticks.2)
  -- only dictionaries have `get`
  | _ => (s, some .attributeError)

end PadSocket

/-! ## Runs -/

/-- What happens to the tables: an event is applied, or expired entries are thrown out. -/
inductive SocketStep where
  | apply (reading : ℚ) (event : Value)
  | expire (now : ℚ)

/-- The questions `build_packet` asks. -/
inductive Query where
  | btn (i : Nat)
  | extraButtons
  | axis (i : Nat)
  | hat
deriving DecidableEq, Repr

namespace PadSocket

def next (py : Runtime) (s : PadSocket) : SocketStep → PadSocket
  | .apply reading event => (applyEvent py reading s event).1
  | .expire now => s.expire now

/-- The answers, each from the state and the clock of its own moment. -/
def readings (moment : Query → PadSocket × ℚ) : Readings where
  btn i := (moment (.btn i)).1.btn (moment (.btn i)).2 i
  axis i := (moment (.axis i)).1.axis (moment (.axis i)).2 i
  hat := (moment .hat).1.hat (moment .hat).2
  extraButtons := (moment .extraButtons).1.extraButtons (moment .extraButtons).2
  isPressed _ := false

end PadSocket
end XInputSwitch
