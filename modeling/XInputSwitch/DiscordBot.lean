import Mathlib.Data.List.AList
import XInputSwitch.Python
import XInputSwitch.Trace

/-! # The Discord bot

`discord_input_bot.py`: messages in a channel become events for the socket controller.

`on_message` is a coroutine, and any number of its tasks are under way at once.  A task
gives way only where it awaits a thread: while a privileged command is written to the
audit log, and while an event is sent.  A run is therefore any sequence of three steps
(`BotStep`): a message arrives and its task runs to the first wait, or the thread of a
waiting task is done and the task runs on.  What a step does outside is its list of
effects.

Connection errors of `send_event` are caught; an error while the log is written ends the
task.
-/
namespace XInputSwitch

open Python (Value Runtime)

/-! ## Configuration and commands -/

/-- `COMMAND_ALIASES`. -/
def commandAliases : List (String × String) :=
  [("a", "a"), ("b", "b"), ("x", "x"), ("y", "y"), ("up", "up"), ("u", "up"), ("down", "down"),
   ("d", "down"), ("left", "left"), ("l", "left"), ("right", "right"), ("r", "right"),
   ("l1", "l"), ("lb", "l"), ("r1", "r"), ("rb", "r"), ("zl", "zl"), ("lt", "zl"), ("zr", "zr"),
   ("rt", "zr"), ("plus", "plus"), ("start", "plus"), ("minus", "minus"), ("select", "minus"),
   ("home", "home"), ("capture", "capture"), ("screenshot", "capture")]

/-- `Config`, as far as `on_message` reads it. -/
structure BotConfig where
  channelId : Int
  commandPrefix : String
  duration : ℚ
  cooldown : ℚ
  allowedUserIds : List Int
  privilegedUserIds : List Int
  privilegedCommands : List String
deriving DecidableEq

/-- What `load_config` makes of `DISCORD_PRIVILEGED_COMMANDS`. -/
def privilegedCommandsOf (py : Runtime) (setting : String) : List String :=
  ((setting.toList.splitOn ',').map fun item => py.lower (Python.strip (String.ofList item))).filter
    (· ≠ "")

structure BotMessage where
  id : Int
  authorId : Int
  authorIsBot : Bool
  channelId : Int
  content : String
deriving DecidableEq, Repr

/-- The result of `parse_command`. -/
structure BotCommand where
  command : String
  raw : String
deriving DecidableEq, Repr

/-- The text after the prefix. -/
def afterPrefix (commandPrefix text : String) : Option String :=
  if commandPrefix = "" then some text
  else if commandPrefix.toList.isPrefixOf text.toList then
    some (Python.strip (String.ofList (text.toList.drop commandPrefix.toList.length)))
  else none

/-- `parse_command`. -/
def parseCommand (py : Runtime) (content commandPrefix : String) : Option BotCommand :=
  match afterPrefix commandPrefix (py.lower (Python.strip content)) with
  | none => none
  | some text =>
    if text = "" then none
    else
      let token := Python.firstWord text
      (commandAliases.lookup token).map fun command => ⟨command, token⟩

/-- The command is the one the word is an alias of. -/
theorem parseCommand_alias {py : Runtime} {content commandPrefix : String} {c : BotCommand}
    (h : parseCommand py content commandPrefix = some c) :
    commandAliases.lookup c.raw = some c.command := by
  unfold parseCommand at h
  split at h
  · cases h
  · split at h
    · cases h
    · obtain ⟨command, hlookup, rfl⟩ := Option.map_eq_some_iff.mp h
      exact hlookup

/-- The event that `send_event` sends. -/
def BotCommand.event (cfg : BotConfig) (c : BotCommand) : Value :=
  .dict [("command", .str c.command), ("raw", .str c.raw),
    ("duration", .float (.finite cfg.duration))]

/-! ## Tasks -/

/-- The threads a task waits for. -/
inductive BotWait where
  | audit (allowed : Bool)
  | relay
deriving DecidableEq, Repr

/-- A task of `on_message` that waits. -/
structure BotTask where
  message : BotMessage
  command : BotCommand
  wait : BotWait
deriving DecidableEq, Repr

structure InputBot where
  lastByUser : AList fun _ : Int => ℚ
  tasks : List BotTask

def InputBot.initial : InputBot := ⟨∅, []⟩

/-- What the world sees. -/
inductive BotEffect where
  /-- a line of the audit log -/
  | audit (message : BotMessage) (command : BotCommand) (allowed : Bool)
  /-- a call of `send_event`, at the time entered in `last_by_user` -/
  | send (message : BotMessage) (command : BotCommand) (now : ℚ)
deriving DecidableEq

inductive BotStep where
  | message (m : BotMessage) (now : ℚ)
  /-- the log is written for the task at this place, or not -/
  | audited (task : Nat) (written : Bool) (now : ℚ)
  | relayed (task : Nat)
deriving DecidableEq

namespace InputBot

/-- The two filters at the head of `on_message`. -/
def accepts (cfg : BotConfig) (m : BotMessage) : Bool :=
  !m.authorIsBot && m.channelId = cfg.channelId &&
    (cfg.allowedUserIds.isEmpty || m.authorId ∈ cfg.allowedUserIds)

/-- The end of `on_message`: the cooldown, and the call of `send_event`. -/
def relay (cfg : BotConfig) (b : InputBot) (m : BotMessage) (c : BotCommand) (now : ℚ) :
    InputBot × List BotEffect :=
  if now - (b.lastByUser.lookup m.authorId).getD 0 < cfg.cooldown then (b, [])
  else
    (⟨b.lastByUser.insert m.authorId now, b.tasks ++ [⟨m, c, .relay⟩]⟩, [.send m c now])

/-- One step, with its effects. -/
def step (py : Runtime) (cfg : BotConfig) (b : InputBot) : BotStep → InputBot × List BotEffect
  | .message m now =>
    if accepts cfg m then
      match parseCommand py m.content cfg.commandPrefix with
      | none => (b, [])
      | some c =>
        if c.command ∈ cfg.privilegedCommands then
          ({ b with tasks := b.tasks ++ [⟨m, c, .audit (m.authorId ∈ cfg.privilegedUserIds)⟩] }, [])
        else relay cfg b m c now
    else (b, [])
  | .audited k written now =>
    match b.tasks[k]? with
    | some ⟨m, c, .audit allowed⟩ =>
      let b := { b with tasks := b.tasks.eraseIdx k }
      if written then
        if allowed then
          let relayed := relay cfg b m c now
          (relayed.1, .audit m c true :: relayed.2)
        else (b, [.audit m c false])
      else (b, [])
    | _ => (b, [])
  | .relayed k =>
    match b.tasks[k]? with
    | some ⟨_, _, .relay⟩ => ({ b with tasks := b.tasks.eraseIdx k }, [])
    | _ => (b, [])

def next (py : Runtime) (cfg : BotConfig) (b : InputBot) (e : BotStep) : InputBot :=
  (b.step py cfg e).1

/-- Everything a run does outside, in order. -/
def effects (py : Runtime) (cfg : BotConfig) (es : List BotStep) : List BotEffect :=
  Trace.observe (next py cfg) (fun b e => (b.step py cfg e).2) initial es

end InputBot
end XInputSwitch
