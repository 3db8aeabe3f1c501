import XInputSwitch.Datatypes
import XInputSwitch.Lines
import XInputSwitch.SocketPresses

/-! # The lines of a connection

`_handle_client` and `_handle_line` of `PadSocket`: a connection sends lines, each an
event in JSON or the name of a command.  Whatever `_handle_line` raises ends the thread
of the connection, and with it every line that is still to come; which lines do that is
said by their shape (`Stops`), not by running them (`handleLine_raises_iff`).  As long as no
line raises, the lines it gets do not depend on how the bytes arrive (`line_framing`).

Other threads take their turns between two lines: an arbitrary change of the shared
state, and the clock of the next one (`Turn`).  The status file that is written at the
end of `_handle_line` is left out; nothing reads it here and its errors are caught.
-/
namespace XInputSwitch

open Python (Value Runtime Exception Codec)

/-! ## One line -/

/-- The state that the connections share. -/
structure SocketServer where
  pad : PadSocket
  activePeers : Nat
  totalEvents : Nat
  lastPeer : String
  lastEvent : String
  lastEventAt : String

/-- What comes between a line and the one before it. -/
structure Turn where
  /-- what other threads do meanwhile -/
  others : SocketServer → SocketServer
  /-- `time.time()` -/
  reading : ℚ
  /-- the time of day, as text -/
  stamp : String

/-- The event of a line that is not empty. -/
def lineEvent (codec : Codec) (line : String) : Except Exception Value :=
  match codec.loads line with
  | .ok event => .ok event
  | .error .jsonDecodeError => .ok (.dict [("command", .str line)])
  | .error (.raised e) => .error e

/-- `last_event`. -/
def eventLabel (py : Runtime) (event : List (String × Value)) : String :=
  let value (key : String) : Value := Python.get event key .none
  py.str ((((((value "command").orElse (value "button")).orElse (value "dpad")).orElse
    (value "buttons")).orElse (value "commands")).orElse (.str "input"))

/-- `_handle_line`. -/
def SocketServer.handleLine (py : Runtime) (codec : Codec) (peer : String) (turn : Turn)
    (s : SocketServer) (line : String) : SocketServer × Option Exception :=
  if line = "" then (s, none)
  else
    match lineEvent codec line with
    | .error e => (s, some e)
    | .ok event =>
      let s := { s with totalEvents := s.totalEvents + 1, lastPeer := peer }
      match event with
      | .dict entries =>
        let s := { s with lastEvent := eventLabel py entries, lastEventAt := turn.stamp }
        let applied := s.pad.applyEvent py turn.reading event
        ({ s with pad := applied.1 }, applied.2)
      -- only dictionaries have `get`
      | _ => (s, some .attributeError)

/-! ## The connection -/

/-- The thread of a connection: the shared state, the number of lines it has taken, and
the exception that ended it. -/
structure Handler where
  server : SocketServer
  taken : Nat
  ended : Option Exception

/-- The text of a line. -/
def lineText (codec : Codec) (bytes : List Byte) : String := Python.strip (codec.decode bytes)

/-- The body of the inner loop of `_handle_client`.  Nothing happens after an exception. -/
def Handler.line (py : Runtime) (codec : Codec) (peer : String) (turns : Nat → Turn)
    (h : Handler) (bytes : List Byte) : Handler :=
  match h.ended with
  | some _ => h
  | none =>
    let turn := turns h.taken
    let handled := (turn.others h.server).handleLine py codec peer turn (lineText codec bytes)
    ⟨handled.1, h.taken + 1, handled.2⟩

/-- `\n`. -/
def newline : Byte := 0x0A

/-- The `finally` of `_handle_client`. -/
def Handler.close (h : Handler) : Handler :=
  { h with server := { h.server with activePeers := h.server.activePeers - 1 } }

/-- `_handle_client`, with what `recv` returns until the connection is closed. -/
def handleClient (py : Runtime) (codec : Codec) (peer : String) (turns : Nat → Turn)
    (s : SocketServer) (chunks : List (List Byte)) : Handler :=
  (Trace.run (Lines.feed newline (Handler.line py codec peer turns)) (⟨s, 0, none⟩, [])
    chunks).1.close

/-! ## Which lines end it -/

/-- An event that `apply_event` applies to its end: a duration that `float` accepts (or
none), lists that are lists, and no stick given by a whole number too great for a float. -/
structure Harmless (py : Runtime) (event : List (String × Value)) : Prop where
  duration : (py.float (Python.get event "duration" (.float (.finite (1 / 5))))).isOk = true
  buttons : (Python.get event "buttons" .none).loops = true
  commands : (Python.get event "commands" .none).loops = true
  sticks : ∀ a ∈ PadSocket.stickAxes 0 1 (PadSocket.eventSticks py event).1 ++
    PadSocket.stickAxes 3 4 (PadSocket.eventSticks py event).2, a.2.overflows = false

namespace PadSocket

theorem clampAxis_isOk (py : Runtime) (v : Value) : (clampAxis py v).isOk = !v.overflows := by
  unfold clampAxis
  rcases py.float_cases v with ⟨⟨x, hx⟩, hv⟩ | ⟨hx | hx, hv⟩ | ⟨hx, hv⟩ <;> rw [hx, hv] <;> rfl

theorem assignAxes_raises_iff (py : Runtime) (deadline : ℚ) (axes : List (Nat × Value))
    (s : PadSocket) :
    (assignAxes py deadline s axes).2 = none ↔ ∀ a ∈ axes, a.2.overflows = false := by
  induction axes generalizing s with
  | nil => simp [assignAxes]
  | cons a axes ih =>
    have ha := clampAxis_isOk py a.2
    unfold assignAxes
    cases hclamp : clampAxis py a.2 with
    | error e =>
      rw [hclamp] at ha
      have hover : a.2.overflows = true := by simpa [Except.isOk, Except.toBool] using ha.symm
      simp [hover]
    | ok x =>
      rw [hclamp] at ha
      have hover : a.2.overflows = false := by simpa [Except.isOk, Except.toBool] using ha.symm
      simp [hover, ih]

theorem eventDuration_isOk (py : Runtime) (event : List (String × Value)) :
    (eventDuration py event).isOk =
      (py.float (Python.get event "duration" (.float (.finite (1 / 5))))).isOk := by
  unfold eventDuration
  cases py.float (Python.get event "duration" (.float (.finite (1 / 5)))) <;> rfl

/-- Which events raise. -/
theorem applyEvent_raises_iff (py : Runtime) (reading : ℚ) (s : PadSocket)
    (event : List (String × Value)) :
    (applyEvent py reading s (.dict event)).2 = none ↔ Harmless py event := by
  have hduration := eventDuration_isOk py event
  have hcommands := eventCommands_isOk py event
  cases hd : eventDuration py event with
  | error e =>
    rw [hd] at hduration
    simp only [applyEvent, hd, reduceCtorEq, false_iff]
    intro h
    exact Bool.false_ne_true (hduration.trans h.duration)
  | ok d =>
    rw [hd] at hduration
    cases hc : eventCommands py event with
    | error e =>
      rw [hc] at hcommands
      simp only [applyEvent, hd, hc, reduceCtorEq, false_iff]
      intro h
      rw [h.buttons, h.commands] at hcommands
      exact Bool.false_ne_true hcommands
    | ok commands =>
      rw [hc] at hcommands
      obtain ⟨hbuttons, hmore⟩ := Bool.and_eq_true_iff.mp hcommands.symm
      rw [applyEvent_dict hd hc, assignAxes_raises_iff]
      exact ⟨fun h => ⟨hduration.symm, hbuttons, hmore, h⟩, fun h => h.sticks⟩

end PadSocket

/-- The lines after which nothing of a connection is read any more: JSON that is no
object, JSON that `json.loads` gives up on, and objects that `apply_event` gives up on. -/
def Stops (py : Runtime) (codec : Codec) (line : String) : Prop :=
  line ≠ "" ∧
    match codec.loads line with
    | .ok (.dict event) => ¬ Harmless py event
    | .ok _ => True
    | .error .jsonDecodeError => False
    | .error (.raised _) => True

/-- A command in plain text is harmless. -/
theorem harmless_command (py : Runtime) (line : String) : Harmless py [("command", .str line)] := by
  refine ⟨rfl, rfl, rfl, fun a ha => ?_⟩
  cases ha

theorem SocketServer.handleLine_raises_iff (py : Runtime) (codec : Codec) (peer : String)
    (turn : Turn) (s : SocketServer) (line : String) :
    (s.handleLine py codec peer turn line).2 = none ↔ ¬ Stops py codec line := by
  unfold handleLine Stops
  by_cases hline : line = ""
  · simp [hline]
  · rw [if_neg hline]
    unfold lineEvent
    cases codec.loads line with
    | error e =>
      cases e with
      | raised e => simp [hline]
      | jsonDecodeError =>
        simp only [PadSocket.applyEvent_raises_iff, harmless_command, and_false, not_false_eq_true]
    | ok v =>
      cases v with
      | dict event => simp [hline, PadSocket.applyEvent_raises_iff]
      | _ => simp [hline]

section Handler
variable (py : Runtime) (codec : Codec) (peer : String) (turns : Nat → Turn)

theorem Handler.line_running {h : Handler} (hrunning : h.ended = none) (bytes : List Byte) :
    h.line py codec peer turns bytes =
      let turn := turns h.taken
      let handled := (turn.others h.server).handleLine py codec peer turn (lineText codec bytes)
      ⟨handled.1, h.taken + 1, handled.2⟩ := by
  simp only [Handler.line, hrunning]

theorem Handler.line_ended {h : Handler} {e : Exception} (hended : h.ended = some e)
    (bytes : List Byte) : h.line py codec peer turns bytes = h := by
  simp only [Handler.line, hended]

/-- One line ends the connection or not, whatever the state. -/
theorem Handler.line_ended_iff {h : Handler} (hrunning : h.ended = none) (bytes : List Byte) :
    (h.line py codec peer turns bytes).ended = none ↔ ¬ Stops py codec (lineText codec bytes) := by
  rw [Handler.line_running py codec peer turns hrunning]
  exact SocketServer.handleLine_raises_iff ..

theorem Handler.run_ended {h : Handler} {e : Exception} (hended : h.ended = some e)
    (lines : List (List Byte)) : Trace.run (Handler.line py codec peer turns) h lines = h := by
  induction lines with
  | nil => rfl
  | cons bytes lines ih => rw [Trace.run_cons, Handler.line_ended py codec peer turns hended, ih]

/-- **A connection lasts until the first line that stops it.** -/
theorem Handler.run_ended_iff {h : Handler} (hrunning : h.ended = none)
    (lines : List (List Byte)) :
    (Trace.run (Handler.line py codec peer turns) h lines).ended = none ↔
      ∀ bytes ∈ lines, ¬ Stops py codec (lineText codec bytes) := by
  induction lines generalizing h with
  | nil => simp [hrunning]
  | cons bytes lines ih =>
    rw [Trace.run_cons, List.forall_mem_cons, ← Handler.line_ended_iff py codec peer turns hrunning]
    cases hended : (h.line py codec peer turns bytes).ended with
    | none => simp only [ih hended, true_and]
    | some e =>
      rw [Handler.run_ended py codec peer turns hended, hended]
      simp

/-- How a connection was cut into chunks makes no difference. -/
theorem handleClient_eq (s : SocketServer) (chunks : List (List Byte)) :
    handleClient py codec peer turns s chunks =
      (Trace.run (Handler.line py codec peer turns) ⟨s, 0, none⟩
        (Lines.cut newline chunks.flatten).1).close := by
  rw [handleClient, Lines.run_feed newline _ _ rfl]
  rfl

end Handler

/-- The lines that are events, with the event: objects whose duration is a number or
missing, and everything that is not JSON. -/
inductive ValidEvent (codec : Codec) (line : String) : List (String × Value) → Prop
  | object {event : List (String × Value)} (hline : line ≠ "")
    (h : codec.loads line = .ok (.dict event))
    (hduration : event.lookup "duration" = none ∨
      (∃ n, event.lookup "duration" = some (.int n)) ∨
      ∃ x, event.lookup "duration" = some (.float x)) : ValidEvent codec line event
  | text (hline : line ≠ "") (h : codec.loads line = .error .jsonDecodeError) :
    ValidEvent codec line [("command", .str line)]

theorem ValidEvent.lineEvent_eq {codec : Codec} {line : String} {event : List (String × Value)}
    (h : ValidEvent codec line event) : line ≠ "" ∧ lineEvent codec line = .ok (.dict event) := by
  cases h with
  | object hline h _ => exact ⟨hline, by simp only [lineEvent, h]⟩
  | text hline h => exact ⟨hline, by simp only [lineEvent, h]⟩

/-- The line is handled to its end and has its event's effect on the controller. -/
structure Counted (py : Runtime) (codec : Codec) (peer : String) (turns : Nat → Turn)
    (h : Handler) (bytes : List Byte) (event : List (String × Value)) : Prop where
  running : (h.line py codec peer turns bytes).ended = none
  effect : (h.line py codec peer turns bytes).server.pad =
    (((turns h.taken).others h.server).pad.applyEvent py (turns h.taken).reading (.dict event)).1

/-- **Which lines count.**  The lines of a connection are those of the whole stream; every
event among them has its effect if and only if neither it nor a line before it is one that
stops the connection. -/
theorem socket_lines_counted (py : Runtime) (codec : Codec) (peer : String) (turns : Nat → Turn)
    (s : SocketServer) (chunks : List (List Byte)) :
    let lines := (Lines.cut newline chunks.flatten).1
    let handle := Trace.run (Handler.line py codec peer turns) ⟨s, 0, none⟩
    handleClient py codec peer turns s chunks = (handle lines).close ∧
    ((∀ before bytes after event, lines = before ++ bytes :: after →
        ValidEvent codec (lineText codec bytes) event →
        Counted py codec peer turns (handle before) bytes event) ↔
      ∀ before bytes after event, lines = before ++ bytes :: after →
        ValidEvent codec (lineText codec bytes) event →
        ∀ earlier ∈ before ++ [bytes], ¬ Stops py codec (lineText codec earlier)) := by
  intro lines handle
  refine ⟨handleClient_eq py codec peer turns s chunks, ?_⟩
  have hended := Handler.run_ended_iff py codec peer turns (h := ⟨s, 0, none⟩) rfl
  constructor
  · intro h before bytes after event hlines hvalid
    rw [← hended, Trace.run_append]
    exact (h before bytes after event hlines hvalid).running
  · intro h before bytes after event hlines hvalid
    have hnone := h before bytes after event hlines hvalid
    have hbefore : (handle before).ended = none :=
      (hended before).mpr fun b hb => hnone b (List.mem_append_left _ hb)
    rw [← hended, Trace.run_append] at hnone
    refine ⟨hnone, ?_⟩
    obtain ⟨hline, hevent⟩ := hvalid.lineEvent_eq
    rw [Handler.line_running py codec peer turns hbefore]
    simp only [SocketServer.handleLine, if_neg hline, hevent]

/-- The lines `5` and `a`: the first ends the connection, and A is not pressed, as it is by
the second line alone. -/
theorem socket_line_five_stops :
    let s : SocketServer := ⟨.initial, 1, 0, "", "", ""⟩
    let client := handleClient .ascii .digits "peer" (fun _ => ⟨id, 100, ""⟩) s
    ValidEvent .digits (lineText .digits [0x61]) [("command", .str "a")] ∧
      (client [[0x35, 0x0A, 0x61, 0x0A]]).ended = some .attributeError ∧
      (client [[0x35, 0x0A, 0x61, 0x0A]]).server.pad = .initial ∧
      (client [[0x61, 0x0A]]).server.pad.btn 100 1 = true := by
  intro s client
  refine ⟨.text (by decide) rfl, ?_⟩
  simp only [client, handleClient_eq]
  exact ⟨by decide +kernel, rfl, by decide +kernel⟩

/-! ## Which lines are handled -/

/-- A line passed to `_handle_line`, unless an exception came before it. -/
def Handler.record (py : Runtime) (codec : Codec) (peer : String) (turns : Nat → Turn)
    (r : Handler × List String) (bytes : List Byte) : Handler × List String :=
  (r.1.line py codec peer turns bytes,
    match r.1.ended with
    | none => r.2 ++ [lineText codec bytes]
    | some _ => r.2)

/-- The outer loop of `_handle_client`, which an empty chunk ends: the thread, and the lines
it has passed to `_handle_line`. -/
def clientLoop (py : Runtime) (codec : Codec) (peer : String) (turns : Nat → Turn)
    (s : SocketServer) (chunks : List (List Byte)) : Handler × List String :=
  (Lines.serve newline (Handler.record py codec peer turns) ((⟨s, 0, none⟩, []), []) chunks).1

section Record
variable (py : Runtime) (codec : Codec) (peer : String) (turns : Nat → Turn)

/-- To record the lines changes nothing. -/
theorem Handler.run_record_fst (r : Handler × List String) (lines : List (List Byte)) :
    (Trace.run (Handler.record py codec peer turns) r lines).1 =
      Trace.run (Handler.line py codec peer turns) r.1 lines := by
  induction lines generalizing r with
  | nil => rfl
  | cons bytes lines ih =>
    rw [Trace.run_cons, ih, Trace.run_cons]
    rfl

/-- As long as nothing is raised, every line is passed on. -/
theorem Handler.run_record_snd {h : Handler} (hrunning : h.ended = none) (passed : List String)
    {lines : List (List Byte)}
    (hlines : (Trace.run (Handler.line py codec peer turns) h lines).ended = none) :
    (Trace.run (Handler.record py codec peer turns) (h, passed) lines).2 =
      passed ++ lines.map (lineText codec) := by
  induction lines generalizing h passed with
  | nil => simp
  | cons bytes lines ih =>
    rw [Trace.run_cons] at hlines ⊢
    have hrecord : Handler.record py codec peer turns (h, passed) bytes =
        (h.line py codec peer turns bytes, passed ++ [lineText codec bytes]) := by
      simp only [Handler.record, hrunning]
    rw [hrecord]
    cases hended : (h.line py codec peer turns bytes).ended with
    | none => rw [ih hended _ hlines, List.map_cons, List.append_assoc, List.singleton_append]
    | some e =>
      -- an exception would have lasted
      rw [Handler.run_ended py codec peer turns hended, hended] at hlines
      cases hlines

/-- The loop is `_handle_client`. -/
theorem clientLoop_eq (s : SocketServer) {chunks : List (List Byte)}
    (h : ∀ chunk ∈ chunks, chunk ≠ []) :
    clientLoop py codec peer turns s chunks =
      Trace.run (Handler.record py codec peer turns) (⟨s, 0, none⟩, [])
        (Lines.cut newline chunks.flatten).1 := by
  rw [clientLoop, Lines.serve_eq_run newline _ _ h, Lines.run_feed newline _ _ rfl]
  rfl

theorem clientLoop_fst (s : SocketServer) {chunks : List (List Byte)}
    (h : ∀ chunk ∈ chunks, chunk ≠ []) :
    (clientLoop py codec peer turns s chunks).1.close =
      handleClient py codec peer turns s chunks := by
  rw [clientLoop_eq py codec peer turns s h, Handler.run_record_fst, handleClient_eq]

end Record

/-- **Lines do not depend on chunks.**  However the bytes of a connection are cut into
chunks, if no line raises then `_handle_line` gets what stands between the newlines of the
whole stream, decoded and stripped, in order, and not what follows the last one. -/
theorem line_framing (py : Runtime) (codec : Codec) (peer : String) (turns : Nat → Turn)
    (s : SocketServer) {chunks : List (List Byte)} (hchunks : ∀ chunk ∈ chunks, chunk ≠ [])
    (hraise : (clientLoop py codec peer turns s chunks).1.ended = none) :
    (clientLoop py codec peer turns s chunks).2 =
      (chunks.flatten.splitOn newline).dropLast.map (lineText codec) := by
  rw [clientLoop_eq py codec peer turns s hchunks] at hraise ⊢
  rw [Handler.run_record_fst] at hraise
  rw [Handler.run_record_snd py codec peer turns rfl [] hraise, ← Lines.cut_eq_splitOn,
    List.dropLast_concat, List.nil_append]

/-- Three chunks that end inside lines. -/
theorem line_framing_three :
    let s : SocketServer := ⟨.initial, 1, 0, "", "", ""⟩
    (clientLoop .ascii .digits "peer" (fun _ => ⟨id, 100, ""⟩) s
      [[0x61], [0x0A, 0x20, 0x62], [0x20, 0x0A, 0x0A, 0x78]]).2 = ["a", "b", ""] := by
  intro s
  have hchunks : ∀ chunk ∈ ([[0x61], [0x0A, 0x20, 0x62], [0x20, 0x0A, 0x0A, 0x78]] :
      List (List Byte)), chunk ≠ [] := by decide
  rw [line_framing .ascii .digits "peer" (fun _ => ⟨id, 100, ""⟩) s hchunks]
  · decide +kernel
  · rw [clientLoop_eq _ _ _ _ s hchunks]
    decide +kernel

end XInputSwitch
