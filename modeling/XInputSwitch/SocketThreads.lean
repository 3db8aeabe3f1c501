import XInputSwitch.SocketLines

/-! # The threads of the socket controller

`PadSocket` runs one thread that accepts connections and one for each of them, and the main
loop throws expired entries out.  They share everything and meet at one lock.  Between two
lines of a connection, and also inside one (`_handle_line` counts the event in one locked
block, and applies it in another), any of the others may run.  A run is therefore any order
of the locked blocks (`ServerEvent`); what a thread does between two of them it does alone.

In every order, the tables are those of the applied events one after the other, every
connection has applied the events of its lines in their order, none lost and none twice,
up to the first line that raises, and `active_peers` is the number of open connections
(`socket_threads`).
-/
namespace XInputSwitch

open Python (Value Runtime Exception Codec)

/-! ## The blocks of a thread -/

/-- Where the thread of a connection is. -/
inductive ClientPhase where
  /-- in the loops of `_handle_client` -/
  | reading
  /-- between the two blocks of `_handle_line` -/
  | counted (event : List (String × Value))
  /-- before the block of the `finally`, with the exception that led there -/
  | leaving (raised : Option Exception)
  | closed (raised : Option Exception)

/-- The exception that ended the thread. -/
def ClientPhase.raised : ClientPhase → Option Exception
  | .reading => none
  | .counted _ => none
  | .leaving raised => raised
  | .closed raised => raised

/-- The event that is counted and not yet applied. -/
def ClientPhase.pending : ClientPhase → List (List (String × Value))
  | .counted event => [event]
  | _ => []

/-- The thread of a connection. -/
structure Client where
  peer : String
  buf : List Byte
  phase : ClientPhase

/-- `_handle_line` to the end of its first block. -/
def SocketServer.countLine (py : Runtime) (codec : Codec) (peer stamp : String) (s : SocketServer)
    (line : String) : SocketServer × ClientPhase :=
  if line = "" then (s, .reading)
  else
    match lineEvent codec line with
    | .error e => (s, .leaving (some e))
    | .ok event =>
      let s := { s with totalEvents := s.totalEvents + 1, lastPeer := peer }
      match event with
      | .dict entries =>
        ({ s with lastEvent := eventLabel py entries, lastEventAt := stamp }, .counted entries)
      -- only dictionaries have `get`
      | _ => (s, .leaving (some .attributeError))

/-- The rest of `_handle_line`: `apply_event`, with the clock it reads. -/
def SocketServer.applyCounted (py : Runtime) (reading : ℚ) (s : SocketServer)
    (event : List (String × Value)) : SocketServer × ClientPhase :=
  let applied := s.pad.applyEvent py reading (.dict event)
  ({ s with pad := applied.1 },
    match applied.2 with
    | none => .reading
    | some e => .leaving (some e))

/-- If nothing comes between the two blocks, they are `_handle_line`. -/
theorem SocketServer.handleLine_eq (py : Runtime) (codec : Codec) (peer : String) (turn : Turn)
    (s : SocketServer) (line : String) :
    s.handleLine py codec peer turn line =
      let counted := s.countLine py codec peer turn.stamp line
      match counted.2 with
      | .counted event =>
        let applied := counted.1.applyCounted py turn.reading event
        (applied.1, applied.2.raised)
      | phase => (counted.1, phase.raised) := by
  unfold handleLine countLine
  by_cases hline : line = ""
  · simp [hline, ClientPhase.raised]
  · rw [if_neg hline, if_neg hline]
    cases lineEvent codec line with
    | error e => rfl
    | ok v =>
      cases v with
      | dict event =>
        simp only [applyCounted]
        cases (s.pad.applyEvent py turn.reading (.dict event)).2 <;> rfl
      | _ => rfl

/-- What a thread does next. -/
inductive ThreadStep where
  /-- `recv` returns; the empty chunk stands for the end of the connection, also if `recv`
  raises -/
  | receive (chunk : List Byte)
  /-- a line is taken from the buffer, and counted at this time of day -/
  | line (stamp : String)
  /-- the counted event is applied, with the clock read before -/
  | apply (reading : ℚ)
  | leave

namespace Client

/-- One step of `_handle_client`.  Nothing happens if the thread is not there. -/
def next (py : Runtime) (codec : Codec) (s : SocketServer) (c : Client) :
    ThreadStep → SocketServer × Client
  | .receive chunk =>
    match c.phase, Lines.takeLine newline c.buf with
    | .reading, none =>
      if chunk = [] then (s, { c with phase := .leaving none })
      else (s, { c with buf := c.buf ++ chunk })
    | _, _ => (s, c)
  | .line stamp =>
    match c.phase, Lines.takeLine newline c.buf with
    | .reading, some (bytes, rest) =>
      let counted := s.countLine py codec c.peer stamp (lineText codec bytes)
      (counted.1, { c with buf := rest, phase := counted.2 })
    | _, _ => (s, c)
  | .apply reading =>
    match c.phase with
    | .counted event =>
      let applied := s.applyCounted py reading event
      (applied.1, { c with phase := applied.2 })
    | _ => (s, c)
  | .leave =>
    match c.phase with
    | .leaving raised =>
      ({ s with activePeers := s.activePeers - 1 }, { c with phase := .closed raised })
    | _ => (s, c)

/-- The connection counts as an active peer. -/
def isOpen (c : Client) : Bool :=
  match c.phase with
  | .closed _ => false
  | _ => true

/-- The thread waits in `recv`. -/
def Waits (c : Client) : Prop := c.phase = .reading ∧ Lines.takeLine newline c.buf = none

/-- The connection has ended, and no line raised. -/
def Ended (c : Client) : Prop := c.phase = .leaving none ∨ c.phase = .closed none

end Client

/-! ## What a run shows -/

inductive ThreadEffect where
  | received (chunk : List Byte)
  | took (bytes : List Byte)
  | applied (reading : ℚ) (event : List (String × Value))

namespace ThreadEffect

def bytes : ThreadEffect → List Byte
  | .received chunk => chunk
  | _ => []

def line : ThreadEffect → Option (List Byte)
  | .took bytes => some bytes
  | _ => none

def event : ThreadEffect → Option (List (String × Value))
  | .applied _ event => some event
  | _ => none

/-- What happens to the tables. -/
def socketStep : ThreadEffect → Option SocketStep
  | .applied reading event => some (.apply reading (.dict event))
  | _ => none

end ThreadEffect

/-! The stream of a history, the lines taken from it and the events applied. -/

def bytesOf (history : List ThreadEffect) : List Byte := history.flatMap ThreadEffect.bytes

def linesOf (history : List ThreadEffect) : List (List Byte) :=
  history.filterMap ThreadEffect.line

def eventsOf (history : List ThreadEffect) : List (List (String × Value)) :=
  history.filterMap ThreadEffect.event

section History
variable (history : List ThreadEffect) (effect : ThreadEffect)

@[simp] theorem bytesOf_concat :
    bytesOf (history ++ [effect]) = bytesOf history ++ effect.bytes := by
  simp [bytesOf]

@[simp] theorem linesOf_concat :
    linesOf (history ++ [effect]) = linesOf history ++ effect.line.toList := by
  cases h : effect.line <;> simp [linesOf, h]

@[simp] theorem eventsOf_concat :
    eventsOf (history ++ [effect]) = eventsOf history ++ effect.event.toList := by
  cases h : effect.event <;> simp [eventsOf, h]

end History

/-- What a step of a thread shows. -/
def Client.effects (c : Client) : ThreadStep → List ThreadEffect
  | .receive chunk =>
    match c.phase, Lines.takeLine newline c.buf with
    | .reading, none => [.received chunk]
    | _, _ => []
  | .line _ =>
    match c.phase, Lines.takeLine newline c.buf with
    | .reading, some (bytes, _) => [.took bytes]
    | _, _ => []
  | .apply reading =>
    match c.phase with
    | .counted event => [.applied reading event]
    | _ => []
  | .leave => []

/-- The threads, with the state they share.  Connections are numbered as they come. -/
structure ServerThreads where
  server : SocketServer
  totalConnections : Nat
  clients : List Client

inductive ServerEvent where
  /-- the block of `_serve` -/
  | accept (peer : String)
  | thread (k : Nat) (step : ThreadStep)
  /-- `_expire`, called by the main loop -/
  | expire (now : ℚ)

inductive ServerEffect where
  | thread (k : Nat) (effect : ThreadEffect)
  | expired (now : ℚ)

/-- What the connection `k` does. -/
def ServerEffect.of (k : Nat) : ServerEffect → Option ThreadEffect
  | .thread j effect => if j = k then some effect else none
  | .expired _ => none

def ServerEffect.socketStep : ServerEffect → Option SocketStep
  | .thread _ effect => effect.socketStep
  | .expired now => some (.expire now)

def ServerEffect.line : ServerEffect → Option (List Byte)
  | .thread _ effect => effect.line
  | .expired _ => none

namespace ServerThreads

def initial : ServerThreads := ⟨⟨.initial, 0, 0, "", "", ""⟩, 0, []⟩

def next (py : Runtime) (codec : Codec) (s : ServerThreads) : ServerEvent → ServerThreads
  | .accept peer =>
    ⟨{ s.server with activePeers := s.server.activePeers + 1, lastPeer := peer },
      s.totalConnections + 1, s.clients ++ [⟨peer, [], .reading⟩]⟩
  | .thread k step =>
    match s.clients[k]? with
    | none => s
    | some c =>
      let moved := c.next py codec s.server step
      { s with server := moved.1, clients := s.clients.set k moved.2 }
  | .expire now => { s with server := { s.server with pad := s.server.pad.expire now } }

def view (s : ServerThreads) : ServerEvent → List ServerEffect
  | .accept _ => []
  | .thread k step =>
    match s.clients[k]? with
    | none => []
    | some c => (c.effects step).map (.thread k)
  | .expire now => [.expired now]

/-- Everything a run shows, in order. -/
def shown (py : Runtime) (codec : Codec) (es : List ServerEvent) : List ServerEffect :=
  Trace.observe (next py codec) view initial es

end ServerThreads

/-! ## What a step can do -/

/-- The event of a line that has one. -/
def lineDict (codec : Codec) (bytes : List Byte) : Option (List (String × Value)) :=
  if lineText codec bytes = "" then none
  else
    match lineEvent codec (lineText codec bytes) with
    | .ok (.dict event) => some event
    | _ => none

/-- The line is counted in `total_events`. -/
def Counts (codec : Codec) (bytes : List Byte) : Bool :=
  lineText codec bytes ≠ "" && (lineEvent codec (lineText codec bytes)).isOk

/-- What counting leaves alone. -/
structure SocketServer.SamePad (s s' : SocketServer) : Prop where
  pad : s'.pad = s.pad
  activePeers : s'.activePeers = s.activePeers

section CountLine
variable {py : Runtime} {codec : Codec} {peer stamp : String} {s : SocketServer}

/-- The three outcomes of the first block. -/
inductive CountLine (py : Runtime) (codec : Codec) (s : SocketServer) (bytes : List Byte) :
    SocketServer → ClientPhase → Prop
  | skipped (hdict : lineDict codec bytes = none) (hcounts : Counts codec bytes = false)
    (hstops : ¬ Stops py codec (lineText codec bytes)) : CountLine py codec s bytes s .reading
  | raised {s' : SocketServer} {e : Exception} (hsame : s.SamePad s')
    (htotal : s'.totalEvents = s.totalEvents + (Counts codec bytes).toNat)
    (hdict : lineDict codec bytes = none) (hstops : Stops py codec (lineText codec bytes)) :
    CountLine py codec s bytes s' (.leaving (some e))
  | counted {s' : SocketServer} {event : List (String × Value)} (hsame : s.SamePad s')
    (htotal : s'.totalEvents = s.totalEvents + (Counts codec bytes).toNat)
    (hdict : lineDict codec bytes = some event)
    (hstops : Stops py codec (lineText codec bytes) ↔ ¬ Harmless py event) :
    CountLine py codec s bytes s' (.counted event)

theorem SocketServer.countLine_cases (bytes : List Byte) :
    CountLine py codec s bytes
      (s.countLine py codec peer stamp (lineText codec bytes)).1
      (s.countLine py codec peer stamp (lineText codec bytes)).2 := by
  by_cases hline : lineText codec bytes = ""
  · rw [countLine, if_pos hline]
    exact .skipped (if_pos hline) (by simp [Counts, hline]) fun h => h.1 hline
  · rw [countLine, if_neg hline]
    cases hloads : codec.loads (lineText codec bytes) with
    | error e =>
      cases e with
      | raised e =>
        have hevent : lineEvent codec (lineText codec bytes) = .error e := by
          simp only [lineEvent, hloads]
        have hcounts : Counts codec bytes = false := by
          simp [Counts, hevent, Except.isOk, Except.toBool]
        simp only [hevent]
        refine .raised ⟨rfl, rfl⟩ (by rw [hcounts]; rfl) (by simp [lineDict, hevent]) ⟨hline, ?_⟩
        rw [hloads]
        trivial
      | jsonDecodeError =>
        have hevent : lineEvent codec (lineText codec bytes) =
            .ok (.dict [("command", .str (lineText codec bytes))]) := by
          simp only [lineEvent, hloads]
        have hcounts : Counts codec bytes = true := by
          simp [Counts, hevent, hline, Except.isOk, Except.toBool]
        simp only [hevent]
        refine .counted ⟨rfl, rfl⟩ (by rw [hcounts]; rfl) (by simp [lineDict, hevent, hline]) ?_
        simp [Stops, hloads, harmless_command]
    | ok v =>
      have hevent : lineEvent codec (lineText codec bytes) = .ok v := by
        simp only [lineEvent, hloads]
      have hcounts : Counts codec bytes = true := by
        simp [Counts, hevent, hline, Except.isOk, Except.toBool]
      simp only [hevent]
      cases v with
      | dict event =>
        refine .counted ⟨rfl, rfl⟩ (by rw [hcounts]; rfl) (by simp [lineDict, hevent, hline]) ?_
        simp [Stops, hloads, hline]
      | _ =>
        refine .raised ⟨rfl, rfl⟩ (by rw [hcounts]; rfl) (by simp [lineDict, hevent]) ⟨hline, ?_⟩
        rw [hloads]
        trivial

theorem CountLine.pad_eq {s' : SocketServer} {bytes : List Byte} {phase : ClientPhase}
    (h : CountLine py codec s bytes s' phase) : s'.pad = s.pad := by
  cases h with
  | skipped _ _ _ => rfl
  | raised hsame _ _ _ | counted hsame _ _ _ => exact hsame.pad

end CountLine

namespace Client

/-- What a step of a thread can do. -/
inductive Moves (py : Runtime) (codec : Codec) (s : SocketServer) (c : Client) :
    SocketServer → Client → List ThreadEffect → Prop
  | nothing : Moves py codec s c s c []
  | receives {chunk : List Byte} (hwaits : c.Waits) :
    Moves py codec s c s { c with buf := c.buf ++ chunk } [.received chunk]
  | hangsUp (hwaits : c.Waits) :
    Moves py codec s c s { c with phase := .leaving none } [.received []]
  | takes {bytes rest : List Byte} {s' : SocketServer} {phase : ClientPhase}
    (hreading : c.phase = .reading) (htake : Lines.takeLine newline c.buf = some (bytes, rest))
    (hcount : CountLine py codec s bytes s' phase) :
    Moves py codec s c s' { c with buf := rest, phase := phase } [.took bytes]
  | applies {reading : ℚ} {event : List (String × Value)} (hcounted : c.phase = .counted event) :
    Moves py codec s c (s.applyCounted py reading event).1
      { c with phase := (s.applyCounted py reading event).2 } [.applied reading event]
  | leaves {raised : Option Exception} (hleaving : c.phase = .leaving raised) :
    Moves py codec s c { s with activePeers := s.activePeers - 1 }
      { c with phase := .closed raised } []

theorem next_moves (py : Runtime) (codec : Codec) (s : SocketServer) (c : Client)
    (step : ThreadStep) :
    Moves py codec s c (c.next py codec s step).1 (c.next py codec s step).2 (c.effects step) := by
  cases step with
  | receive chunk =>
    cases hphase : c.phase with
    | reading =>
      cases htake : Lines.takeLine newline c.buf with
      | some taken =>
        simp only [next, effects, hphase, htake]
        exact .nothing
      | none =>
        by_cases hchunk : chunk = []
        · simp only [next, effects, hphase, htake, hchunk, if_true]
          exact .hangsUp ⟨hphase, htake⟩
        · simp only [next, effects, hphase, htake, hchunk, if_false]
          rw [← hphase]
          exact .receives ⟨hphase, htake⟩
    | _ =>
      simp only [next, effects, hphase]
      exact .nothing
  | line stamp =>
    cases hphase : c.phase with
    | reading =>
      cases htake : Lines.takeLine newline c.buf with
      | none =>
        simp only [next, effects, hphase, htake]
        exact .nothing
      | some taken =>
        simp only [next, effects, hphase, htake]
        exact .takes hphase htake (SocketServer.countLine_cases taken.1)
    | _ =>
      simp only [next, effects, hphase]
      exact .nothing
  | apply reading =>
    cases hphase : c.phase with
    | counted event =>
      simp only [next, effects, hphase]
      exact .applies hphase
    | _ =>
      simp only [next, effects, hphase]
      exact .nothing
  | leave =>
    cases hphase : c.phase with
    | leaving raised =>
      simp only [next, effects, hphase]
      exact .leaves hphase
    | _ =>
      simp only [next, effects, hphase]
      exact .nothing

/-! ## What a connection has done -/

/-- What is known of the last line: in the middle of it, whether it will raise; after it,
whether it has. -/
def Settled (py : Runtime) (codec : Codec) (lines : List (List Byte)) (phase : ClientPhase) :
    Prop :=
  match phase with
  | .counted event => ∃ before bytes, lines = before ++ [bytes] ∧
      (∀ b ∈ before, ¬ Stops py codec (lineText codec b)) ∧
      (Stops py codec (lineText codec bytes) ↔ ¬ Harmless py event)
  | phase =>
    match phase.raised with
    | none => ∀ bytes ∈ lines, ¬ Stops py codec (lineText codec bytes)
    | some _ => ∃ before bytes, lines = before ++ [bytes] ∧
        (∀ b ∈ before, ¬ Stops py codec (lineText codec b)) ∧
        Stops py codec (lineText codec bytes)

/-- All lines but the last one are over, and did not raise. -/
theorem Settled.dropLast {py : Runtime} {codec : Codec} {lines : List (List Byte)}
    {phase : ClientPhase} (h : Settled py codec lines phase) :
    ∀ bytes ∈ lines.dropLast, ¬ Stops py codec (lineText codec bytes) := by
  have hlast : ∀ {before : List (List Byte)} {bytes : List Byte}, lines = before ++ [bytes] →
      lines.dropLast = before := by
    rintro before bytes rfl
    exact List.dropLast_concat
  cases phase with
  | reading => exact fun bytes hbytes => h bytes (List.dropLast_subset _ hbytes)
  | counted event =>
    obtain ⟨before, bytes, heq, hquiet, -⟩ := h
    rwa [hlast heq]
  | leaving raised | closed raised =>
    cases raised with
    | none => exact fun bytes hbytes => h bytes (List.dropLast_subset _ hbytes)
    | some e =>
      obtain ⟨before, bytes, heq, hquiet, -⟩ := h
      rwa [hlast heq]

/-- Between two lines, and after the last, none has raised. -/
theorem Settled.quiet {py : Runtime} {codec : Codec} {lines : List (List Byte)} {c : Client}
    (h : Settled py codec lines c.phase) (hover : c.Waits ∨ c.Ended) :
    ∀ bytes ∈ lines, ¬ Stops py codec (lineText codec bytes) := by
  rcases hover with ⟨hphase, -⟩ | hphase | hphase <;> rw [hphase] at h <;> exact h

/-- After an exception, the last line is the one that raised. -/
theorem Settled.raised {py : Runtime} {codec : Codec} {lines : List (List Byte)}
    {phase : ClientPhase} (h : Settled py codec lines phase) (hraised : phase.raised ≠ none) :
    ∃ bytes, lines.getLast? = some bytes ∧ Stops py codec (lineText codec bytes) := by
  cases phase with
  | reading | counted event => exact absurd rfl hraised
  | leaving raised | closed raised =>
    cases raised with
    | none => exact absurd rfl hraised
    | some e =>
      obtain ⟨before, bytes, heq, -, hstops⟩ := h
      exact ⟨bytes, by rw [heq, List.getLast?_concat], hstops⟩

/-- A thread and what it has done so far. -/
structure Accounts (py : Runtime) (codec : Codec) (c : Client) (history : List ThreadEffect) :
    Prop where
  /-- the lines taken and those in the buffer are the lines of the stream -/
  stream : Lines.cut newline (bytesOf history) =
    (linesOf history ++ (Lines.cut newline c.buf).1, (Lines.cut newline c.buf).2)
  /-- every event among them is applied, or about to be -/
  events : (linesOf history).filterMap (lineDict codec) = eventsOf history ++ c.phase.pending
  settled : Settled py codec (linesOf history) c.phase
  /-- no line is left behind when the peer hangs up -/
  ended : c.Ended → Lines.takeLine newline c.buf = none

variable {py : Runtime} {codec : Codec} {s s' : SocketServer} {c c' : Client}
  {history effects : List ThreadEffect}

theorem accounts_accepted (peer : String) : Accounts py codec ⟨peer, [], .reading⟩ [] :=
  ⟨rfl, rfl, fun _ h => absurd h List.not_mem_nil, by rintro (h | h) <;> cases h⟩

theorem Waits.not_ended (h : c.Waits) : ¬ c.Ended := by
  rintro (he | he) <;> rw [h.1] at he <;> cases he

theorem Accounts.receives (h : Accounts py codec c history) (hwaits : c.Waits)
    (chunk : List Byte) :
    Accounts py codec { c with buf := c.buf ++ chunk } (history ++ [.received chunk]) := by
  have hlines : linesOf (history ++ [.received chunk]) = linesOf history := by
    rw [linesOf_concat]
    exact List.append_nil _
  have hevents : eventsOf (history ++ [.received chunk]) = eventsOf history := by
    rw [eventsOf_concat]
    exact List.append_nil _
  refine ⟨?_, ?_, ?_, ?_⟩
  · have hstream := h.stream
    rw [Lines.cut_of_takeLine newline c.buf, hwaits.2, List.append_nil] at hstream
    rw [hlines, bytesOf_concat, Lines.cut_append, hstream]
    rfl
  · rw [hlines, hevents]
    exact h.events
  · rw [hlines]
    exact h.settled
  · exact fun hended => absurd hended hwaits.not_ended

theorem Accounts.hangsUp (h : Accounts py codec c history) (hwaits : c.Waits) :
    Accounts py codec { c with phase := .leaving none } (history ++ [.received []]) := by
  have hreceived := h.receives hwaits []
  rw [List.append_nil] at hreceived
  refine ⟨hreceived.stream, ?_, ?_, fun _ => hwaits.2⟩
  · have hevents := hreceived.events
    rwa [hwaits.1] at hevents
  · have hsettled := hreceived.settled
    rwa [hwaits.1] at hsettled

theorem Accounts.takes (h : Accounts py codec c history) (hreading : c.phase = .reading)
    {bytes rest : List Byte} (htake : Lines.takeLine newline c.buf = some (bytes, rest))
    {phase : ClientPhase} (hcount : CountLine py codec s bytes s' phase) :
    Accounts py codec { c with buf := rest, phase := phase } (history ++ [.took bytes]) := by
  have hlines : linesOf (history ++ [.took bytes]) = linesOf history ++ [bytes] :=
    linesOf_concat ..
  have hevents : eventsOf (history ++ [.took bytes]) = eventsOf history := by
    rw [eventsOf_concat]
    exact List.append_nil _
  have hbefore : (linesOf history).filterMap (lineDict codec) = eventsOf history := by
    have hevents := h.events
    rw [hreading] at hevents
    exact hevents.trans (List.append_nil _)
  have hquiet : ∀ b ∈ linesOf history, ¬ Stops py codec (lineText codec b) := by
    have hsettled := h.settled
    rwa [hreading] at hsettled
  refine ⟨?_, ?_, ?_, ?_⟩
  · have hcut : Lines.cut newline c.buf =
        (bytes :: (Lines.cut newline rest).1, (Lines.cut newline rest).2) := by
      rw [Lines.cut_of_takeLine, htake]
    rw [hlines, bytesOf_concat, List.append_assoc]
    simpa [ThreadEffect.bytes, hcut] using h.stream
  · rw [hlines, hevents, List.filterMap_append, hbefore]
    congr 1
    cases hcount with
    | skipped hdict _ _ | raised _ _ hdict _ | counted _ _ hdict _ =>
      simp [hdict, ClientPhase.pending]
  · rw [hlines]
    cases hcount with
    | skipped _ _ hstops =>
      exact List.forall_mem_append.mpr ⟨hquiet, List.forall_mem_singleton.mpr hstops⟩
    | raised _ _ _ hstops => exact ⟨_, _, rfl, hquiet, hstops⟩
    | counted _ _ _ hstops => exact ⟨_, _, rfl, hquiet, hstops⟩
  · cases hcount with
    | skipped _ _ _ | raised _ _ _ _ | counted _ _ _ _ => rintro (h | h) <;> cases h

theorem Accounts.applies (h : Accounts py codec c history) {event : List (String × Value)}
    (hcounted : c.phase = .counted event) (reading : ℚ) (s : SocketServer) :
    Accounts py codec { c with phase := (s.applyCounted py reading event).2 }
      (history ++ [.applied reading event]) := by
  have hlines : linesOf (history ++ [.applied reading event]) = linesOf history := by
    rw [linesOf_concat]
    exact List.append_nil _
  have hevents : eventsOf (history ++ [.applied reading event]) = eventsOf history ++ [event] :=
    eventsOf_concat ..
  have hbefore := h.events
  have hsettled := h.settled
  rw [hcounted] at hbefore hsettled
  obtain ⟨before, bytes, heq, hquiet, hstops⟩ := hsettled
  have hraises := PadSocket.applyEvent_raises_iff py reading s.pad event
  refine ⟨?_, ?_, ?_, ?_⟩
  · rw [hlines, bytesOf_concat]
    simpa [ThreadEffect.bytes] using h.stream
  · rw [hlines, hevents, hbefore, List.append_assoc]
    congr 1
    simp only [SocketServer.applyCounted]
    cases (s.pad.applyEvent py reading (.dict event)).2 <;> rfl
  · rw [hlines, heq]
    simp only [SocketServer.applyCounted]
    cases hraised : (s.pad.applyEvent py reading (.dict event)).2 with
    | none =>
      have hharmless := hraises.mp hraised
      exact List.forall_mem_append.mpr
        ⟨hquiet, List.forall_mem_singleton.mpr fun h => hstops.mp h hharmless⟩
    | some e =>
      refine ⟨before, bytes, rfl, hquiet, hstops.mpr fun hharmless => ?_⟩
      rw [hraises.mpr hharmless] at hraised
      cases hraised
  · simp only [SocketServer.applyCounted]
    cases (s.pad.applyEvent py reading (.dict event)).2 <;> rintro (h | h) <;> cases h

theorem Accounts.leaves (h : Accounts py codec c history) {raised : Option Exception}
    (hleaving : c.phase = .leaving raised) :
    Accounts py codec { c with phase := .closed raised } history := by
  refine ⟨h.stream, ?_, ?_, ?_⟩
  · have hevents := h.events
    rwa [hleaving] at hevents
  · have hsettled := h.settled
    rwa [hleaving] at hsettled
  · rintro (hended | hended)
    · cases hended
    · cases hended
      exact h.ended (.inl hleaving)

theorem Moves.accounts (hmoves : Moves py codec s c s' c' effects)
    (h : Accounts py codec c history) : Accounts py codec c' (history ++ effects) := by
  cases hmoves with
  | nothing => rwa [List.append_nil]
  | receives hwaits => exact h.receives hwaits _
  | hangsUp hwaits => exact h.hangsUp hwaits
  | takes hreading htake hcount => exact h.takes hreading htake hcount
  | applies hcounted => exact h.applies hcounted _ s
  | leaves hleaving =>
    rw [List.append_nil]
    exact h.leaves hleaving

/-! What a step does to the shared state. -/

theorem Moves.pad_eq (hmoves : Moves py codec s c s' c' effects) :
    s'.pad = Trace.run (PadSocket.next py) s.pad (effects.filterMap ThreadEffect.socketStep) := by
  cases hmoves with
  | takes _ _ hcount => exact hcount.pad_eq
  | _ => rfl

theorem Moves.activePeers_eq (hmoves : Moves py codec s c s' c' effects)
    (hcounted : c.isOpen.toNat ≤ s.activePeers) :
    s'.activePeers + c.isOpen.toNat = s.activePeers + c'.isOpen.toNat := by
  cases hmoves with
  | takes hreading _ hcount =>
    cases hcount with
    | skipped _ _ _ => simp [isOpen, hreading]
    | raised hsame _ _ _ | counted hsame _ _ _ => simp [isOpen, hreading, hsame.activePeers]
  | applies hphase =>
    simp only [isOpen, hphase, SocketServer.applyCounted]
    cases (s.pad.applyEvent py _ (.dict _)).2 <;> rfl
  | leaves hleaving =>
    simp only [isOpen, hleaving, Bool.toNat_true, Bool.toNat_false] at hcounted ⊢
    omega
  | hangsUp hwaits => simp [isOpen, hwaits.1]
  | _ => rfl

theorem Moves.totalEvents_eq (hmoves : Moves py codec s c s' c' effects) :
    s'.totalEvents = s.totalEvents + (linesOf effects).countP (Counts codec) := by
  cases hmoves with
  | @takes bytes rest _ _ hreading _ hcount =>
    have hlines : (linesOf [.took bytes]).countP (Counts codec) = (Counts codec bytes).toNat := by
      cases h : Counts codec bytes <;> simp [linesOf, ThreadEffect.line, h]
    rw [hlines]
    cases hcount with
    | skipped _ hcounts _ => rw [hcounts]; rfl
    | raised _ htotal _ _ | counted _ htotal _ _ => exact htotal
  | _ => rfl

end Client

/-! ## Every order of the blocks -/

namespace ServerThreads
variable {py : Runtime} {codec : Codec} {s : ServerThreads} {shown : List ServerEffect}

/-- What the connection `k` has done. -/
def historyOf (k : Nat) (shown : List ServerEffect) : List ThreadEffect :=
  shown.filterMap (ServerEffect.of k)

theorem historyOf_thread (j k : Nat) (effects : List ThreadEffect) :
    historyOf j (effects.map (.thread k)) = if k = j then effects else [] := by
  rw [historyOf, List.filterMap_map]
  by_cases h : k = j
  · simp [ServerEffect.of, h]
  · simp [ServerEffect.of, h]

theorem historyOf_append (k : Nat) (shown effects : List ServerEffect) :
    historyOf k (shown ++ effects) = historyOf k shown ++ historyOf k effects :=
  List.filterMap_append ..

/-- What holds in every order. -/
structure Inv (py : Runtime) (codec : Codec) (s : ServerThreads) (shown : List ServerEffect) :
    Prop where
  pad : s.server.pad =
    Trace.run (PadSocket.next py) .initial (shown.filterMap ServerEffect.socketStep)
  peers : s.server.activePeers = s.clients.countP Client.isOpen
  connections : s.totalConnections = s.clients.length
  total : s.server.totalEvents = (shown.filterMap ServerEffect.line).countP (Counts codec)
  accounts : ∀ (k : Nat) (c : Client), s.clients[k]? = some c →
    c.Accounts py codec (historyOf k shown)
  /-- a connection that has not come yet has done nothing -/
  silent : ∀ k, s.clients.length ≤ k → historyOf k shown = []

theorem inv_initial : Inv py codec initial [] :=
  ⟨rfl, rfl, rfl, rfl, fun k c h => by simp [initial] at h, fun _ _ => rfl⟩

theorem Inv.accept (h : Inv py codec s shown) (peer : String) :
    Inv py codec (s.next py codec (.accept peer)) shown where
  pad := h.pad
  peers := by simp [next, List.countP_append, Client.isOpen, h.peers]
  connections := by simp [next, h.connections]
  total := h.total
  accounts k c hc := by
    rcases Nat.lt_trichotomy k s.clients.length with hk | hk | hk
    · rw [next, List.getElem?_append_left hk] at hc
      exact h.accounts k c hc
    · rw [next, hk, List.getElem?_concat_length] at hc
      obtain rfl := Option.some.inj hc
      rw [h.silent k hk.ge]
      exact Client.accounts_accepted peer
    · rw [next, List.getElem?_eq_none (by simpa using Nat.succ_le_of_lt hk)] at hc
      cases hc
  silent k hk := h.silent k (le_trans (by simp [next]) hk)

theorem Inv.expire (h : Inv py codec s shown) (now : ℚ) :
    Inv py codec (s.next py codec (.expire now)) (shown ++ [.expired now]) where
  pad := by
    rw [List.filterMap_append, Trace.run_append, ← h.pad]
    rfl
  peers := h.peers
  connections := h.connections
  total := by
    rw [List.filterMap_append]
    exact h.total.trans (congrArg _ (List.append_nil _).symm)
  accounts k c hc := by
    rw [historyOf_append]
    exact (List.append_nil (historyOf k shown)).symm ▸ h.accounts k c hc
  silent k hk := by
    rw [historyOf_append, h.silent k hk]
    rfl

theorem Inv.thread (h : Inv py codec s shown) {k : Nat} {c c' : Client}
    (hc : s.clients[k]? = some c) {server : SocketServer} {effects : List ThreadEffect}
    (hmoves : c.Moves py codec s.server server c' effects) :
    Inv py codec { s with server := server, clients := s.clients.set k c' }
      (shown ++ effects.map (.thread k)) := by
  obtain ⟨hk, hget⟩ := List.getElem?_eq_some_iff.mp hc
  have hopen : c.isOpen.toNat ≤ s.server.activePeers := by
    rw [h.peers]
    cases hopen : c.isOpen with
    | false => exact Nat.zero_le _
    | true => exact List.countP_pos_iff.mpr ⟨c, List.mem_of_getElem? hc, hopen⟩
  refine ⟨?_, ?_, ?_, ?_, ?_, ?_⟩
  · rw [List.filterMap_append, Trace.run_append, ← h.pad, List.filterMap_map]
    exact hmoves.pad_eq
  · have hpeers := hmoves.activePeers_eq hopen
    rw [h.peers] at hpeers hopen
    rw [List.countP_set hk, hget]
    cases hc₁ : c.isOpen <;> cases hc₂ : c'.isOpen <;>
      simp only [hc₁, hc₂, Bool.toNat_true, Bool.toNat_false, Bool.false_eq_true, if_true,
        if_false] at hpeers hopen ⊢ <;> omega
  · exact h.connections.trans (List.length_set).symm
  · rw [List.filterMap_append, List.countP_append, ← h.total, List.filterMap_map]
    exact hmoves.totalEvents_eq
  · intro j d hd
    rw [historyOf_append, historyOf_thread]
    by_cases hj : k = j
    · subst hj
      rw [List.getElem?_set_self hk] at hd
      obtain rfl := Option.some.inj hd
      rw [if_pos rfl]
      exact hmoves.accounts (h.accounts k c hc)
    · rw [List.getElem?_set_ne hj] at hd
      rw [if_neg hj, List.append_nil]
      exact h.accounts j d hd
  · intro j hj
    rw [List.length_set] at hj
    rw [historyOf_append, historyOf_thread, if_neg (by omega), List.append_nil]
    exact h.silent j hj

theorem inv_next (s : ServerThreads) (shown : List ServerEffect) (e : ServerEvent)
    (h : Inv py codec s shown) : Inv py codec (s.next py codec e) (shown ++ s.view e) := by
  cases e with
  | accept peer =>
    rw [view, List.append_nil]
    exact h.accept peer
  | expire now => exact h.expire now
  | thread k step =>
    cases hc : s.clients[k]? with
    | none =>
      simp only [next, view, hc, List.append_nil]
      exact h
    | some c =>
      simp only [next, view, hc]
      exact h.thread hc (Client.next_moves py codec s.server c step)

theorem run_inv (py : Runtime) (codec : Codec) (es : List ServerEvent) :
    Inv py codec (Trace.run (next py codec) initial es) (ServerThreads.shown py codec es) :=
  Trace.run_observe_invariant inv_next inv_initial es

end ServerThreads

/-- **Any order of the threads.**  In every run, the tables are those of the applied events
and expiries, one after the other; the counters are the numbers of open connections, of
connections and of counted lines; and every connection has taken the lines of its stream in
order, up to the first one that raises, and has applied the event of every one of them once
(or is about to, for the last one).  A thread that waits in `recv` has taken all lines, and
none of them raised; so it is for a connection that has ended without an exception. -/
theorem socket_threads (py : Runtime) (codec : Codec) (es : List ServerEvent) :
    let s := Trace.run (ServerThreads.next py codec) .initial es
    let shown := ServerThreads.shown py codec es
    s.server.pad =
        Trace.run (PadSocket.next py) .initial (shown.filterMap ServerEffect.socketStep) ∧
      s.server.activePeers = s.clients.countP Client.isOpen ∧
      s.totalConnections = s.clients.length ∧
      s.server.totalEvents = (shown.filterMap ServerEffect.line).countP (Counts codec) ∧
      ∀ k c, s.clients[k]? = some c →
        let history := ServerThreads.historyOf k shown
        let lines := (Lines.cut newline (bytesOf history)).1
        ∃ taken rest, lines = taken ++ rest ∧
          eventsOf history ++ c.phase.pending = taken.filterMap (lineDict codec) ∧
          (∀ bytes ∈ taken.dropLast, ¬ Stops py codec (lineText codec bytes)) ∧
          (c.Waits ∨ c.Ended →
            rest = [] ∧ ∀ bytes ∈ lines, ¬ Stops py codec (lineText codec bytes)) ∧
          (c.phase.raised ≠ none →
            ∃ bytes, taken.getLast? = some bytes ∧ Stops py codec (lineText codec bytes)) := by
  intro s shown
  have h := ServerThreads.run_inv py codec es
  refine ⟨h.pad, h.peers, h.connections, h.total, fun k c hc => ?_⟩
  intro history lines
  have haccounts := h.accounts k c hc
  have hlines : lines = linesOf history ++ (Lines.cut newline c.buf).1 :=
    congrArg Prod.fst haccounts.stream
  refine ⟨linesOf history, (Lines.cut newline c.buf).1, hlines, haccounts.events.symm, ?_, ?_, ?_⟩
  · exact haccounts.settled.dropLast
  · intro hover
    have hbuf : Lines.takeLine newline c.buf = none := hover.elim And.right haccounts.ended
    have hsettled := haccounts.settled.quiet hover
    rw [hlines, Lines.cut_of_takeLine newline c.buf, hbuf, List.append_nil]
    exact ⟨rfl, hsettled⟩
  · exact haccounts.settled.raised

end XInputSwitch
