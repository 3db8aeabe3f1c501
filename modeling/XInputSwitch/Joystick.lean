import XInputSwitch.Datatypes
import XInputSwitch.Trace

/-! # The serial side of the firmware

`Joystick.c`: the interrupt handler that receives bytes from the host (`isr`), the
conversion of a packet into the report sent to the console
(`populateReportFromSerial`), and the callback that selects a report before each
send (`callbackBeforeSend`).  The static variables of the file are the fields of
`Joystick`; the pointer `selectedReport` is either `&controllerReport` or
`&idleReport`.

The handler and the callback never interleave: the callback disables the receive
interrupt while it runs.  A run of this side is therefore a list of received bytes
and callback calls (`SerialEvent`).

`crc8CcittUpdate` is avr-libc's `_crc8_ccitt_update`, by its documentation: the
byte update of the polynomial `0x07`, most significant bit first.
-/
namespace XInputSwitch

/-! ## The packet check -/

/-- One bit of the update. -/
def crc8Shift (data : Byte) : Byte :=
  if data &&& 0x80 ≠ 0 then (data <<< 1) ^^^ 0x07 else data <<< 1

/-- `_crc8_ccitt_update`. -/
def crc8CcittUpdate (inCrc inData : Byte) : Byte :=
  Nat.repeat crc8Shift 8 (inCrc ^^^ inData)

/-! ## Reports -/

/-- The three bytes of two packed 12-bit stick positions. -/
def packSticks (x y : BitVec 16) : Byte × Byte × Byte :=
  ((x &&& 0xFF).setWidth 8,
   (((y &&& 0x0F) <<< 4) ||| ((x &&& 0xF00) >>> 8)).setWidth 8,
   ((y &&& 0xFF0) >>> 4).setWidth 8)

/-- `populate_report_from_serial`.  Every field of the report is assigned, so what
the report held before does not matter. -/
def populateReportFromSerial (input : Vector Byte 8) : StandardReport :=
  let button : BitVec 16 := (input[0].setWidth 16 <<< 8) ||| input[1].setWidth 16
  let dpad := input[2]
  let lx : BitVec 16 := (input[3].setWidth 16 <<< 4) ||| 0x08
  let ly : BitVec 16 := (input[4].setWidth 16 <<< 4) ||| 0x08
  let rx : BitVec 16 := (input[5].setWidth 16 <<< 4) ||| 0x08
  let ry : BitVec 16 := (input[6].setWidth 16 <<< 4) ||| 0x08
  let (l₀, l₁, l₂) := packSticks lx ly
  let (r₀, r₁, r₂) := packSticks rx ry
  { connectionInfo := 1
    batteryLevel := batteryFull ||| batteryCharging
    buttonY := button &&& switchY == switchY
    buttonX := button &&& switchX == switchX
    buttonB := button &&& switchB == switchB
    buttonA := button &&& switchA == switchA
    buttonRightSr := false
    buttonRightSl := false
    buttonR := button &&& switchR == switchR
    buttonZr := button &&& switchZr == switchZr
    buttonMinus := button &&& switchMinus == switchMinus
    buttonPlus := button &&& switchPlus == switchPlus
    buttonThumbR := button &&& switchRclick == switchRclick
    buttonThumbL := button &&& switchLclick == switchLclick
    buttonHome := button &&& switchHome == switchHome
    buttonCapture := button &&& switchCapture == switchCapture
    dummy := false
    chargingGrip := true
    dpadDown := dpad == hatBottomRight || dpad == hatBottom || dpad == hatBottomLeft
    dpadUp := dpad == hatTop || dpad == hatTopRight || dpad == hatTopLeft
    dpadRight := dpad == hatTopRight || dpad == hatRight || dpad == hatBottomRight
    dpadLeft := dpad == hatBottomLeft || dpad == hatLeft || dpad == hatTopLeft
    buttonLeftSr := false
    buttonLeftSl := false
    buttonL := button &&& switchL == switchL
    buttonZl := button &&& switchZl == switchZl
    analog := #v[l₀, l₁, l₂, r₀, r₁, r₂]
    vibratorInputReport := 0 }

/-- `initialize_idle_report`: no button pressed, sticks centred. -/
def initializeIdleReport : StandardReport :=
  let (l₀, l₁, l₂) := packSticks 0x0800 0x0800
  let (r₀, r₁, r₂) := packSticks 0x0800 0x0800
  { connectionInfo := 1
    batteryLevel := batteryFull ||| batteryCharging
    buttonY := false, buttonX := false, buttonB := false, buttonA := false
    buttonRightSr := false, buttonRightSl := false, buttonR := false, buttonZr := false
    buttonMinus := false, buttonPlus := false, buttonThumbR := false, buttonThumbL := false
    buttonHome := false, buttonCapture := false, dummy := false
    chargingGrip := true
    dpadDown := false, dpadUp := false, dpadRight := false, dpadLeft := false
    buttonLeftSr := false, buttonLeftSl := false, buttonL := false, buttonZl := false
    analog := #v[l₀, l₁, l₂, r₀, r₁, r₂]
    vibratorInputReport := 0x0c }

/-! ## State -/

/-- What `selectedReport` points to. -/
inductive Selected where
  | controllerReport
  | idleReport
deriving DecidableEq, Repr

/-- The static variables of `Joystick.c`, and the LEDs. -/
structure Joystick where
  serialInput : SerialInput
  controllerReport : StandardReport
  idleReport : StandardReport
  selectedReport : Selected
  state : SyncState
  millis : Nat
  leds : LedMask
deriving DecidableEq, Repr

namespace Joystick

/-- `*selectedReport`. -/
def selected (s : Joystick) : StandardReport :=
  match s.selectedReport with
  | .controllerReport => s.controllerReport
  | .idleReport => s.idleReport

/-- The state `main` sets up before interrupts are enabled. -/
def boot : Joystick where
  serialInput := ⟨Vector.replicate 8 0, 0, 0⟩
  controllerReport := initializeIdleReport
  idleReport := initializeIdleReport
  selectedReport := .idleReport
  state := .outOfSync
  millis := 0
  leds := .notSynced

/-! ## The receive interrupt -/

/-- The branch of the handler for `SYNCED`: fill the buffer, and on the ninth byte
accept the packet, refuse it, or start over. -/
def isrSynced (s : Joystick) (b : Byte) : Joystick × List Response :=
  if h : s.serialInput.receivedBytes < 8 then
    ({ s with serialInput :=
        { input := s.serialInput.input.set s.serialInput.receivedBytes b
          crc8Ccitt := crc8CcittUpdate s.serialInput.crc8Ccitt b
          receivedBytes := s.serialInput.receivedBytes + 1 } }, [])
  else
    let (s', sent) :=
      if s.serialInput.crc8Ccitt ≠ b then
        if b = Command.syncStart.code then ({ s with state := .syncStart }, [.syncStart])
        else (s, [.updateNack])
      else
        ({ s with
            controllerReport := populateReportFromSerial s.serialInput.input
            selectedReport := .controllerReport
            millis := 0 }, [.updateAck])
    ({ s' with serialInput := { s'.serialInput with receivedBytes := 0, crc8Ccitt := 0 } }, sent)

/-- The chain of branches on the state at the start of the handler. -/
def isrDispatch (s : Joystick) (b : Byte) : Joystick × List Response :=
  match s.state with
  | .synced => s.isrSynced b
  | .syncStart =>
    if b = Command.sync1.code then ({ s with state := .sync1 }, [.sync1])
    else ({ s with state := .outOfSync }, [])
  | .sync1 =>
    if b = Command.sync2.code then ({ s with state := .synced }, [.syncOk])
    else ({ s with state := .outOfSync }, [])
  | .outOfSync => (s, [])

/-- `ISR(USART1_RX_vect)` on the received byte `b`, with the responses sent.  The
last test of the handler looks at the same byte again when the link is out of
sync, also when a branch above has just put it there. -/
def isr (s : Joystick) (b : Byte) : Joystick × List Response :=
  let (s', sent) := s.isrDispatch b
  if s'.state = .outOfSync ∧ b = Command.syncStart.code then
    ({ s' with state := .syncStart }, sent ++ [.syncStart])
  else (s', sent)

/-! ## The callback before each send -/

/-- `MILLIS_UNTIL_PAUSE`. -/
def millisUntilPause : Nat := 120
/-- `MILLIS_UNTIL_HOME`. -/
def millisUntilHome : Nat := 800
/-- `MILLIS_HOME_PRESSED`. -/
def millisHomePressed : Nat := 200

/-- `millis += 8`, on 16 bits. -/
def tick (s : Joystick) : Joystick := { s with millis := (s.millis + 8) % 2 ^ 16 }

/-- Select the idle report, with the HOME button as given. -/
def selectIdle (s : Joystick) (home : Bool) (leds : LedMask) : Joystick :=
  { s with
    leds := leds
    idleReport := { s.idleReport with buttonHome := home }
    selectedReport := .idleReport }

/-- `CALLBACK_beforeSend`. -/
def callbackBeforeSend (s : Joystick) : Joystick :=
  if s.state = .synced then
    if millisUntilPause ≤ s.millis then
      let s' :=
        if millisUntilHome ≤ s.millis ∧ s.millis < millisUntilHome + millisHomePressed then
          s.selectIdle true .pauseHomeBuffer
        else s.selectIdle false .pauseEmptyBuffer
      -- the timer stops in the last state, so that it cannot overflow
      if s'.millis < millisUntilHome + millisHomePressed then s'.tick else s'
    else
      { s with leds := .synced, selectedReport := .controllerReport }.tick
  else s.selectIdle false .notSynced

end Joystick

/-! ## Runs -/

/-- What happens on the serial side: a byte arrives, or a report is about to be
sent. -/
inductive SerialEvent where
  | rx (b : Byte)
  | beforeSend
deriving DecidableEq, Repr

namespace Joystick

def next (s : Joystick) : SerialEvent → Joystick
  | .rx b => (s.isr b).1
  | .beforeSend => s.callbackBeforeSend

/-- The responses sent to the host by one event. -/
def responses (s : Joystick) : SerialEvent → List Response
  | .rx b => (s.isr b).2
  | .beforeSend => []

/-- The payload accepted by the handler on byte `b`: the buffered packet, when it
is complete and `b` is its check byte. -/
def accepted (s : Joystick) (b : Byte) : Option (Vector Byte 8) :=
  if s.state = .synced ∧ 8 ≤ s.serialInput.receivedBytes ∧ s.serialInput.crc8Ccitt = b then
    some s.serialInput.input
  else none

/-- The payloads accepted by one event. -/
def acceptedBy (s : Joystick) : SerialEvent → List (Vector Byte 8)
  | .rx b => (s.accepted b).toList
  | .beforeSend => []

/-! ## What a byte can do -/

theorem isr_of_accepted {s : Joystick} {b : Byte} {p : Vector Byte 8}
    (h : s.accepted b = some p) :
    s.isr b =
      ({ s with
          controllerReport := populateReportFromSerial p
          selectedReport := .controllerReport
          millis := 0
          serialInput := { s.serialInput with receivedBytes := 0, crc8Ccitt := 0 } },
        [.updateAck]) := by
  unfold accepted at h
  split at h
  · rename_i hc
    obtain ⟨hst, hr, hcrc⟩ := hc
    cases h
    simp [isr, isrDispatch, hst, isrSynced, Nat.not_lt.mpr hr, hcrc]
  · cases h

/-- A byte that completes no packet leaves the reports, the selection, the timer
and the LEDs as they were. -/
theorem isr_of_not_accepted {s : Joystick} {b : Byte} (h : s.accepted b = none) :
    ∃ input state, (s.isr b).1 = { s with serialInput := input, state := state } := by
  unfold accepted at h
  have hcases : ∃ input state,
      (s.isrDispatch b).1 = { s with serialInput := input, state := state } := by
    cases hst : s.state with
    | synced =>
      simp only [isrDispatch, hst, isrSynced]
      split
      · exact ⟨_, _, rfl⟩
      · rename_i hr
        have hcrc : s.serialInput.crc8Ccitt ≠ b := by
          intro he
          rw [if_pos ⟨hst, Nat.le_of_not_lt hr, he⟩] at h
          cases h
        simp only [ne_eq, hcrc, not_false_eq_true, if_true]
        split
        · exact ⟨_, _, rfl⟩
        · exact ⟨_, s.state, rfl⟩
    | syncStart =>
      simp only [isrDispatch, hst]
      split <;> exact ⟨s.serialInput, _, rfl⟩
    | sync1 =>
      simp only [isrDispatch, hst]
      split <;> exact ⟨s.serialInput, _, rfl⟩
    | outOfSync =>
      simp only [isrDispatch, hst]
      exact ⟨s.serialInput, s.state, rfl⟩
  obtain ⟨input, state, hd⟩ := hcases
  simp only [isr]
  split
  · exact ⟨input, .syncStart, by rw [hd]⟩
  · exact ⟨input, state, hd⟩

/-! ## What a send can do -/

/-- With a fresh packet the controller report is selected and the timer advances. -/
theorem callbackBeforeSend_fresh {s : Joystick} (hst : s.state = .synced)
    (hm : s.millis < millisUntilPause) :
    s.callbackBeforeSend =
      { s with leds := .synced, selectedReport := .controllerReport, millis := s.millis + 8 } := by
  have hlt : s.millis < 120 := hm
  rw [callbackBeforeSend, if_pos hst, if_neg (by omega), tick]
  simp only [Nat.mod_eq_of_lt (show s.millis + 8 < 2 ^ 16 by omega)]

/-- Without one the idle report is, with HOME pressed in the window, and the timer
advances up to the end of the window. -/
theorem callbackBeforeSend_paused {s : Joystick} (hst : s.state = .synced)
    (hm : millisUntilPause ≤ s.millis) :
    ∃ leds, s.callbackBeforeSend =
      { s.selectIdle (decide (800 ≤ s.millis ∧ s.millis < 1000)) leds with
        millis := if s.millis < 1000 then s.millis + 8 else s.millis } := by
  -- the timer is far from its 16-bit limit wherever it is still advanced
  have advance : ∀ home leds,
      (if (s.selectIdle home leds).millis < millisUntilHome + millisHomePressed then
        (s.selectIdle home leds).tick else s.selectIdle home leds) =
      { s.selectIdle home leds with
        millis := if s.millis < 1000 then s.millis + 8 else s.millis } := by
    intro home leds
    by_cases hlt : s.millis < 1000
    · rw [if_pos (show (s.selectIdle home leds).millis < millisUntilHome + millisHomePressed
        from hlt), if_pos hlt, tick]
      simp only [selectIdle, Nat.mod_eq_of_lt (show s.millis + 8 < 2 ^ 16 by omega)]
    · rw [if_neg (show ¬ (s.selectIdle home leds).millis < millisUntilHome + millisHomePressed
        from hlt), if_neg hlt]
      rfl
  rw [callbackBeforeSend, if_pos hst, if_pos hm]
  by_cases hhome : 800 ≤ s.millis ∧ s.millis < 1000
  · refine ⟨.pauseHomeBuffer, ?_⟩
    rw [decide_eq_true hhome, ← advance,
      if_pos (show millisUntilHome ≤ s.millis ∧ s.millis < millisUntilHome + millisHomePressed
        from hhome)]
  · refine ⟨.pauseEmptyBuffer, ?_⟩
    rw [decide_eq_false hhome, ← advance,
      if_neg (show ¬ (millisUntilHome ≤ s.millis ∧ s.millis < millisUntilHome + millisHomePressed)
        from hhome)]

/-- Out of sync the idle report is selected with HOME released, and the timer
stands still. -/
theorem callbackBeforeSend_unsynced {s : Joystick} (hst : s.state ≠ .synced) :
    s.callbackBeforeSend = s.selectIdle false .notSynced :=
  if_neg hst

/-- **What a send can do**: select one of the two reports, with the HOME button and the LEDs
that go with it, and advance the timer. -/
theorem callbackBeforeSend_cases (s : Joystick) : ∃ leds millis,
    s.callbackBeforeSend =
        { s with leds := leds, selectedReport := .controllerReport, millis := millis } ∨
      ∃ home, s.callbackBeforeSend = { s.selectIdle home leds with millis := millis } := by
  by_cases hst : s.state = .synced
  · rcases Nat.lt_or_ge s.millis millisUntilPause with hm | hm
    · exact ⟨_, _, .inl (callbackBeforeSend_fresh hst hm)⟩
    · obtain ⟨leds, hcb⟩ := callbackBeforeSend_paused hst hm
      exact ⟨leds, _, .inr ⟨_, hcb⟩⟩
  · exact ⟨_, s.millis, .inr ⟨_, callbackBeforeSend_unsynced hst⟩⟩

end Joystick
end XInputSwitch
