import XInputSwitch.Receiver
import XInputSwitch.Replies

/-! # The firmware as a whole

The receive interrupt may come between any two actions of the main loop, except in
the callback, which masks it.  `send_IN_report` is therefore two events: the
callback, and the rest, with bytes possibly received in between.  An interrupt that
comes while a report is being copied is taken to come before or after the event; what
becomes of one in the middle is the subject of `Interrupts`.

The two halves of the firmware meet in the selected report only, as long as no reply is
written past the end of its buffer (`InBounds`): the serial side then runs by itself on the
events that reach it (`run_joystick`).  A packet that makes this happen can leave the
variables of both halves in any state.
-/
namespace XInputSwitch

structure Firmware where
  joystick : Joystick
  response : ResponseManager

inductive FirmwareEvent where
  /-- a byte is received from the bridge -/
  | rx (b : Byte)
  /-- `HID_Task` handles an OUT packet -/
  | outReport (mem : Memory) (packet : List Byte)
  /-- `send_IN_report` calls the callback -/
  | beforeSend
  /-- the rest of `send_IN_report` -/
  | transmit (mem : Memory)

/-- What an event is on the serial side. -/
def FirmwareEvent.serial : FirmwareEvent → List SerialEvent
  | .rx b => [.rx b]
  | .beforeSend => [.beforeSend]
  | .outReport _ _ | .transmit _ => []

/-- The byte an event delivers. -/
def FirmwareEvent.byte : FirmwareEvent → List Byte
  | .rx b => [b]
  | _ => []

namespace Firmware

/-- `main`, up to its loop. -/
def boot (mem : Memory) : Firmware := ⟨.boot, .setupResponseManager mem⟩

def next (s : Firmware) : FirmwareEvent → Firmware
  | .rx b => { s with joystick := (s.joystick.isr b).1 }
  | .outReport mem packet =>
    { joystick :=
        if s.response.overruns mem s.joystick.selected packet then mem.overrunJoystick
        else s.joystick
      response := s.response.next (.out mem s.joystick.selected packet) }
  | .beforeSend => { s with joystick := s.joystick.callbackBeforeSend }
  | .transmit mem => { s with response := s.response.sendInReport mem s.joystick.selected }

/-- The responses sent to the bridge by one event. -/
def responses (s : Firmware) (e : FirmwareEvent) : List Response :=
  Trace.observe Joystick.next Joystick.responses s.joystick e.serial

/-- What an event is on the USB side. -/
def usb (s : Firmware) : FirmwareEvent → List UsbEvent
  | .outReport mem packet => [.out mem s.joystick.selected packet]
  | .transmit mem => [.poll mem s.joystick.selected]
  | .rx _ | .beforeSend => []

/-- An OUT packet makes no write leave the buffer. -/
def InBounds (s : Firmware) : FirmwareEvent → Prop
  | .outReport mem packet => s.response.InBounds (.out mem s.joystick.selected packet)
  | .rx _ | .beforeSend | .transmit _ => True

instance (s : Firmware) (e : FirmwareEvent) : Decidable (s.InBounds e) :=
  match e with
  | .outReport mem packet =>
    inferInstanceAs (Decidable (s.response.InBounds (.out mem s.joystick.selected packet)))
  | .rx _ | .beforeSend | .transmit _ => .isTrue trivial

theorem next_outReport {s : Firmware} {mem : Memory} {packet : List Byte}
    (h : s.InBounds (.outReport mem packet)) :
    s.next (.outReport mem packet) =
      { s with response := s.response.handleOut mem s.joystick.selected packet } := by
  have hno : ¬ s.response.overruns mem s.joystick.selected packet = true :=
    fun ho => (ResponseManager.overruns_iff ..).mp ho h
  simp only [next, if_neg hno, ResponseManager.next_out h]

theorem next_joystick (s : Firmware) (e : FirmwareEvent) (h : s.InBounds e) :
    (s.next e).joystick = Trace.run Joystick.next s.joystick e.serial := by
  cases e with
  | outReport mem packet => rw [next_outReport h]; rfl
  | _ => rfl

theorem run_joystick {s : Firmware} {es : List FirmwareEvent}
    (h : Trace.Always next InBounds s es) :
    (Trace.run next s es).joystick =
      Trace.run Joystick.next s.joystick (es.flatMap FirmwareEvent.serial) := by
  rw [← Trace.observe_events next _ s es]
  exact h.run_simulates (I := fun _ => True) (fun _ _ _ _ => trivial)
    (fun s e _ hin => s.next_joystick e hin) trivial

theorem observe_responses {s : Firmware} {es : List FirmwareEvent}
    (h : Trace.Always next InBounds s es) :
    Trace.observe next responses s es =
      Trace.observe Joystick.next Joystick.responses s.joystick
        (es.flatMap FirmwareEvent.serial) := by
  have hview : ∀ (s : Firmware) (e : FirmwareEvent), True → s.InBounds e →
      [] ++ Trace.observe Joystick.next Joystick.responses s.joystick e.serial =
        s.responses e ++ [] := fun s e _ _ => (List.append_nil _).symm
  have hshown := h.observe_simulates (I := fun _ => True) (fun _ _ _ _ => trivial)
    (fun s e _ hin => s.next_joystick e hin) hview trivial
  rw [Trace.observe_events, List.nil_append, List.append_nil] at hshown
  exact hshown.symm

end Firmware

theorem flatMap_serial_byte (es : List FirmwareEvent) :
    (es.flatMap FirmwareEvent.serial).flatMap SerialEvent.byte =
      es.flatMap FirmwareEvent.byte := by
  induction es with
  | nil => rfl
  | cons e es ih =>
    rw [List.flatMap_cons, List.flatMap_append, ih, List.flatMap_cons]
    cases e <;> rfl

end XInputSwitch
