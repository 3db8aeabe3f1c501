import XInputSwitch.Interrupts

/-! # Runs without a packet completed during a copy

A task takes effect when it is settled which report it copies, after the callback and the
load of the pointer; one that copies none takes effect as soon as this is clear.  If no
packet is completed while a report is copied, the rest of the task is determined from
there on, and the machine of `Interrupts` moves as the firmware with atomic events does
(`abs_next`).  A byte received later in the task then comes after it, and
the packet of a task is shown earlier than it is really transmitted (`due`).  What a task
begun has still to do as events of that firmware is `owed`.
-/
namespace XInputSwitch

/-- A task as one event of the firmware; the callback before a send is an event of its
own. -/
def Task.firmwareEvent : Task → FirmwareEvent
  | .outReport mem packet => .outReport mem packet
  | .inReport mem => .transmit mem

/-- An event of the main program. -/
def FirmwareEvent.main (e : FirmwareEvent) : Bool := e.byte.isEmpty

/-- All the events of a task. -/
def Task.firmwareEvents : Task → List FirmwareEvent
  | .outReport mem packet => [.outReport mem packet]
  | .inReport mem => [.beforeSend, .transmit mem]

def Task.sends : Task → Bool
  | .outReport _ _ => false
  | .inReport _ => true

namespace Firmware

theorem next_firmwareEvent {s : Firmware} {task : Task}
    (h : s.response.InBounds (task.event s.joystick.selected)) :
    s.next task.firmwareEvent =
      { s with response := s.response.next (task.event s.joystick.selected) } := by
  cases task with
  | outReport mem packet =>
    have hin : s.InBounds (.outReport mem packet) := h
    rw [Task.firmwareEvent, Task.event, next_outReport hin, ResponseManager.next_out h]
  | inReport mem => rfl

/-- The IN packets transmitted by one event. -/
def transmitted (s : Firmware) (e : FirmwareEvent) : List (Vector Byte joystickEpsize) :=
  (s.usb e).flatMap s.response.transmitted

theorem transmitted_firmwareEvent (s : Firmware) (task : Task) :
    s.transmitted task.firmwareEvent =
      if task.sends then [(s.next task.firmwareEvent).response.replyBuffer.cells] else [] := by
  cases task <;> rfl

end Firmware

/-- It is settled which report is copied. -/
def Op.settled (ops : List Op) : Bool := !ops.any fun op => op.kind.setup

theorem Op.settled_cons (op : Op) (ops : List Op) :
    settled (op :: ops) = (!op.kind.setup && settled ops) := by
  rw [settled, List.any_cons, Bool.not_or, settled]

namespace Preemptible

/-- No packet is completed while a report is copied. -/
def Quiet (s : Preemptible) (e : PreemptEvent) : Prop := s.copying → s.acceptedBy e = []

instance (s : Preemptible) (e : PreemptEvent) : Decidable (s.Quiet e) :=
  inferInstanceAs (Decidable (_ → _))

/-- The firmware between tasks. -/
def firmware (s : Preemptible) : Firmware := ⟨s.joystick, s.response⟩

/-- A byte that completes no packet leaves the reports as they are. -/
theorem rx_pointed {s : Preemptible} {b : Byte} (h : s.joystick.accepted b = none) :
    (s.next (.rx b)).pointed = s.pointed := by
  obtain ⟨input, state, hisr⟩ := Joystick.isr_of_not_accepted h
  simp only [next, pointed, hisr]
  cases s.pointer <;> rfl

end Preemptible

namespace Followed
variable {w : Followed}

/-- The firmware as it is once the task at hand has taken effect, if it has. -/
def abs (w : Followed) : Firmware :=
  ⟨w.machine.joystick,
   if Op.settled w.machine.todo then
     Op.exec w.machine.todo w.machine.response (w.machine.pointed.toBytes.drop w.taken.length)
   else w.start⟩

/-- What an event amounts to: a task counts when it is settled. -/
def linear (w : Followed) : PreemptEvent → List FirmwareEvent
  | .rx b => [.rx b]
  | .task task =>
    if w.machine.todo.isEmpty && Op.settled (task.ops w.machine.response) then
      [task.firmwareEvent]
    else []
  | .op =>
    match w.machine.todo with
    | [] => []
    | op :: rest =>
      (if op.kind = .beforeSend then [.beforeSend] else []) ++
        (if op.kind.setup && Op.settled rest then [w.task.firmwareEvent] else [])

theorem linear_byte (w : Followed) (e : PreemptEvent) :
    (w.linear e).flatMap FirmwareEvent.byte = e.byte := by
  have htask : ∀ task : Task, task.firmwareEvent.byte = [] := by
    intro task
    cases task <;> rfl
  cases e with
  | rx b => rfl
  | task task =>
    simp only [linear]
    split
    · simp [htask, PreemptEvent.byte]
    · rfl
  | op =>
    simp only [linear]
    split
    · rfl
    · have hbefore : FirmwareEvent.byte .beforeSend = [] := rfl
      split <;> split <;> simp [htask, hbefore, PreemptEvent.byte]

theorem observe_linear_byte (w : Followed) (es : List PreemptEvent) :
    (Trace.observe next linear w es).flatMap FirmwareEvent.byte =
      es.flatMap PreemptEvent.byte := by
  induction es generalizing w with
  | nil => rfl
  | cons e es ih =>
    rw [Trace.observe_cons, List.flatMap_append, linear_byte, ih, List.flatMap_cons]

/-- Between tasks it is the firmware. -/
theorem abs_of_idle (h : w.machine.todo = []) : w.abs = w.machine.firmware := by
  simp [abs, h, Op.settled, Op.exec, Preemptible.firmware]

theorem abs_of_not_settled (h : Op.settled w.machine.todo = false) :
    w.abs = ⟨w.machine.joystick, w.start⟩ := by
  simp [abs, h]

theorem abs_of_settled (h : Op.settled w.machine.todo = true) :
    w.abs = ⟨w.machine.joystick, Op.exec w.machine.todo w.machine.response
      (w.machine.pointed.toBytes.drop w.taken.length)⟩ := by
  simp [abs, h]

/-- A byte received. -/
theorem abs_rx (b : Byte) (hq : w.machine.Quiet (.rx b)) :
    (w.next (.rx b)).abs = w.abs.next (.rx b) := by
  cases hs : Op.settled w.machine.todo with
  | false =>
    rw [abs_of_not_settled hs, abs_of_not_settled (w := w.next (.rx b)) hs]
    rfl
  | true =>
    rw [abs_of_settled hs, abs_of_settled (w := w.next (.rx b)) hs]
    have hbytes : Op.exec w.machine.todo w.machine.response
          ((w.machine.next (.rx b)).pointed.toBytes.drop w.taken.length) =
        Op.exec w.machine.todo w.machine.response
          (w.machine.pointed.toBytes.drop w.taken.length) := by
      by_cases hnil : Op.indices w.machine.todo = []
      · exact Op.exec_of_indices_nil hnil _ _ _
      · have hcopying : w.machine.copying = true := by
          simp only [Op.settled, Bool.not_eq_true'] at hs
          simp [Preemptible.copying, hs, hnil]
        have hnone := hq hcopying
        rw [Preemptible.rx_pointed (by simpa [Preemptible.acceptedBy] using hnone)]
    exact congrArg (Firmware.mk _) hbytes

/-- A task begun: one that copies nothing takes effect at once. -/
theorem abs_task (task : Task) (hin : w.machine.InBounds (.task task)) :
    (w.next (.task task)).abs = Trace.run Firmware.next w.abs (w.linear (.task task)) := by
  cases hidle : w.machine.todo.isEmpty with
  | false => simp [next, linear, hidle]
  | true =>
    have hnext : (w.next (.task task)).machine.todo = task.ops w.machine.response := by
      simp [Preemptible.next, hidle]
    rw [abs_of_idle (List.isEmpty_iff.mp hidle)]
    cases hs : Op.settled (task.ops w.machine.response) with
    | false =>
      rw [abs_of_not_settled (w := w.next (.task task)) (by rw [hnext, hs])]
      simp [linear, hidle, hs, next, Preemptible.next, Preemptible.firmware]
    | true =>
      have hnil : Op.indices (task.ops w.machine.response) = [] := by
        rw [Op.indices_eq]
        apply (task.ops_ordered w.machine.response).setup_mem
        simpa [Op.settled] using hs
      have hfits : w.machine.response.InBounds (task.event w.machine.joystick.selected) :=
        hin task (by simp [Preemptible.begun, hidle])
      have hevent : w.machine.firmware.next task.firmwareEvent =
          ⟨w.machine.joystick,
            w.machine.response.next (task.event w.machine.joystick.selected)⟩ :=
        Firmware.next_firmwareEvent hfits
      rw [abs_of_settled (w := w.next (.task task)) (by rw [hnext, hs])]
      simp only [linear, hidle, hs, Bool.and_self, if_true, Trace.run_cons, Trace.run_nil, hevent]
      rw [hnext, Op.exec_of_indices_nil hnil _ _ w.machine.joystick.selected.toBytes,
        ← Task.exec_ops hfits]
      simp [next, Preemptible.next, hidle]

/-- Up to the last operation that settles the report nothing is copied, and what is left
is the whole task. -/
theorem Inv.of_setup (h : w.Inv) {op : Op} {rest : List Op} (htodo : w.machine.todo = op :: rest)
    (hop : op.kind.setup = true) :
    w.taken = [] ∧ ∀ bytes, Op.exec rest (w.machine.perform op).response bytes =
      Op.exec (w.task.ops w.start) w.start bytes := by
  have htaken : w.taken = [] := h.taken_eq (by simp [htodo, hop])
  refine ⟨htaken, fun bytes => ?_⟩
  have hindex : op.kind.index = none := by
    cases op <;> first | rfl | cases hop
  have hperform := w.machine.exec_perform op rest bytes
  rw [hindex] at hperform
  rw [← hperform, ← htodo, h.exec_eq, htaken]
  rfl

/-- The callback: a task that copies nothing afterwards takes effect with it. -/
theorem abs_beforeSend (h : w.Inv) (hfits : w.Fits) {rest : List Op}
    (htodo : w.machine.todo = .beforeSend :: rest) :
    (w.next .op).abs = Trace.run Firmware.next w.abs (w.linear .op) := by
  obtain ⟨htaken, hexec⟩ := h.of_setup htodo rfl
  have hnext : (w.next .op).machine = { w.machine.perform .beforeSend with todo := rest } := by
    simp [Preemptible.next, htodo]
  have hbefore : w.abs = ⟨w.machine.joystick, w.start⟩ :=
    abs_of_not_settled (by simp [Op.settled, htodo, Op.kind, OpKind.setup])
  rw [hbefore]
  cases hs : Op.settled rest with
  | false =>
    rw [abs_of_not_settled (w := w.next .op) (by rw [hnext]; exact hs), hnext]
    simp [linear, next, htodo, hs, Op.kind, Preemptible.perform, Firmware.next]
  | true =>
    have hnil : Op.indices (w.task.ops w.start) = [] := by
      rw [← h.indices_eq, htaken, htodo, Op.indices_eq]
      apply (w.task.ops_ordered w.start).setup_after
      · rw [List.mem_tails, ← htodo]
        exact h.suffix.map Op.kind
      · rfl
      · simpa [Op.settled] using hs
    have hevent := Firmware.next_firmwareEvent
      (s := ⟨w.machine.joystick.callbackBeforeSend, w.start⟩) (hfits _)
    have hbefore : (Firmware.mk w.machine.joystick w.start).next .beforeSend =
        ⟨w.machine.joystick.callbackBeforeSend, w.start⟩ := rfl
    rw [abs_of_settled (w := w.next .op) (by rw [hnext]; exact hs), hnext]
    simp only [linear, htodo, hs, Op.kind, OpKind.setup, Bool.and_self, if_true,
      List.singleton_append, Trace.run_cons, Trace.run_nil, hbefore, hevent]
    rw [hexec, Op.exec_of_indices_nil hnil _ _
      w.machine.joystick.callbackBeforeSend.selected.toBytes, Task.exec_ops (hfits _)]
    rfl

/-- The load of the pointer: the task takes effect. -/
theorem abs_loadPointer (h : w.Inv) (hfits : w.Fits) {rest : List Op}
    (htodo : w.machine.todo = .loadPointer :: rest) :
    (w.next .op).abs = Trace.run Firmware.next w.abs (w.linear .op) := by
  obtain ⟨htaken, hexec⟩ := h.of_setup htodo rfl
  have hnext : (w.next .op).machine = { w.machine.perform .loadPointer with todo := rest } := by
    simp [Preemptible.next, htodo]
  have hbefore : w.abs = ⟨w.machine.joystick, w.start⟩ :=
    abs_of_not_settled (by simp [Op.settled, htodo, Op.kind, OpKind.setup])
  rw [hbefore]
  cases hs : Op.settled rest with
  | false =>
    rw [abs_of_not_settled (w := w.next .op) (by rw [hnext]; exact hs), hnext]
    simp [linear, next, htodo, hs, Op.kind, Preemptible.perform]
  | true =>
    have hpointed : (w.next .op).machine.pointed = w.machine.joystick.selected := by
      rw [hnext]
      exact w.machine.joystick.report_selectedReport
    have htaken' : (w.next .op).taken = [] := by simp [next, htodo, htaken, Op.kind, OpKind.index]
    have hevent := Firmware.next_firmwareEvent (s := ⟨w.machine.joystick, w.start⟩) (hfits _)
    rw [abs_of_settled (w := w.next .op) (by rw [hnext]; exact hs), hpointed, htaken', hnext]
    simp only [linear, htodo, hs, Op.kind, OpKind.setup, Bool.and_self, if_true,
      Trace.run_cons, Trace.run_nil, hevent, reduceCtorEq, if_false,
      List.nil_append, List.length_nil, List.drop_zero]
    rw [hexec, Task.exec_ops (hfits _)]
    rfl

/-- Any other operation is part of what the task was going to do. -/
theorem abs_op (h : w.Inv) {op : Op} {rest : List Op} (htodo : w.machine.todo = op :: rest)
    (hop : op.kind.setup = false) : (w.next .op).abs = w.abs := by
  have hnext : (w.next .op).machine = { w.machine.perform op with todo := rest } := by
    simp [Preemptible.next, htodo]
  have hjoystick : (w.machine.perform op).joystick = w.machine.joystick := by
    cases op <;> first | rfl | cases hop
  have hpointed : (w.next .op).machine.pointed = w.machine.pointed := by
    rw [hnext]
    cases op <;> first | rfl | cases hop
  have hsettled : Op.settled w.machine.todo = Op.settled rest := by
    simp [Op.settled, htodo, hop]
  cases hs : Op.settled rest with
  | false =>
    rw [abs_of_not_settled (hsettled.trans hs),
      abs_of_not_settled (w := w.next .op) (by rw [hnext]; exact hs), hnext]
    simp [next, htodo, hjoystick]
  | true =>
    rw [abs_of_settled (hsettled.trans hs),
      abs_of_settled (w := w.next .op) (by rw [hnext]; exact hs), hpointed, hnext]
    -- what the operation copies is the next byte of the report
    have hbytes : (op.kind.index.map fun i => w.machine.pointed.toBytes.getD i 0).toList ++
          w.machine.pointed.toBytes.drop (w.next .op).taken.length =
        w.machine.pointed.toBytes.drop w.taken.length := by
      cases op with
      | copyByte i =>
        obtain ⟨rfl, hlt⟩ := h.index_eq htodo
        have hlen : w.taken.length < w.machine.pointed.toBytes.length := by simpa using hlt
        rw [List.drop_eq_getElem_cons hlen]
        simp [next, htodo, Op.kind, OpKind.index, hlt]
      | _ => simp [next, htodo, Op.kind, OpKind.index]
    show Firmware.mk _ (Op.exec rest (w.machine.perform op).response _) = _
    rw [← Preemptible.exec_perform, hbytes, htodo, hjoystick]

theorem linear_op {op : Op} {rest : List Op} (htodo : w.machine.todo = op :: rest)
    (hop : op.kind.setup = false) : w.linear .op = [] := by
  have hne : op.kind ≠ .beforeSend := by
    intro he
    rw [he] at hop
    cases hop
  simp [linear, htodo, hop, hne]

/-- **The step of the refinement.** -/
theorem abs_next (w : Followed) (e : PreemptEvent) (h : w.Inv ∧ w.Fits)
    (hq : w.machine.Quiet e ∧ w.machine.InBounds e) :
    (w.next e).abs = Trace.run Firmware.next w.abs (w.linear e) := by
  obtain ⟨hinv, hfits⟩ := h
  cases e with
  | rx b => exact abs_rx b hq.1
  | task task => exact abs_task task hq.2
  | op =>
    cases htodo : w.machine.todo with
    | nil => simp [next, linear, htodo]
    | cons op rest =>
      cases hop : op.kind.setup with
      | false => rw [linear_op htodo hop, abs_op hinv htodo hop, Trace.run_nil]
      | true =>
        cases op with
        | beforeSend => exact abs_beforeSend hinv hfits htodo
        | loadPointer => exact abs_loadPointer hinv hfits htodo
        | _ => cases hop

/-! ## What is shown -/

theorem linear_responses (w : Followed) (e : PreemptEvent) :
    Trace.observe Firmware.next Firmware.responses w.abs (w.linear e) = w.machine.responses e := by
  have htask : ∀ (s : Firmware) (task : Task), s.responses task.firmwareEvent = [] := by
    intro s task
    cases task <;> rfl
  cases e with
  | rx b => simp [linear, Firmware.responses, Preemptible.responses, FirmwareEvent.serial,
      Joystick.responses, abs]
  | task task =>
    simp only [linear]
    split
    · simp [htask, Preemptible.responses]
    · rfl
  | op =>
    have hbefore : ∀ s : Firmware, s.responses .beforeSend = [] := fun _ => rfl
    simp only [linear]
    split
    · rfl
    · split <;> split <;> simp [htask, hbefore, Preemptible.responses]

/-- The packet of a send that has taken effect and is not transmitted yet. -/
def due (w : Followed) : List (Vector Byte joystickEpsize) :=
  if Op.settled w.machine.todo && w.machine.todo.any (fun op => op.kind = .transmit) then
    [w.abs.response.replyBuffer.cells]
  else []

/-- Only a send has a packet to transmit, and until its end. -/
theorem Inv.any_transmit (h : w.Inv) (hne : w.machine.todo ≠ []) :
    w.machine.todo.any (fun op => op.kind = .transmit) = w.task.sends := by
  cases htask : w.task with
  | outReport mem packet =>
    have hsuffix := h.suffix
    rw [htask, Task.ops] at hsuffix
    have hnot := (outShapes_ordered _ (w.start.processOutReportOps_kind mem
      (switchResponseBuffer packet).toList (reportSize packet))).2.2
    rw [Task.sends, List.any_eq_false]
    intro op hop
    have hne : op.kind ≠ .transmit := by
      intro he
      exact hnot (List.mem_map.mpr ⟨op, hsuffix.subset hop, he⟩)
    simp [hne]
  | inReport mem =>
    have hsuffix := h.suffix
    rw [htask, Task.ops] at hsuffix
    have hlast := (inShapes_ordered _ w.start.sendInReportOps_kind).2
    obtain ⟨before, hbefore⟩ := hsuffix
    rw [← hbefore, List.getLast?_map, List.getLast?_append_of_ne_nil _ hne,
      Option.map_eq_some_iff] at hlast
    obtain ⟨op, hop, hkind⟩ := hlast
    rw [Task.sends, List.any_eq_true]
    exact ⟨op, List.mem_of_getLast? hop, by simp [hkind]⟩

/-- The packet is the last thing. -/
theorem Inv.rest_nil (h : w.Inv) {rest : List Op} (htodo : w.machine.todo = .transmit :: rest) :
    rest = [] := by
  have hpair := (w.task.ops_ordered w.start).transmit_last
  rw [List.pairwise_map] at hpair
  have hpair := hpair.sublist h.suffix.sublist
  rw [htodo, List.pairwise_cons] at hpair
  cases rest with
  | nil => rfl
  | cons op rest => exact absurd rfl (hpair.1 op (.head rest))

theorem due_of_not_settled (h : Op.settled w.machine.todo = false) : w.due = [] := by
  simp [due, h]

theorem due_of_settled (h : w.Inv) (hne : w.machine.todo ≠ [])
    (hs : Op.settled w.machine.todo = true) :
    w.due = if w.task.sends then [w.abs.response.replyBuffer.cells] else [] := by
  simp [due, hs, h.any_transmit hne]

theorem due_of_idle (h : w.machine.todo = []) : w.due = [] := by
  simp [due, h]

theorem linear_transmitted_rx (b : Byte) (hq : w.machine.Quiet (.rx b)) :
    w.due ++ Trace.observe Firmware.next Firmware.transmitted w.abs (w.linear (.rx b)) =
      w.machine.transmitted (.rx b) ++ (w.next (.rx b)).due := by
  have hresponse : (w.next (.rx b)).abs.response = w.abs.response := by
    rw [abs_rx b hq]
    rfl
  have hdue : (w.next (.rx b)).due = w.due := by
    rw [due, hresponse]
    rfl
  simp [hdue, linear, Firmware.transmitted, Firmware.usb, Preemptible.transmitted]

theorem linear_transmitted_task (task : Task) (hinv : (w.next (.task task)).Inv) :
    w.due ++ Trace.observe Firmware.next Firmware.transmitted w.abs (w.linear (.task task)) =
      w.machine.transmitted (.task task) ++ (w.next (.task task)).due := by
  cases hidle : w.machine.todo.isEmpty with
  | false => simp [next, linear, hidle, Preemptible.transmitted]
  | true =>
    have htodo : (w.next (.task task)).machine.todo = task.ops w.machine.response := by
      simp [Preemptible.next, hidle]
    rw [due_of_idle (List.isEmpty_iff.mp hidle)]
    cases hs : Op.settled (task.ops w.machine.response) with
    | false =>
      rw [due_of_not_settled (w := w.next (.task task)) (by rw [htodo, hs])]
      simp [linear, hidle, hs, Preemptible.transmitted]
    | true =>
      cases task with
      | inReport mem =>
        -- a send begins with the callback, so it is not settled yet
        simp [Op.settled, Task.ops, ResponseManager.sendInReportOps, Op.kind, OpKind.setup] at hs
      | outReport mem packet =>
        have hdue : (w.next (.task (.outReport mem packet))).due = [] := by
          by_cases hnil : (w.next (.task (.outReport mem packet))).machine.todo = []
          · exact due_of_idle hnil
          · rw [due_of_settled hinv hnil (by rw [htodo, hs])]
            simp [next, hidle, Task.sends]
        simp [hdue, linear, hidle, hs, Preemptible.transmitted,
          Firmware.transmitted_firmwareEvent, Task.sends]

section Op
variable {op : Op} {rest : List Op} (htodo : w.machine.todo = op :: rest)
include htodo

theorem transmitted_op (hop : op.kind ≠ .transmit) : w.machine.transmitted .op = [] := by
  cases op with
  | transmit => exact absurd rfl hop
  | _ => simp [Preemptible.transmitted, htodo]

/-- The packet is due as soon as the send takes effect. -/
theorem due_next_of_setup (h : w.Inv) (hop : op.kind.setup = true) (hs : Op.settled rest = true) :
    (w.next .op).due =
      if w.task.sends then [(w.next .op).abs.response.replyBuffer.cells] else [] := by
  have hnext : (w.next .op).machine.todo = rest := by simp [Preemptible.next, htodo]
  have htask : (w.next .op).task = w.task := by simp [next, htodo]
  by_cases hnil : rest = []
  · have hsends : w.task.sends = false := by
      rw [← h.any_transmit (by simp [htodo]), htodo, hnil]
      cases op <;> first | rfl | cases hop
    rw [due_of_idle (hnext.trans hnil), hsends]
    rfl
  · rw [due_of_settled (w.next_inv .op h) (by rwa [hnext]) (by rw [hnext, hs]), htask]

theorem linear_transmitted_setup (h : w.Inv) (hop : op.kind.setup = true)
    (habs : (w.next .op).abs = Trace.run Firmware.next w.abs (w.linear .op)) :
    w.due ++ Trace.observe Firmware.next Firmware.transmitted w.abs (w.linear .op) =
      w.machine.transmitted .op ++ (w.next .op).due := by
  have hkind : op.kind ≠ .transmit := by
    intro he
    rw [he] at hop
    cases hop
  have hbefore : ∀ s : Firmware, s.transmitted .beforeSend = [] := fun _ => rfl
  rw [transmitted_op htodo hkind, due_of_not_settled (by simp [Op.settled, htodo, hop])]
  cases hs : Op.settled rest with
  | false =>
    have hnext : (w.next .op).machine.todo = rest := by simp [Preemptible.next, htodo]
    rw [due_of_not_settled (w := w.next .op) (by rw [hnext, hs])]
    simp only [linear, htodo, hs]
    split <;> simp [hbefore]
  | true =>
    rw [due_next_of_setup htodo h hop hs, habs]
    simp only [linear, htodo, hs, hop]
    split <;> simp [hbefore, Firmware.transmitted_firmwareEvent]

theorem linear_transmitted_op (h : w.Inv) (hop : op.kind.setup = false) :
    w.due ++ Trace.observe Firmware.next Firmware.transmitted w.abs (w.linear .op) =
      w.machine.transmitted .op ++ (w.next .op).due := by
  have hnext : (w.next .op).machine.todo = rest := by simp [Preemptible.next, htodo]
  rw [linear_op htodo hop, Trace.observe_nil, List.append_nil]
  by_cases hkind : op.kind = .transmit
  · obtain rfl : op = .transmit := by cases op <;> first | rfl | cases hkind
    obtain rfl := h.rest_nil htodo
    rw [due_of_idle hnext]
    simp [due, htodo, Op.settled, Op.kind, OpKind.setup, abs, Op.exec, Preemptible.transmitted]
  · rw [transmitted_op htodo hkind, List.nil_append]
    simp [due, abs_op h htodo hop, htodo, hkind, Op.settled, hop, Preemptible.next]

end Op

/-- **Packets are those of the atomic firmware**, transmitted later. -/
theorem linear_transmitted (w : Followed) (e : PreemptEvent) (h : w.Inv ∧ w.Fits)
    (hq : w.machine.Quiet e ∧ w.machine.InBounds e) :
    w.due ++ Trace.observe Firmware.next Firmware.transmitted w.abs (w.linear e) =
      w.machine.transmitted e ++ (w.next e).due := by
  cases e with
  | rx b => exact linear_transmitted_rx b hq.1
  | task task => exact linear_transmitted_task task (w.next_inv _ h.1)
  | op =>
    cases htodo : w.machine.todo with
    | nil => simp [next, linear, htodo, Preemptible.transmitted]
    | cons op rest =>
      cases hop : op.kind.setup with
      | true => exact linear_transmitted_setup htodo h.1 hop (w.abs_next .op h hq)
      | false => exact linear_transmitted_op htodo h.1 hop

/-! ## Which tasks are handled -/

/-- The events of a task begun that have not taken effect yet. -/
def owed (w : Followed) : List FirmwareEvent :=
  if Op.settled w.machine.todo then []
  else if w.machine.todo.any (fun op => op.kind = .beforeSend) then w.task.firmwareEvents
  else [w.task.firmwareEvent]

theorem owed_of_idle (h : w.machine.todo = []) : w.owed = [] := by
  simp [owed, h, Op.settled]

/-- A task that copies no report, or a send up to its callback, has all its events before
it. -/
theorem owed_task (task : Task) :
    w.owed ++ (w.machine.begun (.task task)).flatMap Task.firmwareEvents =
      (w.linear (.task task)).filter FirmwareEvent.main ++ (w.next (.task task)).owed := by
  cases hidle : w.machine.todo.isEmpty with
  | false => simp [next, linear, Preemptible.begun, hidle]
  | true =>
    have htodo : (w.next (.task task)).machine.todo = task.ops w.machine.response := by
      simp [Preemptible.next, hidle]
    have htask : (w.next (.task task)).task = task := by simp [next, hidle]
    rw [owed_of_idle (List.isEmpty_iff.mp hidle), owed, htodo, htask]
    cases task with
    | outReport mem packet =>
      cases hs : Op.settled (Task.ops w.machine.response (.outReport mem packet)) <;>
        simp [Preemptible.begun, linear, hidle, hs, Task.firmwareEvents, Task.firmwareEvent,
          List.filter_cons, FirmwareEvent.main, FirmwareEvent.byte]
    | inReport mem =>
      simp [Preemptible.begun, linear, hidle, Op.settled, Task.ops,
        ResponseManager.sendInReportOps, Op.kind, OpKind.setup]

/-- The callback is called by a send only. -/
theorem Inv.firmwareEvents_eq (h : w.Inv) {rest : List Op}
    (htodo : w.machine.todo = .beforeSend :: rest) :
    w.task.firmwareEvents = [.beforeSend, w.task.firmwareEvent] := by
  cases htask : w.task with
  | outReport mem packet =>
    have hsuffix := h.suffix
    rw [htask, Task.ops, htodo] at hsuffix
    have hnot := (outShapes_ordered _ (w.start.processOutReportOps_kind mem
      (switchResponseBuffer packet).toList (reportSize packet))).2.1
    exact absurd (List.mem_map.mpr ⟨_, hsuffix.subset (.head rest), rfl⟩) hnot
  | inReport mem => rfl

/-- And once. -/
theorem Inv.not_beforeSend (h : w.Inv) {op : Op} {rest : List Op}
    (htodo : w.machine.todo = op :: rest) :
    rest.any (fun op => op.kind = .beforeSend) = false := by
  have hpair := (w.task.ops_ordered w.start).before_first
  rw [List.pairwise_map] at hpair
  have hpair := hpair.sublist h.suffix.sublist
  rw [htodo, List.pairwise_cons] at hpair
  rw [List.any_eq_false]
  intro op' hop'
  simp [hpair.1 op' hop']

theorem owed_op (h : w.Inv) {op : Op} {rest : List Op} (htodo : w.machine.todo = op :: rest) :
    w.owed = (w.linear .op).filter FirmwareEvent.main ++ (w.next .op).owed := by
  have hnext : (w.next .op).machine.todo = rest := by simp [Preemptible.next, htodo]
  have htask : (w.next .op).task = w.task := by simp [next, htodo]
  have hmain : FirmwareEvent.main w.task.firmwareEvent = true := by cases w.task <;> rfl
  have hbefore : FirmwareEvent.main .beforeSend = true := rfl
  simp only [owed, linear, hnext, htask, htodo, List.any_cons, h.not_beforeSend htodo,
    Op.settled_cons]
  cases op with
  | beforeSend =>
    rw [h.firmwareEvents_eq htodo]
    cases Op.settled rest <;> simp [Op.kind, OpKind.setup, hmain, hbefore]
  | loadPointer =>
    cases Op.settled rest <;> simp [Op.kind, OpKind.setup, hmain]
  | compute f | copyByte i | transmit => simp [Op.kind, OpKind.setup]

theorem owed_next (w : Followed) (e : PreemptEvent) (h : w.Inv) :
    w.owed ++ (w.machine.begun e).flatMap Task.firmwareEvents =
      (w.linear e).filter FirmwareEvent.main ++ (w.next e).owed := by
  cases e with
  | rx b => simp [Preemptible.begun, linear, FirmwareEvent.main, FirmwareEvent.byte, owed, next,
      Preemptible.next]
  | task task => exact owed_task task
  | op =>
    cases htodo : w.machine.todo with
    | nil => simp [next, linear, htodo, Preemptible.begun]
    | cons op rest => simpa [Preemptible.begun] using owed_op h htodo

/-- **The tasks of the atomic firmware are those begun**, in the same order. -/
theorem owed_run (es : List PreemptEvent) (h : w.Inv) :
    w.owed ++ (Trace.observe Preemptible.next Preemptible.begun w.machine es).flatMap
        Task.firmwareEvents =
      (Trace.observe next linear w es).filter FirmwareEvent.main ++
        (Trace.run next w es).owed := by
  induction es generalizing w with
  | nil => simp
  | cons e es ih =>
    have hrest := ih (w.next_inv e h)
    rw [next_machine] at hrest
    rw [Trace.observe_cons, List.flatMap_append, ← List.append_assoc, w.owed_next e h,
      List.append_assoc, hrest, Trace.observe_cons, List.filter_append, Trace.run_cons,
      List.append_assoc]

end Followed

/-! ## Runs -/

/-- The atomic firmware explains a run: it receives the same bytes, handles the same tasks in
the same order, sends the same responses to the bridge and the same packets to the console,
and ends in the same state. -/
structure Linearizes (mem : Memory) (es : List PreemptEvent) (es' : List FirmwareEvent) :
    Prop where
  bytes_eq : es'.flatMap FirmwareEvent.byte = es.flatMap PreemptEvent.byte
  tasks_eq : es'.filter FirmwareEvent.main =
    (Trace.observe Preemptible.next Preemptible.begun (.boot mem) es).flatMap Task.firmwareEvents
  run_eq : Trace.run Firmware.next (.boot mem) es' =
    (Trace.run Preemptible.next (.boot mem) es).firmware
  responses_eq : Trace.observe Firmware.next Firmware.responses (.boot mem) es' =
    Trace.observe Preemptible.next Preemptible.responses (.boot mem) es
  packets_eq : Trace.observe Firmware.next Firmware.transmitted (.boot mem) es' =
    Trace.observe Preemptible.next Preemptible.transmitted (.boot mem) es

/-- Between two tasks, what has taken effect explains the run. -/
theorem Followed.linearizes {mem : Memory} {es : List PreemptEvent}
    (hquiet : Trace.Always Preemptible.next Preemptible.Quiet (.boot mem) es)
    (hin : Trace.Always Preemptible.next Preemptible.InBounds (.boot mem) es)
    (hidle : (Trace.run Preemptible.next (.boot mem) es).todo = []) :
    Linearizes mem es (Trace.observe Followed.next Followed.linear (.boot mem) es) := by
  have hboot := And.intro (Followed.boot_inv mem) (Followed.boot_fits mem)
  have hq : Trace.Always Followed.next (fun w e => w.machine.Quiet e ∧ w.machine.InBounds e)
      (.boot mem) es :=
    Trace.always_and.mpr ⟨.of_component Followed.next_machine hquiet,
      .of_component Followed.next_machine hin⟩
  have hI : ∀ (w : Followed) (e : PreemptEvent), w.Inv ∧ w.Fits →
      w.machine.Quiet e ∧ w.machine.InBounds e → (w.next e).Inv ∧ (w.next e).Fits :=
    fun w e h hq => ⟨w.next_inv e h.1, w.next_fits e h.2 hq.2⟩
  have hrun := Trace.Always.run_simulates hI Followed.abs_next hboot hq
  have hidle' : (Trace.run Followed.next (.boot mem) es).machine.todo = [] := by
    rw [Followed.run_machine]
    exact hidle
  have hstart : (Followed.boot mem).abs = Firmware.boot mem := Followed.abs_of_idle rfl
  refine ⟨Followed.observe_linear_byte _ es, ?_, ?_, ?_, ?_⟩
  · have howed := Followed.owed_run es (Followed.boot_inv mem)
    rw [Followed.owed_of_idle hidle', Followed.owed_of_idle rfl, List.append_nil] at howed
    exact howed.symm
  · rw [← hstart, ← hrun, Followed.abs_of_idle hidle', Followed.run_machine]
    rfl
  · have hresponses : ∀ (w : Followed) (e : PreemptEvent), w.Inv ∧ w.Fits →
        w.machine.Quiet e ∧ w.machine.InBounds e →
        [] ++ Trace.observe Firmware.next Firmware.responses w.abs (w.linear e) =
          w.machine.responses e ++ [] := fun w e _ _ => by simpa using w.linear_responses e
    have hview := Trace.Always.observe_simulates hI Followed.abs_next hresponses hboot hq
    rw [Followed.observe_machine Preemptible.responses, hstart] at hview
    simpa using hview
  · have hview := Trace.Always.observe_simulates hI Followed.abs_next Followed.linear_transmitted
      hboot hq
    rw [Followed.observe_machine Preemptible.transmitted, hstart,
      Followed.due_of_idle hidle', Followed.due_of_idle rfl] at hview
    simpa using hview

/-- **Interrupts in the middle of a task are harmless unless they complete a packet during a
copy.**  Let no packet be completed between the moment it is settled which report a task
copies and the last byte of the copy, and let no task write past the end of the reply buffer.
Then one run of the firmware with atomic events, from start-up, explains the run up to every
moment between two tasks: what it has done by then receives the same bytes, handles the same
tasks in the same order, sends the same responses to the bridge and the same packets to the
console, and leaves the same state. -/
theorem linearizable (mem : Memory) (es : List PreemptEvent)
    (hquiet : Trace.Always Preemptible.next Preemptible.Quiet (.boot mem) es)
    (hin : Trace.Always Preemptible.next Preemptible.InBounds (.boot mem) es) :
    ∃ es' : List FirmwareEvent, ∀ pre, pre <+: es →
      (Trace.run Preemptible.next (.boot mem) pre).todo = [] →
        ∃ pre', pre' <+: es' ∧ Linearizes mem pre pre' := by
  refine ⟨Trace.observe Followed.next Followed.linear (.boot mem) es, ?_⟩
  rintro pre ⟨post, rfl⟩ hidle
  refine ⟨Trace.observe Followed.next Followed.linear (.boot mem) pre, ?_, ?_⟩
  · rw [Trace.observe_append]
    exact List.prefix_append _ _
  · exact Followed.linearizes (Trace.always_append.mp hquiet).1 (Trace.always_append.mp hin).1
      hidle

/-- The console takes the prepared reply, then a standard report, of which four bytes are
copied when a start command arrives. -/
theorem linearizable_start_command :
    let mem : Memory := .zero
    let es : List PreemptEvent :=
      [.task (.inReport mem), .op, .op, .task (.inReport mem)] ++ List.replicate 8 .op ++
        [.rx 0xFF] ++ List.replicate 9 .op
    (Trace.run Preemptible.next (.boot mem) (es.take 12)).copying = true ∧
      ∃ es' : List FirmwareEvent, Linearizes mem es es' := by
  intro mem es
  obtain ⟨es', hes'⟩ := linearizable mem es (by decide) (by decide)
  obtain ⟨pre', -, hlinear⟩ := hes' es (List.prefix_refl es) rfl
  exact ⟨by decide, pre', hlinear⟩

end XInputSwitch
