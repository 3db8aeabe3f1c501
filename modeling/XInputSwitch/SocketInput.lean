import Mathlib.Logic.Relation
import XInputSwitch.PadSocket

/-! # What socket events do to the console

An event does nothing but enter deadlines, all the same one, no more than five seconds
after its clock reading (`Write`, `applyEvent_writes`), also if it raises half-way.
Everything else is read off these writes: what expires (`socket_input_expires`), what a
press does until then, and which presses do nothing.
-/
namespace XInputSwitch

open Python (Value Runtime Exception)
open Relation (ReflTransGen)

namespace PadSocket

/-! ## What an event can do -/

/-- One deadline entered. -/
inductive Write (deadline : ℚ) : PadSocket → PadSocket → Prop
  | hat {s : PadSocket} {name : String} {direction : Int × Int}
    (h : socketDpad.lookup name = some direction) :
    Write deadline s { s with hatValue := direction, hatUntil := deadline }
  | button {s : PadSocket} {name : String} {i : Nat} (hdpad : socketDpad.lookup name = none)
    (h : socketButtons.lookup name = some i) :
    Write deadline s { s with buttonUntil := s.buttonUntil.insert i deadline }
  | extra {s : PadSocket} {name : String} {bit : Nat} (h : socketExtraBits.lookup name = some bit) :
    Write deadline s { s with extraUntil := s.extraUntil.insert bit deadline }
  | trigger {s : PadSocket} {name : String} {i : Nat}
    (h : socketTriggerAxes.lookup name = some i) :
    Write deadline s { s with axisUntil := s.axisUntil.insert i (1, deadline) }
  | stick {s : PadSocket} {i : Nat} (h : i ∈ [0, 1, 3, 4]) (x : ℚ) :
    Write deadline s { s with axisUntil := s.axisUntil.insert i (x, deadline) }

/-! One lemma for each table, in the order they are searched. -/

section ApplyCommand
variable {py : Runtime} {deadline : ℚ} {s : PadSocket} {command : String}

theorem applyCommand_dpad {direction : Int × Int}
    (h : socketDpad.lookup (commandName py command) = some direction) :
    applyCommand py deadline s command =
      { s with hatValue := direction, hatUntil := deadline } := by
  simp only [applyCommand, h]

theorem applyCommand_button {i : Nat} (hdpad : socketDpad.lookup (commandName py command) = none)
    (h : socketButtons.lookup (commandName py command) = some i) :
    applyCommand py deadline s command =
      { s with buttonUntil := s.buttonUntil.insert i deadline } := by
  simp only [applyCommand, hdpad, h]

theorem applyCommand_extra {bit : Nat} (hdpad : socketDpad.lookup (commandName py command) = none)
    (hbutton : socketButtons.lookup (commandName py command) = none)
    (h : socketExtraBits.lookup (commandName py command) = some bit) :
    applyCommand py deadline s command =
      { s with extraUntil := s.extraUntil.insert bit deadline } := by
  simp only [applyCommand, hdpad, hbutton, h]

theorem applyCommand_trigger {i : Nat} (hdpad : socketDpad.lookup (commandName py command) = none)
    (hbutton : socketButtons.lookup (commandName py command) = none)
    (hextra : socketExtraBits.lookup (commandName py command) = none)
    (h : socketTriggerAxes.lookup (commandName py command) = some i) :
    applyCommand py deadline s command =
      { s with axisUntil := s.axisUntil.insert i (1, deadline) } := by
  simp only [applyCommand, hdpad, hbutton, hextra, h]

end ApplyCommand

/-- The command has a name that is listed. -/
def known (py : Runtime) (command : String) : Bool :=
  (socketDpad.lookup (commandName py command)).isSome ||
    (socketButtons.lookup (commandName py command)).isSome ||
    (socketExtraBits.lookup (commandName py command)).isSome ||
    (socketTriggerAxes.lookup (commandName py command)).isSome

/-- A command enters one deadline if its name is listed, and does nothing otherwise. -/
theorem applyCommand_cases (py : Runtime) (deadline : ℚ) (s : PadSocket) (command : String) :
    known py command = true ∧ Write deadline s (applyCommand py deadline s command) ∨
      known py command = false ∧ applyCommand py deadline s command = s := by
  cases hdpad : socketDpad.lookup (commandName py command) with
  | some direction =>
    rw [applyCommand_dpad hdpad]
    exact .inl ⟨by simp [known, hdpad], .hat hdpad⟩
  | none =>
    cases hbutton : socketButtons.lookup (commandName py command) with
    | some i =>
      rw [applyCommand_button hdpad hbutton]
      exact .inl ⟨by simp [known, hbutton], .button hdpad hbutton⟩
    | none =>
      cases hextra : socketExtraBits.lookup (commandName py command) with
      | some bit =>
        rw [applyCommand_extra hdpad hbutton hextra]
        exact .inl ⟨by simp [known, hextra], .extra hextra⟩
      | none =>
        cases htrigger : socketTriggerAxes.lookup (commandName py command) with
        | some i =>
          rw [applyCommand_trigger hdpad hbutton hextra htrigger]
          exact .inl ⟨by simp [known, htrigger], .trigger htrigger⟩
        | none =>
          refine .inr ⟨by simp [known, hdpad, hbutton, hextra, htrigger], ?_⟩
          simp only [applyCommand, hdpad, hbutton, hextra, htrigger]

theorem applyCommand_writes (py : Runtime) (deadline : ℚ) (s : PadSocket) (command : String) :
    ReflTransGen (Write deadline) s (applyCommand py deadline s command) := by
  rcases applyCommand_cases py deadline s command with ⟨-, hwrite⟩ | ⟨-, heq⟩
  · exact .single hwrite
  · rw [heq]

theorem foldl_applyCommand_writes (py : Runtime) (deadline : ℚ) (commands : List String)
    (s : PadSocket) :
    ReflTransGen (Write deadline) s (commands.foldl (applyCommand py deadline) s) := by
  induction commands generalizing s with
  | nil => exact .refl
  | cons command commands ih => exact (applyCommand_writes py deadline s command).trans (ih _)

theorem assignAxes_writes (py : Runtime) (deadline : ℚ) (axes : List (Nat × Value))
    (h : ∀ a ∈ axes, a.1 ∈ [0, 1, 3, 4]) (s : PadSocket) :
    ReflTransGen (Write deadline) s (assignAxes py deadline s axes).1 := by
  induction axes generalizing s with
  | nil => exact .refl
  | cons a axes ih =>
    unfold assignAxes
    cases clampAxis py a.2 with
    | error e => exact .refl
    | ok x =>
      have ha : a.1 ∈ [0, 1, 3, 4] := h a (.head axes)
      exact .head (.stick ha x) (ih (fun b hb => h b (.tail a hb)) _)

theorem stickAxes_mem {x y : Nat} {v : Value} {a : Nat × Value} (h : a ∈ stickAxes x y v) :
    a.1 = x ∨ a.1 = y := by
  cases v with
  | dict d =>
    rcases List.mem_cons.mp h with rfl | h
    · exact .inl rfl
    · rw [List.mem_singleton.mp h]
      exact .inr rfl
  | _ => cases h

/-- The deadline is never more than five seconds away, whatever the event says. -/
theorem eventDuration_bounds {py : Runtime} {event : List (String × Value)} {d : ℚ}
    (h : eventDuration py event = .ok d) : 1 / 100 ≤ d ∧ d ≤ 5 := by
  unfold eventDuration at h
  cases hf : py.float (Python.get event "duration" (.float (.finite (1 / 5)))) with
  | error e =>
    rw [hf] at h
    cases h
  | ok x =>
    have hle : (1 / 100 : ℚ) ≤ 5 := by norm_num
    obtain ⟨y, hy, hlow, hhigh⟩ := Python.Double.clamp_min_first hle x
    simp only [hf, hy, Except.ok.injEq] at h
    exact h ▸ ⟨hlow, hhigh⟩

/-- The assignments to axes that an event asks for, in order. -/
def eventAxes (py : Runtime) (event : List (String × Value)) : List (Nat × Value) :=
  stickAxes 0 1 (eventSticks py event).1 ++ stickAxes 3 4 (eventSticks py event).2

/-- An event that gets as far as being applied. -/
theorem applyEvent_dict {py : Runtime} {event : List (String × Value)} {d : ℚ}
    {commands : List String} (hd : eventDuration py event = .ok d)
    (hc : eventCommands py event = .ok commands) (reading : ℚ) (s : PadSocket) :
    applyEvent py reading s (.dict event) =
      assignAxes py (reading + d) (commands.foldl (applyCommand py (reading + d)) s)
        (eventAxes py event) := by
  simp only [applyEvent, hd, hc, eventAxes]

theorem eventAxes_mem (py : Runtime) (event : List (String × Value)) :
    ∀ a ∈ eventAxes py event, a.1 ∈ [0, 1, 3, 4] := by
  intro a ha
  rcases List.mem_append.mp ha with ha | ha <;> rcases stickAxes_mem ha with h | h <;> simp [h]

/-- An event changes nothing, or its commands are applied and then its axes, up to the first
that raises. -/
theorem applyEvent_cases (py : Runtime) (reading : ℚ) (s : PadSocket) (event : Value) :
    (applyEvent py reading s event).1 = s ∨
      ∃ d ≤ 5, ∃ (commands : List String) (axes : List (Nat × Value)),
        (∀ a ∈ axes, a.1 ∈ [0, 1, 3, 4]) ∧
        (applyEvent py reading s event).1 =
          (assignAxes py (reading + d) (commands.foldl (applyCommand py (reading + d)) s)
            axes).1 := by
  cases event with
  | dict event =>
    cases hd : eventDuration py event with
    | error e => exact .inl (by simp only [applyEvent, hd])
    | ok d =>
      cases hc : eventCommands py event with
      | error e => exact .inl (by simp only [applyEvent, hd, hc])
      | ok commands =>
        rw [applyEvent_dict hd hc]
        exact .inr ⟨d, (eventDuration_bounds hd).2, commands, _, eventAxes_mem py event, rfl⟩
  | _ => exact .inl rfl

/-- **What an event can do**: enter deadlines at most five seconds after its clock
reading, all the same one. -/
theorem applyEvent_writes (py : Runtime) (reading : ℚ) (s : PadSocket) (event : Value) :
    ∃ d ≤ 5, ReflTransGen (Write (reading + d)) s (applyEvent py reading s event).1 := by
  rcases applyEvent_cases py reading s event with h | ⟨d, hd, commands, axes, haxes, h⟩
  · rw [h]
    exact ⟨5, le_refl _, .refl⟩
  · rw [h]
    exact ⟨d, hd, (foldl_applyCommand_writes py _ commands s).trans
      (assignAxes_writes py _ axes haxes _)⟩

/-- What every write preserves, any number of them do. -/
theorem writes_invariant {I : PadSocket → Prop} {deadline : ℚ}
    (hwrite : ∀ s s', Write deadline s s' → I s → I s') {s s' : PadSocket}
    (h : ReflTransGen (Write deadline) s s') (hs : I s) : I s' := by
  induction h with
  | refl => exact hs
  | tail _ hw ih => exact hwrite _ _ hw ih

/-- An invariant of every write and of expiry is one of every step. -/
theorem next_invariant {I : PadSocket → Prop} (py : Runtime)
    (hwrite : ∀ deadline s s', Write deadline s s' → I s → I s')
    (hexpire : ∀ s now, I s → I (s.expire now)) (s : PadSocket) (step : SocketStep) (hs : I s) :
    I (s.next py step) := by
  cases step with
  | expire now => exact hexpire s now hs
  | apply reading event =>
    obtain ⟨d, -, hwrites⟩ := applyEvent_writes py reading s event
    exact writes_invariant (hwrite _) hwrites hs

/-! ## Expiry -/

/-- Every deadline has passed by `last`. -/
structure ExpiresBy (last : ℚ) (s : PadSocket) : Prop where
  buttons : ExpiryTable.ExpiresBy id last s.buttonUntil
  extras : ExpiryTable.ExpiresBy id last s.extraUntil
  axes : ExpiryTable.ExpiresBy Prod.snd last s.axisUntil
  hat : s.hatUntil ≤ last

theorem initial_expiresBy {last : ℚ} (h : 0 ≤ last) : initial.ExpiresBy last :=
  ⟨ExpiryTable.expiresBy_empty, ExpiryTable.expiresBy_empty, ExpiryTable.expiresBy_empty, h⟩

theorem Write.expiresBy {deadline last : ℚ} (hle : deadline ≤ last) {s s' : PadSocket}
    (hw : Write deadline s s') (h : s.ExpiresBy last) : s'.ExpiresBy last := by
  cases hw with
  | hat _ => exact ⟨h.buttons, h.extras, h.axes, hle⟩
  | button _ _ => exact ⟨h.buttons.insert hle _, h.extras, h.axes, h.hat⟩
  | extra _ => exact ⟨h.buttons, h.extras.insert hle _, h.axes, h.hat⟩
  | trigger _ => exact ⟨h.buttons, h.extras, h.axes.insert hle _, h.hat⟩
  | stick _ x => exact ⟨h.buttons, h.extras, h.axes.insert hle _, h.hat⟩

theorem ExpiresBy.expire {last : ℚ} {s : PadSocket} (h : s.ExpiresBy last) (now : ℚ) :
    (s.expire now).ExpiresBy last :=
  ⟨h.buttons.expire now, h.extras.expire now, h.axes.expire now, h.hat⟩

section Expired
variable {s : PadSocket} {now : ℚ} (h : s.ExpiresBy now) (hnow : 0 ≤ now)
include h

include hnow in
theorem ExpiresBy.btn_eq (i : Nat) : s.btn now i = false := by
  have hle : (s.buttonUntil.lookup i).getD 0 ≤ now := by
    cases hi : s.buttonUntil.lookup i with
    | none => exact hnow
    | some d => exact h.buttons i d hi
  exact decide_eq_false (not_lt.mpr hle)

theorem ExpiresBy.extraButtons_eq : s.extraButtons now = 0 := by
  apply Nat.eq_of_testBit_eq
  intro j
  have hnone : (s.extraUntil.entries.any fun e => decide (now < e.2) && e.1.testBit j) = false := by
    rw [List.any_eq_false]
    intro e he
    have hle : e.2 ≤ now := h.extras e.1 e.2 (AList.mem_lookup_iff.mpr he)
    simp [hle]
  have hbits := testBit_foldl_or (fun e : (_ : Nat) × ℚ => decide (now < e.2)) Sigma.fst
    s.extraUntil.entries 0 j
  simp only [decide_eq_true_eq] at hbits
  rw [extraButtons, hbits, hnone, Bool.or_false]

theorem ExpiresBy.axis_eq (i : Nat) : s.axis now i = 0 := by
  unfold axis
  cases hi : s.axisUntil.lookup i with
  | none => simp
  | some v =>
    have hle : v.2 ≤ now := h.axes i v hi
    simp [hle]

theorem ExpiresBy.hat_eq : s.hat now = (0, 0) := if_neg (not_lt.mpr h.hat)

end Expired
end PadSocket

/-- The clock reading of a step that applies an event is at least five seconds old. -/
def SocketStep.Past (now : ℚ) : SocketStep → Prop
  | .apply reading _ => reading + 5 ≤ now
  | .expire _ => True

theorem PadSocket.run_expiresBy (py : Runtime) {now : ℚ} (hnow : 0 ≤ now) {steps : List SocketStep}
    (h : ∀ step ∈ steps, step.Past now) :
    (Trace.run (next py) initial steps).ExpiresBy now := by
  refine Trace.run_invariant_of_forall (I := ExpiresBy now) ?_ (initial_expiresBy hnow) h
  intro s step hpast hs
  cases step with
  | expire t => exact hs.expire t
  | apply reading event =>
    obtain ⟨d, hd, hwrites⟩ := applyEvent_writes py reading s event
    have hlast : reading + d ≤ now := by
      have : reading + 5 ≤ now := hpast
      linarith
    exact writes_invariant (fun _ _ hw => hw.expiresBy hlast) hwrites hs

/-- Once every deadline has passed, the packet is the neutral one. -/
theorem PadSocket.buildPacket_of_expiresBy {moment : Query → PadSocket × ℚ}
    (h : ∀ q, (moment q).1.ExpiresBy (moment q).2) (hnow : ∀ q, 0 ≤ (moment q).2) :
    buildPacket .padSocket (readings moment) = some Packet.neutral := by
  have hbtn : mappedButtons (readings moment) = 0 := by
    apply Nat.eq_of_testBit_eq
    intro j
    rw [testBit_mappedButtons]
    simp [readings, (h _).btn_eq (hnow _)]
  rw [buildPacket, buttonMask_padSocket, hbtn]
  simp only [readings, (h _).hat_eq, (h _).axis_eq, (h _).extraButtons_eq]
  rfl

/-- **No stuck input.**  After any events, in any order and with any values, and whatever
was thrown out in between: a packet whose every reading is made five seconds or more
after the clock readings of the events before it is the neutral packet. -/
theorem socket_input_expires (py : Runtime) (steps : Query → List SocketStep) (now : Query → ℚ)
    (hnow : ∀ q, 0 ≤ now q) (hpast : ∀ q, ∀ step ∈ steps q, step.Past (now q)) :
    buildPacket .padSocket (PadSocket.readings fun q =>
      (Trace.run (PadSocket.next py) .initial (steps q), now q)) = some Packet.neutral :=
  PadSocket.buildPacket_of_expiresBy (fun q => PadSocket.run_expiresBy py (hnow q) (hpast q)) hnow

/-- A press of HOME for not-a-number seconds, in an event that then raises. -/
theorem socket_input_expires_nan :
    let event : Value := .dict [("command", .str " Home"), ("duration", .float .nan),
      ("left", .dict [("x", .int (10 ^ 400))])]
    (PadSocket.applyEvent .ascii 100 .initial event).2 = some .overflowError ∧
      (PadSocket.applyEvent .ascii 100 .initial event).1.extraButtons 100 = 1 <<< 12 ∧
      buildPacket .padSocket (PadSocket.readings fun _ =>
        (Trace.run (PadSocket.next .ascii) .initial [.apply 100 event], 105)) =
          some Packet.neutral := by
  intro event
  refine ⟨by decide +kernel, by decide +kernel, ?_⟩
  refine socket_input_expires .ascii (fun _ => [.apply 100 event]) (fun _ => 105)
    (fun _ => by norm_num) fun _ step hstep => ?_
  rw [List.mem_singleton.mp hstep]
  show (100 : ℚ) + 5 ≤ 105
  norm_num

end XInputSwitch
