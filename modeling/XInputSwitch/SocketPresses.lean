import XInputSwitch.SocketInput

/-! # Which presses reach the console

Names are searched in four tables, the directional pad first.  A press is in the packet
until its deadline, with two exceptions: `l` and `r` are directions before they are
shoulder buttons, so that nothing ever presses L or R (`socket_buttons_pressed`), and
`build_packet` asks a socket controller for no trigger, so that ZL and ZR are entered
and never sent (`socket_triggers_dropped`).
-/
namespace XInputSwitch

open Python (Value Runtime Exception)
open Relation (ReflTransGen)

namespace PadSocket

/-! ## What no event can enter -/

/-- What the tables allow: a direction of `HAT_MAP`, no shoulder button, and no mask but
those of HOME and Capture. -/
structure WellNamed (s : PadSocket) : Prop where
  hat : (hatMap.lookup s.hatValue).isSome = true
  shoulders : s.buttonUntil.lookup 4 = none ∧ s.buttonUntil.lookup 5 = none
  extras : ∀ bit, (s.extraUntil.lookup bit).isSome = true → bit = 1 <<< 12 ∨ bit = 1 <<< 13

theorem initial_wellNamed : initial.WellNamed :=
  ⟨rfl, ⟨rfl, rfl⟩, fun bit h => by rw [initial, AList.lookup_empty] at h; cases h⟩

theorem Write.wellNamed {deadline : ℚ} {s s' : PadSocket} (hw : Write deadline s s')
    (h : s.WellNamed) : s'.WellNamed := by
  cases hw with
  | hat hname =>
    have hall : ∀ e ∈ socketDpad, (hatMap.lookup e.2).isSome = true := by decide
    exact ⟨hall _ (Python.mem_of_lookup hname), h.shoulders, h.extras⟩
  | button hdpad hname =>
    -- the two names that have a shoulder button's index are directions
    have hall : ∀ e ∈ socketButtons, socketDpad.lookup e.1 = none → 4 ≠ e.2 ∧ 5 ≠ e.2 := by decide
    obtain ⟨h₄, h₅⟩ := hall _ (Python.mem_of_lookup hname) hdpad
    refine ⟨h.hat, ?_, h.extras⟩
    rw [AList.lookup_insert_ne h₄, AList.lookup_insert_ne h₅]
    exact h.shoulders
  | @extra name bit hname =>
    have hall : ∀ e ∈ socketExtraBits, e.2 = 1 <<< 12 ∨ e.2 = 1 <<< 13 := by decide
    refine ⟨h.hat, h.shoulders, fun bit' hbit' => ?_⟩
    by_cases heq : bit' = bit
    · rw [heq]
      exact hall _ (Python.mem_of_lookup hname)
    · rw [AList.lookup_insert_ne heq] at hbit'
      exact h.extras bit' hbit'
  | trigger _ => exact ⟨h.hat, h.shoulders, h.extras⟩
  | stick _ x => exact ⟨h.hat, h.shoulders, h.extras⟩

theorem WellNamed.expire {s : PadSocket} (h : s.WellNamed) (now : ℚ) :
    (s.expire now).WellNamed where
  hat := by
    simp only [PadSocket.expire]
    split
    · rfl
    · exact h.hat
  shoulders := by
    simp [PadSocket.expire, ExpiryTable.live, h.shoulders.1, h.shoulders.2]
  extras bit hbit := by
    apply h.extras bit
    simp only [PadSocket.expire, ExpiryTable.lookup_expire] at hbit
    obtain ⟨b, hb⟩ := Option.isSome_iff_exists.mp hbit
    rw [(ExpiryTable.live_eq_some_iff.mp hb).1]
    rfl

theorem next_wellNamed (py : Runtime) (s : PadSocket) (step : SocketStep) (h : s.WellNamed) :
    (s.next py step).WellNamed :=
  next_invariant py (fun _ _ _ hw => hw.wellNamed) (fun _ now hs => hs.expire now) s step h

theorem run_wellNamed (py : Runtime) (steps : List SocketStep) :
    (Trace.run (next py) initial steps).WellNamed :=
  Trace.run_invariant (next_wellNamed py) initial_wellNamed steps

/-! ## The packet -/

section Readings
variable {s : PadSocket} {now : ℚ}

theorem testBit_extraButtons (s : PadSocket) (now : ℚ) (j : Nat) :
    (s.extraButtons now).testBit j = true ↔
      ∃ bit d, s.extraUntil.lookup bit = some d ∧ now < d ∧ bit.testBit j = true := by
  have hbits := testBit_foldl_or (fun e : (_ : Nat) × ℚ => decide (now < e.2)) Sigma.fst
    s.extraUntil.entries 0 j
  simp only [decide_eq_true_eq, Nat.zero_testBit, Bool.false_or] at hbits
  rw [extraButtons, hbits, List.any_eq_true]
  constructor
  · rintro ⟨e, he, htaken⟩
    rw [Bool.and_eq_true, decide_eq_true_eq] at htaken
    exact ⟨e.1, e.2, AList.mem_lookup_iff.mpr he, htaken⟩
  · rintro ⟨bit, d, hlookup, htaken⟩
    refine ⟨⟨bit, d⟩, AList.mem_lookup_iff.mp hlookup, ?_⟩
    rw [Bool.and_eq_true, decide_eq_true_eq]
    exact htaken

section Beside
variable {moment : Query → PadSocket × ℚ} {asked : Nat → PadSocket} {packet : Packet}

end Beside

theorem WellNamed.hat_lookup (h : s.WellNamed) (now : ℚ) :
    (hatMap.lookup (s.hat now)).isSome = true := by
  unfold PadSocket.hat
  split
  · exact h.hat
  · rfl

/-- Only the bits of HOME and Capture come from `extra_buttons`. -/
theorem WellNamed.testBit_extraButtons (h : s.WellNamed) {j : Nat} (h₁₂ : 12 ≠ j) (h₁₃ : 13 ≠ j) :
    (s.extraButtons now).testBit j = false := by
  rw [Bool.eq_false_iff]
  intro hj
  obtain ⟨bit, d, hlookup, -, hbit⟩ := (PadSocket.testBit_extraButtons s now j).mp hj
  rcases h.extras bit (by rw [hlookup]; rfl) with rfl | rfl
  · rw [Nat.one_shiftLeft, Nat.testBit_two_pow] at hbit
    exact h₁₂ (of_decide_eq_true hbit)
  · rw [Nat.one_shiftLeft, Nat.testBit_two_pow] at hbit
    exact h₁₃ (of_decide_eq_true hbit)

end Readings

/-- The hat is always a direction of `HAT_MAP`, so it keeps no packet from being built. -/
theorem run_buildPacket (py : Runtime) (steps : Query → List SocketStep) (now : Query → ℚ)
    (p : Pad) : ∃ packet, buildPacket p
      (readings fun q => (Trace.run (next py) initial (steps q), now q)) = some packet :=
  exists_buildPacket ((run_wellNamed py (steps .hat)).hat_lookup (now .hat))

/-! ## What an event enters -/

/-- The places a command that is no direction enters a deadline for. -/
inductive Place where
  | button (i : Nat)
  | extra (bit : Nat)
  | trigger (i : Nat)

/-- The place holds a press until `deadline`. -/
def Entered (deadline : ℚ) (s : PadSocket) : Place → Prop
  | .button i => s.buttonUntil.lookup i = some deadline
  | .extra bit => s.extraUntil.lookup bit = some deadline
  -- no stick has this axis
  | .trigger i => i ∉ [0, 1, 3, 4] ∧ s.axisUntil.lookup i = some (1, deadline)

/-- The later writes of an event have its deadline too. -/
theorem Write.entered {deadline : ℚ} {s s' : PadSocket} (hw : Write deadline s s') {place : Place}
    (h : s.Entered deadline place) : s'.Entered deadline place := by
  cases place with
  | button i =>
    cases hw with
    | button _ _ => exact ExpiryTable.lookup_insert_same h
    | _ => exact h
  | extra bit =>
    cases hw with
    | extra _ => exact ExpiryTable.lookup_insert_same h
    | _ => exact h
  | trigger i =>
    obtain ⟨hstick, hlookup⟩ := h
    cases hw with
    | trigger _ => exact ⟨hstick, ExpiryTable.lookup_insert_same hlookup⟩
    | stick hi x =>
      have hne := ne_of_mem_of_not_mem hi hstick
      exact ⟨hstick, (AList.lookup_insert_ne hne.symm).trans hlookup⟩
    | _ => exact ⟨hstick, hlookup⟩

theorem Entered.expire {deadline now : ℚ} (hnow : now < deadline) {s : PadSocket} {place : Place}
    (h : s.Entered deadline place) : (s.expire now).Entered deadline place := by
  cases place with
  | button i => exact ExpiryTable.lookup_expire_of_lt h hnow
  | extra bit => exact ExpiryTable.lookup_expire_of_lt h hnow
  | trigger i => exact ⟨h.1, ExpiryTable.lookup_expire_of_lt h.2 hnow⟩

/-- What one command of an event enters is there when the event has been applied, also if
it raises later. -/
theorem applyEvent_entered {py : Runtime} {event : List (String × Value)} {d : ℚ}
    {commands : List String} (hd : eventDuration py event = .ok d)
    (hc : eventCommands py event = .ok commands) {command : String} (hmem : command ∈ commands)
    {reading : ℚ} {place : Place}
    (hcommand : ∀ s, (applyCommand py (reading + d) s command).Entered (reading + d) place)
    (s : PadSocket) : (applyEvent py reading s (.dict event)).1.Entered (reading + d) place := by
  obtain ⟨before, after, rfl⟩ := List.append_of_mem hmem
  rw [applyEvent_dict hd hc, List.foldl_append, List.foldl_cons]
  have hafter := writes_invariant (fun _ _ hw => hw.entered)
    (foldl_applyCommand_writes py (reading + d) after _)
    (hcommand (before.foldl (applyCommand py (reading + d)) s))
  exact writes_invariant (fun _ _ hw => hw.entered)
    (assignAxes_writes py (reading + d) _ (eventAxes_mem py event) _) hafter

/-- It stays while only expired entries are thrown out. -/
theorem run_entered {py : Runtime} {s : PadSocket} {reading now deadline : ℚ} {event : Value}
    {place : Place} (h : (applyEvent py reading s event).1.Entered deadline place)
    (hnow : now < deadline) {expires : List ℚ} (hexpires : ∀ t ∈ expires, t ≤ now) :
    (Trace.run (next py) s (.apply reading event :: expires.map .expire)).Entered
      deadline place := by
  refine Trace.run_invariant_of_forall
    (P := fun step => ∃ t < deadline, step = SocketStep.expire t)
    (I := fun s => Entered deadline s place) ?_ h ?_
  · rintro s step ⟨t, ht, rfl⟩ hs
    exact hs.expire ht
  · intro step hstep
    obtain ⟨t, ht, rfl⟩ := List.mem_map.mp hstep
    exact ⟨t, lt_of_le_of_lt (hexpires t ht) hnow, rfl⟩

section Entered
variable {s : PadSocket} {deadline now : ℚ} (hnow : now < deadline)
include hnow

theorem Entered.btn_eq {i : Nat} (h : s.Entered deadline (.button i)) : s.btn now i = true := by
  have hlookup : s.buttonUntil.lookup i = some deadline := h
  rw [btn, hlookup]
  exact decide_eq_true hnow

theorem Entered.testBit_extraButtons {bit j : Nat} (h : s.Entered deadline (.extra bit))
    (hj : bit.testBit j = true) : (s.extraButtons now).testBit j = true :=
  (PadSocket.testBit_extraButtons s now j).mpr ⟨bit, deadline, h, hnow, hj⟩

theorem Entered.axis_eq {i : Nat} (h : s.Entered deadline (.trigger i)) : s.axis now i = 1 := by
  rw [axis, h.2]
  exact if_pos hnow

end Entered
end PadSocket

/-! ## Triggers -/

/-- No button of `BTN_MAP` has the mask of a trigger. -/
theorem testBit_mappedButtons_trigger (r : Readings) :
    (mappedButtons r).testBit 6 = false ∧ (mappedButtons r).testBit 7 = false := by
  have hall : ∀ im ∈ btnMap, im.2.testBit 6 = false ∧ im.2.testBit 7 = false := by decide
  constructor
  · exact testBit_mappedButtons_eq_false fun im him hj => by rw [(hall im him).1] at hj; cases hj
  · exact testBit_mappedButtons_eq_false fun im him hj => by rw [(hall im him).2] at hj; cases hj

/-- An XInput or SDL controller: the trigger bits are those of axes 2 and 5. -/
theorem testBit_buttonMask_gamepad {p : Pad} (hp : p.isGamepad = true) (r : Readings) :
    (buttonMask p r).testBit 6 = decide (1 / 2 < r.axis 2) ∧
      (buttonMask p r).testBit 7 = decide (1 / 2 < r.axis 5) := by
  obtain ⟨h₆, h₇⟩ := testBit_mappedButtons_trigger r
  have hk : p ≠ .padK := by rintro rfl; cases hp
  have hs : p ≠ .padSocket := by rintro rfl; cases hp
  simp only [buttonMask, hk, hs, hp, false_and, if_false, if_true, true_and, testBit_ite_or,
    Nat.one_shiftLeft, Nat.testBit_two_pow]
  simp [h₆, h₇]

/-- **Triggers are dropped.**  A packet for a socket controller never has the bit of ZL
or ZR, whatever its axes read; an XInput or SDL controller with the same readings has
them when the axis is above one half, and an applied event that names a trigger makes
its axis read 1 until it expires. -/
theorem socket_triggers_dropped (py : Runtime) :
    (∀ (steps : Query → List SocketStep) (now : Query → ℚ),
      let r := PadSocket.readings fun q =>
        (Trace.run (PadSocket.next py) .initial (steps q), now q)
      (∃ packet, buildPacket .padSocket r = some packet ∧
        packet.b.testBit 6 = false ∧ packet.b.testBit 7 = false) ∧
      ∀ p : Pad, p.isGamepad = true → ∃ packet, buildPacket p r = some packet ∧
        packet.b.testBit 6 = decide (1 / 2 < r.axis 2) ∧
        packet.b.testBit 7 = decide (1 / 2 < r.axis 5)) ∧
    ∀ (s : PadSocket) (event : List (String × Value)) (d : ℚ) (commands : List String)
      (command : String) (i : Nat) (reading now : ℚ) (expires : List ℚ),
      PadSocket.eventDuration py event = .ok d → PadSocket.eventCommands py event = .ok commands →
      command ∈ commands →
      socketTriggerAxes.lookup (PadSocket.commandName py command) = some i →
      now < reading + d → (∀ t ∈ expires, t ≤ now) →
        (Trace.run (PadSocket.next py) s
          (.apply reading (.dict event) :: expires.map .expire)).axis now i = 1 := by
  constructor
  · intro steps now r
    have hnamed := fun q => PadSocket.run_wellNamed py (steps q)
    constructor
    · obtain ⟨packet, hpacket⟩ := PadSocket.run_buildPacket py steps now .padSocket
      obtain ⟨h₆, h₇⟩ := testBit_mappedButtons_trigger r
      have hextra : r.extraButtons.testBit 6 = false ∧ r.extraButtons.testBit 7 = false :=
        ⟨(hnamed _).testBit_extraButtons (by decide) (by decide),
          (hnamed _).testBit_extraButtons (by decide) (by decide)⟩
      refine ⟨packet, hpacket, ?_⟩
      rw [buildPacket_mask hpacket, buttonMask_padSocket, Nat.testBit_or, Nat.testBit_or, h₆, h₇,
        hextra.1, hextra.2]
      exact ⟨rfl, rfl⟩
    · intro p hp
      obtain ⟨packet, hpacket⟩ := PadSocket.run_buildPacket py steps now p
      refine ⟨packet, hpacket, ?_⟩
      rw [buildPacket_mask hpacket]
      exact testBit_buttonMask_gamepad hp r
  · intro s event d commands command i reading now expires hd hc hmem hname hnow hexpires
    -- the names of triggers are in no other table
    have hall : ∀ e ∈ socketTriggerAxes, socketDpad.lookup e.1 = none ∧
        socketButtons.lookup e.1 = none ∧ socketExtraBits.lookup e.1 = none ∧
        e.2 ∉ [0, 1, 3, 4] := by decide
    obtain ⟨hdpad, hbutton, hextra, hstick⟩ := hall _ (Python.mem_of_lookup hname)
    have hentered : (PadSocket.applyEvent py reading s (.dict event)).1.Entered (reading + d)
        (.trigger i) := by
      refine PadSocket.applyEvent_entered hd hc hmem (fun s => ?_) s
      rw [PadSocket.applyCommand_trigger hdpad hbutton hextra hname]
      exact ⟨hstick, AList.lookup_insert _⟩
    exact (PadSocket.run_entered hentered hnow hexpires).axis_eq hnow

/-- An event that holds ZL: the axis reads 1, and of two packets from the same readings
only that of an XInput controller has the bit. -/
theorem socket_zl_dropped :
    let r := PadSocket.readings fun _ => (Trace.run (PadSocket.next .ascii) .initial
      [.apply 100 (.dict [("command", .str "zl")])], 100 + 1 / 10)
    r.axis 2 = 1 ∧
      (buildPacket .padSocket r).map (fun packet => packet.b.testBit 6) = some false ∧
      (buildPacket (.padX 0) r).map (fun packet => packet.b.testBit 6) = some true := by
  decide +kernel

/-! ## Buttons -/

namespace PadSocket

/-- The entries of an event that are commands for buttons. -/
inductive Includes (event : List (String × Value)) (entry : String) : Prop
  | single {key : String} (hkey : key ∈ ["command", "button"])
    (h : Python.get event key .none = .str entry)
  | text {key : String} (hkey : key ∈ ["buttons", "commands"])
    (h : Python.get event key .none = .str entry)
  | list {key : String} {values : List Value} (hkey : key ∈ ["buttons", "commands"])
    (h : Python.get event key .none = .list values) (hmem : .str entry ∈ values)
  | dict {key : String} {entries : List (String × Value)} (hkey : key ∈ ["buttons", "commands"])
    (h : Python.get event key .none = .dict entries) (hmem : entry ∈ entries.map Prod.fst)

/-- The bit of a name, by `BTN_MAP` for those of `SOCKET_BUTTONS`. -/
def namedMask (name : String) : Option Nat :=
  match socketButtons.lookup name with
  | some i => btnMap.lookup i
  | none => socketExtraBits.lookup name

theorem mem_single {py : Runtime} {event : List (String × Value)} {key entry : String}
    (h : Python.get event key .none = .str entry) (hne : entry ≠ "") :
    entry ∈ single py event key := by
  simp [single, h, Value.truthy, hne, Runtime.str]

section Several
variable {py : Runtime} {event : List (String × Value)} {key entry : String}
  {commands : List String} (hok : several py event key = .ok commands)
include hok

theorem mem_several_text (h : Python.get event key .none = .str entry) (hne : entry ≠ "") :
    entry ∈ commands := by
  simp only [several, h, Value.orElse, Value.truthy, ne_eq, hne, not_false_eq_true, decide_true,
    if_true, Except.ok.injEq] at hok
  simp [← hok]

theorem mem_several_list {values : List Value} (h : Python.get event key .none = .list values)
    (hmem : .str entry ∈ values) : entry ∈ commands := by
  have hne : values.isEmpty = false := List.isEmpty_eq_false_iff.mpr (List.ne_nil_of_mem hmem)
  simp only [several, h, Value.orElse, Value.truthy, hne, Bool.not_false, if_true,
    Value.elements, Except.ok.injEq] at hok
  rw [← hok]
  exact List.mem_map.mpr ⟨_, hmem, rfl⟩

theorem mem_several_dict {entries : List (String × Value)}
    (h : Python.get event key .none = .dict entries) (hmem : entry ∈ entries.map Prod.fst) :
    entry ∈ commands := by
  have hne : entries.isEmpty = false := by
    cases entries with
    | nil => cases hmem
    | cons => rfl
  simp only [several, h, Value.orElse, Value.truthy, hne, Bool.not_false, if_true,
    Value.elements, Except.ok.injEq] at hok
  obtain ⟨e, he, rfl⟩ := List.mem_map.mp hmem
  rw [← hok, List.map_map]
  exact List.mem_map.mpr ⟨e, he, rfl⟩

end Several

/-- The commands of an event: those at keys that hold one, and those at keys that hold
several. -/
theorem eventCommands_eq_ok {py : Runtime} {event : List (String × Value)} {commands : List String}
    (hc : eventCommands py event = .ok commands) :
    ∃ buttons more, several py event "buttons" = .ok buttons ∧
      several py event "commands" = .ok more ∧
      commands = single py event "command" ++ single py event "button" ++ single py event "dpad" ++
        buttons ++ more := by
  unfold eventCommands at hc
  cases hbuttons : several py event "buttons" with
  | error e => simp [hbuttons] at hc
  | ok buttons =>
    cases hmore : several py event "commands" with
    | error e => simp [hbuttons, hmore] at hc
    | ok more =>
      simp only [hbuttons, hmore, Except.ok.injEq] at hc
      exact ⟨buttons, more, rfl, rfl, hc.symm⟩

theorem mem_eventCommands {py : Runtime} {event : List (String × Value)} {commands : List String}
    (hc : eventCommands py event = .ok commands) {entry : String} (h : Includes event entry)
    (hne : entry ≠ "") : entry ∈ commands := by
  obtain ⟨buttons, more, hbuttons, hmore, rfl⟩ := eventCommands_eq_ok hc
  -- a command at a key that holds several is among the last two parts
  have hlast : ∀ {key : String}, key ∈ ["buttons", "commands"] →
      (∀ {texts}, several py event key = .ok texts → entry ∈ texts) →
      entry ∈ single py event "command" ++ single py event "button" ++ single py event "dpad" ++
        buttons ++ more := by
    intro key hkey hmem
    rcases List.mem_cons.mp hkey with rfl | hkey
    · exact List.mem_append_left _ (List.mem_append_right _ (hmem hbuttons))
    · obtain rfl := List.mem_singleton.mp hkey
      exact List.mem_append_right _ (hmem hmore)
  cases h with
  | single hkey hget =>
    rcases List.mem_cons.mp hkey with rfl | hkey
    · simp [mem_single hget hne]
    · obtain rfl := List.mem_singleton.mp hkey
      simp [mem_single hget hne]
  | text hkey hget => exact hlast hkey fun hok => mem_several_text hok hget hne
  | list hkey hget hmem => exact hlast hkey fun hok => mem_several_list hok hget hmem
  | dict hkey hget hmem => exact hlast hkey fun hok => mem_several_dict hok hget hmem

theorem several_isOk (py : Runtime) (event : List (String × Value)) (key : String) :
    (several py event key).isOk = (Python.get event key .none).loops := by
  unfold several Value.loops
  cases (Python.get event key .none).orElse (.list []) <;> rfl

/-- The commands can be collected if both keys that may hold several can be looped over. -/
theorem eventCommands_isOk (py : Runtime) (event : List (String × Value)) :
    (eventCommands py event).isOk =
      ((Python.get event "buttons" .none).loops && (Python.get event "commands" .none).loops) := by
  rw [← several_isOk py, ← several_isOk py]
  unfold eventCommands
  cases several py event "buttons" with
  | error e => rfl
  | ok buttons => cases several py event "commands" <;> rfl

/-- A name with a bit, other than `l` and `r`: the table that `_apply_command` finds it in. -/
theorem namedMask_cases {name : String} {mask : Nat} (h : namedMask name = some mask)
    (hshoulder : name ∉ ["l", "r"]) :
    Python.replaceChar ' ' '-' name = name ∧ socketDpad.lookup name = none ∧
      ((∃ i, socketButtons.lookup name = some i ∧ btnMap.lookup i = some mask) ∨
        socketButtons.lookup name = none ∧ socketExtraBits.lookup name = some mask) := by
  unfold namedMask at h
  cases hbutton : socketButtons.lookup name with
  | some i =>
    have hall : ∀ e ∈ socketButtons, e.1 ∉ ["l", "r"] →
        Python.replaceChar ' ' '-' e.1 = e.1 ∧ socketDpad.lookup e.1 = none := by decide
    obtain ⟨hblank, hdpad⟩ := hall _ (Python.mem_of_lookup hbutton) hshoulder
    rw [hbutton] at h
    exact ⟨hblank, hdpad, .inl ⟨i, rfl, h⟩⟩
  | none =>
    have hall : ∀ e ∈ socketExtraBits,
        Python.replaceChar ' ' '-' e.1 = e.1 ∧ socketDpad.lookup e.1 = none := by decide
    rw [hbutton] at h
    obtain ⟨hblank, hdpad⟩ := hall _ (Python.mem_of_lookup h)
    exact ⟨hblank, hdpad, .inr ⟨rfl, h⟩⟩

/-- Nothing is named by the empty text. -/
theorem entry_ne_empty {py : Runtime} {entry : String} {mask : Nat}
    (h : namedMask (py.lower (Python.strip entry)) = some mask) : entry ≠ "" := by
  rintro rfl
  have hempty : py.lower (Python.strip "") = "" := py.lower_ascii "" (fun c hc => by cases hc)
  rw [hempty] at h
  cases h

/-- A press that is entered at every moment shows in the mask. -/
theorem mask_of_entered {name : String} {mask : Nat} (h : namedMask name = some mask)
    (hshoulder : name ∉ ["l", "r"]) {py : Runtime} {entry : String}
    (hname : py.lower (Python.strip entry) = name) {deadline : ℚ} {moment : Query → PadSocket × ℚ}
    (hnow : ∀ q, (moment q).2 < deadline)
    (hentered : ∀ place, (∀ s, (applyCommand py deadline s entry).Entered deadline place) →
      ∀ q, (moment q).1.Entered deadline place) :
    buttonMask .padSocket (readings moment) &&& mask = mask := by
  obtain ⟨hblank, hdpad, htable⟩ := namedMask_cases h hshoulder
  have hcommand : commandName py entry = name := by rw [commandName, hname, hblank]
  rw [← hcommand] at hdpad htable
  suffices hbits : ∀ j, mask.testBit j = true →
      (buttonMask .padSocket (readings moment)).testBit j = true by
    apply Nat.eq_of_testBit_eq
    intro j
    rw [Nat.testBit_and]
    cases hj : mask.testBit j with
    | false => exact Bool.and_false _
    | true => rw [hbits j hj]; rfl
  intro j hj
  rw [buttonMask_padSocket, Nat.testBit_or, Bool.or_eq_true]
  rcases htable with ⟨i, hbutton, hmask⟩ | ⟨hbutton, hextra⟩
  · left
    have hplace : ∀ s, (applyCommand py deadline s entry).Entered deadline (.button i) := by
      intro s
      rw [applyCommand_button hdpad hbutton]
      exact AList.lookup_insert _
    have hbtn := (hentered _ hplace (.btn i)).btn_eq (hnow (.btn i))
    rw [testBit_mappedButtons, List.any_eq_true]
    refine ⟨(i, mask), Python.mem_of_lookup hmask, ?_⟩
    rw [Bool.and_eq_true]
    exact ⟨hbtn, hj⟩
  · right
    have hplace : ∀ s, (applyCommand py deadline s entry).Entered deadline (.extra mask) := by
      intro s
      rw [applyCommand_extra hdpad hbutton hextra]
      exact AList.lookup_insert _
    exact (hentered _ hplace .extraButtons).testBit_extraButtons (hnow .extraButtons) hj

theorem WellNamed.btn_shoulder {s : PadSocket} (h : s.WellNamed) {now : ℚ} (hnow : 0 ≤ now) :
    s.btn now 4 = false ∧ s.btn now 5 = false := by
  rw [btn, btn, h.shoulders.1, h.shoulders.2]
  exact ⟨decide_eq_false (not_lt.mpr hnow), decide_eq_false (not_lt.mpr hnow)⟩

/-- Nothing presses a shoulder button. -/
theorem testBit_shoulder {moment : Query → PadSocket × ℚ} (h : ∀ q, (moment q).1.WellNamed)
    (hnow : ∀ q, 0 ≤ (moment q).2) :
    (buttonMask .padSocket (readings moment)).testBit 4 = false ∧
      (buttonMask .padSocket (readings moment)).testBit 5 = false := by
  have h₄ : (readings moment).btn 4 = false := ((h _).btn_shoulder (hnow _)).1
  have h₅ : (readings moment).btn 5 = false := ((h _).btn_shoulder (hnow _)).2
  have hextra : ∀ j, 12 ≠ j → 13 ≠ j → (readings moment).extraButtons.testBit j = false :=
    fun j => (h .extraButtons).testBit_extraButtons
  have hall : ∀ im ∈ btnMap,
      (im.2.testBit 4 = true → im.1 = 4) ∧ (im.2.testBit 5 = true → im.1 = 5) := by decide
  rw [buttonMask_padSocket, Nat.testBit_or, Nat.testBit_or, hextra 4 (by decide) (by decide),
    hextra 5 (by decide) (by decide), Bool.or_false, Bool.or_false]
  constructor
  · exact testBit_mappedButtons_eq_false fun im him hj => ((hall im him).1 hj).symm ▸ h₄
  · exact testBit_mappedButtons_eq_false fun im him hj => ((hall im him).2 hj).symm ▸ h₅

/-- So the bits of `l` and `r` are missing. -/
theorem mask_shoulder {moment : Query → PadSocket × ℚ} (h : ∀ q, (moment q).1.WellNamed)
    (hnow : ∀ q, 0 ≤ (moment q).2) {name : String} (hname : name ∈ ["l", "r"]) {mask : Nat}
    (hmask : namedMask name = some mask) :
    buttonMask .padSocket (readings moment) &&& mask ≠ mask := by
  intro hbits
  obtain ⟨h₄, h₅⟩ := testBit_shoulder h hnow
  have hset : ∀ j, 2 ^ j = mask → (buttonMask .padSocket (readings moment)).testBit j = true := by
    rintro j rfl
    have hj := congrArg (Nat.testBit · j) hbits
    simpa [Nat.testBit_and] using hj
  rcases List.mem_cons.mp hname with rfl | hname
  · exact Bool.false_ne_true (h₄.symm.trans (hset 4 (Option.some.inj hmask)))
  · rw [List.mem_singleton.mp hname] at hmask
    exact Bool.false_ne_true (h₅.symm.trans (hset 5 (Option.some.inj hmask)))

theorem namedMask_ne_zero {name : String} {mask : Nat} (h : namedMask name = some mask) :
    mask ≠ 0 := by
  unfold namedMask at h
  split at h
  · have hall : ∀ e ∈ btnMap, e.2 ≠ 0 := by decide
    exact hall _ (Python.mem_of_lookup h)
  · have hall : ∀ e ∈ socketExtraBits, e.2 ≠ 0 := by decide
    exact hall _ (Python.mem_of_lookup h)

end PadSocket

/-- **Which buttons an event presses.**  While an event lasts and no other follows, the
packet has the bit of every button the event names, if and only if none of the names is
`l` or `r` and the lists in it are lists. -/
theorem socket_buttons_pressed (py : Runtime) (event : List (String × Value)) {d : ℚ}
    (hd : PadSocket.eventDuration py event = .ok d) {reading : ℚ} (hreading : 0 ≤ reading) :
    (∀ (steps : List SocketStep) (expires : Query → List ℚ) (now : Query → ℚ),
      (∀ q, reading ≤ now q ∧ now q < reading + d ∧ ∀ t ∈ expires q, t ≤ now q) →
      ∃ packet, buildPacket .padSocket (PadSocket.readings fun q =>
          (Trace.run (PadSocket.next py) .initial
            (steps ++ .apply reading (.dict event) :: (expires q).map .expire), now q)) =
            some packet ∧
        ∀ entry mask, PadSocket.Includes event entry →
          PadSocket.namedMask (py.lower (Python.strip entry)) = some mask →
          packet.b &&& mask = mask) ↔
    ∀ entry mask, PadSocket.Includes event entry →
      PadSocket.namedMask (py.lower (Python.strip entry)) = some mask →
      py.lower (Python.strip entry) ∉ ["l", "r"] ∧
        (Python.get event "buttons" .none).loops = true ∧
        (Python.get event "commands" .none).loops = true := by
  constructor
  · intro h entry mask hincludes hmask
    -- from the initial state, read at once
    have htimes : ∀ q : Query, reading ≤ reading ∧ reading < reading + d ∧
        ∀ t ∈ ([] : List ℚ), t ≤ reading :=
      fun _ => ⟨le_refl _, by linarith [(PadSocket.eventDuration_bounds hd).1], by simp⟩
    obtain ⟨packet, hpacket, hbits⟩ := h [] (fun _ => []) (fun _ => reading) htimes
    specialize hbits entry mask hincludes hmask
    constructor
    · intro hname
      rw [buildPacket_mask hpacket] at hbits
      exact PadSocket.mask_shoulder (fun _ => PadSocket.run_wellNamed py _) (fun _ => hreading)
        hname hmask hbits
    · rw [← Bool.and_eq_true, ← PadSocket.eventCommands_isOk py]
      cases hc : PadSocket.eventCommands py event with
      | ok commands => rfl
      | error e =>
        -- nothing is entered, and the packet is neutral
        have hsame : Trace.run (PadSocket.next py) .initial [.apply reading (.dict event)] =
            PadSocket.initial := by
          show (PadSocket.applyEvent py reading .initial (.dict event)).1 = _
          simp only [PadSocket.applyEvent, hd, hc]
        have hneutral : buildPacket .padSocket
            (PadSocket.readings fun _ => (PadSocket.initial, reading)) = some Packet.neutral :=
          PadSocket.buildPacket_of_expiresBy (fun _ => PadSocket.initial_expiresBy hreading)
            fun _ => hreading
        simp only [List.nil_append, List.map_nil, hsame, hneutral, Option.some.injEq] at hpacket
        rw [← hpacket] at hbits
        exact absurd ((Nat.zero_and mask).symm.trans hbits).symm (PadSocket.namedMask_ne_zero hmask)
  · intro h steps expires now htimes
    obtain ⟨packet, hpacket⟩ := PadSocket.run_buildPacket py
      (fun q => steps ++ .apply reading (.dict event) :: (expires q).map .expire) now .padSocket
    refine ⟨packet, hpacket, fun entry mask hincludes hmask => ?_⟩
    obtain ⟨hshoulder, hbuttons, hcommands⟩ := h entry mask hincludes hmask
    have hok : (PadSocket.eventCommands py event).isOk = true := by
      rw [PadSocket.eventCommands_isOk, hbuttons, hcommands]
      rfl
    cases hc : PadSocket.eventCommands py event with
    | error e => rw [hc] at hok; cases hok
    | ok commands =>
      have hmem := PadSocket.mem_eventCommands hc hincludes (PadSocket.entry_ne_empty hmask)
      rw [buildPacket_mask hpacket]
      refine PadSocket.mask_of_entered hmask hshoulder rfl (fun q => (htimes q).2.1) ?_
      intro place hplace q
      show PadSocket.Entered _ (Trace.run _ _ _) _
      rw [Trace.run_append]
      exact PadSocket.run_entered (PadSocket.applyEvent_entered hd hc hmem hplace _)
        (htimes q).2.1 (htimes q).2.2

/-- HOME, for two seconds, with expired entries thrown out in between. -/
theorem socket_buttons_pressed_home :
    ∃ packet, buildPacket .padSocket (PadSocket.readings fun _ =>
      (Trace.run (PadSocket.next .ascii) .initial
        [.apply 100 (.dict [("command", .str "Home "), ("duration", .int 2)]), .expire 101],
          101)) = some packet ∧ packet.b &&& 1 <<< 12 = 1 <<< 12 := by
  let event : List (String × Value) := [("command", .str "Home "), ("duration", .int 2)]
  have honly : ∀ entry, PadSocket.Includes event entry → entry = "Home " := by
    intro entry h
    cases h with
    | single hkey h =>
      simp only [List.mem_cons, List.not_mem_nil, or_false] at hkey
      rcases hkey with rfl | rfl
      · exact (Value.str.inj h).symm
      · cases h
    | text hkey h | list hkey h hmem | dict hkey h hmem =>
      simp only [List.mem_cons, List.not_mem_nil, or_false] at hkey
      rcases hkey with rfl | rfl <;> cases h
  have hcondition : ∀ entry mask, PadSocket.Includes event entry →
      PadSocket.namedMask (Runtime.ascii.lower (Python.strip entry)) = some mask →
      Runtime.ascii.lower (Python.strip entry) ∉ ["l", "r"] ∧
        (Python.get event "buttons" .none).loops = true ∧
        (Python.get event "commands" .none).loops = true := by
    intro entry mask h _
    rw [honly entry h]
    exact ⟨by decide, rfl, rfl⟩
  have hduration : PadSocket.eventDuration .ascii event = .ok 2 := by decide +kernel
  have hreading : (0 : ℚ) ≤ 100 := by norm_num
  obtain ⟨packet, hpacket, hbits⟩ :=
    (socket_buttons_pressed .ascii event hduration hreading).mpr hcondition []
      (fun _ => [101]) (fun _ => 101) (fun _ => ⟨by norm_num, by norm_num, by simp⟩)
  exact ⟨packet, hpacket, hbits "Home " _ (.single (.head _) rfl) rfl⟩

/-- The event for the left shoulder button: the packet has no button at all, and the hat
to the left. -/
theorem socket_l_is_left :
    PadSocket.namedMask "l" = some (1 <<< 4) ∧
      (buildPacket .padSocket (PadSocket.readings fun _ =>
        (Trace.run (PadSocket.next .ascii) .initial
          [.apply 100 (.dict [("command", .str "l")])], 100 + 1 / 10))).map
            (fun packet => (packet.b, packet.d)) = some (0, 6) := by
  decide +kernel

end XInputSwitch
