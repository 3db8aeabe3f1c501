import XInputSwitch.SocketLines

/-! # Events that fail half-way

`apply_event` converts the values of an event as it goes: the duration and the lists of
commands before anything is entered, the coordinates of a stick when all commands have
been applied.  `_clamp_axis` catches two kinds of exceptions, and a whole number too great
for a float raises a third.  An event with such a coordinate is given up where it stands,
and what was entered before it stays (`event_all_or_nothing`).
-/
namespace XInputSwitch

open Python (Value Runtime Exception)
open Relation (ReflTransGen TransGen)

namespace PadSocket

/-- If a coordinate of the event is too great for a float, nothing is entered before it: no
command has a listed name, and the coordinate is the first one. -/
def FailsFirst (py : Runtime) (event : List (String × Value)) : Prop :=
  ∀ d commands, eventDuration py event = .ok d → eventCommands py event = .ok commands →
    (∃ a ∈ eventAxes py event, a.2.overflows = true) →
    (∀ command ∈ commands, known py command = false) ∧
      ∃ a rest, eventAxes py event = a :: rest ∧ a.2.overflows = true

/-! ## What is entered can be seen -/

section Visible
variable {deadline : ℚ} {s s' : PadSocket}

theorem insert_ne_empty {β : Type} (t : AList fun _ : Nat => β) (k : Nat) (b : β) :
    t.insert k b ≠ ∅ := by
  intro h
  have hlookup := AList.lookup_insert (a := k) (b := b) t
  rw [h, AList.lookup_empty] at hlookup
  cases hlookup

theorem Write.ne_initial (hw : Write deadline s s') (hd : 0 < deadline) : s' ≠ initial := by
  intro h
  cases hw with
  | hat _ => exact hd.ne' (congrArg hatUntil h)
  | button _ _ => exact insert_ne_empty _ _ _ (congrArg buttonUntil h)
  | extra _ => exact insert_ne_empty _ _ _ (congrArg extraUntil h)
  | trigger _ => exact insert_ne_empty _ _ _ (congrArg axisUntil h)
  | stick _ x => exact insert_ne_empty _ _ _ (congrArg axisUntil h)

/-- After one write or more, the last one shows. -/
theorem ne_initial_of_writes (h : TransGen (Write deadline) s s') (hd : 0 < deadline) :
    s' ≠ initial := by
  obtain ⟨t, -, hw⟩ := TransGen.tail'_iff.mp h
  exact hw.ne_initial hd

end Visible

/-! ## What an event enters before it fails -/

section Fails
variable {py : Runtime} {deadline : ℚ} {s : PadSocket}

/-- Commands without a listed name. -/
theorem foldl_applyCommand_unknown {commands : List String}
    (h : ∀ command ∈ commands, known py command = false) :
    commands.foldl (applyCommand py deadline) s = s := by
  induction commands with
  | nil => rfl
  | cons command commands ih =>
    obtain ⟨hcommand, hrest⟩ := List.forall_mem_cons.mp h
    rcases applyCommand_cases py deadline s command with ⟨hknown, -⟩ | ⟨-, heq⟩
    · rw [hcommand] at hknown
      cases hknown
    · rw [List.foldl_cons, heq]
      exact ih hrest

/-- A command with one enters something, whatever comes before and after it. -/
theorem foldl_applyCommand_known {commands : List String} {command : String}
    (hmem : command ∈ commands) (hknown : known py command = true) :
    TransGen (Write deadline) s (commands.foldl (applyCommand py deadline) s) := by
  obtain ⟨before, after, rfl⟩ := List.append_of_mem hmem
  rw [List.foldl_append, List.foldl_cons]
  have hbefore := foldl_applyCommand_writes py deadline before s
  rcases applyCommand_cases py deadline (before.foldl (applyCommand py deadline) s) command with
    ⟨-, hwrite⟩ | ⟨hunknown, -⟩
  · exact (TransGen.tail' hbefore hwrite).trans_left (foldl_applyCommand_writes py deadline after _)
  · rw [hknown] at hunknown
    cases hunknown

/-- A first coordinate that is too great. -/
theorem assignAxes_overflows {a : Nat × Value} (ha : a.2.overflows = true)
    (rest : List (Nat × Value)) : (assignAxes py deadline s (a :: rest)).1 = s := by
  have hok := clampAxis_isOk py a.2
  unfold assignAxes
  cases hclamp : clampAxis py a.2 with
  | error e => rfl
  | ok x =>
    rw [hclamp, ha] at hok
    cases hok

/-- A first coordinate that is not. -/
theorem assignAxes_enters {a : Nat × Value} {rest : List (Nat × Value)}
    (ha : a.2.overflows = false) (haxes : ∀ b ∈ a :: rest, b.1 ∈ [0, 1, 3, 4]) :
    TransGen (Write deadline) s (assignAxes py deadline s (a :: rest)).1 := by
  obtain ⟨haxis, hrest⟩ := List.forall_mem_cons.mp haxes
  have hok := clampAxis_isOk py a.2
  unfold assignAxes
  cases hclamp : clampAxis py a.2 with
  | error e =>
    rw [hclamp, ha] at hok
    cases hok
  | ok x => exact .head' (.stick haxis x) (assignAxes_writes py deadline rest hrest _)

end Fails

/-- **Which events are applied all or nothing.**  An event leaves the tables of every state
as they were whenever `apply_event` raises, if and only if nothing is entered before a
coordinate that is too great for a float. -/
theorem event_all_or_nothing (py : Runtime) (event : List (String × Value)) :
    (∀ (reading : ℚ) (s : PadSocket) (e : Exception),
      (s.applyEvent py reading (.dict event)).2 = some e →
        (s.applyEvent py reading (.dict event)).1 = s) ↔
    FailsFirst py event := by
  constructor
  · intro h d commands hd hc hover
    have haxes := eventAxes_mem py event
    have hpos : (0 : ℚ) < 0 + d := by
      have := (eventDuration_bounds hd).1
      linarith
    -- the event raises, so it leaves the initial state as it was
    have hinitial : (initial.applyEvent py 0 (.dict event)).1 = initial := by
      cases hraise : (initial.applyEvent py 0 (.dict event)).2 with
      | some e => exact h 0 initial e hraise
      | none =>
        rw [applyEvent_dict hd hc, assignAxes_raises_iff] at hraise
        obtain ⟨a, ha, hbig⟩ := hover
        rw [hraise a ha] at hbig
        cases hbig
    rw [applyEvent_dict hd hc] at hinitial
    constructor
    · intro command hmem
      by_contra hknown
      rw [Bool.not_eq_false] at hknown
      have hcommands : TransGen (Write (0 + d)) initial
          (commands.foldl (applyCommand py (0 + d)) initial) :=
        foldl_applyCommand_known hmem hknown
      exact ne_initial_of_writes
        (hcommands.trans_left (assignAxes_writes py _ _ haxes _)) hpos hinitial
    · cases hlist : eventAxes py event with
      | nil =>
        obtain ⟨a, ha, -⟩ := hover
        rw [hlist] at ha
        cases ha
      | cons a rest =>
        refine ⟨a, rest, rfl, ?_⟩
        by_contra hsmall
        rw [Bool.not_eq_true] at hsmall
        rw [hlist] at haxes
        have hwrites := foldl_applyCommand_writes py (0 + d) commands initial
        rw [hlist] at hinitial
        exact ne_initial_of_writes
          (TransGen.trans_right hwrites (assignAxes_enters hsmall haxes)) hpos hinitial
  · intro h reading s e hraise
    cases hd : eventDuration py event with
    | error e' => simp only [applyEvent, hd]
    | ok d =>
      cases hc : eventCommands py event with
      | error e' => simp only [applyEvent, hd, hc]
      | ok commands =>
        rw [applyEvent_dict hd hc] at hraise ⊢
        have hover : ∃ a ∈ eventAxes py event, a.2.overflows = true := by
          by_contra hnone
          push Not at hnone
          have hall : ∀ a ∈ eventAxes py event, a.2.overflows = false :=
            fun a ha => Bool.eq_false_iff.mpr (hnone a ha)
          rw [(assignAxes_raises_iff py _ _ _).mpr hall] at hraise
          cases hraise
        obtain ⟨hunknown, a, rest, hlist, ha⟩ := h d commands hd hc hover
        rw [foldl_applyCommand_unknown hunknown, hlist]
        exact assignAxes_overflows ha rest

/-- A press of A with a stick position that no float holds: the event raises, and A is
pressed. -/
theorem event_half_applied :
    let event : Value := .dict [("command", .str "a"), ("left", .dict [("x", .int (10 ^ 400))])]
    (applyEvent .ascii 100 initial event).2 = some .overflowError ∧
      (applyEvent .ascii 100 initial event).1.btn 100 1 = true ∧
      initial.btn 100 1 = false := by
  decide +kernel

end PadSocket
end XInputSwitch
