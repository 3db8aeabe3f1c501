import Mathlib.Algebra.Order.BigOperators.Group.List
import Mathlib.Algebra.Order.Group.Nat
import Mathlib.Data.List.Chain
import XInputSwitch.CommandLine

/-! # Arguments of the bridge

How `PlaynitePostStart.ps1` starts the bridge: an argument is put into quotation marks, with
a backslash before every one of its own, and the arguments are joined with blanks.  Its own
backslashes are not doubled, so each that stands before a quotation mark or at the end of
an argument is lost or takes the mark with it (`weight_received`).  Arguments survive if
and only if there is none (`process_arguments_survive`).
-/
namespace XInputSwitch

/-! ## Quoting -/

/-- `-replace '"', '\"'`. -/
def escapeQuotes (text : List Char) : List Char :=
  text.flatMap fun c => if c = '"' then ['\\', '"'] else [c]

/-- `ConvertTo-ProcessArgument`. -/
def convertToProcessArgument (argument : String) : String :=
  "\"" ++ String.ofList (escapeQuotes argument.toList) ++ "\""

/-- `Join-ProcessArguments`. -/
def joinProcessArguments (arguments : List String) : String :=
  " ".intercalate (arguments.map convertToProcessArgument)

/-- The arguments that a process started with this line sees. -/
def receivedArguments (line : String) : List String :=
  (CommandLine.split line.toList).map String.ofList

/-- The second character is not a quotation mark after a backslash. -/
abbrev Unescaped (c d : Char) : Prop := d = '"' → c ≠ '\\'

/-- Neither a quotation mark nor the end of the argument comes right after a backslash. -/
def Sound (argument : String) : Prop := (argument.toList ++ ['"']).IsChain Unescaped

instance (argument : String) : Decidable (Sound argument) :=
  inferInstanceAs (Decidable (List.IsChain _ _))

/-- The backslashes before quotation marks and at the end, if `k` come before the text. -/
def lost (k : Nat) : List Char → Nat
  | [] => k
  | c :: text =>
    if c = '\\' then lost (k + 1) text
    else if c = '"' then k + lost 0 text
    else lost 0 text

section Quoting
open CommandLine

theorem escapeQuotes_quote (text : List Char) :
    escapeQuotes ('"' :: text) = '\\' :: '"' :: escapeQuotes text := rfl

theorem escapeQuotes_other {c : Char} (hquote : c ≠ '"') (text : List Char) :
    escapeQuotes (c :: text) = c :: escapeQuotes text := by
  simp [escapeQuotes, hquote]

theorem lost_slash (k : Nat) (text : List Char) : lost k ('\\' :: text) = lost (k + 1) text := rfl

theorem lost_quote (k : Nat) (text : List Char) : lost k ('"' :: text) = k + lost 0 text := rfl

theorem lost_other {c : Char} (hslash : c ≠ '\\') (hquote : c ≠ '"') (k : Nat)
    (text : List Char) : lost k (c :: text) = lost 0 text := by
  simp [lost, hslash, hquote]

theorem toList_convertToProcessArgument (argument : String) :
    (convertToProcessArgument argument).toList =
      '"' :: (escapeQuotes argument.toList ++ ['"']) := by
  simp [convertToProcessArgument]

theorem toList_joinProcessArguments_cons (a b : String) (arguments : List String) :
    (joinProcessArguments (a :: b :: arguments)).toList =
      (convertToProcessArgument a).toList ++
        ' ' :: (joinProcessArguments (b :: arguments)).toList := by
  simp [joinProcessArguments]

theorem toList_joinProcessArguments_singleton (a : String) :
    (joinProcessArguments [a]).toList = (convertToProcessArgument a).toList := by
  simp [joinProcessArguments]

/-- A run of backslashes, and what comes after it. -/
theorem isChain_slashes (k : Nat) (d : Char) (rest : List Char) :
    (List.replicate k '\\' ++ d :: rest).IsChain Unescaped ↔
      (d = '"' → k = 0) ∧ (d :: rest).IsChain Unescaped := by
  have hslashes : (List.replicate k '\\').IsChain Unescaped :=
    List.isChain_replicate_of_rel k (by decide)
  rw [List.isChain_append, List.getLast?_replicate]
  by_cases hk : k = 0 <;> simp [Unescaped, hslashes, hk, and_comm]

theorem lost_eq_zero_iff (k : Nat) (text : List Char) :
    lost k text = 0 ↔ (List.replicate k '\\' ++ (text ++ ['"'])).IsChain Unescaped := by
  induction text generalizing k with
  | nil => simp [isChain_slashes, lost]
  | cons c text ih =>
    by_cases hslash : c = '\\'
    · subst hslash
      rw [lost_slash, ih (k + 1), List.replicate_succ', List.append_assoc]
      rfl
    · have hchain : (c :: (text ++ ['"'])).IsChain Unescaped ↔ lost 0 text = 0 := by
        rw [List.isChain_cons, ih 0]
        simp [Unescaped, hslash]
      rw [List.cons_append, isChain_slashes, hchain]
      by_cases hquote : c = '"'
      · subst hquote
        rw [lost_quote]
        simp
      · simp [lost_other hslash hquote, hquote]

theorem sound_iff (argument : String) : Sound argument ↔ lost 0 argument.toList = 0 :=
  (lost_eq_zero_iff 0 argument.toList).symm

/-! ## What is lost -/

/-- The rest of an argument and its closing mark. -/
theorem run_escapeQuotes_weight (text : List Char) (s : Scan) :
    let s' := Trace.run Scan.step s (escapeQuotes text ++ ['"'])
    s'.weight + lost s.slashes text = s.weight + weight text ∧ s'.slashes = 0 := by
  induction text generalizing s with
  | nil => exact s.step_quote_weight
  | cons c text ih =>
    have hcons : weight (c :: text) = weight [c] + weight text := weight_append [c] text
    by_cases hquote : c = '"'
    · -- the backslash before the mark counts two, and the mark costs it and the run
      subst hquote
      obtain ⟨hstep, hzero⟩ := (s.step '\\').step_quote_weight
      obtain ⟨hweight, hslashes⟩ := ih ((s.step '\\').step '"')
      have hslash : (s.step '\\').weight = s.weight + 2 := rfl
      have hrun : (s.step '\\').slashes = s.slashes + 1 := rfl
      have hmark : weight ['"'] = 1 := rfl
      rw [hzero] at hweight
      refine ⟨?_, hslashes⟩
      rw [escapeQuotes_quote, lost_quote, List.cons_append, List.cons_append, Trace.run_cons,
        Trace.run_cons]
      omega
    · obtain ⟨hweight, hslashes⟩ := ih (s.step c)
      rw [escapeQuotes_other hquote, List.cons_append, Trace.run_cons]
      refine ⟨?_, hslashes⟩
      by_cases hslash : c = '\\'
      · subst hslash
        have hstep : (s.step '\\').weight = s.weight + 2 := rfl
        have hrun : (s.step '\\').slashes = s.slashes + 1 := rfl
        have hmark : weight ['\\'] = 2 := rfl
        rw [lost_slash, ← hrun]
        omega
      · obtain ⟨hstep, hzero⟩ := s.step_other_weight hslash hquote
        rw [hzero] at hweight
        rw [lost_other hslash hquote, hcons, weight_other hslash hquote]
        omega

/-- An argument after a blank, or the first. -/
theorem run_argument_weight (argument : String) {s : Scan} (hs : s.slashes = 0) :
    let s' := Trace.run Scan.step s (convertToProcessArgument argument).toList
    s'.weight + lost 0 argument.toList = s.weight + weight argument.toList ∧ s'.slashes = 0 := by
  obtain ⟨hstep, hzero⟩ := s.step_quote_weight
  obtain ⟨hweight, hslashes⟩ := run_escapeQuotes_weight argument.toList (s.step '"')
  rw [toList_convertToProcessArgument, Trace.run_cons]
  rw [hzero] at hweight
  exact ⟨by omega, hslashes⟩

theorem run_join_weight (arguments : List String) {s : Scan} (hs : s.slashes = 0) :
    (Trace.run Scan.step s (joinProcessArguments arguments).toList).weight +
        (arguments.map fun a => lost 0 a.toList).sum =
      s.weight + (arguments.map fun a => weight a.toList).sum := by
  induction arguments generalizing s with
  | nil => rfl
  | cons a arguments ih =>
    obtain ⟨hweight, hslashes⟩ := run_argument_weight a hs
    cases arguments with
    | nil =>
      rw [toList_joinProcessArguments_singleton]
      simpa using hweight
    | cons b arguments =>
      obtain ⟨hblank, hzero⟩ :=
        (Trace.run Scan.step s (convertToProcessArgument a).toList).step_blank_weight
      have hrest := ih hzero
      rw [toList_joinProcessArguments_cons, Trace.run_append, Trace.run_cons]
      simp only [List.map_cons, List.sum_cons] at hrest ⊢
      omega

/-- **What is lost**: backslashes, twice, or quotation marks. -/
theorem weight_received (arguments : List String) :
    weight (split (joinProcessArguments arguments).toList).flatten +
        (arguments.map fun a => lost 0 a.toList).sum =
      (arguments.map fun a => weight a.toList).sum := by
  rw [weight_split, run_join_weight arguments rfl]
  exact Nat.zero_add _

/-! ## What survives -/

/-- The rest of an argument and its closing mark, if nothing is lost. -/
theorem run_escapeQuotes {text : List Char} {k : Nat} (hlost : lost k text = 0)
    (done : List (List Char)) (current : List Char) :
    Trace.run Scan.step ⟨done, some current, true, k⟩ (escapeQuotes text ++ ['"']) =
      ⟨done, some (current ++ List.replicate k '\\' ++ text), false, 0⟩ := by
  induction text generalizing k current with
  | nil =>
    obtain rfl : k = 0 := hlost
    simp [escapeQuotes, Scan.step, Scan.put]
  | cons c text ih =>
    by_cases hquote : c = '"'
    · subst hquote
      rw [lost_quote] at hlost
      obtain ⟨rfl, hrest⟩ := Nat.add_eq_zero_iff.mp hlost
      have hstep : (Scan.step ⟨done, some current, true, 0⟩ '\\').step '"' =
          ⟨done, some (current ++ ['"']), true, 0⟩ := by
        simp [Scan.step, Scan.put]
      rw [escapeQuotes_quote, List.cons_append, List.cons_append, Trace.run_cons, Trace.run_cons,
        hstep, ih hrest]
      simp
    · rw [escapeQuotes_other hquote, List.cons_append, Trace.run_cons]
      by_cases hslash : c = '\\'
      · subst hslash
        rw [Scan.step_slash, ih hlost]
        simp [List.replicate_succ']
      · rw [lost_other hslash hquote] at hlost
        have hstep : Scan.step ⟨done, some current, true, k⟩ c =
            ⟨done, some (current ++ List.replicate k '\\' ++ [c]), true, 0⟩ := by
          by_cases hk : k = 0 <;> simp [Scan.step, Scan.flush, Scan.put, hslash, hquote, hk]
        rw [hstep, ih hlost]
        simp

theorem run_argument {argument : String} (hsound : Sound argument) (done : List (List Char)) :
    Trace.run Scan.step ⟨done, none, false, 0⟩ (convertToProcessArgument argument).toList =
      ⟨done, some argument.toList, false, 0⟩ := by
  have hopen : Scan.step ⟨done, none, false, 0⟩ '"' = ⟨done, some [], true, 0⟩ := by
    simp [Scan.step, Scan.put]
  rw [toList_convertToProcessArgument, Trace.run_cons, hopen,
    run_escapeQuotes ((sound_iff argument).mp hsound)]
  simp

theorem run_join {arguments : List String} (hsound : ∀ a ∈ arguments, Sound a)
    (done : List (List Char)) :
    (Trace.run Scan.step ⟨done, none, false, 0⟩
      (joinProcessArguments arguments).toList).flush.close.done =
        done ++ arguments.map String.toList := by
  induction arguments generalizing done with
  | nil => exact (List.append_nil done).symm
  | cons a arguments ih =>
    obtain ⟨ha, hrest⟩ := List.forall_mem_cons.mp hsound
    cases arguments with
    | nil =>
      rw [toList_joinProcessArguments_singleton, run_argument ha]
      rfl
    | cons b arguments =>
      have hblank : Scan.step ⟨done, some a.toList, false, 0⟩ ' ' =
          ⟨done ++ [a.toList], none, false, 0⟩ := rfl
      rw [toList_joinProcessArguments_cons, Trace.run_append, run_argument ha, Trace.run_cons,
        hblank, ih hrest]
      simp

theorem receivedArguments_join {arguments : List String} (hsound : ∀ a ∈ arguments, Sound a) :
    receivedArguments (joinProcessArguments arguments) = arguments := by
  have hsplit : split (joinProcessArguments arguments).toList = arguments.map String.toList :=
    run_join hsound []
  rw [receivedArguments, hsplit, List.map_map]
  simp

end Quoting

/-- **Arguments survive**, all of them, if and only if none has a backslash right before a
quotation mark or at its end. -/
theorem process_arguments_survive (arguments : List String) :
    receivedArguments (joinProcessArguments arguments) = arguments ↔
      ∀ a ∈ arguments, Sound a := by
  refine ⟨fun h a ha => ?_, receivedArguments_join⟩
  have hsplit : CommandLine.split (joinProcessArguments arguments).toList =
      arguments.map String.toList := by
    have hmap := congrArg (List.map String.toList) h
    rw [receivedArguments, List.map_map] at hmap
    simpa [Function.comp_def] using hmap
  have hweight := weight_received arguments
  rw [hsplit, CommandLine.weight_flatten, List.map_map] at hweight
  have hlost : (arguments.map fun a => lost 0 a.toList).sum = 0 := Nat.left_eq_add.mp hweight.symm
  have hle : lost 0 a.toList ≤ (arguments.map fun a => lost 0 a.toList).sum :=
    List.le_sum_of_mem (List.mem_map_of_mem ha)
  exact (sound_iff a).mpr (by omega)

/-- A folder with a backslash at its end takes the next argument with it. -/
theorem process_arguments_folder :
    receivedArguments (joinProcessArguments ["--log-file", "C:\\logs\\", "--debug"]) =
      ["--log-file", "C:\\logs\" --debug"] := by
  decide +kernel

/-! ## The bridge -/

/-- `$mode`, after its check. -/
inductive LaunchMode where
  | controller
  | socket
  | keyboard
deriving DecidableEq, Repr

/-- What the script starts the bridge with, after the checks.  Numbers are texts already. -/
structure Launch where
  xinputScript : String
  bridgeLogFile : String
  mode : LaunchMode
  controllerBackend : String
  bindToProjectorFocus : Bool
  projectorTitle : String
  inactiveAction : String
  disconnectAction : String
  homeDuration : String
  homeCooldown : String
  sessionExitSignalFile : String
  socketHost : String
  socketPort : String
  socketStatusFile : String
  debugBridge : Bool
  serialPort : String
  controllerSlot : Option String
deriving DecidableEq, Repr

namespace Launch

/-- `$backend`. -/
def backend (launch : Launch) : String :=
  if launch.mode = .socket then "socket" else launch.controllerBackend

/-- `$xinputArgs`. -/
def xinputArgs (launch : Launch) : List String :=
  [launch.xinputScript, "--auto", "--backend", launch.backend, "--startup-debug", "--log-file",
    launch.bridgeLogFile] ++
  (if launch.bindToProjectorFocus then
    ["--window", launch.projectorTitle, "--inactive-action", launch.inactiveAction]
  else ["--inactive-action", "neutral"]) ++
  ["--disconnect-action", launch.disconnectAction, "--home-duration", launch.homeDuration,
    "--home-cooldown", launch.homeCooldown] ++
  ["--exit-chord-signal-file", launch.sessionExitSignalFile] ++
  (if launch.mode = .keyboard then ["--keyboard"] else []) ++
  (if launch.mode = .socket then
    ["--socket-host", launch.socketHost, "--socket-port", launch.socketPort,
      "--socket-status-file", launch.socketStatusFile]
  else []) ++
  (if launch.debugBridge then ["--debug"] else []) ++
  (if launch.serialPort ≠ "" then ["--port", launch.serialPort] else []) ++
  (match launch.controllerSlot with
  | some slot => if launch.mode ≠ .socket ∧ slot ≠ "" then ["--controller", slot] else []
  | none => [])

/-- The texts that are configured. -/
def configured (launch : Launch) : List String :=
  [launch.xinputScript, launch.bridgeLogFile, launch.controllerBackend, launch.projectorTitle,
    launch.inactiveAction, launch.disconnectAction, launch.homeDuration, launch.homeCooldown,
    launch.sessionExitSignalFile, launch.socketHost, launch.socketPort, launch.socketStatusFile,
    launch.serialPort] ++ launch.controllerSlot.toList

/-- The words of the script. -/
def words : List String :=
  ["--auto", "--backend", "socket", "--startup-debug", "--log-file", "--window",
    "--inactive-action", "neutral", "--disconnect-action", "--home-duration", "--home-cooldown",
    "--exit-chord-signal-file", "--keyboard", "--socket-host", "--socket-port",
    "--socket-status-file", "--debug", "--port", "--controller"]

theorem forall_xinputArgs {P : String → Prop} {launch : Launch} (hwords : ∀ a ∈ words, P a)
    (hconfigured : ∀ a ∈ launch.configured, P a) : ∀ a ∈ launch.xinputArgs, P a := by
  simp only [words, List.forall_mem_cons] at hwords
  simp only [configured, List.forall_mem_append, List.forall_mem_cons] at hconfigured
  obtain ⟨hconfigured, hslot⟩ := hconfigured
  have hbackend : P launch.backend := by
    unfold backend
    split
    · exact hwords.2.2.1
    · exact hconfigured.2.2.1
  simp only [xinputArgs, List.forall_mem_append]
  refine ⟨⟨⟨⟨⟨⟨⟨⟨?_, ?_⟩, ?_⟩, ?_⟩, ?_⟩, ?_⟩, ?_⟩, ?_⟩, ?_⟩
  · simp [hwords, hconfigured, hbackend]
  · split <;> simp [hwords, hconfigured]
  · simp [hwords, hconfigured]
  · simp [hwords, hconfigured]
  · split <;> simp [hwords]
  · split <;> simp [hwords, hconfigured]
  · split <;> simp [hwords]
  · split <;> simp [hwords, hconfigured]
  · split
    · rename_i slot heq
      have hslot : P slot := hslot slot (by simp [heq])
      split <;> simp [hwords, hslot]
    · simp

/-- **The bridge receives what is configured**, if no text has a backslash before a
quotation mark or at its end. -/
theorem receivedArguments_xinputArgs {launch : Launch}
    (hsound : ∀ a ∈ launch.configured, Sound a) :
    receivedArguments (joinProcessArguments launch.xinputArgs) = launch.xinputArgs := by
  have hwords : ∀ a ∈ words, Sound a := by decide +kernel
  exact receivedArguments_join (forall_xinputArgs hwords hsound)

end Launch

end XInputSwitch
