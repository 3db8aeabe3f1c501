import XInputSwitch.BridgeGating

/-! # A session of Playnite

Three programs share a session.  `PlayniteSessionHost.ps1` is what Playnite takes for the game: it
waits for the projector window and exits when the window has closed or the signal file is there.
`PlaynitePostStart.ps1` runs beside it: it opens the projector, stops bridges that are still
running, removes the signal file and starts the bridge.  The bridge writes the signal file when it
sees the exit chord.

The host looks at the file as soon as there is a window, and the window is opened before the file
is removed.  `Origin` tells a file left over from an earlier session from one that a bridge of this
session has written; the programs only test whether there is a file.

Not modelled: the log, which all programs append to, and the sleeps, which are the time between two
steps.
-/
namespace XInputSwitch

/-! ## The session host -/

/-- Why the host has exited. -/
inductive HostExit where
  /-- exit code 1 -/
  | notDetected
  | signal
  | windowClosed
deriving DecidableEq

/-- Where `PlayniteSessionHost.ps1` stands: before which of its tests. -/
inductive Host where
  | start
  | waitClock (deadline : ℚ)
  | waitWindow (deadline : ℚ)
  | confirm
  | testSignal (missingSince : Option ℚ)
  | removeSignal
  | closeProjector
  | testWindow (missingSince : Option ℚ)
  | noteMissing (missingSince : Option ℚ)
  | testGrace (missingSince : ℚ)
  | exited (reason : HostExit)
deriving DecidableEq

/-- What the host finds at a step. -/
structure HostLook where
  /-- `Get-Date`, in seconds -/
  now : ℚ
  /-- `Test-ProjectorWindow` -/
  window : Bool
  /-- `Test-Path` on the signal file -/
  signal : Bool

namespace Host

/-- One step of the host. -/
def next (host : Host) (look : HostLook) : Host :=
  match host with
  | .start => .waitClock (look.now + 45)
  | .waitClock deadline => if look.now < deadline then .waitWindow deadline else .confirm
  | .waitWindow deadline => if look.window then .confirm else .waitClock deadline
  -- The window is tested once more after the loop.
  | .confirm => if look.window then .testSignal none else .exited .notDetected
  | .testSignal missingSince => if look.signal then .removeSignal else .testWindow missingSince
  | .removeSignal => .closeProjector
  | .closeProjector => .exited .signal
  | .testWindow missingSince => if look.window then .testSignal none else .noteMissing missingSince
  | .noteMissing missingSince => .testGrace (missingSince.getD look.now)
  | .testGrace missingSince =>
    if look.now - missingSince ≥ 15 then .exited .windowClosed else .testSignal (some missingSince)
  | .exited reason => .exited reason

/-- Since when the window has been missing. -/
def missingSince : Host → Option ℚ
  | .testSignal missingSince | .testWindow missingSince | .noteMissing missingSince => missingSince
  | .testGrace missingSince => some missingSince
  | _ => none

/-- The next step looks for the signal file. -/
def testsSignal : Host → Bool
  | .testSignal _ => true
  | _ => false

/-- The signal file has been found. -/
def leaving : Host → Bool
  | .removeSignal | .closeProjector | .exited .signal => true
  | _ => false

theorem leaving_next {host : Host} {look : HostLook} (h : (host.next look).leaving = true) :
    host.leaving = true ∧ host.testsSignal = false ∨
      host.testsSignal = true ∧ look.signal = true := by
  cases host with
  | testSignal missing =>
    cases hsignal : look.signal with
    | true => exact .inr ⟨rfl, rfl⟩
    | false => simp [next, hsignal, leaving] at h
  | removeSignal | closeProjector => exact .inl ⟨rfl, rfl⟩
  | exited reason => exact .inl ⟨h, rfl⟩
  | _ =>
    simp only [next] at h
    first | cases h | (split at h <;> cases h)

/-- The step sees neither the window nor a signal. -/
def Quiet (host : Host) (look : HostLook) : Prop :=
  match host with
  | .testWindow _ => look.window = false
  | .testSignal _ => look.signal = false
  | _ => True

/-- The window is missing since this step, or was before, and the step has seen nothing. -/
theorem missingSince_next {host : Host} {look : HostLook} {since : ℚ}
    (h : (host.next look).missingSince = some since) :
    host = .noteMissing none ∧ since = look.now ∨
      host.missingSince = some since ∧ host.Quiet look := by
  cases host with
  | start | removeSignal | closeProjector | exited => cases h
  | waitClock deadline =>
    simp only [next] at h
    split at h <;> cases h
  | waitWindow deadline =>
    simp only [next] at h
    split at h <;> cases h
  | confirm =>
    simp only [next] at h
    split at h <;> cases h
  | testSignal missing =>
    cases hsignal : look.signal with
    | true => simp [next, hsignal, missingSince] at h
    | false => exact .inr ⟨by simpa [next, hsignal, missingSince] using h, hsignal⟩
  | testWindow missing =>
    cases hwindow : look.window with
    | true => simp [next, hwindow, missingSince] at h
    | false => exact .inr ⟨by simpa [next, hwindow, missingSince] using h, hwindow⟩
  | noteMissing missing =>
    cases missing with
    | none => exact .inl ⟨rfl, (Option.some.inj h).symm⟩
    | some t => exact .inr ⟨h, trivial⟩
  | testGrace t =>
    by_cases hgrace : look.now - t ≥ 15
    · simp [next, hgrace, missingSince] at h
    · exact .inr ⟨by simpa [next, hgrace, missingSince] using h, trivial⟩

/-- Since `first`, in the run on `es`, neither the window nor a signal was seen. -/
def Gone (es : List HostLook) (since : ℚ) : Prop :=
  ∃ es₁ first es₂, es = es₁ ++ first :: es₂ ∧ first.now = since ∧
    Trace.run next start es₁ = .noteMissing none ∧
    Trace.Always next Quiet (Trace.run next start (es₁ ++ [first])) es₂

theorem gone_of_missingSince {es : List HostLook} {since : ℚ}
    (h : (Trace.run next start es).missingSince = some since) : Gone es since := by
  induction es using List.reverseRecOn generalizing since with
  | nil => cases h
  | append_singleton es look ih =>
    rw [Trace.run_append] at h
    rcases missingSince_next h with ⟨hstate, rfl⟩ | ⟨hbefore, hquiet⟩
    · exact ⟨es, look, [], rfl, rfl, hstate, trivial⟩
    · obtain ⟨es₁, first, es₂, rfl, hfirst, hstate, halways⟩ := ih hbefore
      refine ⟨es₁, first, es₂ ++ [look], by simp, hfirst, hstate, ?_⟩
      refine Trace.always_append.mpr ⟨halways, ?_, trivial⟩
      rw [← Trace.run_append, List.append_assoc, List.singleton_append]
      exact hquiet

theorem next_windowClosed {host : Host} {look : HostLook}
    (h : host.next look = .exited .windowClosed) :
    host = .exited .windowClosed ∨
      ∃ since, host.missingSince = some since ∧ 15 ≤ look.now - since := by
  cases host with
  | testGrace since =>
    by_cases hgrace : look.now - since ≥ 15
    · exact .inr ⟨since, rfl, hgrace⟩
    · simp [next, hgrace] at h
  | exited reason => exact .inl h
  | _ =>
    simp only [next] at h
    first | cases h | (split at h <;> cases h)

/-- The host gives up only after the window was missing for fifteen seconds. -/
theorem gone_of_windowClosed {es : List HostLook}
    (h : Trace.run next start es = .exited .windowClosed) :
    ∃ es₁ last es₂ since, es = es₁ ++ last :: es₂ ∧ Gone es₁ since ∧ 15 ≤ last.now - since := by
  induction es using List.reverseRecOn with
  | nil => cases h
  | append_singleton es look ih =>
    rw [Trace.run_append] at h
    rcases next_windowClosed h with hbefore | ⟨since, hmissing, hgrace⟩
    · obtain ⟨es₁, last, es₂, since, rfl, hgone⟩ := ih hbefore
      exact ⟨es₁, last, es₂ ++ [look], since, by simp, hgone⟩
    · exact ⟨es, look, [], since, rfl, gone_of_missingSince hmissing, hgrace⟩

/-- The loop that waits for the window is left at the look `decisive`: the window is seen, or the
clock has passed the deadline. -/
def Decides (first : HostLook) (before : List HostLook) (decisive : HostLook) : Prop :=
  (decisive.window = true ∧
      ∃ deadline, Trace.run next start (first :: before) = .waitWindow deadline) ∨
    (45 ≤ decisive.now - first.now ∧
      ∃ deadline, Trace.run next start (first :: before) = .waitClock deadline)

/-- Before the window has been confirmed: the deadline is that of the first step.  The window is
tested once more after the loop, and the host gives up if it is not there then. -/
def Waits (first : HostLook) (es : List HostLook) : Host → Prop
  | .start => False
  | .waitClock deadline | .waitWindow deadline => deadline = first.now + 45
  | .confirm => ∃ before decisive, es = before ++ [decisive] ∧ Decides first before decisive
  | .exited .notDetected =>
    ∃ before decisive confirming after, es = before ++ decisive :: confirming :: after ∧
      Decides first before decisive ∧ confirming.window = false
  | _ => True

theorem Waits.next {first : HostLook} {es : List HostLook} {host : Host}
    (hrun : Trace.run Host.next start (first :: es) = host) (h : host.Waits first es)
    (look : HostLook) : (host.next look).Waits first (es ++ [look]) := by
  cases host with
  | start => exact h.elim
  | waitClock deadline =>
    obtain rfl : deadline = first.now + 45 := h
    by_cases hnow : look.now < first.now + 45
    · simp [Host.next, hnow, Waits]
    · simp only [Host.next, if_neg hnow]
      exact ⟨es, look, rfl, .inr ⟨by linarith, _, hrun⟩⟩
  | waitWindow deadline =>
    cases hwindow : look.window with
    | true =>
      simp only [Host.next, hwindow, if_true]
      exact ⟨es, look, rfl, .inl ⟨hwindow, _, hrun⟩⟩
    | false => simpa [Host.next, hwindow, Waits] using h
  | confirm =>
    cases hwindow : look.window with
    | true => simp [Host.next, hwindow, Waits]
    | false =>
      obtain ⟨before, decisive, rfl, hdecides⟩ := h
      simp only [Host.next, hwindow, Bool.false_eq_true, if_false]
      exact ⟨before, decisive, look, [], by simp, hdecides, hwindow⟩
  | exited reason =>
    cases reason with
    | notDetected =>
      obtain ⟨before, decisive, confirming, after, rfl, hdecides⟩ := h
      exact ⟨before, decisive, confirming, after ++ [look], by simp, hdecides⟩
    | _ => exact trivial
  | removeSignal | closeProjector | noteMissing => exact trivial
  | testSignal | testWindow | testGrace =>
    simp only [Host.next]
    split <;> exact trivial

theorem waits_run (first : HostLook) (es : List HostLook) :
    (Trace.run next start (first :: es)).Waits first es := by
  induction es using List.reverseRecOn with
  | nil => exact rfl
  | append_singleton es look ih =>
    rw [← List.cons_append, Trace.run_append]
    exact ih.next rfl look

/-- How many steps are left, at most, if the window has been missing for long enough. -/
def stepsLeft (since : ℚ) : Host → Option Nat
  | .testSignal missing => if missing = some since then some 4 else none
  | .testWindow missing => if missing = some since then some 3 else none
  | .noteMissing missing => if missing = some since then some 2 else none
  | .testGrace missing => if missing = since then some 1 else none
  | .removeSignal => some 2
  | .closeProjector => some 1
  | .exited _ => some 0
  | .start | .waitClock _ | .waitWindow _ | .confirm => none

theorem stepsLeft_next {host : Host} {since : ℚ} {n : Nat} (h : host.stepsLeft since = some n)
    {look : HostLook} (hwindow : look.window = false) (hnow : since + 15 ≤ look.now) :
    ∃ m ≤ n - 1, (host.next look).stepsLeft since = some m := by
  cases host with
  | start | waitClock | waitWindow | confirm => cases h
  | removeSignal | closeProjector | exited =>
    obtain rfl := Option.some.inj h
    exact ⟨_, Nat.le_refl _, rfl⟩
  | testSignal missing =>
    obtain ⟨rfl, ⟨⟩⟩ := Option.ite_none_right_eq_some.mp h
    cases hsignal : look.signal with
    | true => exact ⟨2, by decide, by simp [next, hsignal, stepsLeft]⟩
    | false => exact ⟨3, by decide, by simp [next, hsignal, stepsLeft]⟩
  | testWindow missing =>
    obtain ⟨rfl, ⟨⟩⟩ := Option.ite_none_right_eq_some.mp h
    exact ⟨2, by decide, by simp [next, hwindow, stepsLeft]⟩
  | noteMissing missing =>
    obtain ⟨rfl, ⟨⟩⟩ := Option.ite_none_right_eq_some.mp h
    exact ⟨1, by decide, by simp [next, stepsLeft]⟩
  | testGrace missing =>
    obtain ⟨rfl, ⟨⟩⟩ := Option.ite_none_right_eq_some.mp h
    have hgrace : look.now - missing ≥ 15 := by linarith
    exact ⟨0, by decide, by simp [next, hgrace, stepsLeft]⟩

theorem exited_of_stepsLeft {host : Host} {since : ℚ} {n : Nat}
    (h : host.stepsLeft since = some n) {es : List HostLook} (hlength : n ≤ es.length)
    (hes : ∀ look ∈ es, look.window = false ∧ since + 15 ≤ look.now) :
    ∃ reason, Trace.run next host es = .exited reason := by
  induction es generalizing host n with
  | nil =>
    obtain rfl : n = 0 := Nat.le_zero.mp hlength
    cases host with
    | exited reason => exact ⟨reason, rfl⟩
    | _ => simp [stepsLeft] at h
  | cons look es ih =>
    obtain ⟨hlook, hes⟩ := List.forall_mem_cons.mp hes
    obtain ⟨m, hm, hnext⟩ := stepsLeft_next h hlook.1 hlook.2
    exact ih hnext (by rw [List.length_cons] at hlength; omega) hes

/-- Once the window has been missing for long enough, four steps end the session. -/
theorem exited_of_missing {host : Host} {since : ℚ} (h : host.missingSince = some since)
    {es : List HostLook} (hlength : 4 ≤ es.length)
    (hes : ∀ look ∈ es, look.window = false ∧ since + 15 ≤ look.now) :
    ∃ reason, Trace.run next host es = .exited reason := by
  have hsteps : ∃ n ≤ 4, host.stepsLeft since = some n := by
    cases host with
    | testSignal missing | testWindow missing | noteMissing missing =>
      obtain rfl : missing = some since := h
      simp [stepsLeft]
    | testGrace missing =>
      obtain rfl : missing = since := Option.some.inj h
      simp [stepsLeft]
    | _ => cases h
  obtain ⟨n, hn, hleft⟩ := hsteps
  exact exited_of_stepsLeft hleft (hn.trans hlength) hes

end Host

/-! ## The other programs -/

/-- A bridge process: in its loop, between the exit chord and the signal file, or gone. -/
inductive BridgePhase where
  | loop
  | signalling
  | gone
deriving DecidableEq

/-- The phase after an event of the loop.  An iteration that leaves the loop has seen the exit
chord, and goes on to `write_exit_signal`. -/
def BridgePhase.after (status : Status) (e : LoopEvent) : BridgePhase :=
  match status, e with
  | .running, _ => .loop
  | .ended, .iteration _ => .signalling
  | .ended, .keyboardInterrupt | .missingPad, _ => .gone

theorem BridgePhase.status_of_after {status : Status} {e : LoopEvent}
    (h : BridgePhase.after status e = .loop) : status = .running := by
  cases status with
  | running => rfl
  | ended => cases e <;> cases h
  | missingPad => cases h

structure BridgeProcess where
  args : Args
  bridge : Bridge
  phase : BridgePhase
  looping : phase = .loop → bridge.status = .running

namespace BridgeProcess

def initial (args : Args) (pad : Pad) : BridgeProcess := ⟨args, .initial pad, .loop, fun _ => rfl⟩

def exit (p : BridgeProcess) : BridgeProcess := { p with phase := .gone, looping := nofun }

/-- An event of the loop. -/
def next (p : BridgeProcess) (e : LoopEvent) : BridgeProcess :=
  match p.phase with
  | .loop =>
    { p with
      bridge := p.bridge.next p.args e
      phase := .after (p.bridge.next p.args e).status e
      looping := BridgePhase.status_of_after }
  | .signalling | .gone => p

theorem next_of_not_loop {p : BridgeProcess} (h : p.phase ≠ .loop) (e : LoopEvent) :
    p.next e = p := by
  cases hphase : p.phase with
  | loop => exact absurd hphase h
  | signalling | gone => simp only [next, hphase]

end BridgeProcess

/-- Where `PlaynitePostStart.ps1` stands. -/
inductive PostStart where
  | projector
  | stopExisting
  | removeSignal
  | startBridge
  | done
  | failed
deriving DecidableEq

/-- Who has written the signal file. -/
inductive Origin where
  /-- it was there when the session began -/
  | before
  | bridge (k : Nat)
deriving DecidableEq

structure PlayniteSession where
  signal : Option Origin
  host : Host
  /-- the signal file that the host has found -/
  found : Option Origin
  post : PostStart
  bridges : List BridgeProcess

namespace PlayniteSession

inductive Event where
  /-- a step of the host; `removed` if the signal file can be removed -/
  | host (now : ℚ) (window removed : Bool)
  /-- the projector script ends; the script throws if it has failed -/
  | projector (ok : Bool)
  /-- `Stop-ExistingBridgeProcesses` -/
  | stopExisting (stopped : Nat → Bool)
  | removeSignal (removed : Bool)
  /-- the bridge is started, and finds a controller and the firmware -/
  | startBridge (pad : Option Pad)
  | bridge (k : Nat) (e : LoopEvent)
  | writeSignal (k : Nat) (written : Bool)

/-- What the host finds. -/
def look (s : PlayniteSession) (now : ℚ) (window : Bool) : HostLook :=
  ⟨now, window, s.signal.isSome⟩

/-- A bridge stopped by force. -/
def stop (stopped : Nat → Bool) (k : Nat) (p : BridgeProcess) : BridgeProcess :=
  if stopped k then p.exit else p

/-- One step of the session whose bridge is started with `args` and whose signal file is at
`path`. -/
def next (args : Args) (path : String) (s : PlayniteSession) : Event → PlayniteSession
  | .host now window removed =>
    { s with
      host := s.host.next (s.look now window)
      signal := if s.host = .removeSignal ∧ removed then none else s.signal
      found :=
        match s.host with
        | .testSignal _ => s.signal
        | _ => s.found }
  | .projector ok =>
    if s.post = .projector then { s with post := if ok then .stopExisting else .failed } else s
  | .stopExisting stopped =>
    if s.post = .stopExisting then
      { s with bridges := s.bridges.mapIdx (stop stopped), post := .removeSignal }
    else s
  | .removeSignal removed =>
    if s.post = .removeSignal then
      { s with signal := if removed then none else s.signal, post := .startBridge }
    else s
  | .startBridge pad =>
    if s.post = .startBridge then
      { s with
        bridges := s.bridges ++ (pad.map (.initial args)).toList
        post := .done }
    else s
  | .bridge k e => { s with bridges := s.bridges.modify k fun p => p.next e }
  | .writeSignal k written =>
    match s.bridges[k]? with
    | some p =>
      if p.phase = .signalling then
        { s with
          bridges := s.bridges.modify k BridgeProcess.exit
          signal :=
            if written ∧ p.args.exitChordSignalFile = some path then some (.bridge k)
            else s.signal }
      else s
    | none => s

/-- A session begins: with or without a file left over, beside bridges that run already. -/
def start (left : Bool) (bridges : List BridgeProcess) : PlayniteSession where
  signal := if left then some .before else none
  host := .start
  found := none
  post := .projector
  bridges := bridges

/-! ## When the host exits -/

/-- What the host finds at a step. -/
def looks (s : PlayniteSession) : Event → List HostLook
  | .host now window _ => [s.look now window]
  | _ => []

section Host
variable (args : Args) (path : String) (s : PlayniteSession)

/-- All that the host finds in a run. -/
def seen (es : List Event) : List HostLook := Trace.observe (next args path) looks s es

theorem next_host (e : Event) :
    (s.next args path e).host = Trace.run Host.next s.host (s.looks e) := by
  cases e with
  | host | bridge => rfl
  | projector | stopExisting | removeSignal | startBridge =>
    simp only [next]
    split <;> rfl
  | writeSignal k written =>
    simp only [next]
    split
    · split <;> rfl
    · rfl

theorem run_host (es : List Event) :
    (Trace.run (next args path) s es).host = Trace.run Host.next s.host (s.seen args path es) :=
  Trace.run_component (next_host args path) s es

end Host
end PlayniteSession

/-- **When the host exits**, whatever the other programs do.  It takes the window for closed only
if, from some step on, it saw neither the window nor a signal for fifteen seconds.  It gives up
waiting only if the window is not there at the look after the loop, which it has left at the look
before because it saw the window or because 45 seconds had passed.  And it does exit: once the
window has been missing for fifteen seconds, within four more steps. -/
theorem host_exits (args : Args) (path : String) (left : Bool) (bridges : List BridgeProcess) :
    let next := PlayniteSession.next args path
    let s₀ := PlayniteSession.start left bridges
    (∀ es, (Trace.run next s₀ es).host = .exited .windowClosed →
      ∃ looks₁ first looks₂ last looks₃,
        s₀.seen args path es = looks₁ ++ first :: (looks₂ ++ last :: looks₃) ∧
        15 ≤ last.now - first.now ∧
        Trace.run Host.next .start looks₁ = .noteMissing none ∧
        Trace.Always Host.next Host.Quiet (Trace.run Host.next .start (looks₁ ++ [first])) looks₂) ∧
    (∀ es, (Trace.run next s₀ es).host = .exited .notDetected →
      ∃ first before decisive confirming after,
        s₀.seen args path es = first :: (before ++ decisive :: confirming :: after) ∧
        Host.Decides first before decisive ∧ confirming.window = false) ∧
    ∀ (s : PlayniteSession) since, s.host.missingSince = some since →
      ∀ es, 4 ≤ (s.seen args path es).length →
        (∀ look ∈ s.seen args path es, look.window = false ∧ since + 15 ≤ look.now) →
        ∃ reason, (Trace.run next s es).host = .exited reason := by
  intro next s₀
  refine ⟨?_, ?_, ?_⟩
  · intro es hhost
    rw [PlayniteSession.run_host] at hhost
    obtain ⟨before, last, looks₃, since, hlooks, hgone, hlast⟩ := Host.gone_of_windowClosed hhost
    obtain ⟨looks₁, first, looks₂, rfl, rfl, hstate, halways⟩ := hgone
    refine ⟨looks₁, first, looks₂, last, looks₃, ?_, hlast, hstate, halways⟩
    rw [hlooks, List.append_assoc, List.cons_append]
  · intro es hhost
    rw [PlayniteSession.run_host] at hhost
    cases hlooks : s₀.seen args path es with
    | nil =>
      rw [hlooks] at hhost
      cases hhost
    | cons first rest =>
      have hwaits := Host.waits_run first rest
      rw [← hlooks, show Trace.run Host.next .start _ = _ from hhost] at hwaits
      obtain ⟨before, decisive, confirming, after, rfl, hdecides⟩ := hwaits
      exact ⟨first, before, decisive, confirming, after, rfl, hdecides⟩
  · intro s since hsince es hlength hes
    rw [PlayniteSession.run_host]
    exact Host.exited_of_missing hsince hlength hes

/-- The window is seen, then missing from the fifth second to the twentieth.  In another session it
is seen once and has vanished at the next look. -/
theorem host_exits_closed :
    let looks : List HostLook := [⟨0, true, false⟩, ⟨0, true, false⟩, ⟨0, true, false⟩,
      ⟨0, true, false⟩, ⟨1, true, false⟩, ⟨5, false, false⟩, ⟨5, false, false⟩, ⟨5, false, false⟩,
      ⟨19, false, false⟩, ⟨19, false, false⟩, ⟨19, false, false⟩, ⟨20, false, false⟩]
    let es : List PlayniteSession.Event := looks.map fun look => .host look.now look.window true
    let args : Args :=
      ⟨false, some 0, .xinput, none, false, .neutral, .neutral, 1 / 4, 5, some "signal"⟩
    let vanished : List PlayniteSession.Event :=
      [.host 0 false true, .host 1 false true, .host 1 true true, .host 2 false true]
    ((Trace.run (PlayniteSession.next args "signal") (.start false []) es).host =
        .exited .windowClosed ∧
      ∃ looks₁ first looks₂ last looks₃,
        (PlayniteSession.start false []).seen args "signal" es =
          looks₁ ++ first :: (looks₂ ++ last :: looks₃) ∧ 15 ≤ last.now - first.now) ∧
    (Trace.run (PlayniteSession.next args "signal") (.start false []) vanished).host =
        .exited .notDetected ∧
      ∃ first before decisive confirming after,
        (PlayniteSession.start false []).seen args "signal" vanished =
          first :: (before ++ decisive :: confirming :: after) ∧ confirming.window = false := by
  intro looks es args vanished
  have hhost : (Trace.run (PlayniteSession.next args "signal") (.start false []) es).host =
      .exited .windowClosed := by decide +kernel
  have hvanished : (Trace.run (PlayniteSession.next args "signal") (.start false [])
      vanished).host = .exited .notDetected := by decide +kernel
  obtain ⟨hclosed, hnotDetected, -⟩ := host_exits args "signal" false []
  obtain ⟨looks₁, first, looks₂, last, looks₃, hseen, hgrace, -⟩ := hclosed es hhost
  obtain ⟨first', before, decisive, confirming, after, hseen', -, hgone⟩ :=
    hnotDetected vanished hvanished
  exact ⟨⟨hhost, looks₁, first, looks₂, last, looks₃, hseen, hgrace⟩,
    hvanished, first', before, decisive, confirming, after, hseen', hgone⟩

/-! ## Whose signal ends the session -/

/-- An iteration leaves the loop only if the exit chord is pressed. -/
theorem Bridge.exitChord_of_ended {args : Args} {s : Bridge} {i : Iteration}
    (hrunning : s.status = .running) (h : (s.next args (.iteration i)).status = .ended) :
    i.exitChord = true := by
  rw [next, step_running hrunning, iterate] at h
  cases hpad : s.pad with
  | none =>
    rw [hpad] at h
    cases h
  | some pad =>
    simp only [hpad] at h
    split at h
    · rw [(s.iterateLost_pad args i).1, hrunning] at h
      cases h
    · split at h
      · rw [(iterateInactive_pad args _ i).1, (s.rememberFocus_pad _).1, hrunning] at h
        cases h
      · simp only [iterateActive] at h
        split at h
        · rename_i hchord
          obtain ⟨-, hpressed⟩ := Bool.and_eq_true_iff.mp hchord
          cases pad with
          | padX | padSDL => exact hpressed
          | padSocket | padK => cases hpressed
        · rw [(s.rememberFocus_pad _).1, hrunning] at h
          cases h

/-- A bridge is about to write the signal because of the exit chord. -/
theorem BridgeProcess.signalling_of_next {p : BridgeProcess} {e : LoopEvent}
    (h : (p.next e).phase = .signalling) :
    p.phase = .signalling ∨ p.phase = .loop ∧ ∃ i, e = .iteration i ∧ i.exitChord = true := by
  cases hphase : p.phase with
  | signalling => exact .inl rfl
  | gone =>
    rw [next_of_not_loop (by rw [hphase]; decide), hphase] at h
    cases h
  | loop =>
    simp only [next, hphase] at h
    cases hstatus : (p.bridge.next p.args e).status with
    | running | missingPad =>
      rw [hstatus] at h
      cases h
    | ended =>
      cases e with
      | iteration i =>
        exact .inr ⟨rfl, i, rfl, Bridge.exitChord_of_ended (p.looping hphase) hstatus⟩
      | keyboardInterrupt =>
        rw [hstatus] at h
        cases h

namespace PlayniteSession

/-- `PlaynitePostStart.ps1` can stop the bridges and remove the file. -/
def Works (s : PlayniteSession) : Event → Prop
  | .stopExisting stopped => ∀ k < s.bridges.length, stopped k = true
  | .removeSignal removed => removed = true
  | _ => True

instance (s : PlayniteSession) : (e : Event) → Decidable (s.Works e)
  | .stopExisting stopped =>
    inferInstanceAs (Decidable (∀ k < s.bridges.length, stopped k = true))
  | .removeSignal removed => inferInstanceAs (Decidable (removed = true))
  | .host .. | .projector _ | .startBridge _ | .bridge .. | .writeSignal .. => .isTrue trivial

/-- The file has been removed. -/
def Removed (s : PlayniteSession) : Prop := s.post = .startBridge ∨ s.post = .done

instance (s : PlayniteSession) : Decidable s.Removed :=
  inferInstanceAs (Decidable (s.post = .startBridge ∨ s.post = .done))

/-- The host does not look for the file before it has been removed. -/
def Orderly (s : PlayniteSession) : Event → Prop
  | .host .. => s.host.testsSignal = true → s.Removed
  | _ => True

instance (s : PlayniteSession) : (e : Event) → Decidable (s.Orderly e)
  | .host .. => inferInstanceAs (Decidable (s.host.testsSignal = true → s.Removed))
  | .projector _ | .stopExisting _ | .removeSignal _ | .startBridge _ | .bridge ..
  | .writeSignal .. => .isTrue trivial

/-- What holds once the file has been removed.  `n` bridges ran before the session, and `pressed`
says that its own has seen the exit chord. -/
structure Inv (n : Nat) (pressed : Prop) (s : PlayniteSession) : Prop where
  length : s.bridges.length = n ∨ s.post = .done ∧ s.bridges.length = n + 1
  /-- the bridges of before are gone -/
  earlier : s.post = .removeSignal ∨ s.Removed →
    ∀ k p, s.bridges[k]? = some p → k < n → p.phase = .gone
  own : ∀ p, s.bridges[n]? = some p → p.phase = .signalling → pressed
  signal : s.Removed → ∀ origin, s.signal = some origin → origin = .bridge n ∧ pressed
  found : ∀ origin, s.found = some origin → origin = .bridge n ∧ pressed
  leaving : s.host.leaving = true → s.found.isSome = true

section Step
variable {n : Nat} {pressed : Prop} {s : PlayniteSession}

theorem found_of_testsSignal (htests : s.host.testsSignal = true) {args : Args} {path : String}
    {now : ℚ} {window removed : Bool} :
    (s.next args path (.host now window removed)).found = s.signal := by
  cases hhost : s.host with
  | testSignal missing => simp only [next, hhost]
  | _ =>
    rw [hhost] at htests
    cases htests

theorem found_of_not_testsSignal (htests : s.host.testsSignal = false) {args : Args}
    {path : String} {now : ℚ} {window removed : Bool} :
    (s.next args path (.host now window removed)).found = s.found := by
  cases hhost : s.host with
  | testSignal missing =>
    rw [hhost] at htests
    cases htests
  | _ => simp only [next, hhost]

theorem start_inv (left : Bool) (bridges : List BridgeProcess) (pressed : Prop) :
    (start left bridges).Inv bridges.length pressed where
  length := .inl rfl
  earlier := by simp [start, Removed]
  own p hp := by simp [start] at hp
  signal := by simp [start, Removed]
  found _ h := by cases h
  leaving h := by cases h

theorem Inv.host (h : s.Inv n pressed) (args : Args) (path : String) {now : ℚ}
    {window removed : Bool} (horderly : s.Orderly (.host now window removed)) :
    (s.next args path (.host now window removed)).Inv n pressed where
  length := h.length
  earlier := h.earlier
  own := h.own
  signal hremoved origin horigin := by
    refine h.signal hremoved origin ?_
    simp only [next] at horigin
    split at horigin
    · cases horigin
    · exact horigin
  found origin horigin := by
    cases htests : s.host.testsSignal with
    | true =>
      exact h.signal (horderly htests) origin (by rwa [found_of_testsSignal htests] at horigin)
    | false => exact h.found origin (by rwa [found_of_not_testsSignal htests] at horigin)
  leaving hleaving := by
    rcases Host.leaving_next hleaving with ⟨hbefore, htests⟩ | ⟨htests, hsignal⟩
    · rw [found_of_not_testsSignal htests]
      exact h.leaving hbefore
    · rw [found_of_testsSignal htests]
      exact hsignal

theorem Inv.projector (h : s.Inv n pressed) (args : Args) (path : String) (ok : Bool) :
    (s.next args path (.projector ok)).Inv n pressed := by
  by_cases hpost : s.post = .projector
  · have hlength : s.bridges.length = n := by simpa [hpost] using h.length
    rw [next, if_pos hpost]
    refine ⟨.inl hlength, ?_, h.own, ?_, h.found, h.leaving⟩ <;>
      cases ok <;> simp [Removed]
  · rwa [next, if_neg hpost]

theorem Inv.stopExisting (h : s.Inv n pressed) (args : Args) (path : String)
    {stopped : Nat → Bool} (hworks : s.Works (.stopExisting stopped)) :
    (s.next args path (.stopExisting stopped)).Inv n pressed := by
  by_cases hpost : s.post = .stopExisting
  · have hlength : s.bridges.length = n := by simpa [hpost] using h.length
    rw [next, if_pos hpost]
    refine ⟨.inl (by simpa using hlength), ?_, ?_, by simp [Removed], h.found, h.leaving⟩
    · intro _ k p hp hk
      rw [List.getElem?_mapIdx, Option.map_eq_some_iff] at hp
      obtain ⟨p', -, rfl⟩ := hp
      rw [stop, hworks k (hlength ▸ hk), if_pos rfl]
      rfl
    · intro p hp
      rw [List.getElem?_eq_none (by simp [hlength])] at hp
      cases hp
  · rwa [next, if_neg hpost]

theorem Inv.removeSignal (h : s.Inv n pressed) (args : Args) (path : String) {removed : Bool}
    (hworks : s.Works (.removeSignal removed)) :
    (s.next args path (.removeSignal removed)).Inv n pressed := by
  by_cases hpost : s.post = .removeSignal
  · have hlength : s.bridges.length = n := by simpa [hpost] using h.length
    obtain rfl : removed = true := hworks
    rw [next, if_pos hpost]
    exact ⟨.inl hlength, fun _ => h.earlier (.inl hpost), h.own, fun _ => nofun, h.found,
      h.leaving⟩
  · rwa [next, if_neg hpost]

theorem Inv.startBridge (h : s.Inv n pressed) (args : Args) (path : String) (pad : Option Pad) :
    (s.next args path (.startBridge pad)).Inv n pressed := by
  by_cases hpost : s.post = .startBridge
  · have hlength : s.bridges.length = n := by simpa [hpost] using h.length
    have hremoved : s.Removed := .inl hpost
    rw [next, if_pos hpost]
    refine ⟨?_, ?_, ?_, fun _ => h.signal hremoved, h.found, h.leaving⟩
    · cases pad with
      | none => exact .inl (by simpa using hlength)
      | some pad => exact .inr ⟨rfl, by simp [hlength]⟩
    · intro _ k p hp hk
      rw [List.getElem?_append_left (hlength ▸ hk)] at hp
      exact h.earlier (.inr hremoved) k p hp hk
    · intro p hp hphase
      rw [List.getElem?_append_right (Nat.le_of_eq hlength), hlength, Nat.sub_self] at hp
      cases pad with
      | none => cases hp
      | some pad =>
        obtain rfl := Option.some.inj hp
        cases hphase
  · rwa [next, if_neg hpost]

theorem Inv.bridge (h : s.Inv n pressed) (args : Args) (path : String) {k : Nat} {e : LoopEvent}
    (hpressed : ∀ i p, k = n → e = .iteration i → i.exitChord = true → s.bridges[n]? = some p →
      p.phase = .loop → pressed) :
    (s.next args path (.bridge k e)).Inv n pressed where
  length := by simpa [next] using h.length
  earlier hpost j p hp hj := by
    simp only [next, List.getElem?_modify, Option.map_eq_map, Option.map_eq_some_iff] at hp
    obtain ⟨p', hp', rfl⟩ := hp
    have hgone := h.earlier hpost j p' hp' hj
    split
    · rw [BridgeProcess.next_of_not_loop (by rw [hgone]; decide), hgone]
    · exact hgone
  own p hp hphase := by
    simp only [next, List.getElem?_modify, Option.map_eq_map, Option.map_eq_some_iff] at hp
    obtain ⟨p', hp', rfl⟩ := hp
    by_cases hk : k = n
    · rw [if_pos hk] at hphase
      rcases BridgeProcess.signalling_of_next hphase with hbefore | ⟨hloop, i, he, hchord⟩
      · exact h.own p' hp' hbefore
      · exact hpressed i p' hk he hchord hp' hloop
    · rw [if_neg hk] at hphase
      exact h.own p' hp' hphase
  signal := h.signal
  found := h.found
  leaving := h.leaving

theorem Inv.writeSignal (h : s.Inv n pressed) (args : Args) (path : String) (k : Nat)
    (written : Bool) : (s.next args path (.writeSignal k written)).Inv n pressed := by
  simp only [next]
  split
  · rename_i p hp
    split
    · rename_i hphase
      refine ⟨by simpa using h.length, ?_, ?_, ?_, h.found, h.leaving⟩
      · intro hpost j p' hp' hj
        simp only [List.getElem?_modify, Option.map_eq_map, Option.map_eq_some_iff] at hp'
        obtain ⟨p'', hp'', rfl⟩ := hp'
        split
        · rfl
        · exact h.earlier hpost j p'' hp'' hj
      · intro p' hp' hphase'
        simp only [List.getElem?_modify, Option.map_eq_map, Option.map_eq_some_iff] at hp'
        obtain ⟨p'', hp'', rfl⟩ := hp'
        split at hphase'
        · cases hphase'
        · exact h.own p'' hp'' hphase'
      · intro hremoved origin horigin
        split at horigin
        · obtain rfl := Option.some.inj horigin
          -- A bridge that is about to write is not one of before.
          have hk : k = n := by
            have hnot : ¬k < n := by
              intro hk
              rw [h.earlier (.inr hremoved) k p hp hk] at hphase
              cases hphase
            have hlt : k < s.bridges.length := (List.getElem?_eq_some_iff.mp hp).1
            have hlength := h.length
            omega
          subst hk
          exact ⟨rfl, h.own p hp hphase⟩
        · exact h.signal hremoved origin horigin
    · exact h
  · exact h

/-- In the run on `es`, the session's own bridge sees the exit chord in its loop. -/
def ChordSeen (args : Args) (path : String) (s₀ : PlayniteSession) (n : Nat) (es : List Event) :
    Prop :=
  ∃ pre i post, es = pre ++ .bridge n (.iteration i) :: post ∧ i.exitChord = true ∧
    ∃ p, (Trace.run (next args path) s₀ pre).bridges[n]? = some p ∧ p.phase = .loop

theorem next_inv {args : Args} {path : String} {s₀ : PlayniteSession} {es : List Event} {e : Event}
    (hat : ∃ pre post, es = pre ++ e :: post ∧ Trace.run (next args path) s₀ pre = s)
    (hworks : s.Works e) (horderly : s.Orderly e) (h : s.Inv n (s₀.ChordSeen args path n es)) :
    (s.next args path e).Inv n (s₀.ChordSeen args path n es) := by
  cases e with
  | host now window removed => exact h.host args path horderly
  | projector ok => exact h.projector args path ok
  | stopExisting stopped => exact h.stopExisting args path hworks
  | removeSignal removed => exact h.removeSignal args path hworks
  | startBridge pad => exact h.startBridge args path pad
  | bridge k e =>
    obtain ⟨pre, post, hes, rfl⟩ := hat
    refine h.bridge args path ?_
    rintro i p rfl rfl hchord hp hloop
    exact ⟨pre, i, post, hes, hchord, p, hp, hloop⟩
  | writeSignal k written => exact h.writeSignal args path k written

end Step

end PlayniteSession

/-- **Only the exit chord of this session ends it by signal**, if `PlaynitePostStart.ps1` gets to
stop the bridges of before and to remove the file before the host looks for it: the bridge it has
started was in its loop and saw the chord.  The programs do not see to that order, and without it a
file left over can end a session in which no button was ever pressed. -/
theorem session_signal (args : Args) (path : String) (bridges : List BridgeProcess) :
    (∀ left es,
      Trace.Always (PlayniteSession.next args path) PlayniteSession.Works (.start left bridges) es →
      Trace.Always (PlayniteSession.next args path) PlayniteSession.Orderly
        (.start left bridges) es →
      (Trace.run (PlayniteSession.next args path) (.start left bridges) es).host =
        .exited .signal →
      (PlayniteSession.start left bridges).ChordSeen args path bridges.length es) ∧
    ∃ es,
      Trace.Always (PlayniteSession.next args path) PlayniteSession.Works (.start true bridges) es ∧
      (∀ k e, .bridge k e ∉ es) ∧
      (Trace.run (PlayniteSession.next args path) (.start true bridges) es).host =
        .exited .signal := by
  refine ⟨?_, ?_⟩
  · intro left es hworks horderly hhost
    have hat := Trace.always_at (PlayniteSession.next args path) (.start left bridges) es
    have hinv := Trace.Always.run_invariant
      (fun s e h hstep => PlayniteSession.next_inv hstep.1 hstep.2.1 hstep.2.2 h)
      (PlayniteSession.start_inv left bridges _)
      (Trace.always_and.mpr ⟨hat, Trace.always_and.mpr ⟨hworks, horderly⟩⟩)
    obtain ⟨origin, horigin⟩ := Option.isSome_iff_exists.mp (hinv.leaving (by rw [hhost]; rfl))
    exact (hinv.found origin horigin).2
  -- The window is there at once, and the host is done before the projector script has ended.
  · refine ⟨List.replicate 7 (.host 0 true true), ?_, ?_, ?_⟩
    · exact Trace.always_of_forall (fun e he _ => by rw [List.eq_of_mem_replicate he]; trivial) _
    · intro k e he
      cases List.eq_of_mem_replicate he
    · simp [Trace.run, List.replicate, PlayniteSession.next, PlayniteSession.start,
        PlayniteSession.look, Host.next]

/-- A file left over is removed, and the chord of the new bridge ends the session. -/
theorem session_signal_chord :
    let args : Args :=
      ⟨false, some 0, .xinput, none, false, .neutral, .neutral, 1 / 4, 5, some "signal"⟩
    let i : Iteration := ⟨1, true, ⟨true, fun _ => true, false, 0, fun _ => false, fun _ => false,
      fun _ => false⟩, true, true, 2, .home⟩
    let es : List PlayniteSession.Event :=
      [.projector true, .stopExisting fun _ => true, .removeSignal true,
        .startBridge (some (.padX 0)), .bridge 0 (.iteration i), .writeSignal 0 true] ++
        List.replicate 7 (.host 0 true true)
    (Trace.run (PlayniteSession.next args "signal") (.start true []) es).host = .exited .signal ∧
      (PlayniteSession.start true []).ChordSeen args "signal" 0 es := by
  intro args i es
  have hhost : (Trace.run (PlayniteSession.next args "signal") (.start true []) es).host =
      .exited .signal := by decide +kernel
  exact ⟨hhost, (session_signal args "signal" []).1 true es (by decide +kernel) (by decide +kernel)
    hhost⟩

end XInputSwitch
