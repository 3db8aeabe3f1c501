import XInputSwitch.DiscordBot

/-! # Who may send what

`on_message` looks a command up among the privileged ones by its canonical name, and
never by the word that was typed.  No privileged command is ever sent for anyone else
(`effects_authorised`), in whatever order the tasks run; a listed word that is only an
alias restricts nobody (`restricted_commands`).
-/
namespace XInputSwitch

open Python (Runtime)

namespace InputBot

/-! ## What a step can do -/

inductive Does (py : Runtime) (cfg : BotConfig) (b : InputBot) : InputBot → List BotEffect → Prop
  /-- a message that is ignored, or a task that does not wait for this -/
  | nothing : Does py cfg b b []
  /-- the log could not be written, or an event is sent -/
  | ends (k : Nat) : Does py cfg b { b with tasks := b.tasks.eraseIdx k } []
  | waits {m : BotMessage} {c : BotCommand} (haccepts : accepts cfg m = true)
    (hparse : parseCommand py m.content cfg.commandPrefix = some c)
    (hprivileged : c.command ∈ cfg.privilegedCommands) :
    Does py cfg b { b with
      tasks := b.tasks ++ [⟨m, c, .audit (m.authorId ∈ cfg.privilegedUserIds)⟩] } []
  | relays {m : BotMessage} {c : BotCommand} {now : ℚ} (haccepts : accepts cfg m = true)
    (hparse : parseCommand py m.content cfg.commandPrefix = some c)
    (hfree : c.command ∉ cfg.privilegedCommands)
    (hcooldown : ¬ now - (b.lastByUser.lookup m.authorId).getD 0 < cfg.cooldown) :
    Does py cfg b ⟨b.lastByUser.insert m.authorId now, b.tasks ++ [⟨m, c, .relay⟩]⟩ [.send m c now]
  | audits {k : Nat} {m : BotMessage} {c : BotCommand} {allowed : Bool}
    (htask : b.tasks[k]? = some ⟨m, c, .audit allowed⟩) :
    Does py cfg b { b with tasks := b.tasks.eraseIdx k } [.audit m c allowed]
  | permits {k : Nat} {m : BotMessage} {c : BotCommand} {now : ℚ}
    (htask : b.tasks[k]? = some ⟨m, c, .audit true⟩)
    (hcooldown : ¬ now - (b.lastByUser.lookup m.authorId).getD 0 < cfg.cooldown) :
    Does py cfg b
      ⟨b.lastByUser.insert m.authorId now, b.tasks.eraseIdx k ++ [⟨m, c, .relay⟩]⟩
      [.audit m c true, .send m c now]

variable {py : Runtime} {cfg : BotConfig}

theorem step_does (b : InputBot) (e : BotStep) :
    Does py cfg b (b.step py cfg e).1 (b.step py cfg e).2 := by
  cases e with
  | message m now =>
    cases haccepts : accepts cfg m with
    | false =>
      simp only [step, haccepts, Bool.false_eq_true, if_false]
      exact .nothing
    | true =>
      cases hparse : parseCommand py m.content cfg.commandPrefix with
      | none =>
        simp only [step, haccepts, hparse, if_true]
        exact .nothing
      | some c =>
        by_cases hprivileged : c.command ∈ cfg.privilegedCommands
        · simp only [step, haccepts, hparse, if_true, if_pos hprivileged]
          exact .waits haccepts hparse hprivileged
        · simp only [step, haccepts, hparse, if_true, if_neg hprivileged, relay]
          split
          · exact .nothing
          · exact .relays haccepts hparse hprivileged ‹_›
  | audited k written now =>
    match htask : b.tasks[k]? with
    | some ⟨m, c, .audit allowed⟩ =>
      simp only [step, htask]
      cases written with
      | false => exact .ends k
      | true =>
        cases allowed with
        | false => exact .audits htask
        | true =>
          simp only [if_true, relay]
          split
          · exact .audits htask
          · exact .permits htask ‹_›
    | some ⟨m, c, .relay⟩ =>
      simp only [step, htask]
      exact .nothing
    | none =>
      simp only [step, htask]
      exact .nothing
  | relayed k =>
    match htask : b.tasks[k]? with
    | some ⟨m, c, .relay⟩ =>
      simp only [step, htask]
      exact .ends k
    | some ⟨m, c, .audit allowed⟩ =>
      simp only [step, htask]
      exact .nothing
    | none =>
      simp only [step, htask]
      exact .nothing

/-! ## What is sent -/

/-- What is known of a task that waits. -/
structure Known (py : Runtime) (cfg : BotConfig) (t : BotTask) : Prop where
  accepted : accepts cfg t.message = true
  parsed : parseCommand py t.message.content cfg.commandPrefix = some t.command
  judged : ∀ allowed, t.wait = .audit allowed →
    allowed = decide (t.message.authorId ∈ cfg.privilegedUserIds)

/-- What a call of `send_event` was allowed by. -/
structure Authorised (py : Runtime) (cfg : BotConfig) (m : BotMessage) (c : BotCommand) : Prop where
  accepted : accepts cfg m = true
  parsed : parseCommand py m.content cfg.commandPrefix = some c
  allowed : c.command ∈ cfg.privilegedCommands → m.authorId ∈ cfg.privilegedUserIds

/-- The invariant: tasks are known, and what was sent was allowed. -/
def Orderly (py : Runtime) (cfg : BotConfig) (b : InputBot) (shown : List BotEffect) : Prop :=
  (∀ t ∈ b.tasks, Known py cfg t) ∧
    ∀ m c now, .send m c now ∈ shown → Authorised py cfg m c

theorem orderly_initial : Orderly py cfg initial [] :=
  ⟨fun _ ht => absurd ht List.not_mem_nil, fun _ _ _ hmem => absurd hmem List.not_mem_nil⟩

theorem Does.orderly {b b' : InputBot} {effects shown : List BotEffect}
    (hdoes : Does py cfg b b' effects) (h : Orderly py cfg b shown) :
    Orderly py cfg b' (shown ++ effects) := by
  obtain ⟨htasks, hsent⟩ := h
  have herase : ∀ k, ∀ t ∈ b.tasks.eraseIdx k, Known py cfg t :=
    fun k t ht => htasks t (List.mem_of_mem_eraseIdx ht)
  -- a task that waits for the relay has been judged
  have hadd : ∀ {tasks : List BotTask} {t : BotTask}, (∀ t ∈ tasks, Known py cfg t) →
      Known py cfg t → ∀ t' ∈ tasks ++ [t], Known py cfg t' :=
    fun hall ht => List.forall_mem_append.mpr ⟨hall, List.forall_mem_singleton.mpr ht⟩
  cases hdoes with
  | nothing => exact ⟨htasks, by simpa using hsent⟩
  | ends k => exact ⟨herase k, by simpa using hsent⟩
  | waits haccepts hparse _ =>
    refine ⟨hadd htasks ⟨haccepts, hparse, fun allowed hwait => ?_⟩, by simpa using hsent⟩
    cases hwait
    rfl
  | @relays m c now haccepts hparse hfree _ =>
    have hknown : Known py cfg ⟨m, c, .relay⟩ := ⟨haccepts, hparse, fun _ hwait => by cases hwait⟩
    refine ⟨hadd htasks hknown, fun m' c' now' hmem => ?_⟩
    rcases List.mem_append.mp hmem with hmem | hmem
    · exact hsent m' c' now' hmem
    · cases List.mem_singleton.mp hmem
      exact ⟨haccepts, hparse, fun hprivileged => absurd hprivileged hfree⟩
  | audits htask =>
    refine ⟨herase _, fun m c now hmem => hsent m c now ?_⟩
    simpa using hmem
  | @permits k m c now htask _ =>
    have hknown := htasks _ (List.mem_of_getElem? htask)
    have hprivileged : m.authorId ∈ cfg.privilegedUserIds :=
      of_decide_eq_true (hknown.judged true rfl).symm
    have hrelay : Known py cfg ⟨m, c, .relay⟩ :=
      ⟨hknown.accepted, hknown.parsed, fun _ hwait => by cases hwait⟩
    refine ⟨hadd (herase k) hrelay, fun m' c' now' hmem => ?_⟩
    rcases List.mem_append.mp hmem with hmem | hmem
    · exact hsent m' c' now' hmem
    · rcases List.mem_cons.mp hmem with hmem | hmem
      · cases hmem
      · cases List.mem_singleton.mp hmem
        exact ⟨hknown.accepted, hknown.parsed, fun _ => hprivileged⟩

/-- **No privileged command is sent for anyone else**, in any run. -/
theorem effects_authorised (py : Runtime) (cfg : BotConfig) (es : List BotStep) {m : BotMessage}
    {c : BotCommand} {now : ℚ} (h : .send m c now ∈ effects py cfg es) : Authorised py cfg m c := by
  have horderly : Orderly py cfg (Trace.run (next py cfg) initial es) (effects py cfg es) :=
    Trace.run_observe_invariant (fun b shown e hb => (step_does b e).orderly hb) orderly_initial es
  exact horderly.2 m c now h

end InputBot

/-- The author may not send what the message says: the word or its command is listed. -/
def Restricted (cfg : BotConfig) (m : BotMessage) (c : BotCommand) : Prop :=
  (c.raw ∈ cfg.privilegedCommands ∨ c.command ∈ cfg.privilegedCommands) ∧
    m.authorId ∉ cfg.privilegedUserIds

/-- **Restricted commands.**  In no run is a restricted message sent, if and only if every
listed word that can be typed has its command listed too, or everyone who may write is
privileged. -/
theorem restricted_commands (py : Runtime) (cfg : BotConfig) :
    (∀ (es : List BotStep) (m : BotMessage) (c : BotCommand),
      parseCommand py m.content cfg.commandPrefix = some c → Restricted cfg m c →
      ∀ c' now, .send m c' now ∉ InputBot.effects py cfg es) ↔
    ((∃ author, author ∉ cfg.privilegedUserIds ∧
        (cfg.allowedUserIds = [] ∨ author ∈ cfg.allowedUserIds)) →
      ∀ token command, commandAliases.lookup token = some command →
        (∃ content, parseCommand py content cfg.commandPrefix = some ⟨command, token⟩) →
        token ∈ cfg.privilegedCommands → command ∈ cfg.privilegedCommands) := by
  constructor
  · rintro h ⟨author, hauthor, hallowed⟩ token command - ⟨content, hparse⟩ htoken
    by_contra hcommand
    -- the message of that author, when the cooldown is over
    let m : BotMessage := ⟨0, author, false, cfg.channelId, content⟩
    have haccepts : InputBot.accepts cfg m = true := by
      rcases hallowed with hallowed | hallowed <;> simp [InputBot.accepts, m, hallowed]
    refine h [.message m cfg.cooldown] m ⟨command, token⟩ hparse ⟨.inl htoken, hauthor⟩
      ⟨command, token⟩ cfg.cooldown ?_
    have hlast : (InputBot.initial.lastByUser.lookup m.authorId).getD 0 = 0 := rfl
    simp [InputBot.effects, InputBot.step, InputBot.relay, haccepts, hparse, hcommand, hlast, m]
  · intro h es m c hparse hrestricted c' now hsent
    obtain ⟨haccepts, hparse', hallowed⟩ := InputBot.effects_authorised py cfg es hsent
    obtain rfl : c = c' := Option.some.inj (hparse.symm.trans hparse')
    obtain ⟨hlisted, hauthor⟩ := hrestricted
    have hmay : cfg.allowedUserIds = [] ∨ m.authorId ∈ cfg.allowedUserIds := by
      simp only [InputBot.accepts, Bool.and_eq_true, Bool.or_eq_true, List.isEmpty_iff,
        decide_eq_true_eq] at haccepts
      exact haccepts.2
    rcases hlisted with hlisted | hlisted
    · exact hauthor (hallowed (h ⟨m.authorId, hauthor, hmay⟩ c.raw c.command
        (parseCommand_alias hparse) ⟨m.content, hparse⟩ hlisted))
    · exact hauthor (hallowed hlisted)

/-- With `DISCORD_PRIVILEGED_COMMANDS=screenshot`, somebody who is not privileged types
`Screenshot`, and it is sent. -/
theorem screenshot_unrestricted :
    let cfg : BotConfig := ⟨7, "", 1 / 5, 1 / 2, [], [9], privilegedCommandsOf .ascii "screenshot"⟩
    let m : BotMessage := ⟨1, 5, false, 7, "Screenshot"⟩
    parseCommand .ascii m.content cfg.commandPrefix = some ⟨"capture", "screenshot"⟩ ∧
      "screenshot" ∈ cfg.privilegedCommands ∧ m.authorId ∉ cfg.privilegedUserIds ∧
      InputBot.effects .ascii cfg [.message m 100] =
        [.send m ⟨"capture", "screenshot"⟩ 100] := by
  decide +kernel

end XInputSwitch
