import Mathlib.Data.List.Perm.Basic
import XInputSwitch.DiscordAccess

/-! # Cooldown and audit

What holds of every order in which the tasks of `on_message` run.  Between the test of the
cooldown and the entry in `last_by_user` nothing is awaited, so the two are one step; the
time entered is that of the step.  With a clock that never goes back, what is relayed for
one user is at least the cooldown apart (`effects_apart`).

A task of a privileged command waits for the audit log exactly once, and every such wait
ends in a record or in a failure (`run_balance`).  What the world sees is a log of few kinds
of entries (`effects_logged`): a privileged command is recorded before it is relayed
(`Logged.before`).  No message is relayed more often than it arrives (`effects_sends_le`).
-/
namespace XInputSwitch

open Python (Runtime)

/-- The clock reading of a step. -/
def BotStep.clock : BotStep → Option ℚ
  | .message _ now => some now
  | .audited _ _ now => some now
  | .relayed _ => none

/-- The message arrives. -/
def BotStep.arrives (m : BotMessage) : BotStep → Bool
  | .message m' _ => m' = m
  | _ => false

/-- Two calls of `send_event` for one user are far enough apart. -/
def BotEffect.Apart (cooldown : ℚ) : BotEffect → BotEffect → Prop
  | .send m _ now, .send m' _ now' => m.authorId = m'.authorId → cooldown ≤ now' - now
  | _, _ => True

/-- A record of the message in the audit log. -/
def BotEffect.audits (m : BotMessage) : BotEffect → Bool
  | .audit m' _ _ => m' = m
  | .send _ _ _ => false

/-- A call of `send_event` for the message. -/
def BotEffect.sends (m : BotMessage) : BotEffect → Bool
  | .audit _ _ _ => false
  | .send m' _ _ => m' = m

/-- The task waits for the audit log. -/
def BotTask.awaitsAudit (m : BotMessage) (t : BotTask) : Bool :=
  t.message = m && t.wait ≠ .relay

namespace InputBot

/-- The message whose record could not be written. -/
def failed (b : InputBot) : BotStep → List BotMessage
  | .audited k written _ =>
    match b.tasks[k]? with
    | some ⟨m, _, .audit _⟩ => if written then [] else [m]
    | _ => []
  | _ => []

/-- The messages whose records could not be written, in a run. -/
def failures (py : Runtime) (cfg : BotConfig) (es : List BotStep) : List BotMessage :=
  Trace.observe (next py cfg) failed initial es

/-! ## The cooldown -/

section Cooldown
variable {py : Runtime} {cfg : BotConfig}

theorem relay_sends {b : InputBot} {m m' : BotMessage} {c c' : BotCommand} {now now' : ℚ}
    (h : .send m c now ∈ (relay cfg b m' c' now').2) : now = now' := by
  unfold relay at h
  split at h
  · cases h
  · cases List.mem_singleton.mp h
    rfl

/-- The time of a call is the reading of its step. -/
theorem step_sends {b : InputBot} {e : BotStep} {m : BotMessage} {c : BotCommand} {now : ℚ}
    (h : .send m c now ∈ (b.step py cfg e).2) : e.clock = some now := by
  cases e with
  | message m' now' =>
    simp only [step] at h
    split at h
    · split at h
      · cases h
      · split at h
        · cases h
        · exact congrArg some (relay_sends h).symm
    · cases h
  | audited k written now' =>
    simp only [step] at h
    split at h
    · split at h
      · split at h
        · rcases List.mem_cons.mp h with h | h
          · cases h
          · exact congrArg some (relay_sends h).symm
        · cases List.mem_singleton.mp h
      · cases h
    · cases h
  | relayed k =>
    simp only [step] at h
    split at h <;> cases h

/-- The invariant at time `t`: nothing is entered for later, the entry of a user is not
before anything relayed for them, and what was relayed is far enough apart. -/
structure Spaced (cfg : BotConfig) (t : ℚ) (b : InputBot) (shown : List BotEffect) : Prop where
  entered_le : ∀ user last, b.lastByUser.lookup user = some last → last ≤ t
  entered : ∀ m c now, .send m c now ∈ shown →
    ∃ last, b.lastByUser.lookup m.authorId = some last ∧ now ≤ last
  apart : shown.Pairwise (BotEffect.Apart cfg.cooldown)

/-- Effects without a call change nothing. -/
theorem Spaced.silent {t : ℚ} {b b' : InputBot} {shown effects : List BotEffect}
    (h : Spaced cfg t b shown) (hlast : b'.lastByUser = b.lastByUser)
    (hsilent : ∀ m c now, .send m c now ∉ effects) : Spaced cfg t b' (shown ++ effects) := by
  -- nothing is ordered by `Apart` against a record
  have hrecord : ∀ x, ∀ y ∈ effects, BotEffect.Apart cfg.cooldown x y := by
    intro x y hy
    cases y with
    | audit m c allowed => cases x <;> trivial
    | send m c now => exact absurd hy (hsilent m c now)
  refine ⟨by rw [hlast]; exact h.entered_le, fun m c now hmem => ?_, ?_⟩
  · rw [hlast]
    rcases List.mem_append.mp hmem with hmem | hmem
    · exact h.entered m c now hmem
    · exact absurd hmem (hsilent m c now)
  · exact List.pairwise_append.mpr
      ⟨h.apart, List.pairwise_of_forall_mem_list fun x _ y hy => hrecord x y hy,
        fun x _ y hy => hrecord x y hy⟩

/-- A call after the cooldown test, entered in the same step. -/
theorem Spaced.relayed {t : ℚ} {b b' : InputBot} {shown : List BotEffect} {m : BotMessage}
    (c : BotCommand) (h : Spaced cfg t b shown)
    (hlast : b'.lastByUser = b.lastByUser.insert m.authorId t)
    (hcooldown : ¬ t - (b.lastByUser.lookup m.authorId).getD 0 < cfg.cooldown) :
    Spaced cfg t b' (shown ++ [.send m c t]) := by
  refine ⟨fun user last hentry => ?_, fun m' c' now' hmem => ?_, ?_⟩
  · rw [hlast] at hentry
    by_cases huser : user = m.authorId
    · subst huser
      rw [AList.lookup_insert] at hentry
      exact (Option.some.inj hentry).ge
    · rw [AList.lookup_insert_ne huser] at hentry
      exact h.entered_le user last hentry
  · rw [hlast]
    rcases List.mem_append.mp hmem with hmem | hmem
    · obtain ⟨last, hentry, hle⟩ := h.entered m' c' now' hmem
      by_cases huser : m'.authorId = m.authorId
      · rw [huser] at hentry ⊢
        exact ⟨t, AList.lookup_insert _, hle.trans (h.entered_le _ _ hentry)⟩
      · exact ⟨last, by rw [AList.lookup_insert_ne huser]; exact hentry, hle⟩
    · cases List.mem_singleton.mp hmem
      exact ⟨t, AList.lookup_insert _, le_rfl⟩
  · refine List.pairwise_append.mpr ⟨h.apart, List.pairwise_singleton _ _, fun x hx y hy => ?_⟩
    cases List.mem_singleton.mp hy
    cases x with
    | audit m' c' allowed => trivial
    | send m' c' now' =>
      intro huser
      obtain ⟨last, hentry, hle⟩ := h.entered m' c' now' hx
      rw [← huser, hentry, Option.getD_some, not_lt] at hcooldown
      exact hcooldown.trans (sub_le_sub_left hle t)

theorem Does.spaced {t : ℚ} {b b' : InputBot} {effects shown : List BotEffect}
    (hdoes : Does py cfg b b' effects) (hclock : ∀ m c now, .send m c now ∈ effects → now = t)
    (h : Spaced cfg t b shown) : Spaced cfg t b' (shown ++ effects) := by
  cases hdoes with
  | nothing => exact h.silent rfl (by simp)
  | ends k => exact h.silent rfl (by simp)
  | waits _ _ _ => exact h.silent rfl (by simp)
  | @relays m c now _ _ _ hcooldown =>
    obtain rfl := hclock m c now (by simp)
    exact h.relayed c rfl hcooldown
  | audits _ => exact h.silent rfl (by simp)
  | @permits k m c now _ hcooldown =>
    obtain rfl := hclock m c now (by simp)
    have hrecord : Spaced cfg now b (shown ++ [.audit m c true]) := h.silent rfl (by simp)
    rw [List.append_cons shown]
    exact hrecord.relayed c rfl hcooldown

/-- **What is relayed for one user is at least the cooldown apart**, in any run on a clock
that never goes back. -/
theorem effects_apart (py : Runtime) (cfg : BotConfig) {es : List BotStep}
    (hclock : (es.filterMap BotStep.clock).Pairwise (· ≤ ·)) :
    (effects py cfg es).Pairwise (BotEffect.Apart cfg.cooldown) := by
  obtain ⟨t, hfrom⟩ : ∃ t : ℚ, ∀ now ∈ es.filterMap BotStep.clock, t ≤ now := by
    cases hreadings : es.filterMap BotStep.clock with
    | nil => exact ⟨0, by simp⟩
    | cons t later =>
      rw [hreadings] at hclock
      refine ⟨t, fun now hnow => ?_⟩
      rcases List.mem_cons.mp hnow with rfl | hnow
      · exact le_rfl
      · exact (List.pairwise_cons.mp hclock).1 now hnow
  have hinitial : Spaced cfg t initial [] := ⟨by simp [initial], by simp, .nil⟩
  obtain ⟨t', hspaced⟩ : ∃ t', Spaced cfg t' (Trace.run (next py cfg) initial es)
      ([] ++ effects py cfg es) :=
    Trace.run_observe_clock
      (fun t t' b shown hle h =>
        ⟨fun user last hentry => (h.entered_le user last hentry).trans hle, h.entered, h.apart⟩)
      (fun t b shown e ht h =>
        (step_does b e).spaced (fun m c now hsend => ht now (step_sends hsend)) h)
      hinitial hclock hfrom
  exact hspaced.apart

end Cooldown

/-! ## The records -/

section Audit
variable {py : Runtime} {cfg : BotConfig}

/-- The tasks of the message that wait for the audit log. -/
def waiting (b : InputBot) (m : BotMessage) : Nat :=
  b.tasks.countP (·.awaitsAudit m)

theorem waiting_relay (b : InputBot) (m m' : BotMessage) (c : BotCommand) (now : ℚ) :
    (relay cfg b m' c now).1.waiting m = b.waiting m := by
  unfold relay
  split
  · rfl
  · simp [waiting, BotTask.awaitsAudit]

theorem audits_relay (b : InputBot) (m m' : BotMessage) (c : BotCommand) (now : ℚ) :
    (relay cfg b m' c now).2.countP (·.audits m) = 0 := by
  unfold relay
  split
  · rfl
  · rfl

/-- A task that leaves is no longer counted. -/
theorem waiting_eraseIdx {b : InputBot} {k : Nat} {t : BotTask} (htask : b.tasks[k]? = some t)
    (m : BotMessage) :
    waiting ⟨b.lastByUser, b.tasks.eraseIdx k⟩ m + (if t.awaitsAudit m then 1 else 0) =
      b.waiting m := by
  obtain ⟨hk, rfl⟩ := List.getElem?_eq_some_iff.mp htask
  have hperm := (List.getElem_cons_eraseIdx_perm hk).countP_eq (·.awaitsAudit m)
  rw [List.countP_cons] at hperm
  exact hperm

/-- **Every wait for the log ends in a record or in a failure.** -/
theorem step_balance {m : BotMessage} {c : BotCommand} (haccepts : accepts cfg m = true)
    (hparse : parseCommand py m.content cfg.commandPrefix = some c)
    (hprivileged : c.command ∈ cfg.privilegedCommands) (b : InputBot) (e : BotStep) :
    (next py cfg b e).waiting m + (b.step py cfg e).2.countP (·.audits m) +
        (failed b e).count m =
      b.waiting m + if e.arrives m then 1 else 0 := by
  cases e with
  | message m' now =>
    by_cases hm : m' = m
    · subst hm
      simp [next, step, haccepts, hparse, hprivileged, waiting, failed, BotTask.awaitsAudit,
        BotStep.arrives]
    · have hnone : BotStep.arrives m (.message m' now) = false := decide_eq_false hm
      simp only [next, step, failed, hnone]
      split
      · split
        · simp
        · split
          · simp [waiting, BotTask.awaitsAudit, hm]
          · simp [waiting_relay, audits_relay]
      · simp
  | audited k written now =>
    rcases htask : b.tasks[k]? with - | ⟨m', c', allowed | -⟩
    · simp [next, step, failed, htask, BotStep.arrives]
    · have herase := waiting_eraseIdx htask m
      have hawaits : BotTask.awaitsAudit m ⟨m', c', .audit allowed⟩ = decide (m' = m) := by
        simp [BotTask.awaitsAudit]
      have haudits : BotEffect.audits m (.audit m' c' allowed) = decide (m' = m) := rfl
      rw [hawaits] at herase
      cases written with
      | false =>
        simp only [next, step, failed, htask, BotStep.arrives]
        simpa [List.count_singleton] using herase
      | true =>
        cases allowed with
        | false =>
          simp only [next, step, failed, htask, BotStep.arrives]
          simpa [List.countP_cons, haudits] using herase
        | true =>
          simp only [next, step, failed, htask, BotStep.arrives]
          simpa [List.countP_cons, haudits, waiting_relay, audits_relay] using herase
    · simp [next, step, failed, htask, BotStep.arrives]
  | relayed k =>
    rcases htask : b.tasks[k]? with - | ⟨m', c', allowed | -⟩
    · simp [next, step, failed, htask, BotStep.arrives]
    · simp [next, step, failed, htask, BotStep.arrives]
    · have herase := waiting_eraseIdx htask m
      simp only [next, step, failed, htask, BotStep.arrives]
      simpa [BotTask.awaitsAudit] using herase

theorem run_balance {m : BotMessage} {c : BotCommand} (haccepts : accepts cfg m = true)
    (hparse : parseCommand py m.content cfg.commandPrefix = some c)
    (hprivileged : c.command ∈ cfg.privilegedCommands) (b : InputBot) (es : List BotStep) :
    (Trace.run (next py cfg) b es).waiting m +
        (Trace.observe (next py cfg) (fun b e => (b.step py cfg e).2) b es).countP (·.audits m) +
        (Trace.observe (next py cfg) failed b es).count m =
      b.waiting m + es.countP (·.arrives m) := by
  induction es generalizing b with
  | nil => simp
  | cons e es ih =>
    have hstep := step_balance haccepts hparse hprivileged b e
    have hrest := ih (next py cfg b e)
    simp only [Trace.run_cons, Trace.observe_cons, List.countP_append, List.count_append,
      List.countP_cons]
    omega

/-- What the world can see: records, which say whether the author is privileged, calls for
free commands, and records that allow a call, followed by it. -/
inductive Logged (py : Runtime) (cfg : BotConfig) : List BotEffect → Prop
  | nil : Logged py cfg []
  | record {shown : List BotEffect} {m : BotMessage} {c : BotCommand} (h : Logged py cfg shown)
    (hparse : parseCommand py m.content cfg.commandPrefix = some c) :
    Logged py cfg (shown ++ [.audit m c (m.authorId ∈ cfg.privilegedUserIds)])
  | free {shown : List BotEffect} {m : BotMessage} {c : BotCommand} (now : ℚ)
    (h : Logged py cfg shown) (hparse : parseCommand py m.content cfg.commandPrefix = some c)
    (hfree : c.command ∉ cfg.privilegedCommands) : Logged py cfg (shown ++ [.send m c now])
  | permit {shown : List BotEffect} {m : BotMessage} {c : BotCommand} (now : ℚ)
    (h : Logged py cfg shown) (hparse : parseCommand py m.content cfg.commandPrefix = some c)
    (hprivileged : m.authorId ∈ cfg.privilegedUserIds) :
    Logged py cfg (shown ++ [.audit m c true, .send m c now])

theorem Does.logged {b b' : InputBot} {effects shown : List BotEffect}
    (hdoes : Does py cfg b b' effects) (hknown : ∀ t ∈ b.tasks, Known py cfg t)
    (h : Logged py cfg shown) : Logged py cfg (shown ++ effects) := by
  cases hdoes with
  | nothing => simpa using h
  | ends k => simpa using h
  | waits _ _ _ => simpa using h
  | relays _ hparse hfree _ => exact h.free _ hparse hfree
  | @audits k m c allowed htask =>
    have htask := hknown _ (List.mem_of_getElem? htask)
    have hallowed : allowed = decide (m.authorId ∈ cfg.privilegedUserIds) :=
      htask.judged allowed rfl
    rw [hallowed]
    exact h.record htask.parsed
  | permits htask _ =>
    have htask := hknown _ (List.mem_of_getElem? htask)
    exact h.permit _ htask.parsed (of_decide_eq_true (htask.judged true rfl).symm)

theorem effects_logged (py : Runtime) (cfg : BotConfig) (es : List BotStep) :
    Logged py cfg (effects py cfg es) := by
  have hrun : Orderly py cfg (Trace.run (next py cfg) initial es) (effects py cfg es) ∧
      Logged py cfg (effects py cfg es) :=
    Trace.run_observe_invariant (J := fun b shown => Orderly py cfg b shown ∧ Logged py cfg shown)
      (fun b shown e ⟨horderly, hlogged⟩ =>
        ⟨(step_does b e).orderly horderly, (step_does b e).logged horderly.1 hlogged⟩)
      ⟨orderly_initial, .nil⟩ es
  exact hrun.2

/-- A record names the command, and says whether its author is privileged. -/
theorem Logged.judged {shown : List BotEffect} (h : Logged py cfg shown) {m : BotMessage}
    {c : BotCommand} {allowed : Bool} (hmem : .audit m c allowed ∈ shown) :
    parseCommand py m.content cfg.commandPrefix = some c ∧
      allowed = decide (m.authorId ∈ cfg.privilegedUserIds) := by
  induction h with
  | nil => cases hmem
  | record _ hparse ih =>
    rcases List.mem_append.mp hmem with hmem | hmem
    · exact ih hmem
    · cases List.mem_singleton.mp hmem
      exact ⟨hparse, rfl⟩
  | free now _ _ _ ih =>
    refine ih ((List.mem_append.mp hmem).resolve_right fun hmem => ?_)
    cases List.mem_singleton.mp hmem
  | permit now _ hparse hprivileged ih =>
    rcases List.mem_append.mp hmem with hmem | hmem
    · exact ih hmem
    · rcases List.mem_cons.mp hmem with hmem | hmem
      · cases hmem
        exact ⟨hparse, (decide_eq_true hprivileged).symm⟩
      · cases List.mem_singleton.mp hmem

/-- **A privileged command is recorded before it is relayed.** -/
theorem Logged.before {shown : List BotEffect} (h : Logged py cfg shown) {i : Nat} {m : BotMessage}
    {c : BotCommand} {now : ℚ} (hsend : shown[i]? = some (.send m c now))
    (hprivileged : c.command ∈ cfg.privilegedCommands) :
    ∃ j < i, shown[j]? = some (.audit m c true) := by
  -- what stood before a call still does when the log grows
  have hgrow : ∀ {shown : List BotEffect} (more : List BotEffect),
      (∃ j < i, shown[j]? = some (.audit m c true)) →
        ∃ j < i, (shown ++ more)[j]? = some (.audit m c true) := by
    rintro shown more ⟨j, hj, hrecord⟩
    obtain ⟨hlt, -⟩ := List.getElem?_eq_some_iff.mp hrecord
    exact ⟨j, hj, by rw [List.getElem?_append_left hlt, hrecord]⟩
  induction h with
  | nil => cases hsend
  | record _ _ ih =>
    rw [List.getElem?_append] at hsend
    split at hsend
    · exact hgrow _ (ih hsend)
    · cases List.mem_singleton.mp (List.mem_of_getElem? hsend)
  | free now' _ _ hfree ih =>
    rw [List.getElem?_append] at hsend
    split at hsend
    · exact hgrow _ (ih hsend)
    · cases List.mem_singleton.mp (List.mem_of_getElem? hsend)
      exact absurd hprivileged hfree
  | @permit shown m' c' now' _ _ _ ih =>
    rw [List.getElem?_append] at hsend
    split at hsend
    · exact hgrow _ (ih hsend)
    · match hplace : i - shown.length with
      | 0 =>
        rw [hplace] at hsend
        cases hsend
      | 1 =>
        rw [hplace] at hsend
        cases hsend
        exact ⟨shown.length, by omega, by simp⟩
      | k + 2 =>
        rw [hplace] at hsend
        cases hsend

/-- A privileged command is not relayed more often than it is recorded. -/
theorem Logged.sends_le {shown : List BotEffect} (h : Logged py cfg shown) {m : BotMessage}
    {c : BotCommand} (hparse : parseCommand py m.content cfg.commandPrefix = some c)
    (hprivileged : c.command ∈ cfg.privilegedCommands) :
    shown.countP (·.sends m) ≤ shown.countP (·.audits m) := by
  induction h with
  | nil => exact le_rfl
  | record _ _ ih =>
    rw [List.countP_append, List.countP_append]
    exact Nat.add_le_add ih (Nat.zero_le _)
  | @free shown m' c' now _ hparse' hfree ih =>
    -- the message of the call is another one
    have hother : m' ≠ m := by
      rintro rfl
      cases hparse.symm.trans hparse'
      exact hfree hprivileged
    simpa [List.countP_append, BotEffect.sends, BotEffect.audits, hother] using ih
  | permit now _ _ _ ih =>
    rw [List.countP_append, List.countP_append]
    exact Nat.add_le_add ih le_rfl

end Audit

/-! ## No call without a message -/

section Relayed
variable {py : Runtime} {cfg : BotConfig}

theorem sends_relay (b : InputBot) (m m' : BotMessage) (c : BotCommand) (now : ℚ) :
    (relay cfg b m' c now).2.countP (·.sends m) ≤ if m' = m then 1 else 0 := by
  unfold relay
  split
  · exact Nat.zero_le _
  · simp [List.countP_singleton, BotEffect.sends]

/-- **A call uses up an arrival**: of the message itself, or of one whose record was awaited. -/
theorem step_sends_le (m : BotMessage) (b : InputBot) (e : BotStep) :
    (next py cfg b e).waiting m + (b.step py cfg e).2.countP (·.sends m) ≤
      b.waiting m + if e.arrives m then 1 else 0 := by
  cases e with
  | message m' now =>
    have harrives : BotStep.arrives m (.message m' now) = decide (m' = m) := rfl
    simp only [next, step, harrives, decide_eq_true_eq]
    split
    · split
      · simp
      · split
        · simp [waiting, BotTask.awaitsAudit, List.countP_singleton]
        · rw [waiting_relay]
          exact Nat.add_le_add_left (sends_relay b m m' _ now) _
    · simp
  | audited k written now =>
    rcases htask : b.tasks[k]? with - | ⟨m', c', allowed | -⟩
    · simp [next, step, htask]
    · have herase := waiting_eraseIdx htask m
      have hawaits : BotTask.awaitsAudit m ⟨m', c', .audit allowed⟩ = decide (m' = m) := by
        simp [BotTask.awaitsAudit]
      have hsends : (relay cfg ⟨b.lastByUser, b.tasks.eraseIdx k⟩ m' c' now).2.countP
          (·.sends m) ≤ if m' = m then 1 else 0 := sends_relay ..
      have haudit : BotEffect.sends m (.audit m' c' allowed) = false := rfl
      simp only [hawaits, decide_eq_true_eq] at herase
      simp only [next, step, htask]
      cases written with
      | false =>
        simp only [Bool.false_eq_true, if_false, List.countP_nil]
        omega
      | true =>
        cases allowed with
        | false =>
          simp only [if_true, Bool.false_eq_true, if_false, List.countP_singleton, haudit]
          omega
        | true =>
          simp only [if_true, waiting_relay, List.countP_cons, haudit, Bool.false_eq_true,
            if_false]
          omega
    · simp [next, step, htask]
  | relayed k =>
    rcases htask : b.tasks[k]? with - | ⟨m', c', allowed | -⟩
    · simp [next, step, htask]
    · simp [next, step, htask]
    · have herase := waiting_eraseIdx htask m
      simp only [next, step, htask, List.countP_nil]
      omega

theorem run_sends_le (py : Runtime) (cfg : BotConfig) (m : BotMessage) (b : InputBot)
    (es : List BotStep) :
    (Trace.run (next py cfg) b es).waiting m +
        (Trace.observe (next py cfg) (fun b e => (b.step py cfg e).2) b es).countP (·.sends m) ≤
      b.waiting m + es.countP (·.arrives m) := by
  induction es generalizing b with
  | nil => simp
  | cons e es ih =>
    have hstep : (next py cfg b e).waiting m + _ ≤ _ := step_sends_le m b e
    have hrest := ih (next py cfg b e)
    simp only [Trace.run_cons, Trace.observe_cons, List.countP_append, List.countP_cons]
    omega

/-- **`send_event` is not called more often for a message than it arrives.** -/
theorem effects_sends_le (py : Runtime) (cfg : BotConfig) (es : List BotStep) (m : BotMessage) :
    (effects py cfg es).countP (·.sends m) ≤ es.countP (·.arrives m) :=
  (Nat.le_add_left _ _).trans ((run_sends_le py cfg m initial es).trans (Nat.zero_add _).le)

end Relayed
end InputBot

/-- **Cooldown and audit.**  In every run on a clock that never goes back, any two relays
of one user are at least the cooldown apart, and a privileged command is recorded as
allowed before it is relayed.  Of a message with a privileged command, nothing is relayed
for an author who is not privileged, and each of its tasks, if the log could be written, has
left one record of denial in the end; and where a record failed there is no relay. -/
theorem cooldown_and_audit (py : Runtime) (cfg : BotConfig) (es : List BotStep)
    (hclock : (es.filterMap BotStep.clock).Pairwise (· ≤ ·)) :
    let shown := InputBot.effects py cfg es
    shown.Pairwise (BotEffect.Apart cfg.cooldown) ∧
    (∀ (i : Nat) (m : BotMessage) (c : BotCommand) (now : ℚ),
      shown[i]? = some (.send m c now) → c.command ∈ cfg.privilegedCommands →
        ∃ j < i, shown[j]? = some (.audit m c true)) ∧
    ∀ (m : BotMessage) (c : BotCommand), InputBot.accepts cfg m = true →
      parseCommand py m.content cfg.commandPrefix = some c →
      c.command ∈ cfg.privilegedCommands →
      (m.authorId ∉ cfg.privilegedUserIds →
        (∀ c' now, .send m c' now ∉ shown) ∧
        ((∀ t ∈ (Trace.run (InputBot.next py cfg) .initial es).tasks, t.message ≠ m) →
          m ∉ InputBot.failures py cfg es →
          shown.filter (·.audits m) =
            List.replicate (es.countP (·.arrives m)) (.audit m c false))) ∧
      shown.countP (·.sends m) + (InputBot.failures py cfg es).count m ≤
        es.countP (·.arrives m) := by
  have hlogged := InputBot.effects_logged py cfg es
  refine ⟨InputBot.effects_apart py cfg hclock, fun i m c now hsend hprivileged =>
    hlogged.before hsend hprivileged, fun m c haccepts hparse hprivileged => ?_⟩
  have hbalance : _ + (InputBot.effects py cfg es).countP (·.audits m) +
      (InputBot.failures py cfg es).count m = 0 + es.countP (·.arrives m) :=
    InputBot.run_balance haccepts hparse hprivileged .initial es
  refine ⟨fun hauthor => ⟨fun c' now hsend => ?_, fun hdone hwritten => ?_⟩, ?_⟩
  · obtain ⟨-, hparse', hallowed⟩ := InputBot.effects_authorised py cfg es hsend
    cases hparse.symm.trans hparse'
    exact hauthor (hallowed hprivileged)
  · have hwaiting : (Trace.run (InputBot.next py cfg) .initial es).waiting m = 0 :=
      List.countP_eq_zero.mpr fun t ht => by simp [BotTask.awaitsAudit, hdone t ht]
    rw [hwaiting, List.count_eq_zero.mpr hwritten] at hbalance
    refine List.eq_replicate_iff.mpr ⟨?_, fun x hx => ?_⟩
    · rw [← List.countP_eq_length_filter]
      omega
    · obtain ⟨hshown, haudits⟩ := List.mem_filter.mp hx
      cases x with
      | send m' c' now => cases haudits
      | audit m' c' allowed =>
        obtain rfl : m' = m := of_decide_eq_true haudits
        obtain ⟨hparse', hallowed⟩ := hlogged.judged hshown
        cases hparse.symm.trans hparse'
        rw [hallowed, decide_eq_false hauthor]
  · have hsends := hlogged.sends_le hparse hprivileged
    omega

/-- Two privileged users and another, whose tasks overlap: the second `home` of user 9 is
within the cooldown, and user 5 is refused. -/
theorem cooldown_and_audit_home :
    let cfg : BotConfig := ⟨7, "", 1 / 5, 1 / 2, [], [8, 9], ["home"]⟩
    let home (id author : Int) : BotMessage := ⟨id, author, false, 7, "Home"⟩
    let c : BotCommand := ⟨"home", "home"⟩
    let es : List BotStep := [.message (home 1 9) 100, .message (home 2 9) 100,
      .message (home 3 5) 100, .message (home 4 8) 100, .audited 1 true (401 / 4),
      .audited 1 true (401 / 4), .audited 0 true (201 / 2), .relayed 1, .audited 0 true 101]
    InputBot.effects .ascii cfg es =
        [.audit (home 2 9) c true, .send (home 2 9) c (401 / 4), .audit (home 3 5) c false,
          .audit (home 1 9) c true, .audit (home 4 8) c true, .send (home 4 8) c 101] ∧
      (InputBot.effects .ascii cfg es).Pairwise (BotEffect.Apart (1 / 2)) ∧
      (InputBot.effects .ascii cfg es).filter (·.audits (home 3 5)) =
        [.audit (home 3 5) c false] := by
  intro cfg home c es
  obtain ⟨hapart, -, hmessage⟩ := cooldown_and_audit .ascii cfg es (by decide +kernel)
  obtain ⟨hdenied, -⟩ := hmessage (home 3 5) c (by decide +kernel) (by decide +kernel)
    (by decide +kernel)
  refine ⟨by decide +kernel, hapart, ?_⟩
  exact (hdenied (by decide +kernel)).2 (by decide +kernel) (by decide +kernel)

end XInputSwitch
