import Mathlib.Logic.Function.Iterate
import XInputSwitch.Trace

/-! # A mailbox with room for one packet

A device is asked by one party and polled by another.  A request that deserves an
answer prepares a packet, unless one is already waiting; a poll takes the waiting
packet, or one made up on the spot.  Preparing a packet may advance a counter.

`sent_after_poll`: between two polls only the first answerable request counts.
`stamps_run`: if every packet is either unstamped and leaves the counter alone,
or carries the value of the counter it advanced, then the stamps of the packets
sent are consecutive whatever the order of requests and polls.
-/

/-- What the packets are: which requests are answered, with what packet and new
counter (`reply`), and what a poll finds when nothing waits (`idle`). -/
structure Mailbox (κ ρ ι π : Type*) where
  answerable : ρ → Bool
  reply : κ → ρ → κ × π
  idle : κ → ι → κ × π

namespace Mailbox

/-- The counter, and the packet waiting to be taken. -/
structure State (κ π : Type*) where
  counter : κ
  pending : Option π

inductive Event (ρ ι : Type*) where
  | request (r : ρ)
  | poll (i : ι)

variable {κ ρ ι π : Type*} (B : Mailbox κ ρ ι π)

def next (s : State κ π) : Event ρ ι → State κ π
  | .request r =>
    match s.pending with
    | some _ => s
    | none => if B.answerable r then ⟨(B.reply s.counter r).1, some (B.reply s.counter r).2⟩ else s
  | .poll i =>
    match s.pending with
    | some _ => ⟨s.counter, none⟩
    | none => ⟨(B.idle s.counter i).1, none⟩

/-- The packet a poll takes. -/
def sent (s : State κ π) : Event ρ ι → List π
  | .request _ => []
  | .poll i => [s.pending.getD (B.idle s.counter i).2]

theorem next_poll_pending (s : State κ π) (i : ι) : (B.next s (.poll i)).pending = none := by
  unfold next
  cases s.pending <;> rfl

/-- **A waiting packet stays**: requests do not touch it, nor the counter. -/
theorem run_requests_pending {s : State κ π} {p : π} (h : s.pending = some p) (rs : List ρ) :
    Trace.run B.next s (rs.map .request) = s := by
  induction rs with
  | nil => rfl
  | cons r rs ih =>
    have hstep : B.next s (.request r) = s := by simp only [next, h]
    rw [List.map_cons, Trace.run_cons, hstep, ih]

/-- With nothing waiting, requests leave the reply to the first answerable one. -/
theorem run_requests {s : State κ π} (h : s.pending = none) (rs : List ρ) :
    Trace.run B.next s (rs.map .request) =
      match rs.find? B.answerable with
      | some r => ⟨(B.reply s.counter r).1, some (B.reply s.counter r).2⟩
      | none => s := by
  induction rs with
  | nil => rfl
  | cons r rs ih =>
    rw [List.map_cons, Trace.run_cons, List.find?_cons]
    by_cases ha : B.answerable r = true
    · have hstep : B.next s (.request r) =
          ⟨(B.reply s.counter r).1, some (B.reply s.counter r).2⟩ := by
        simp only [next, h, ha, if_true]
      rw [hstep, B.run_requests_pending rfl, ha]
    · have hstep : B.next s (.request r) = s := by simp only [next, h, ha]; rfl
      rw [hstep, ih, Bool.eq_false_iff.mpr ha]

/-- **What is sent between two polls** depends on the first answerable request
only, and on the idle packet if there was none. -/
theorem sent_after_poll (s : State κ π) (i j : ι) (rs : List ρ) :
    B.sent (Trace.run B.next s (.poll i :: rs.map .request)) (.poll j) =
      match rs.find? B.answerable with
      | some r => [(B.reply (B.next s (.poll i)).counter r).2]
      | none => [(B.idle (B.next s (.poll i)).counter j).2] := by
  have hp := B.next_poll_pending s i
  rw [Trace.run_cons, B.run_requests hp]
  cases rs.find? B.answerable with
  | none => simp only [sent, hp, Option.getD_none]
  | some r => rfl

/-! ## Stamped packets -/

/-- Packets and counter keep step: preparing a packet either leaves it unstamped
and the counter as it was, or advances the counter and stamps its new value. -/
structure Stamped {ν : Type*} (stamp : π → Option ν) (succ : κ → κ) (value : κ → ν) : Prop where
  reply : ∀ k r, B.answerable r →
    (stamp (B.reply k r).2 = none ∧ (B.reply k r).1 = k) ∨
      (stamp (B.reply k r).2 = some (value (succ k)) ∧ (B.reply k r).1 = succ k)
  idle : ∀ k i,
    (stamp (B.idle k i).2 = none ∧ (B.idle k i).1 = k) ∨
      (stamp (B.idle k i).2 = some (value (succ k)) ∧ (B.idle k i).1 = succ k)

/-- The stamps still owed by a state: that of the waiting packet. -/
def owed {ν : Type*} (stamp : π → Option ν) (s : State κ π) : List ν :=
  (s.pending.bind stamp).toList

section Stamps
variable {ν : Type*} {stamp : π → Option ν} {succ : κ → κ} {value : κ → ν}

/-- The stamps from counter `k` on. -/
def stampsFrom (succ : κ → κ) (value : κ → ν) (k : κ) (n : Nat) : List ν :=
  (List.range n).map fun i => value (succ^[i + 1] k)

theorem stampsFrom_succ (k : κ) (n : Nat) :
    stampsFrom succ value k (n + 1) =
      stampsFrom succ value k n ++ [value (succ^[n + 1] k)] := by
  simp [stampsFrom, List.range_succ]

/-- The stamps sent so far and the one owed are the first `n`, and the counter has
been advanced `n` times. -/
def InStep (stamp : π → Option ν) (succ : κ → κ) (value : κ → ν) (k : κ) (out : List π)
    (s : State κ π) : Prop :=
  ∃ n, out.filterMap stamp ++ owed stamp s = stampsFrom succ value k n ∧ s.counter = succ^[n] k

theorem InStep.advance {k : κ} {out : List π} {s : State κ π} {n : Nat} {p : π} {k' : κ}
    (hout : out.filterMap stamp = stampsFrom succ value k n) (hk : s.counter = succ^[n] k)
    (hp : (stamp p = none ∧ k' = s.counter) ∨
      (stamp p = some (value (succ s.counter)) ∧ k' = succ s.counter)) :
    ∃ m, out.filterMap stamp ++ (stamp p).toList = stampsFrom succ value k m ∧ k' = succ^[m] k := by
  rcases hp with ⟨hst, rfl⟩ | ⟨hst, rfl⟩
  · exact ⟨n, by rw [hst, hout]; simp, hk⟩
  · refine ⟨n + 1, ?_, ?_⟩
    · rw [hst, hout, stampsFrom_succ, hk, Function.iterate_succ_apply']; rfl
    · rw [hk, Function.iterate_succ_apply']

theorem inStep_next (hB : B.Stamped stamp succ value) {k : κ} {out : List π} {s : State κ π}
    (h : InStep stamp succ value k out s) (e : Event ρ ι) :
    InStep stamp succ value k (out ++ B.sent s e) (B.next s e) := by
  obtain ⟨n, hn, hk⟩ := h
  obtain ⟨c, pending⟩ := s
  cases pending with
  | some p =>
    have hn' : out.filterMap stamp ++ (stamp p).toList = stampsFrom succ value k n := hn
    cases e with
    | request r => exact ⟨n, by simpa [sent, next] using hn, hk⟩
    | poll i =>
      refine ⟨n, ?_, hk⟩
      rw [← hn']
      cases hst : stamp p <;> simp [sent, next, owed, hst]
  | none =>
    have hn' : out.filterMap stamp = stampsFrom succ value k n := by simpa [owed] using hn
    cases e with
    | request r =>
      by_cases ha : B.answerable r = true
      · obtain ⟨m, hm, hk'⟩ := InStep.advance hn' hk (hB.reply c r ha)
        refine ⟨m, ?_, ?_⟩
        · simpa [sent, next, ha, owed] using hm
        · simpa [next, ha] using hk'
      · exact ⟨n, by simpa [sent, next, ha] using hn, by simpa [next, ha] using hk⟩
    | poll i =>
      obtain ⟨m, hm, hk'⟩ := InStep.advance hn' hk (hB.idle c i)
      refine ⟨m, ?_, hk'⟩
      rw [← hm]
      cases hst : stamp (B.idle c i).2 <;> simp [sent, next, owed, hst]

theorem inStep_run (hB : B.Stamped stamp succ value) {k : κ} (es : List (Event ρ ι)) :
    ∀ {out : List π} {s : State κ π}, InStep stamp succ value k out s →
      InStep stamp succ value k (out ++ Trace.observe B.next B.sent s es)
        (Trace.run B.next s es) := by
  induction es with
  | nil => intro out s h; simpa using h
  | cons e es ih =>
    intro out s h
    have := ih (B.inStep_next hB h e)
    rwa [List.append_assoc] at this

/-- **Stamps are consecutive**: from a state that owes no stamp, the stamps of the
packets sent are the first values of the counter, none skipped, repeated or out of
order. -/
theorem stamps_run (hB : B.Stamped stamp succ value) {s : State κ π} (hs : owed stamp s = [])
    (es : List (Event ρ ι)) :
    ∃ n, (Trace.observe B.next B.sent s es).filterMap stamp =
      stampsFrom succ value s.counter n := by
  have h₀ : InStep stamp succ value s.counter [] s := ⟨0, by simpa [stampsFrom] using hs, rfl⟩
  obtain ⟨n, hn, -⟩ := B.inStep_run hB es h₀
  rw [List.nil_append] at hn
  cases ho : owed stamp (Trace.run B.next s es) with
  | nil => exact ⟨n, by simpa [ho] using hn⟩
  | cons v vs =>
    -- at most one stamp is owed, and it is the last of the `n`
    have hvs : vs = [] := by
      unfold owed at ho
      cases hb : (Trace.run B.next s es).pending.bind stamp <;> rw [hb] at ho <;> simp_all
    subst hvs
    rw [ho] at hn
    cases n with
    | zero => simp [stampsFrom] at hn
    | succ n =>
      rw [stampsFrom_succ] at hn
      exact ⟨n, (List.append_inj' hn rfl).1⟩

end Stamps

end Mailbox
