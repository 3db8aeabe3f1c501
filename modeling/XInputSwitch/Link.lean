import XInputSwitch.Trace

/-! # A server behind two channels

A client writes words to a server and reads its replies, over two lossless
first-in first-out channels; the server answers each word by a list of replies,
whenever it gets to it.  How far it lags behind does not matter to two things: the
state it will be in once it has consumed all that was written (`drained`), and the
replies the client may still read (`owed`).  Both are unchanged when the server
consumes a word (`drained_serve`, `owed_serve`), so what a client can rely on is an
invariant about them.
-/

/-- The words under way to the server, the server, and the replies under way back. -/
structure Link (σ β γ : Type*) where
  inbox : List β
  server : σ
  outbox : List γ

namespace Link

variable {σ β γ : Type*} (next : σ → β → σ) (reply : σ → β → List γ)

/-- The server once it has consumed everything written so far. -/
def drained (l : Link σ β γ) : σ := Trace.run next l.server l.inbox

/-- The replies not yet read: those under way, and those still to be made to the
words under way. -/
def owed (l : Link σ β γ) : List γ := l.outbox ++ Trace.observe next reply l.server l.inbox

/-- The server consumes the next word, if there is one. -/
def serve (l : Link σ β γ) : Link σ β γ :=
  match l.inbox with
  | [] => l
  | b :: rest => ⟨rest, next l.server b, l.outbox ++ reply l.server b⟩

/-- The client writes the words `bs`. -/
def write (l : Link σ β γ) (bs : List β) : Link σ β γ := { l with inbox := l.inbox ++ bs }

/-- The client takes, or drops, the first `n` replies that have arrived. -/
def discard (l : Link σ β γ) (n : Nat) : Link σ β γ := { l with outbox := l.outbox.drop n }

variable {next reply}

@[simp] theorem drained_serve (l : Link σ β γ) :
    drained next (serve next reply l) = drained next l := by
  obtain ⟨inbox, server, outbox⟩ := l
  cases inbox <;> rfl

@[simp] theorem owed_serve (l : Link σ β γ) :
    owed next reply (serve next reply l) = owed next reply l := by
  obtain ⟨inbox, server, outbox⟩ := l
  cases inbox with
  | nil => rfl
  | cons b rest => simp [owed, serve]

theorem drained_write (l : Link σ β γ) (bs : List β) :
    drained next (l.write bs) = Trace.run next (drained next l) bs :=
  Trace.run_append next l.server l.inbox bs

theorem owed_write (l : Link σ β γ) (bs : List β) :
    owed next reply (l.write bs) =
      owed next reply l ++ Trace.observe next reply (drained next l) bs := by
  rw [owed, write, Trace.observe_append, ← List.append_assoc]
  rfl

theorem mem_owed_of_discard {l : Link σ β γ} {n : Nat} {c : γ}
    (h : c ∈ owed next reply (l.discard n)) : c ∈ owed next reply l := by
  rcases List.mem_append.mp h with h | h
  · exact List.mem_append_left _ (List.mem_of_mem_drop h)
  · exact List.mem_append_right _ h

end Link
