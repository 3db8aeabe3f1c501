import Mathlib.Data.List.Induction
import XInputSwitch.Framing

/-! # A byte lost on the line

The bridge repeats the frame of one payload, and one byte of the stream is lost.
From there on every window of nine bytes straddles two frames: it is the frame
turned about a cut.  The check byte is a zero-initialised CRC, and a turned code
word `v ++ u` is a code word exactly when the remainder of `u` is a fixed point of
nine rounds of the CRC (`check_turned`).  There are two, zero and `0xFD`; so a slip
goes unnoticed for instance whenever the first byte of the payload is zero, as it is
whenever no button of the high byte is pressed.

A payload that starts with the start command ends synchronisation instead, and the
firmware may then regain it from a `0xFF 0x33 0xCC` inside the payload.

`lost_byte` says for which payloads and positions the slip is harmless.
-/
namespace XInputSwitch

/-- `n` copies of the bytes `w`. -/
def stream (n : Nat) (w : List Byte) : List Byte := (List.replicate n w).flatten

@[simp] theorem stream_zero (w : List Byte) : stream 0 w = [] := rfl

theorem stream_succ (n : Nat) (w : List Byte) : stream (n + 1) w = w ++ stream n w := rfl

theorem stream_add (m n : Nat) (w : List Byte) : stream (m + n) w = stream m w ++ stream n w := by
  rw [stream, List.replicate_add, List.flatten_append]; rfl

theorem length_stream (n : Nat) (w : List Byte) : (stream n w).length = n * w.length := by
  simp [stream]

/-- **A stream about a cut**: what follows the first part of a word is a stream of
the turned word. -/
theorem append_stream (n : Nat) (u v : List Byte) :
    v ++ stream n (u ++ v) = stream n (v ++ u) ++ v := by
  induction n with
  | zero => simp
  | succ n ih =>
    rw [stream_succ, stream_succ]
    calc v ++ (u ++ v ++ stream n (u ++ v))
        = v ++ u ++ (v ++ stream n (u ++ v)) := by simp
      _ = v ++ u ++ stream n (v ++ u) ++ v := by rw [ih]; simp

/-- One byte lost in a stream: whole words, one word without the byte, whole words. -/
theorem eraseIdx_stream {w : List Byte} {i j : Nat} (hj : j < w.length) (n : Nat) :
    (stream (i + 1 + n) w).eraseIdx (i * w.length + j) =
      stream i w ++ (w.eraseIdx j ++ stream n w) := by
  rw [Nat.add_assoc, stream_add, Nat.add_comm 1 n, stream_succ,
    List.eraseIdx_append_of_length_le (by rw [length_stream]; omega), length_stream,
    Nat.add_sub_cancel_left, List.eraseIdx_append_of_lt_length hj]

/-! ## Turned frames -/

/-- The map of the CRC keeps the two remainders apart from all others. -/
theorem ccitt_fixed (c : Byte) : ccitt.apply c = 0 ∨ ccitt.apply c = 0xFD ↔ c = 0 ∨ c = 0xFD := by
  have h0 : ccitt.apply 0 = 0 := ccitt.map_zero
  have hFD : ccitt.apply 0xFD = 0xFD := by decide +kernel
  constructor
  · rintro (h | h)
    · exact .inl (ccitt_injective (h.trans h0.symm))
    · exact .inr (ccitt_injective (h.trans hFD.symm))
  · rintro (rfl | rfl)
    · exact .inl h0
    · exact .inr hFD

/-- **When a turned frame passes the check.** -/
theorem check_turned {p u v q : List Byte} {b : Byte} (hp : p.length = 8)
    (hcut : p ++ [check p] = u ++ v) (hturn : v ++ u = q ++ [b]) :
    check q = b ↔ check u = 0 ∨ check u = 0xFD := by
  have hcode : ccitt.crc 0 (u ++ v) = 0 := by rw [← hcut]; exact ccitt.crc_self p
  have hlen : u.length + v.length = 9 := by
    rw [← List.length_append, ← hcut, List.length_append, hp]; rfl
  have hswap := ccitt.crc_swap hcode
  rw [hlen, hturn] at hswap
  calc check q = b ↔ ccitt.crc 0#8 (q ++ [b]) = 0#8 :=
        (ccitt.crc_concat_eq_zero_iff ccitt_injective q b).symm
    _ ↔ ccitt.apply^[9] (check u) = check u := by
        rw [hswap]; exact BitVec.xor_eq_zero_iff
    _ ↔ check u = 0 ∨ check u = 0xFD := ccitt_iterate_nine_fixed (check u)

/-- The frame without its first byte, followed by that byte. -/
theorem check_turned_head {p₀ : Byte} {t : List Byte} (ht : t.length = 7) :
    check (t ++ [check (p₀ :: t)]) = p₀ ↔ p₀ = 0 ∨ p₀ = 0xFD := by
  have hcut : (p₀ :: t) ++ [check (p₀ :: t)] = [p₀] ++ (t ++ [check (p₀ :: t)]) := rfl
  rw [check_turned (by simp [ht]) hcut rfl, ← ccitt_fixed p₀]
  have hone : check [p₀] = ccitt.apply p₀ := by
    have hxor : (0 : Byte) ^^^ p₀ = p₀ := BitVec.zero_xor
    rw [check, XorLinear.crc_cons, XorLinear.crc_nil, hxor]
  rw [hone]

namespace Receiver

/-- A stream of a window that fails the check is refused, window after window. -/
theorem accepted_refused {q : List Byte} {b : Byte} (hq : q.length = 8) (hc : check q ≠ b)
    (hb : b ≠ Command.syncStart.code) (n : Nat) {tail : List Byte} (htail : tail.length ≤ 8) :
    Trace.observe next accepted (.synced []) (stream n (q ++ [b]) ++ tail) = [] := by
  induction n with
  | zero => exact (run_collect [] tail (by simpa using htail)).2.2
  | succ n ih =>
    obtain ⟨hr, -, ha⟩ := run_window q b hq
    rw [if_neg hc, if_neg hb] at hr
    rw [if_neg hc] at ha
    rw [stream_succ, List.append_assoc, Trace.observe_append, hr, ha, ih, List.append_nil]

/-- A window that passes the check is accepted, whatever it is a window of. -/
theorem mem_accepted_window {q : List Byte} {b : Byte} (hq : q.length = 8) (hc : check q = b)
    (rest : List Byte) :
    q ∈ Trace.observe next accepted (.synced []) (q ++ [b] ++ rest) := by
  obtain ⟨-, -, ha⟩ := run_window q b hq
  rw [if_pos hc] at ha
  rw [Trace.observe_append, ha]
  simp

/-- Frames before the loss. -/
theorem run_stream_frame {p : List Byte} (hp : p.length = 8) (n : Nat) :
    Trace.run next (.synced []) (stream n (uartWrite p)) = .synced [] ∧
      Trace.observe next accepted (.synced []) (stream n (uartWrite p)) = List.replicate n p := by
  induction n with
  | zero => exact ⟨rfl, rfl⟩
  | succ n ih =>
    obtain ⟨hr, -, ha⟩ := run_frame p hp
    rw [stream_succ, Trace.run_append, Trace.observe_append, hr, ha, ih.1, ih.2]
    exact ⟨rfl, rfl⟩

end Receiver

/-! ### Looking for the handshake -/

/-- The bytes that restore synchronisation. -/
def handshake : List Byte := [cmdSt, cmd1, cmd2]

namespace Receiver

/-- The receiver after the bytes `bs`, from out of sync and without the handshake in
them: only the last two matter. -/
def scanned (bs : List Byte) : Receiver :=
  if [cmdSt, cmd1] <:+ bs then .sync1 else if [cmdSt] <:+ bs then .syncStart else .outOfSync

theorem concat_suffix_concat (us bs : List Byte) (x b : Byte) :
    us ++ [x] <:+ bs ++ [b] ↔ x = b ∧ us <:+ bs := by
  rw [List.suffix_concat_iff]
  constructor
  · rintro (h | ⟨t, ht, hs⟩)
    · simp at h
    · obtain ⟨rfl, hx⟩ := List.append_inj' ht rfl
      exact ⟨List.singleton_inj.mp hx, hs⟩
  · rintro ⟨rfl, hs⟩
    exact .inr ⟨us, rfl, hs⟩

theorem scanned_concat (bs : List Byte) (b : Byte) :
    scanned (bs ++ [b]) =
      if b = cmd1 ∧ [cmdSt] <:+ bs then .sync1 else restart b := by
  have h₂ : [cmdSt, cmd1] <:+ bs ++ [b] ↔ cmd1 = b ∧ [cmdSt] <:+ bs :=
    concat_suffix_concat [cmdSt] bs cmd1 b
  have h₁ : [cmdSt] <:+ bs ++ [b] ↔ cmdSt = b ∧ [] <:+ bs := concat_suffix_concat [] bs cmdSt b
  simp only [scanned, h₂, h₁, List.nil_suffix, and_true, restart, eq_comm (a := b)]
  rfl

/-- A byte that does not complete the handshake. -/
theorem next_scanned (bs : List Byte) (b : Byte) (h : ¬ handshake <:+ bs ++ [b]) :
    (scanned bs).next b = scanned (bs ++ [b]) := by
  rw [scanned_concat]
  have h₃ : ¬ (cmd2 = b ∧ [cmdSt, cmd1] <:+ bs) :=
    fun hb => h ((concat_suffix_concat [cmdSt, cmd1] bs cmd2 b).mpr hb)
  unfold scanned
  by_cases hs₂ : [cmdSt, cmd1] <:+ bs
  · -- the last byte was the first command, so it was not the start command
    have hs₁ : ¬ [cmdSt] <:+ bs := by
      intro hs₁
      obtain ⟨u, rfl⟩ := hs₂
      have := (concat_suffix_concat [] (u ++ [cmdSt]) cmdSt cmd1).mp (by simpa using hs₁)
      exact absurd this.1 (by decide)
    have hb : b ≠ Command.sync2.code := fun hb => h₃ ⟨hb.symm, hs₂⟩
    simp only [if_pos hs₂, next, if_neg hb, hs₁, and_false, if_false]
  · by_cases hs₁ : [cmdSt] <:+ bs
    · simp only [if_neg hs₂, next, hs₁, and_true]
      rfl
    · simp only [if_neg hs₂, next, hs₁, and_false, if_false]

theorem accepted_scanned (bs : List Byte) (b : Byte) : (scanned bs).accepted b = [] := by
  unfold scanned
  split
  · rfl
  · split <;> rfl

/-- **Without the handshake nothing is synchronised.** -/
theorem run_scanned (bs : List Byte) (h : ¬ handshake <:+: bs) :
    Trace.run next .outOfSync bs = scanned bs ∧
      Trace.observe next accepted .outOfSync bs = [] := by
  induction bs using List.reverseRecOn with
  | nil => exact ⟨rfl, rfl⟩
  | append_singleton bs b ih =>
    obtain ⟨hr, ha⟩ := ih (fun hi => h (hi.trans (List.prefix_append bs [b]).isInfix))
    rw [Trace.run_append, Trace.observe_append, hr, ha]
    refine ⟨next_scanned bs b fun hs => h hs.isInfix, ?_⟩
    rw [Trace.observe_cons, accepted_scanned]
    rfl

/-- With it, synchronisation is regained where it first ends. -/
theorem run_handshake (u : List Byte) (h : ¬ handshake <:+: u ++ [cmdSt, cmd1]) :
    Trace.run next .outOfSync (u ++ handshake) = .synced [] ∧
      Trace.observe next accepted .outOfSync (u ++ handshake) = [] := by
  obtain ⟨hr, ha⟩ := run_scanned _ h
  have hsplit : u ++ handshake = u ++ [cmdSt, cmd1] ++ [cmd2] := by simp [handshake]
  have hsync : scanned (u ++ [cmdSt, cmd1]) = .sync1 := if_pos ⟨u, rfl⟩
  rw [hsplit, Trace.run_append, Trace.observe_append, hr, ha, hsync]
  exact ⟨rfl, rfl⟩

end Receiver

/-- An occurrence of the handshake has a first one. -/
theorem exists_first_handshake (bs : List Byte) (h : handshake <:+: bs) :
    ∃ u v, bs = u ++ handshake ++ v ∧ ¬ handshake <:+: u ++ [cmdSt, cmd1] := by
  induction bs using List.reverseRecOn with
  | nil => exact absurd (List.infix_nil.mp h) (by decide)
  | append_singleton bs b ih =>
    by_cases hbs : handshake <:+: bs
    · obtain ⟨u, v, rfl, hu⟩ := ih hbs
      exact ⟨u, v ++ [b], by simp, hu⟩
    · rcases List.infix_concat_iff.mp h with hs | hi
      · obtain ⟨u, hu⟩ := hs
        have hsplit : u ++ [cmdSt, cmd1] ++ [cmd2] = bs ++ [b] := by simpa [handshake] using hu
        obtain ⟨hbs', -⟩ := List.append_inj' hsplit rfl
        exact ⟨u, [], by rw [← hu, List.append_nil], by rw [hbs']; exact hbs⟩
      · exact absurd hi hbs

/-! ## After the loss -/

section Slip
variable {p₀ : Byte} {t : List Byte}

/-- The frame of a payload, its first byte apart. -/
theorem uartWrite_cons (p₀ : Byte) (t : List Byte) :
    uartWrite (p₀ :: t) = [p₀] ++ (t ++ [check (p₀ :: t)]) := by
  rw [uartWrite_eq]; rfl

theorem stream_succ_cons (p₀ : Byte) (t : List Byte) (n : Nat) :
    stream (n + 1) (uartWrite (p₀ :: t)) =
      p₀ :: (t ++ [check (p₀ :: t)] ++ stream n (uartWrite (p₀ :: t))) := by
  rw [stream_succ, uartWrite_eq]; rfl

/-- The slip itself: a frame without one of its bytes, judged by the first byte of
the next. -/
theorem Receiver.run_slip (ht : t.length = 7) {j : Nat} (hj : j < 9) (n : Nat) :
    Trace.observe next accepted (.synced [])
        ((uartWrite (p₀ :: t)).eraseIdx j ++ stream (n + 1) (uartWrite (p₀ :: t))) =
      (if check ((uartWrite (p₀ :: t)).eraseIdx j) = p₀ then
        [(uartWrite (p₀ :: t)).eraseIdx j] else []) ++
      Trace.observe next accepted
        (if check ((uartWrite (p₀ :: t)).eraseIdx j) = p₀ then .synced []
          else if p₀ = Command.syncStart.code then .syncStart else .synced [])
        (t ++ [check (p₀ :: t)] ++ stream n (uartWrite (p₀ :: t))) := by
  have hq : ((uartWrite (p₀ :: t)).eraseIdx j).length = 8 := by
    rw [List.length_eraseIdx_of_lt (by simp [uartWrite, ht]; omega)]
    simp [uartWrite, ht]
  obtain ⟨hr, -, ha⟩ := run_window _ p₀ hq
  rw [stream_succ_cons, List.append_cons, Trace.observe_append, hr, ha]

/-- The rest of a stream after its first byte is a stream of turned frames. -/
theorem tail_stream (n : Nat) :
    t ++ [check (p₀ :: t)] ++ stream n (uartWrite (p₀ :: t)) =
      stream n (t ++ [check (p₀ :: t)] ++ [p₀]) ++ (t ++ [check (p₀ :: t)]) := by
  rw [uartWrite_cons]
  exact append_stream n [p₀] (t ++ [check (p₀ :: t)])

/-- A payload equal to its frame without the first byte is constant. -/
theorem eq_replicate_of_shift (t : List Byte) (p₀ c : Byte) (h : t ++ [c] = p₀ :: t) :
    t = List.replicate t.length p₀ ∧ c = p₀ := by
  induction t generalizing p₀ with
  | nil => exact ⟨rfl, by simpa using h⟩
  | cons b t ih =>
    obtain ⟨rfl, htail⟩ := List.cons.inj h
    obtain ⟨ht, hc⟩ := ih b htail
    exact ⟨by rw [List.length_cons, List.replicate_succ, ← ht], hc⟩

/-- **A start command at the head of the payload ends synchronisation**, at the slip
or one window later; from there on the stream is met out of sync. -/
theorem Receiver.slip_start (hp₀ : p₀ = cmdSt) (ht : t.length = 7) {j : Nat} (hj : j < 9)
    (n : Nat) :
    ∃ k, n + 1 ≤ k ∧
      Trace.observe next accepted (.synced [])
          ((uartWrite (p₀ :: t)).eraseIdx j ++ stream (n + 2) (uartWrite (p₀ :: t))) =
        (if check ((uartWrite (p₀ :: t)).eraseIdx j) = p₀ then
          [(uartWrite (p₀ :: t)).eraseIdx j] else []) ++
        Trace.observe next accepted .outOfSync (stream k (uartWrite (p₀ :: t))) := by
  have hstart : p₀ = Command.syncStart.code := hp₀
  -- out of sync, the first byte of a frame restarts the handshake
  have hout : ∀ m, Trace.observe next accepted .syncStart
      (t ++ [check (p₀ :: t)] ++ stream m (uartWrite (p₀ :: t))) =
      Trace.observe next accepted .outOfSync (stream (m + 1) (uartWrite (p₀ :: t))) := by
    intro m
    simp only [stream_succ_cons, Trace.observe_cons, next, accepted, restart, if_pos hstart,
      List.nil_append]
  rw [run_slip ht hj]
  by_cases hc : check ((uartWrite (p₀ :: t)).eraseIdx j) = p₀
  · simp only [if_pos hc]
    refine ⟨n + 1, le_rfl, ?_⟩
    congr 1
    have hturn : check (t ++ [check (p₀ :: t)]) ≠ p₀ := by
      rw [Ne, check_turned_head ht, hp₀]; decide
    obtain ⟨hr, -, ha⟩ := run_window (t ++ [check (p₀ :: t)]) p₀ (by simp [ht])
    rw [if_neg hturn, if_pos hstart] at hr
    rw [if_neg hturn] at ha
    rw [stream_succ_cons, List.append_cons, Trace.observe_append, hr, ha, List.nil_append, hout,
      stream_succ_cons]
  · simp only [if_neg hc, if_pos hstart]
    exact ⟨n + 2, by omega, by rw [hout]⟩

/-- Met out of sync, a stream without the handshake in its payload is never
accepted.  The zero before the check byte keeps a handshake from spanning two
frames. -/
theorem Receiver.accepted_outOfSync (hp₀ : p₀ = cmdSt) (hlast : (p₀ :: t).getLast? = some 0)
    (hno : ¬ handshake <:+: p₀ :: t) (n : Nat) {r : Receiver}
    (hr : r = .outOfSync ∨ r = .syncStart) :
    Trace.observe next accepted r (stream n (uartWrite (p₀ :: t))) = [] := by
  obtain ⟨u, hu⟩ : ∃ u, p₀ :: t = u ++ [0] := List.getLast?_eq_some_iff.mp hlast
  have hno' : ¬ handshake <:+: uartWrite (p₀ :: t) := by
    rw [uartWrite_eq, List.infix_concat_iff]
    rintro (hs | hi)
    · have h₂ := ((concat_suffix_concat [cmdSt, cmd1] _ cmd2 _).mp hs).2
      rw [hu] at h₂
      exact absurd ((concat_suffix_concat [cmdSt] u cmd1 0).mp h₂).1 (by decide)
    · exact hno hi
  obtain ⟨hrun, hacc⟩ := run_scanned _ hno'
  have hrest : scanned (uartWrite (p₀ :: t)) = .outOfSync ∨
      scanned (uartWrite (p₀ :: t)) = .syncStart := by
    rw [uartWrite_eq, scanned_concat, hu, if_neg, restart]
    · split
      · exact .inr rfl
      · exact .inl rfl
    · rintro ⟨-, hs⟩
      exact absurd ((concat_suffix_concat [] u cmdSt 0).mp hs).1 (by decide)
  induction n generalizing r with
  | zero => rfl
  | succ n ih =>
    -- either way the first byte of the frame is the start command
    have hsame : Trace.observe next accepted r (stream (n + 1) (uartWrite (p₀ :: t))) =
        Trace.observe next accepted .outOfSync (stream (n + 1) (uartWrite (p₀ :: t))) := by
      rcases hr with rfl | rfl
      · rfl
      · have hstart : p₀ = Command.syncStart.code := hp₀
        have h₁ : ¬ p₀ = Command.sync1.code := by rw [hp₀]; decide
        simp only [stream_succ_cons, Trace.observe_cons, next, accepted, restart, if_pos hstart,
          if_neg h₁]
    rw [hsame, stream_succ, Trace.observe_append, hrun, hacc, List.nil_append]
    exact ih hrest

/-- With the handshake in its payload, synchronisation is regained there, and what
follows is a stream of frames turned about that place. -/
theorem Receiver.accepted_resynced {u v : List Byte} (hcut : p₀ :: t = u ++ handshake ++ v)
    (hu : ¬ handshake <:+: u ++ [cmdSt, cmd1]) (n : Nat) :
    Trace.observe next accepted .outOfSync (stream (n + 1) (uartWrite (p₀ :: t))) =
      Trace.observe next accepted (.synced [])
        (stream n (v ++ [check (p₀ :: t)] ++ u ++ [cmdSt, cmd1] ++ [cmd2]) ++
          (v ++ [check (p₀ :: t)])) := by
  have hframe : uartWrite (p₀ :: t) = (u ++ handshake) ++ (v ++ [check (p₀ :: t)]) := by
    rw [uartWrite_eq]
    nth_rewrite 1 [hcut]
    simp only [List.append_assoc]
  obtain ⟨hr, ha⟩ := run_handshake u hu
  rw [stream_succ, hframe, List.append_assoc (u ++ handshake), append_stream, Trace.observe_append,
    hr, ha, List.nil_append]
  simp [handshake]

/-- When the window after such a place passes the check. -/
theorem check_resynced {u v : List Byte} (hlen : (p₀ :: t).length = 8)
    (hcut : p₀ :: t = u ++ handshake ++ v) :
    check (v ++ [check (p₀ :: t)] ++ u ++ [cmdSt, cmd1]) = cmd2 ↔
      check (u ++ handshake) = 0 ∨ check (u ++ handshake) = 0xFD := by
  refine check_turned hlen (v := v ++ [check (p₀ :: t)]) ?_ (by simp [handshake])
  nth_rewrite 1 [hcut]
  simp only [List.append_assoc]

/-- Window and rest in such a stream of turned frames. -/
theorem length_resynced {u v : List Byte} (hlen : (p₀ :: t).length = 8)
    (hcut : p₀ :: t = u ++ handshake ++ v) :
    (v ++ [check (p₀ :: t)] ++ u ++ [cmdSt, cmd1]).length = 8 ∧
      (v ++ [check (p₀ :: t)]).length ≤ 8 := by
  have huv := congrArg List.length hcut
  simp only [hlen, handshake, List.length_append, List.length_cons, List.length_nil] at huv ⊢
  omega

/-! ### The slip is harmless -/

theorem eraseIdx_check (hlen : (p₀ :: t).length = 8) :
    (uartWrite (p₀ :: t)).eraseIdx 8 = p₀ :: t := by
  rw [uartWrite_eq, List.eraseIdx_append_of_length_le (by omega), hlen]
  exact List.append_nil _

/-- If the shortened frame is refused, the first byte is not a fixed remainder, and
synchronisation, where it is lost, is not regained at one, then nothing but the
payload is accepted. -/
theorem Receiver.accepted_slip_harmless (ht : t.length = 7)
    (hlast : (p₀ :: t).getLast? = some 0) {j : Nat} (hj : j < 9)
    (hslip : j = 8 ∨ check ((uartWrite (p₀ :: t)).eraseIdx j) ≠ p₀)
    (hfix : p₀ ≠ 0 ∧ p₀ ≠ 0xFD)
    (hstart : p₀ = cmdSt → ∀ u v, p₀ :: t = u ++ handshake ++ v →
      ¬ handshake <:+: u ++ [cmdSt, cmd1] →
        check (u ++ handshake) ≠ 0 ∧ check (u ++ handshake) ≠ 0xFD) (n : Nat) :
    ∀ q ∈ Trace.observe next accepted (.synced [])
        ((uartWrite (p₀ :: t)).eraseIdx j ++ stream n (uartWrite (p₀ :: t))), q = p₀ :: t := by
  have hlen : (p₀ :: t).length = 8 := by rw [List.length_cons, ht]
  have hfirst : ∀ q ∈ (if check ((uartWrite (p₀ :: t)).eraseIdx j) = p₀ then
      [(uartWrite (p₀ :: t)).eraseIdx j] else []), q = p₀ :: t := by
    intro q hq
    rcases hslip with rfl | hne
    · rw [eraseIdx_check hlen] at hq
      split at hq
      · exact List.mem_singleton.mp hq
      · cases hq
    · rw [if_neg hne] at hq
      cases hq
  -- a longer stream accepts at least as much
  suffices hlong : ∀ q ∈ Trace.observe next accepted (.synced [])
      ((uartWrite (p₀ :: t)).eraseIdx j ++ stream (n + 2) (uartWrite (p₀ :: t))), q = p₀ :: t by
    intro q hq
    apply hlong
    rw [stream_add, ← List.append_assoc, Trace.observe_append]
    exact List.mem_append_left _ hq
  intro q hq
  by_cases hp₀ : p₀ = cmdSt
  · obtain ⟨k, hk, hacc⟩ := slip_start hp₀ ht hj n
    rw [hacc] at hq
    rcases List.mem_append.mp hq with hq | hq
    · exact hfirst q hq
    · by_cases hin : handshake <:+: p₀ :: t
      · obtain ⟨u, v, hcut, hu⟩ := exists_first_handshake _ hin
        have hU := hstart hp₀ u v hcut hu
        obtain ⟨k, rfl⟩ : ∃ k', k = k' + 1 := ⟨k - 1, by omega⟩
        obtain ⟨hwindow, hrest⟩ := length_resynced hlen hcut
        have hne : check (v ++ [check (p₀ :: t)] ++ u ++ [cmdSt, cmd1]) ≠ cmd2 := by
          rw [Ne, check_resynced hlen hcut]
          rintro (h | h)
          · exact hU.1 h
          · exact hU.2 h
        rw [accepted_resynced hcut hu, accepted_refused hwindow hne (by decide) k hrest] at hq
        cases hq
      · rw [accepted_outOfSync hp₀ hlast hin k (.inl rfl)] at hq
        cases hq
  · have hne : p₀ ≠ Command.syncStart.code := hp₀
    have hturn : check (t ++ [check (p₀ :: t)]) ≠ p₀ := by
      rw [Ne, check_turned_head ht]
      rintro (h | h)
      · exact hfix.1 h
      · exact hfix.2 h
    rw [run_slip ht hj] at hq
    simp only [if_neg hne, ite_self] at hq
    rw [tail_stream, accepted_refused (by simp [ht]) hturn hne _ (by simp [ht]),
      List.append_nil] at hq
    exact hfirst q hq

/-! ### The slip does harm -/

/-- A fixed remainder at the head of the payload lets the turned frame pass. -/
theorem Receiver.mem_accepted_head (ht : t.length = 7) {j : Nat} (hj : j < 9)
    (hfix : p₀ = 0 ∨ p₀ = 0xFD) :
    t ++ [check (p₀ :: t)] ∈ Trace.observe next accepted (.synced [])
      ((uartWrite (p₀ :: t)).eraseIdx j ++ stream 2 (uartWrite (p₀ :: t))) := by
  have hne : p₀ ≠ Command.syncStart.code := by rcases hfix with rfl | rfl <;> decide
  rw [run_slip ht hj]
  simp only [if_neg hne, ite_self]
  rw [tail_stream]
  apply List.mem_append_right
  rw [stream_succ, List.append_assoc]
  exact mem_accepted_window (by simp [ht]) ((check_turned_head ht).mpr hfix) _

/-- So does one at the place where synchronisation is regained. -/
theorem Receiver.mem_accepted_resynced (hp₀ : p₀ = cmdSt) (ht : t.length = 7) {j : Nat}
    (hj : j < 9) {u v : List Byte} (hcut : p₀ :: t = u ++ handshake ++ v)
    (hu : ¬ handshake <:+: u ++ [cmdSt, cmd1])
    (hfix : check (u ++ handshake) = 0 ∨ check (u ++ handshake) = 0xFD) :
    v ++ [check (p₀ :: t)] ++ u ++ [cmdSt, cmd1] ∈ Trace.observe next accepted (.synced [])
      ((uartWrite (p₀ :: t)).eraseIdx j ++ stream 3 (uartWrite (p₀ :: t))) := by
  have hlen : (p₀ :: t).length = 8 := by rw [List.length_cons, ht]
  obtain ⟨k, hk, hacc⟩ := slip_start hp₀ ht hj 1
  obtain ⟨k, rfl⟩ : ∃ k', k = k' + 1 + 1 := ⟨k - 2, by omega⟩
  rw [hacc, accepted_resynced hcut hu]
  apply List.mem_append_right
  rw [stream_succ, List.append_assoc _ (stream _ _)]
  exact mem_accepted_window (length_resynced hlen hcut).1
    ((check_resynced hlen hcut).mpr hfix) _

/-- Unless the payload is all zeros, nothing but the payload is accepted only under
the conditions of `accepted_slip_harmless`. -/
theorem Receiver.slip_harmless_of_accepted (ht : t.length = 7)
    (hlast : (p₀ :: t).getLast? = some 0) {j : Nat} (hj : j < 9)
    (hzero : p₀ :: t ≠ List.replicate 8 0)
    (hall : ∀ n, ∀ q ∈ Trace.observe next accepted (.synced [])
      ((uartWrite (p₀ :: t)).eraseIdx j ++ stream n (uartWrite (p₀ :: t))), q = p₀ :: t) :
    (j = 8 ∨ check ((uartWrite (p₀ :: t)).eraseIdx j) ≠ p₀) ∧ (p₀ ≠ 0 ∧ p₀ ≠ 0xFD) ∧
      (p₀ = cmdSt → ∀ u v, p₀ :: t = u ++ handshake ++ v →
        ¬ handshake <:+: u ++ [cmdSt, cmd1] →
          check (u ++ handshake) ≠ 0 ∧ check (u ++ handshake) ≠ 0xFD) := by
  obtain ⟨w, hw⟩ : ∃ w, p₀ :: t = w ++ [0] := List.getLast?_eq_some_iff.mp hlast
  have hlen : (p₀ :: t).length = 8 := by rw [List.length_cons, ht]
  have hfix : ¬ (p₀ = 0 ∨ p₀ = 0xFD) := by
    intro hfix
    obtain ⟨hrep, -⟩ := eq_replicate_of_shift t p₀ _ (hall 2 _ (mem_accepted_head ht hj hfix))
    rw [ht] at hrep
    have hlast' : (p₀ :: t).getLast? = some p₀ := by rw [hrep]; rfl
    have hp₀ : p₀ = 0 := Option.some.inj (hlast'.symm.trans hlast)
    exact hzero (by rw [hrep, hp₀]; rfl)
  refine ⟨?_, not_or.mp hfix, ?_⟩
  · by_contra h
    obtain ⟨hj8, hc⟩ := not_or.mp h
    rw [not_not] at hc
    have hmem : (uartWrite (p₀ :: t)).eraseIdx j ∈ Trace.observe next accepted (.synced [])
        ((uartWrite (p₀ :: t)).eraseIdx j ++ stream 1 (uartWrite (p₀ :: t))) := by
      rw [run_slip ht hj, if_pos hc]
      exact List.mem_append_left _ (List.mem_singleton.mpr rfl)
    have heq := hall 1 _ hmem
    -- the check byte takes the place of the zero, so the first byte would be zero
    have hcheck : check (p₀ :: t) = 0 := by
      have heq' := heq
      rw [uartWrite_eq, List.eraseIdx_append_of_lt_length (by omega), hw] at heq'
      have h₀ := (List.append_singleton_inj.mp heq').2
      rwa [← hw] at h₀
    rw [heq, hcheck] at hc
    exact hfix (.inl hc.symm)
  · intro hp₀ u v hcut hu
    rw [← not_or]
    intro hU
    have heq := hall 3 _ (mem_accepted_resynced hp₀ ht hj hcut hu hU)
    rw [hw, List.append_cons _ cmdSt [cmd1]] at heq
    exact absurd (List.append_singleton_inj.mp heq).2 (by decide)

end Slip

/-! ## The result -/

theorem frames_replicate (n : Nat) (p : List Byte) :
    frames (List.replicate n p) = stream n (uartWrite p) := by
  rw [frames, List.flatMap_def, List.map_replicate, stream]

/-- A stream of zeros has no cut that could be missed. -/
theorem Receiver.accepted_zeros (n pos : Nat) :
    ∀ q ∈ Trace.observe next accepted (.synced [])
      ((stream n (uartWrite (List.replicate 8 0))).eraseIdx pos), q = List.replicate 8 0 := by
  have hframe : uartWrite (List.replicate 8 0) = List.replicate 9 0 := by decide +kernel
  have hzeros : stream n (uartWrite (List.replicate 8 0)) = List.replicate (n * 9) 0 := by
    rw [hframe, stream, List.flatten_replicate_replicate]
  obtain ⟨k, hk, hbs⟩ : ∃ k ≤ n * 9,
      (stream n (uartWrite (List.replicate 8 0))).eraseIdx pos = List.replicate k 0 := by
    rw [hzeros, List.eraseIdx_replicate]
    split
    · exact ⟨n * 9 - 1, by omega, rfl⟩
    · exact ⟨n * 9, le_rfl, rfl⟩
  have hprefix : List.replicate k 0 ++ List.replicate (n * 9 - k) 0 =
      frames (List.replicate n (List.replicate 8 0)) := by
    rw [frames_replicate, hzeros, ← List.replicate_add, Nat.add_sub_cancel' hk]
  obtain ⟨-, -, hacc⟩ := run_frames _ (by simp) _ _ hprefix
  intro q hq
  rw [hbs, hacc] at hq
  exact List.eq_of_mem_replicate (List.mem_of_mem_take hq)

/-- The payloads `p`, and places `j` of the lost byte in its frame, for which
nothing else is ever accepted: the payload is all zeros, or

* the frame without the byte is not taken for a payload that the first byte of the
  next frame confirms (without its check byte it is the payload itself);
* the first byte is neither zero nor `0xFD`;
* if it is the start command, then the payload up to its first handshake, if it has
  one, does not have one of these two values as its check byte. -/
def SlipHarmless (p : Vector Byte 8) (j : Nat) : Prop :=
  p = Vector.replicate 8 0 ∨
    ((j = 8 ∨ check ((uartWrite p.toList).eraseIdx j) ≠ p.get 0) ∧
      (p.get 0 ≠ 0 ∧ p.get 0 ≠ 0xFD) ∧
      (p.get 0 = cmdSt → ∀ u v, p.toList = u ++ handshake ++ v →
        ¬ handshake <:+: u ++ [cmdSt, cmd1] →
          check (u ++ handshake) ≠ 0 ∧ check (u ++ handshake) ≠ 0xFD))

/-- The receiver on a stream with one byte lost. -/
theorem Receiver.accepted_lost {p : Vector Byte 8} (hlast : p.get 7 = 0) (pos : Nat) :
    (∀ n, ∀ q ∈ Trace.observe next accepted (.synced [])
      ((stream n (uartWrite p.toList)).eraseIdx pos), q = p.toList) ↔
      SlipHarmless p (pos % 9) := by
  obtain ⟨t, ht⟩ : ∃ t, p.toList = p.get 0 :: t := by
    obtain ⟨⟨l⟩, hl⟩ := p
    cases l with
    | nil => simp at hl
    | cons a t => exact ⟨t, rfl⟩
  have htlen : t.length = 7 := by
    have := p.length_toList
    rw [ht, List.length_cons] at this
    omega
  have hlast' : (p.get 0 :: t).getLast? = some 0 := by
    rw [← ht, List.getLast?_eq_getElem?, Vector.length_toList]
    have h₇ : p[7] = 0 := hlast
    simp [h₇]
  have hzero : p = Vector.replicate 8 0 ↔ p.get 0 :: t = List.replicate 8 0 := by
    rw [← ht, ← Vector.toList_inj, Vector.toList_replicate]
  have hj : pos % 9 < 9 := Nat.mod_lt pos (by omega)
  have hframe : (uartWrite (p.get 0 :: t)).length = 9 := by simp [uartWrite, htlen]
  have hplen : (p.get 0 :: t).length = 8 := by rw [List.length_cons, htlen]
  -- the loss is in frame `pos / 9`
  have hsplit : ∀ n, (stream (pos / 9 + 1 + n) (uartWrite (p.get 0 :: t))).eraseIdx pos =
      stream (pos / 9) (uartWrite (p.get 0 :: t)) ++
        ((uartWrite (p.get 0 :: t)).eraseIdx (pos % 9) ++ stream n (uartWrite (p.get 0 :: t))) := by
    intro n
    have h := eraseIdx_stream (w := uartWrite (p.get 0 :: t)) (i := pos / 9) (j := pos % 9)
      (by omega) n
    rwa [hframe, Nat.div_add_mod'] at h
  obtain ⟨hrun, hacc⟩ := run_stream_frame hplen (pos / 9)
  rw [SlipHarmless, hzero, ht]
  constructor
  · intro hall
    by_cases hz : p.get 0 :: t = List.replicate 8 0
    · exact .inl hz
    · refine .inr (slip_harmless_of_accepted htlen hlast' hj hz fun n q hq => ?_)
      apply hall (pos / 9 + 1 + n)
      rw [hsplit, Trace.observe_append, hrun]
      exact List.mem_append_right _ hq
  · rintro (hz | ⟨hslip, hfix, hstart⟩) n q hq
    · rw [hz] at hq ⊢
      exact accepted_zeros n pos q hq
    · by_cases hn : n ≤ pos / 9
      · rw [List.eraseIdx_of_length_le (by rw [length_stream, hframe]; omega),
          (run_stream_frame hplen n).2] at hq
        exact List.eq_of_mem_replicate hq
      · obtain ⟨m, rfl⟩ : ∃ m, n = pos / 9 + 1 + m := ⟨n - (pos / 9 + 1), by omega⟩
        rw [hsplit, Trace.observe_append, hrun, hacc] at hq
        rcases List.mem_append.mp hq with hq | hq
        · exact List.eq_of_mem_replicate hq
        · exact accepted_slip_harmless htlen hlast' hj hslip hfix hstart m q hq

/-- **A byte lost on the line.**  The bridge repeats the frame of a packet to an
aligned firmware, and the byte at `pos` does not arrive.  Whatever the number of
frames, and with sends to the console anywhere in between, the firmware accepts
nothing but the packet exactly if the slip is harmless. -/
theorem lost_byte {s : Joystick} (hs : s.Aligned) (pk : Packet) (pos : Nat) :
    (∀ n es, es.flatMap SerialEvent.byte = (stream n (uartWrite pk.pack.toList)).eraseIdx pos →
      ∀ q ∈ Trace.observe Joystick.next Joystick.acceptedBy s es, q = pk.pack) ↔
      SlipHarmless pk.pack (pos % 9) := by
  rw [← Receiver.accepted_lost pk.pack_last pos]
  constructor
  · intro hall n q hq
    have hacc := Joystick.receive_accepted hs.wellFormed
      ((stream n (uartWrite pk.pack.toList)).eraseIdx pos)
    rw [hs.receiver_eq] at hacc
    rw [← hacc] at hq
    obtain ⟨v, hv, rfl⟩ := List.mem_map.mp hq
    rw [hall n _ (flatMap_byte_receive _) v hv]
  · intro hall n es hes q hq
    have hacc := Joystick.run_accepted hs.wellFormed es
    rw [hs.receiver_eq, hes] at hacc
    apply Vector.toList_inj.mp
    apply hall n
    rw [← hacc]
    exact List.mem_map_of_mem hq

/-- The neutral packet, first byte lost: what the firmware accepts has the hat where
the buttons were, and the sticks one place off. -/
theorem lost_byte_neutral :
    let s := Trace.run Joystick.next .boot (receive [cmdSt, cmd1, cmd2])
    s.state = .synced ∧ s.serialInput.receivedBytes = 0 ∧ s.serialInput.crc8Ccitt = 0 ∧
      Trace.observe Joystick.next Joystick.acceptedBy s
          (receive ((stream 2 (uartWrite Packet.neutral.pack.toList)).eraseIdx 0)) =
        [#v[0x00, 0x08, 0x80, 0x80, 0x80, 0x80, 0x00, 0x54]] ∧
      Packet.neutral.pack = #v[0x00, 0x00, 0x08, 0x80, 0x80, 0x80, 0x80, 0x00] := by
  decide +kernel

/-- Pressing a button of the high byte makes the same loss harmless. -/
theorem lost_byte_pressed :
    SlipHarmless (Packet.pack ⟨1 <<< 8, 8, 0, 0, 0, 0⟩) (0 % 9) ∧
      ¬ SlipHarmless Packet.neutral.pack (0 % 9) := by
  have hs : (Trace.run Joystick.next .boot (receive [cmdSt, cmd1, cmd2])).Aligned :=
    ⟨by decide +kernel, by decide +kernel, by decide +kernel⟩
  have hacc : #v[0x00, 0x08, 0x80, 0x80, 0x80, 0x80, 0x00, 0x54] ∈
      Trace.observe Joystick.next Joystick.acceptedBy
        (Trace.run Joystick.next .boot (receive [cmdSt, cmd1, cmd2]))
        (receive ((stream 2 (uartWrite Packet.neutral.pack.toList)).eraseIdx 0)) := by
    decide +kernel
  have hne : #v[0x00, 0x08, 0x80, 0x80, 0x80, 0x80, 0x00, 0x54] ≠ Packet.neutral.pack := by
    decide +kernel
  refine ⟨.inr ⟨.inr (by decide +kernel), by decide +kernel, fun h => absurd h (by decide +kernel)⟩,
    fun h => hne ?_⟩
  exact (lost_byte hs Packet.neutral 0).mpr h 2 _ (flatMap_byte_receive _) _ hacc

end XInputSwitch
