/-
  File:      Rtx/User/Timekeeping.lean
  Subject:   The wall clock keeps time.

  A `Period` is one turn of the loop of `task_wall_clock`: what `recv_msg_nb` returns and leaves in
  the buffer, and how the other calls are answered. In every run of periods the clock is in range,
  and while it is visible it shows the time last set and a second for every period since; what
  it shows is sent to the console, in two digits each (`keeps_time`).
-/
import Rtx.Lib.Runs
import Rtx.User.WallClock

namespace Rtx

open Lib Proc

variable {s s' : WallClock} {buf : Buf} {A : Exchange Answer → Prop}

/-- A turn of the loop. -/
structure Period where
  ret : Int
  buf : Buf
  env : Env Answer

namespace Period

variable (e : Period)

/-- A command from the KCD was received. -/
def isCommand : Bool := e.ret = rtxOk && e.buf.type = kcdCmd

/-- The clock that a reset or an accepted set command leaves. -/
def timeSet : Option WallClock :=
  if e.isCommand && e.buf (msgHdrSize + 1) = char 'R' then some (.setTo 0 0 0)
  else if e.isCommand && e.buf (msgHdrSize + 1) = char 'S' && !e.buf.setRefused then
    let userInput := e.buf.userInput
    some (.setTo (charToInt (userInput 1) * 10 + charToInt (userInput 2))
      (charToInt (userInput 4) * 10 + charToInt (userInput 5))
      (charToInt (userInput 7) * 10 + charToInt (userInput 8)))
  else none

/-- The command that removes the clock. -/
def removes : Bool := e.isCommand && e.buf (msgHdrSize + 1) = char 'T'

/-- The clock after the message of the period. -/
def after (s : WallClock) : WallClock :=
  e.timeSet.getD (if e.removes then { s with clockVisible := false, clockJustSet := false } else s)

end Period

/-- HH:MM:SS for a second of the day. -/
def timeText (v : Nat) : List UInt8 := clockText (v / 3600) (v / 60 % 60) (v % 60)

/-- A time in the corner of the console. -/
def timeMessage (v : Int) : Nat × Buf :=
  (tidCon, cornerMessage (timeText v.toNat ++ chars "\r\n"))

/-- An empty corner. -/
def blankMessage : Nat × Buf :=
  (tidCon, cornerMessage (List.replicate 8 (char ' ') ++ chars "\r\n"))

namespace WallClock

/-- The clock after the second that passes while it is visible. -/
def ticked (s : WallClock) : WallClock := if s.clockVisible then s.tick else s

/-- The step of a period, or nothing when there is no memory for a message. -/
def step (s : WallClock) (e : Period) : Option WallClock :=
  (play e.env (s.period e.ret e.buf) []).2.toOption

/-- The messages of a period. -/
def sent (s : WallClock) (e : Period) : List (Nat × Buf) :=
  sends (play e.env (s.period e.ret e.buf) []).1

/-! ## 1. One period -/

theorem value_ticked (h : s.InRange) : s.ticked.InRange ∧
    s.ticked.clockVisible = s.clockVisible ∧
    s.ticked.value = if s.clockVisible then (s.value + 1) % 86400 else s.value := by
  unfold ticked
  split
  next hv => exact ⟨h.tick_value.1, tick_clockVisible s, h.tick_value.2⟩
  next => exact ⟨h, rfl, rfl⟩

/-- The string that shows a clock in range. -/
theorem InRange.clockString (h : s.InRange) :
    updateClockString s.hours s.minutes s.seconds = timeText s.value.toNat ++ chars "\r\n" := by
  obtain ⟨hh, mm, ss, ht, h1, h2, h3⟩ := h.isTime
  have hv : s.value.toNat = hh * 3600 + mm * 60 + ss := by
    unfold value
    omega
  obtain ⟨t1, t2, t3⟩ := ht
  rw [h1, h2, h3, updateClockString_eq ⟨t1, t2, t3⟩, hv, timeText]
  congr 2
  all_goals omega

/-- A clock that was set shows a time of the day. -/
theorem timeSet_spec {e : Period} {w : WallClock} (h : e.timeSet = some w) :
    w.InRange ∧ w.clockVisible = true := by
  unfold Period.timeSet at h
  split at h
  · obtain rfl := Option.some.inj h
    exact ⟨⟨by decide, by decide, by decide⟩, rfl⟩
  split at h
  next hc =>
    have hr : e.buf.setRefused = false := by
      simp only [Bool.and_eq_true, Bool.not_eq_true'] at hc
      exact hc.2
    obtain ⟨⟨hh, mm, ss, hi⟩, -⟩ := setRefused_eq_false.mp hr
    obtain ⟨h1, h2, h3⟩ := hi.charToInt
    obtain rfl := Option.some.inj h
    simp only [h1, h2, h3]
    exact ⟨inRange_setTo hi.1, rfl⟩
  · cases h

/-- The messages a period should send. -/
def shows (s : WallClock) (e : Period) : List (Nat × Buf) :=
  (if s.clockVisible then [timeMessage ((s.value + 1) % 86400)] else []) ++
    (e.timeSet.toList.map fun w => timeMessage w.value) ++
    if e.removes then [blankMessage] else []

end WallClock

/-- A display, with a block for its message or without. -/
theorem sat_showCorner (text : List UInt8) : Sat A (showCorner text) (fun tr _ => sends tr = [])
    fun tr _ => sends tr = [(tidCon, cornerMessage text)] := by
  unfold showCorner
  intro a _
  cases a with
  | none => rfl
  | some a => exact fun _ _ _ _ => rfl

theorem sat_updateClockDisplay (h : s.InRange) :
    Sat A (updateClockDisplay s.hours s.minutes s.seconds) (fun tr _ => sends tr = [])
      fun tr _ => sends tr = [timeMessage s.value] := by
  unfold updateClockDisplay
  rw [h.clockString]
  exact sat_showCorner _

namespace WallClock

/-- Show a clock, and go on with it. -/
theorem sat_showClock {w : WallClock} (h : w.InRange) :
    Sat A (updateClockDisplay w.hours w.minutes w.seconds >>= fun _ => pure w)
      (fun tr _ => sends tr = []) fun tr s' => s' = w ∧ sends tr = [timeMessage w.value] :=
  (sat_updateClockDisplay h).bind fun tr _ htr => ⟨rfl, by rw [List.append_nil, htr]⟩

/-- The message of the period has done its part: what it leaves of the clock, and what is shown for
    it. -/
def Answers (s : WallClock) (e : Period) (tr : List (Exchange Answer)) (s' : WallClock) : Prop :=
  s' = e.after s ∧ sends tr = (e.timeSet.toList.map fun w => timeMessage w.value) ++
    if e.removes then [blankMessage] else []

section Command

variable {e : Period}

/-- Nothing is set, and nothing removed. -/
theorem sat_nothing (hset : e.timeSet = none) (hrem : e.removes = false) :
    Sat A (pure s : UserM WallClock) (fun tr _ => sends tr = []) (s.Answers e) := by
  unfold Answers
  rw [Period.after, hset, hrem]
  exact ⟨rfl, rfl⟩

theorem sat_set {w : WallClock} (hset : e.timeSet = some w) (hrem : e.removes = false) :
    Sat A (updateClockDisplay w.hours w.minutes w.seconds >>= fun _ => pure w)
      (fun tr _ => sends tr = []) (s.Answers e) := by
  unfold Answers
  rw [Period.after, hset, hrem]
  exact sat_showClock (timeSet_spec hset).1

theorem sat_remove (hset : e.timeSet = none) (hrem : e.removes = true) :
    Sat A (showCorner (List.replicate 8 (char ' ') ++ chars "\r\n") >>=
        fun _ => pure { s with clockVisible := false, clockJustSet := false })
      (fun tr _ => sends tr = []) (s.Answers e) := by
  unfold Answers
  rw [Period.after, hset, hrem]
  exact (sat_showCorner _).bind fun tr _ htr => ⟨rfl, by rw [List.append_nil, htr]; rfl⟩

/-- **The message of a period**, by its second character. -/
theorem sat_command (hret : e.ret = rtxOk) :
    Sat A (s.command e.buf) (fun tr _ => sends tr = []) (s.Answers e) := by
  have hSR : char 'S' ≠ char 'R' := by decide
  have hTR : char 'T' ≠ char 'R' := by decide
  have hTS : char 'T' ≠ char 'S' := by decide
  by_cases ht : e.buf.type = kcdCmd
  · have hc : e.isCommand = true := by simp [Period.isCommand, hret, ht]
    by_cases hR : e.buf (msgHdrSize + 1) = char 'R'
    · set w := setTo 0 0 0 with hw
      have hcmd : s.command e.buf =
          (updateClockDisplay w.hours w.minutes w.seconds >>= fun _ => pure w) := by
        simp [command, ht, hR, hw, setTo]
      have hset : e.timeSet = some w := by simp [Period.timeSet, hc, hR, hw]
      rw [hcmd]
      exact sat_set hset (by simp [Period.removes, hR, hTR.symm])
    by_cases hS : e.buf (msgHdrSize + 1) = char 'S'
    · have hrem : e.removes = false := by simp [Period.removes, hS, hTS.symm]
      cases hr : e.buf.setRefused with
      | true =>
          have hcmd : s.command e.buf = pure s := by simp [command, ht, hS, hSR, hr]
          rw [hcmd]
          exact sat_nothing (by simp [Period.timeSet, hS, hSR, hr]) hrem
      | false =>
          set w := setTo (charToInt (e.buf.userInput 1) * 10 + charToInt (e.buf.userInput 2))
            (charToInt (e.buf.userInput 4) * 10 + charToInt (e.buf.userInput 5))
            (charToInt (e.buf.userInput 7) * 10 + charToInt (e.buf.userInput 8)) with hw
          have hcmd : s.command e.buf =
              (updateClockDisplay w.hours w.minutes w.seconds >>= fun _ => pure w) := by
            simp [command, ht, hS, hSR, hr, hw, setTo]
          have hset : e.timeSet = some w := by simp [Period.timeSet, hc, hS, hSR, hr, hw]
          rw [hcmd]
          exact sat_set hset hrem
    by_cases hT : e.buf (msgHdrSize + 1) = char 'T'
    · have hcmd : s.command e.buf = (showCorner (List.replicate 8 (char ' ') ++ chars "\r\n") >>=
          fun _ => pure { s with clockVisible := false, clockJustSet := false }) := by
        simp [command, ht, hT, hTR, hTS]
      rw [hcmd]
      exact sat_remove (by simp [Period.timeSet, hT, hTR, hTS]) (by simp [Period.removes, hc, hT])
    · have hcmd : s.command e.buf = pure s := by simp [command, ht, hR, hS, hT]
      rw [hcmd]
      exact sat_nothing (by simp [Period.timeSet, hR, hS]) (by simp [Period.removes, hT])
  · have hcmd : s.command e.buf = pure s := by simp [command, ht]
    rw [hcmd]
    exact sat_nothing (by simp [Period.timeSet, Period.isCommand, ht])
      (by simp [Period.removes, Period.isCommand, ht])

end Command

/-- The second that passes. -/
theorem sat_passSecond (h : s.InRange) :
    Sat A s.passSecond (fun tr _ => sends tr = []) fun tr s' => s' = s.ticked ∧
      sends tr = if s.clockVisible then [timeMessage ((s.value + 1) % 86400)] else [] := by
  unfold passSecond ticked
  cases s.clockVisible with
  | false => exact ⟨rfl, rfl⟩
  | true => exact h.tick_value.2 ▸ sat_showClock h.tick_value.1

/-- **A period**: the tick, the message, and what both show. -/
theorem sat_period {e : Period} (h : s.InRange) :
    Sat A (s.period e.ret e.buf) (fun tr _ => sends tr <+: s.shows e)
      fun tr s' => s' = e.after s.ticked ∧ sends tr = s.shows e := by
  unfold period
  refine Sat.bind ((sat_passSecond h).mono (fun tr _ h0 => ?_) fun _ _ => id) ?_
  · rw [h0]
    exact List.nil_prefix
  intro tr _ hp
  obtain ⟨rfl, htr⟩ := hp
  by_cases hret : e.ret = rtxOk
  · rw [if_pos hret]
    refine Sat.bind ((sat_command hret).mono (fun tr' _ h0 => ?_) fun _ _ => id) ?_
    · rw [sends_append, h0, List.append_nil, htr, shows, List.append_assoc]
      exact List.prefix_append _ _
    intro tr' _ hp x _
    obtain ⟨rfl, htr'⟩ := hp
    refine ⟨rfl, ?_⟩
    rw [sends_append, sends_append, htr, htr', shows, List.append_assoc]
    simp [sends_cons, Request.sent]
  · rw [if_neg hret]
    have h1 : e.timeSet = none := by simp [Period.timeSet, Period.isCommand, hret]
    have h2 : e.removes = false := by simp [Period.removes, Period.isCommand, hret]
    intro x _
    refine ⟨by rw [Period.after, h1, h2]; rfl, ?_⟩
    rw [sends_append, htr, shows, h1, h2]
    simp [sends_cons, Request.sent]

theorem sent_le (h : s.InRange) (e : Period) : s.sent e <+: s.shows e := by
  have hp := (sat_period (A := fun _ => True) (e := e) h).play e.env [] fun _ _ => trivial
  unfold sent
  cases hout : (play e.env (s.period e.ret e.buf) []).2 with
  | ok s' => exact ((hp.of_ok hout).2 ▸ List.prefix_refl _)
  | error err => exact hp.of_error hout

theorem step_spec {e : Period} (h : s.InRange) (hs : s.step e = some s') :
    s' = e.after s.ticked ∧ s.sent e = s.shows e :=
  ((sat_period (A := fun _ => True) h).play e.env [] fun _ _ => trivial).of_ok (toOption_eq_some.mp hs)

/-! ## 2. Runs -/

/-- What a run of periods keeps: the clock is in range, and a visible clock shows the time that was
    set last and a second for every period since. -/
structure Keeps (es : List Period) (s : WallClock) : Prop where
  inRange : s.InRange
  visible : s.clockVisible = true → ∃ es₁ e w es₂, es = es₁ ++ e :: es₂ ∧ e.timeSet = some w ∧
    (∀ x ∈ es₂, x.timeSet = none) ∧ s.value = (w.value + es₂.length) % 86400

theorem InRange.value_lt (h : s.InRange) : 0 ≤ s.value ∧ s.value < 86400 := by
  obtain ⟨h1, h2, h3⟩ := h
  unfold value
  omega

theorem Keeps.step {es : List Period} {e : Period} (h : Keeps es s) (hs : s.step e = some s') :
    Keeps (es ++ [e]) s' := by
  obtain ⟨rfl, -⟩ := step_spec h.inRange hs
  obtain ⟨hr, hv, hval⟩ := value_ticked h.inRange
  unfold Period.after
  cases hw : e.timeSet with
  | some w =>
      refine ⟨(timeSet_spec hw).1, fun _ => ⟨es, e, w, [], rfl, hw, nofun, ?_⟩⟩
      obtain ⟨h0, h1⟩ := (timeSet_spec hw).1.value_lt
      rw [List.length_nil, Int.natCast_zero, Int.add_zero]
      exact (Int.emod_eq_of_lt h0 h1).symm
  | none =>
      rw [Option.getD_none]
      split
      · exact ⟨⟨hr.hours, hr.minutes, hr.seconds⟩, nofun⟩
      refine ⟨hr, fun hvis => ?_⟩
      rw [hv] at hvis
      obtain ⟨es₁, e', w, es₂, rfl, hw', hnone, hsum⟩ := h.visible hvis
      refine ⟨es₁, e', w, es₂ ++ [e], by simp, hw', fun x hx => ?_, ?_⟩
      · rcases List.mem_append.mp hx with hx | hx
        · exact hnone x hx
        · rw [List.mem_singleton.mp hx, hw]
      · rw [hval, if_pos hvis, hsum, List.length_append, List.length_singleton]
        push_cast
        omega

/-- **The wall clock keeps time**, in every run of periods, and shows it. -/
theorem keeps_time {es : List Period} (hr : Lib.run step init es = some s) :
    s.InRange ∧
    (s.clockVisible = true → ∃ es₁ e w es₂, es = es₁ ++ e :: es₂ ∧ e.timeSet = some w ∧
      (∀ x ∈ es₂, x.timeSet = none) ∧ s.value = (w.value + es₂.length) % 86400) ∧
    ∀ e, s.sent e <+: s.shows e ∧ ((s.step e).isSome = true → s.sent e = s.shows e) := by
  have hall : Allowed step (fun _ _ => True) init es := Allowed.of_forall fun _ _ => trivial
  have hk : Keeps es s := run_history Keeps (fun _ _ _ _ h _ hs => h.step hs)
    ⟨inRange_init, nofun⟩ hall hr
  refine ⟨hk.inRange, hk.visible, fun e => ⟨sent_le hk.inRange e, fun hs => ?_⟩⟩
  obtain ⟨s', hs'⟩ := Option.isSome_iff_exists.mp hs
  exact (step_spec hk.inRange hs').2

end WallClock

/-- A period in which a command line comes in, and one without a message. -/
def Period.line (text : String) : Period :=
  ⟨rtxOk, Buf.ofMsg (message (UInt8.ofNat tidKcd) kcdCmd (chars text)), granting 0⟩

def Period.quiet : Period := ⟨rtxErr, fun _ => 0, granting 0⟩

/-- The clock is set to the last second of a day, and runs into the next one. -/
def midnight : List Period := [.quiet, .line "WS 23:59:59", .quiet, .line "WS 24:00:00"]

namespace WallClock

theorem keeps_time_midnight : ∃ s, Lib.run step init midnight = some s ∧ s.InRange ∧
    (s.clockVisible = true → ∃ es₁ e w es₂, midnight = es₁ ++ e :: es₂ ∧ e.timeSet = some w ∧
      (∀ x ∈ es₂, x.timeSet = none) ∧ s.value = (w.value + es₂.length) % 86400) ∧
    ∀ e, s.sent e <+: s.shows e ∧ ((s.step e).isSome = true → s.sent e = s.shows e) := by
  have hr : (Lib.run step init midnight).isSome = true := by decide +kernel
  obtain ⟨s, hs⟩ := Option.isSome_iff_exists.mp hr
  exact ⟨s, hs, keeps_time hs⟩

end WallClock

example : Lib.run WallClock.step .init midnight = some ⟨0, 0, 1, true, true⟩ := by decide +kernel

end Rtx
