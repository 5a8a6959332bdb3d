/-
  File:      Rtx/User/WallClock.lean
  Subject:   The wall clock task: its text, its parser and its loop.

  The loop after the set-up, with its two blocks allocated. A period begins with a
  `recv_msg_nb` into the one buffer of the task, so what a message does not overwrite is left from
  the messages before it.

  `verifyValidInput` accepts exactly the texts of a time (`verify_iff`), and
  `char_to_int` reads the time back (`charToInt_clockText`); the carry of the tick is addition
  modulo a day (`value_tick`).
-/
import Rtx.User.Request

namespace Rtx

open Lib

/-! ## 1. The code -/

/-- The local variables of `task_wall_clock`. -/
structure WallClock where
  hours : Int
  minutes : Int
  seconds : Int
  clockVisible : Bool
  clockJustSet : Bool
  deriving DecidableEq, Repr

/-- A digit as `h / 10 + '0'`. -/
def digit (n : Int) : UInt8 := UInt8.ofInt (n + (char '0').toNat)

/-- `update_clock_string`. -/
def updateClockString (h m s : Int) : List UInt8 :=
  [digit (h.tdiv 10), digit (h.tmod 10), char ':', digit (m.tdiv 10), digit (m.tmod 10), char ':',
    digit (s.tdiv 10), digit (s.tmod 10), char '\r', char '\n']

/-- The escape sequence that moves the cursor to column 72 of the first line. -/
def asciEscapeString : List UInt8 := UInt8.ofNat 0x1B :: chars "[1;72f"

/-- A message to the console that shows the ten characters `text` in the corner. -/
def cornerMessage (text : List UInt8) : Buf :=
  Buf.ofMsg (message (UInt8.ofNat tidWclck) display (asciEscapeString ++ text))

/-- Build a message in a block of its own, and send it to the console. -/
def showCorner (text : List UInt8) : UserM Unit := do
  let clockBuffer ← nonNull (← Sys.memAlloc 10)
  let _ ← Sys.sendMsg tidCon (cornerMessage text)
  let _ ← Sys.memDealloc (some clockBuffer)
  return ()

/-- `update_clock_display`. -/
def updateClockDisplay (h m s : Int) : UserM Unit := showCorner (updateClockString h m s)

/-- `verify_valid_input`. -/
def verifyValidInput (input : Nat → UInt8) : Int :=
  if input 0 ≠ char ' ' then -1
  else if input 1 < char '0' ∨ input 1 > char '2' then -1
  else if input 1 = char '2' ∧ input 2 > char '3' then -1
  else if input 3 ≠ char ':' ∨ input 6 ≠ char ':' then -1
  else if input 4 < char '0' ∨ input 4 ≥ char '6' ∨ input 7 < char '0' ∨ input 7 ≥ char '6' then -1
  else if input 2 < char '0' ∨ input 2 > char '9' ∨ input 5 < char '0' ∨ input 5 > char '9' ∨
      input 8 < char '0' ∨ input 8 > char '9' then -1
  else rtxOk

/-- `char_to_int`. -/
def charToInt (key : UInt8) : Int := key.toNat - (char '0').toNat

namespace WallClock

/-- The values before the loop. -/
def init : WallClock := ⟨10, 10, 10, false, false⟩

variable (s : WallClock)

/-- The second that passes in a period in which the clock is visible. -/
def tick : WallClock :=
  let s := { s with seconds := s.seconds + 1 }
  let s := if s.seconds ≥ 60 then { s with seconds := 0, minutes := s.minutes + 1 } else s
  let s := if s.minutes ≥ 60 then { s with minutes := 0, hours := s.hours + 1 } else s
  if s.hours ≥ 24 then { s with hours := 0, minutes := 0, seconds := 0 } else s

/-- The clock set to a time, and made visible. -/
def setTo (h m sec : Int) : WallClock := ⟨h, m, sec, true, true⟩

end WallClock

/-- The text behind "WS". -/
def Buf.userInput (buf : Buf) : Nat → UInt8 := fun i => buf (msgHdrSize + 2 + i)

/-- The test of the set command. -/
def Buf.setRefused (buf : Buf) : Bool :=
  verifyValidInput buf.userInput ≠ rtxOk || sub32 buf.length msgHdrSize > 9 + msgHdrSize

namespace WallClock

variable (s : WallClock)

/-- The branch for a message that was received. -/
def command (buf : Buf) : UserM WallClock := do
  if buf.type ≠ kcdCmd then return s
  if buf (msgHdrSize + 1) = char 'R' then
    updateClockDisplay 0 0 0
    return setTo 0 0 0
  if buf (msgHdrSize + 1) = char 'S' then
    if buf.setRefused then return s
    let userInput := buf.userInput
    let hours := charToInt (userInput 1) * 10 + charToInt (userInput 2)
    let minutes := charToInt (userInput 4) * 10 + charToInt (userInput 5)
    let seconds := charToInt (userInput 7) * 10 + charToInt (userInput 8)
    updateClockDisplay hours minutes seconds
    return setTo hours minutes seconds
  if buf (msgHdrSize + 1) = char 'T' then
    showCorner (List.replicate 8 (char ' ') ++ chars "\r\n")
    return { s with clockVisible := false, clockJustSet := false }
  return s

/-- The second that passes while the clock is visible. -/
def passSecond : UserM WallClock :=
  if s.clockVisible then do
    let s := s.tick
    updateClockDisplay s.hours s.minutes s.seconds
    return s
  else return s

/-- One period, from the return of `recv_msg_nb` with the result `ret` on. -/
def period (ret : Int) (buf : Buf) : UserM WallClock := do
  let s ← s.passSecond
  let s ← if ret = rtxOk then s.command buf else pure s
  let _ ← Sys.rtTskSusp
  return s

end WallClock

/-! ## 2. Times and their texts -/

/-- Two decimal digits. -/
def twoDigits (n : Nat) : List UInt8 :=
  [char (Nat.digitChar (n / 10)), char (Nat.digitChar (n % 10))]

/-- HH:MM:SS. -/
def clockText (h m s : Nat) : List UInt8 :=
  twoDigits h ++ chars ":" ++ twoDigits m ++ chars ":" ++ twoDigits s

/-- The time of a day. -/
structure IsTime (h m s : Nat) : Prop where
  hours : h ≤ 23
  minutes : m ≤ 59
  seconds : s ≤ 59

theorem toNat_digitChar : ∀ d < 10, (char (Nat.digitChar d)).toNat = 48 + d := by decide

theorem digit_eq : ∀ d < 10, digit (d : Nat) = char (Nat.digitChar d) := by decide

/-- A byte that is a decimal digit. -/
theorem eq_digitChar {b : UInt8} {d : Nat} (hd : d < 10) (h : b.toNat = 48 + d) :
    b = char (Nat.digitChar d) :=
  UInt8.toNat_inj.mp (h.trans (toNat_digitChar d hd).symm)

theorem twoDigits_eq {n : Nat} (h : n < 100) :
    twoDigits n = [digit (Int.tdiv n 10), digit (Int.tmod n 10)] := by
  have h1 : Int.tdiv n 10 = (n / 10 : Nat) := rfl
  have h2 : Int.tmod n 10 = (n % 10 : Nat) := rfl
  rw [h1, h2, digit_eq _ (by omega), digit_eq _ (by omega)]
  rfl

/-- `update_clock_string` renders every time of the day. -/
theorem updateClockString_eq {h m s : Nat} (ht : IsTime h m s) :
    updateClockString h m s = clockText h m s ++ chars "\r\n" := by
  have h1 := ht.hours
  have h2 := ht.minutes
  have h3 := ht.seconds
  unfold clockText
  rw [twoDigits_eq (by omega), twoDigits_eq (by omega), twoDigits_eq (by omega)]
  rfl

/-- What `verify_valid_input` tests. -/
theorem verify_tests (input : Nat → UInt8) : verifyValidInput input = rtxOk ↔
    (input 0).toNat = 32 ∧ (input 3).toNat = 58 ∧ (input 6).toNat = 58 ∧
    (48 ≤ (input 1).toNat ∧ (input 1).toNat ≤ 50) ∧
    (48 ≤ (input 2).toNat ∧ (input 2).toNat ≤ 57) ∧
    ((input 1).toNat = 50 → (input 2).toNat ≤ 51) ∧
    (48 ≤ (input 4).toNat ∧ (input 4).toNat ≤ 53) ∧
    (48 ≤ (input 5).toNat ∧ (input 5).toNat ≤ 57) ∧
    (48 ≤ (input 7).toNat ∧ (input 7).toNat ≤ 53) ∧
    (48 ≤ (input 8).toNat ∧ (input 8).toNat ≤ 57) := by
  have hne : (-1 : Int) ≠ rtxOk := by decide
  have h32 : (char ' ').toNat = 32 := rfl
  have h48 : (char '0').toNat = 48 := rfl
  have h50 : (char '2').toNat = 50 := rfl
  have h51 : (char '3').toNat = 51 := rfl
  have h54 : (char '6').toNat = 54 := rfl
  have h57 : (char '9').toNat = 57 := rfl
  have h58 : (char ':').toNat = 58 := rfl
  unfold verifyValidInput
  simp only [ne_eq, ge_iff_le, gt_iff_lt, UInt8.lt_iff_toNat_lt, UInt8.le_iff_toNat_le,
    ← UInt8.toNat_inj, h32, h48, h50, h51, h54, h57, h58]
  split_ifs
  all_goals simp only [hne, false_iff, true_iff]
  all_goals omega

/-- The text at `input` is a blank and a time of the day. -/
def IsInput (input : Nat → UInt8) (h m s : Nat) : Prop :=
  IsTime h m s ∧ (List.range 9).map input = chars " " ++ clockText h m s

/-- The nine characters. -/
theorem isInput_iff {input : Nat → UInt8} {h m s : Nat} : IsInput input h m s ↔ IsTime h m s ∧
    input 0 = char ' ' ∧ input 1 = char (Nat.digitChar (h / 10)) ∧
    input 2 = char (Nat.digitChar (h % 10)) ∧ input 3 = char ':' ∧
    input 4 = char (Nat.digitChar (m / 10)) ∧ input 5 = char (Nat.digitChar (m % 10)) ∧
    input 6 = char ':' ∧ input 7 = char (Nat.digitChar (s / 10)) ∧
    input 8 = char (Nat.digitChar (s % 10)) := by
  refine and_congr_right fun _ => ?_
  show [input 0, input 1, input 2, input 3, input 4, input 5, input 6, input 7, input 8] =
    [char ' ', char (Nat.digitChar (h / 10)), char (Nat.digitChar (h % 10)), char ':',
      char (Nat.digitChar (m / 10)), char (Nat.digitChar (m % 10)), char ':',
      char (Nat.digitChar (s / 10)), char (Nat.digitChar (s % 10))] ↔ _
  simp only [List.cons.injEq, and_true]

/-- `char_to_int` reads the time. -/
theorem IsInput.charToInt {input : Nat → UInt8} {h m s : Nat} (hi : IsInput input h m s) :
    charToInt (input 1) * 10 + charToInt (input 2) = h ∧
      charToInt (input 4) * 10 + charToInt (input 5) = m ∧
      charToInt (input 7) * 10 + charToInt (input 8) = s := by
  have hdigit : ∀ d < 10, Rtx.charToInt (char (Nat.digitChar d)) = d := by decide
  obtain ⟨⟨h1, h2, h3⟩, -, e1, e2, -, e4, e5, -, e7, e8⟩ := isInput_iff.mp hi
  rw [e1, e2, e4, e5, e7, e8, hdigit (h / 10) (by omega), hdigit (h % 10) (by omega),
    hdigit (m / 10) (by omega), hdigit (m % 10) (by omega), hdigit (s / 10) (by omega),
    hdigit (s % 10) (by omega)]
  omega

/-- **The accepted inputs** are the times of the day. -/
theorem verify_iff (input : Nat → UInt8) :
    verifyValidInput input = rtxOk ↔ ∃ h m s, IsInput input h m s := by
  rw [verify_tests]
  constructor
  · rintro ⟨b0, b3, b6, b1, b2, b12, b4, b5, b7, b8⟩
    refine ⟨((input 1).toNat - 48) * 10 + ((input 2).toNat - 48),
      ((input 4).toNat - 48) * 10 + ((input 5).toNat - 48),
      ((input 7).toNat - 48) * 10 + ((input 8).toNat - 48), isInput_iff.mpr ?_⟩
    refine ⟨⟨by omega, by omega, by omega⟩, UInt8.toNat_inj.mp b0, ?_, ?_, UInt8.toNat_inj.mp b3,
      ?_, ?_, UInt8.toNat_inj.mp b6, ?_, ?_⟩
    all_goals exact eq_digitChar (by omega) (by omega)
  · rintro ⟨h, m, s, hi⟩
    obtain ⟨⟨h1, h2, h3⟩, e0, e1, e2, e3, e4, e5, e6, e7, e8⟩ := isInput_iff.mp hi
    rw [e0, e1, e2, e3, e4, e5, e6, e7, e8, toNat_digitChar (h / 10) (by omega),
      toNat_digitChar (h % 10) (by omega), toNat_digitChar (m / 10) (by omega),
      toNat_digitChar (m % 10) (by omega), toNat_digitChar (s / 10) (by omega),
      toNat_digitChar (s % 10) (by omega)]
    have h32 : (char ' ').toNat = 32 := rfl
    have h58 : (char ':').toNat = 58 := rfl
    omega

/-- What the set command refuses: any other text behind "WS", and a message of more than 15
    bytes. -/
theorem setRefused_eq_false {buf : Buf} : buf.setRefused = false ↔
    (∃ h m s, IsInput buf.userInput h m s) ∧ sub32 buf.length msgHdrSize ≤ 15 := by
  rw [← verify_iff]
  simp [Buf.setRefused, msgHdrSize]

/-! ## 3. The tick -/

namespace WallClock

/-- The second of the day. -/
def value (s : WallClock) : Int := s.hours * 3600 + s.minutes * 60 + s.seconds

/-- The values of a clock. -/
structure InRange (s : WallClock) : Prop where
  hours : 0 ≤ s.hours ∧ s.hours < 24
  minutes : 0 ≤ s.minutes ∧ s.minutes < 60
  seconds : 0 ≤ s.seconds ∧ s.seconds < 60

variable {s : WallClock}

theorem inRange_iff : s.InRange ↔ (0 ≤ s.hours ∧ s.hours < 24) ∧
    (0 ≤ s.minutes ∧ s.minutes < 60) ∧ 0 ≤ s.seconds ∧ s.seconds < 60 :=
  ⟨fun h => ⟨h.hours, h.minutes, h.seconds⟩, fun h => ⟨h.1, h.2.1, h.2.2⟩⟩

theorem inRange_init : init.InRange := ⟨by decide, by decide, by decide⟩

theorem inRange_setTo {h m s : Nat} (ht : IsTime h m s) : (setTo h m s).InRange := by
  obtain ⟨h1, h2, h3⟩ := ht
  simp only [inRange_iff, setTo]
  omega

/-- A clock in range shows a time of the day. -/
theorem InRange.isTime (h : s.InRange) : ∃ hh mm ss : Nat, IsTime hh mm ss ∧
    s.hours = hh ∧ s.minutes = mm ∧ s.seconds = ss := by
  obtain ⟨⟨h1, h2⟩, ⟨h3, h4⟩, ⟨h5, h6⟩⟩ := h
  exact ⟨s.hours.toNat, s.minutes.toNat, s.seconds.toNat, ⟨by omega, by omega, by omega⟩,
    by omega, by omega, by omega⟩

theorem tick_clockVisible (s : WallClock) : s.tick.clockVisible = s.clockVisible := by
  unfold tick
  dsimp only
  split_ifs
  all_goals rfl

/-- **The tick adds a second**, modulo a day. -/
theorem InRange.tick_value (h : s.InRange) :
    s.tick.InRange ∧ s.tick.value = (s.value + 1) % 86400 := by
  obtain ⟨⟨h1, h2⟩, ⟨h3, h4⟩, ⟨h5, h6⟩⟩ := h
  -- the carry into the minutes, into the hours and over midnight
  by_cases hs : s.seconds + 1 < 60
  · have ht : s.tick = { s with seconds := s.seconds + 1 } := by
      simp [WallClock.tick, not_le.mpr hs, not_le.mpr h4, not_le.mpr h2]
    rw [ht]
    simp only [inRange_iff, value]
    omega
  by_cases hm : s.minutes + 1 < 60
  · have ht : s.tick = { s with seconds := 0, minutes := s.minutes + 1 } := by
      simp [WallClock.tick, not_lt.mp hs, not_le.mpr hm, not_le.mpr h2]
    rw [ht]
    simp only [inRange_iff, value]
    omega
  by_cases hh : s.hours + 1 < 24
  · have ht : s.tick = { s with seconds := 0, minutes := 0, hours := s.hours + 1 } := by
      simp [WallClock.tick, not_lt.mp hs, not_lt.mp hm, not_le.mpr hh]
    rw [ht]
    simp only [inRange_iff, value]
    omega
  · have ht : s.tick = { s with seconds := 0, minutes := 0, hours := 0 } := by
      simp [WallClock.tick, not_lt.mp hs, not_lt.mp hm, not_lt.mp hh]
    rw [ht]
    simp only [inRange_iff, value]
    omega

end WallClock

end Rtx
