/-
  File:      Rtx/User/SetCommand.lean
  Subject:   The set command of the wall clock and its grammar.

  A message that starts with "WS" should set the clock if and only if it is "WS HH:MM:SS". The
  task reads the time at fixed places of its buffer, whatever the length of the message, and tests
  the length against 9 + 6 where it means 11: `set_grammar` says for which messages and which
  contents of the buffer it follows the grammar all the same.
-/
import Rtx.User.WallClock

namespace Rtx

open Lib Proc

variable {env : Env Answer} {past : List (Exchange Answer)} {s : WallClock} {buf b : Buf}
  {m p : List UInt8}

/-! ## 1. The grammar -/

/-- The command that sets the clock. -/
def setText (h m s : Nat) : List UInt8 := chars "WS " ++ clockText h m s

/-- A command that sets the clock to a time. -/
def IsSetText (p : List UInt8) : Prop := ∃ h m s, IsTime h m s ∧ p = setText h m s

theorem IsSetText.length (h : IsSetText p) : p.length = 11 := by
  obtain ⟨_, _, _, -, rfl⟩ := h
  rfl

/-- A set text ends with a digit. -/
theorem IsSetText.digit_last (h : IsSetText p) : 48 ≤ (p.getD 10 0).toNat := by
  obtain ⟨h, m, s, ht, rfl⟩ := h
  have hs := ht.seconds
  show 48 ≤ (char (Nat.digitChar (s % 10))).toNat
  rw [toNat_digitChar (s % 10) (by omega)]
  omega

/-- The first eleven bytes behind the header. -/
def Buf.commandText (buf : Buf) : List UInt8 := (List.range 11).map fun i => buf (msgHdrSize + i)

@[simp] theorem Buf.length_commandText : buf.commandText.length = 11 := by simp [commandText]

theorem Buf.getElem_commandText (i : Nat) (h : i < buf.commandText.length) :
    buf.commandText[i] = buf (msgHdrSize + i) := by
  simp [commandText]

/-- The text of a command whose first two bytes are "WS". -/
theorem isSetText_commandText (hw : buf.commandText.take 2 = chars "WS") :
    IsSetText buf.commandText ↔ ∃ h m s, IsInput buf.userInput h m s := by
  have hdrop : buf.commandText.drop 2 = (List.range 9).map buf.userInput := rfl
  have happ : buf.commandText = chars "WS" ++ (List.range 9).map buf.userInput := by
    rw [← hw, ← hdrop, List.take_append_drop]
  have htext : ∀ h m s, setText h m s = chars "WS" ++ (chars " " ++ clockText h m s) :=
    fun _ _ _ => rfl
  rw [happ]
  simp only [IsSetText, IsInput, htext, List.append_cancel_left_eq]

/-- **What the payload `p` should do** to the clock `s`: set it and make it visible, or nothing. -/
structure Obeys (p : List UInt8) (s s' : WallClock) : Prop where
  set : ∀ h m sec, IsTime h m sec → p = setText h m sec → s' = .setTo h m sec
  kept : ¬ IsSetText p → s' = s

/-- The command in the buffer, with the payload `p`, does what it should to every clock. -/
def FollowsGrammar (env : Env Answer) (past : List (Exchange Answer)) (buf : Buf)
    (p : List UInt8) : Prop :=
  ∀ s : WallClock, ∃ s', (play env (s.command buf) past).2 = .ok s' ∧ Obeys p s s'

/-- The run for a message does not depend on what the buffer held before. -/
def OfMessageOnly (m : List UInt8) : Prop :=
  ∀ (b b' : Buf) (s : WallClock) (env : Env Answer) (past : List (Exchange Answer)),
    play env (s.command (b.put m)) past = play env (s.command (b'.put m)) past

/-! ## 2. The code -/

/-- A display for whose message there is a block. -/
theorem play_showCorner {text : List UInt8} {a : Nat} (h : env past (.memAlloc 10) = some a) :
    (play env (showCorner text >>= fun _ => pure s) past).2 = .ok s := by
  unfold showCorner
  simp only [call_bind, ask_bind, play_ask, h]
  rfl

/-- A display without one. -/
theorem play_showCorner_none {text : List UInt8} (h : env past (.memAlloc 10) = none) :
    (play env (showCorner text >>= fun _ => pure s) past).2 = .error .nullPtr := by
  unfold showCorner
  simp only [call_bind, ask_bind, play_ask, h]
  rfl

/-- A display makes a request. -/
theorem play_showCorner_ne_nil {text : List UInt8} :
    (play env (showCorner text >>= fun _ => pure s) past).1 ≠ [] := by
  unfold showCorner
  simp only [call_bind, ask_bind, play_ask]
  exact List.cons_ne_nil _ _

/-- The set command that is refused. -/
theorem command_refused (ht : buf.type = kcdCmd) (hs : buf (msgHdrSize + 1) = char 'S')
    (hr : buf.setRefused = true) : s.command buf = pure s := by
  have hne : char 'S' ≠ char 'R' := by decide
  unfold WallClock.command
  simp [ht, hs, hr, hne]

/-- The set command that is accepted. -/
theorem command_accepted {h m sec : Nat} (ht : buf.type = kcdCmd)
    (hs : buf (msgHdrSize + 1) = char 'S') (hr : buf.setRefused = false)
    (hi : IsInput buf.userInput h m sec) :
    s.command buf = (updateClockDisplay h m sec >>= fun _ => pure (.setTo h m sec)) := by
  have hne : char 'S' ≠ char 'R' := by decide
  obtain ⟨h1, h2, h3⟩ := hi.charToInt
  unfold WallClock.command
  simp [ht, hs, hr, hne, h1, h2, h3]

/-! ## 3. The buffer after a message -/

section Put

variable (hm : IsMsg m)
include hm

omit hm in
theorem put_payload (i : Nat) (hi : i < (m.drop msgHdrSize).length) :
    b.put m (msgHdrSize + i) = (m.drop msgHdrSize)[i] := by
  rw [List.getElem_drop]
  exact Buf.put_of_lt _

theorem put_behind (i : Nat) (hi : (m.drop msgHdrSize).length ≤ i) :
    b.put m (msgHdrSize + i) = b (msgHdrSize + i) := by
  have := hm.header
  rw [List.length_drop] at hi
  exact Buf.put_of_ge (by omega)

theorem sub32_put : sub32 (b.put m).length msgHdrSize = (m.drop msgHdrSize).length := by
  have := (b.put m).length_lt
  rw [Buf.length_put hm] at this ⊢
  rw [sub32_eq hm.header this, List.length_drop]

theorem type_put : (b.put m).type = (Buf.ofMsg m).type := by
  have hlt : 5 < m.length := Nat.lt_of_lt_of_le (by decide) hm.header
  unfold Buf.type Buf.ofMsg
  rw [Buf.put_of_lt hlt, List.getD_eq_getElem _ _ hlt]

/-- The message fills the text of a command, or what the buffer held before follows it. -/
theorem commandText_put {rest : List UInt8}
    (hlen : (m.drop msgHdrSize).length + rest.length = 11)
    (hrest : ∀ i (hi : i < rest.length),
      b (msgHdrSize + ((m.drop msgHdrSize).length + i)) = rest[i]) :
    (b.put m).commandText = m.drop msgHdrSize ++ rest := by
  refine List.ext_getElem ?_ fun i h1 h2 => ?_
  · rw [Buf.length_commandText, List.length_append, hlen]
  · rw [Buf.getElem_commandText, List.getElem_append]
    split
    next hi => exact put_payload i hi
    next hi =>
      rw [put_behind hm i (Nat.le_of_not_lt hi), ← hrest, Nat.add_sub_cancel' (Nat.le_of_not_lt hi)]

end Put

/-- A set command: a message from the KCD that starts with "WS". -/
structure SetCommand (m : List UInt8) : Prop where
  msg : IsMsg m
  type : (Buf.ofMsg m).type = kcdCmd
  text : (m.drop msgHdrSize).take 2 = chars "WS"

namespace SetCommand

variable (hm : SetCommand m)
include hm

theorem two_le : 2 ≤ (m.drop msgHdrSize).length := by
  have := congrArg List.length hm.text
  rw [List.length_take] at this
  have h2 : (chars "WS").length = 2 := rfl
  omega

theorem take_commandText : (b.put m).commandText.take 2 = chars "WS" := by
  rw [← hm.text]
  have h2 := hm.two_le
  refine List.ext_getElem ?_ fun i h1 h3 => ?_
  · rw [List.length_take, List.length_take, Buf.length_commandText]
    omega
  · rw [List.getElem_take, List.getElem_take, Buf.getElem_commandText]
    rw [List.length_take] at h3
    exact put_payload i (by omega)

theorem byte_put : (b.put m) (msgHdrSize + 1) = char 'S' := by
  have h2 : [(b.put m) (msgHdrSize + 0), (b.put m) (msgHdrSize + 1)] = [char 'W', char 'S'] :=
    hm.take_commandText
  exact (List.cons.inj (List.cons.inj h2).2).1

/-- The clock takes no notice of the command. -/
theorem command_kept (h : ¬ IsSetText (b.put m).commandText ∨ 15 < (m.drop msgHdrSize).length) :
    s.command (b.put m) = pure s := by
  refine command_refused ((type_put hm.msg).trans hm.type) hm.byte_put
    (Bool.eq_true_of_not_eq_false fun hr => ?_)
  obtain ⟨hi, hlen⟩ := setRefused_eq_false.mp hr
  rw [sub32_put hm.msg] at hlen
  rw [isSetText_commandText hm.take_commandText] at h
  exact h.elim (fun h => h hi) fun h => absurd h (Nat.not_lt.mpr hlen)

/-- The clock takes the time from the buffer. -/
theorem command_set {h mi sec : Nat} (ht : IsTime h mi sec)
    (htext : (b.put m).commandText = setText h mi sec)
    (hlen : (m.drop msgHdrSize).length ≤ 15) :
    s.command (b.put m) =
      (updateClockDisplay h mi sec >>= fun _ => pure (.setTo h mi sec)) := by
  have hinput : IsInput (b.put m).userInput h mi sec := by
    refine ⟨ht, ?_⟩
    have hdrop := congrArg (List.drop 2) htext
    exact hdrop
  refine command_accepted ((type_put hm.msg).trans hm.type) hm.byte_put
    (setRefused_eq_false.mpr ⟨⟨h, mi, sec, hinput⟩, ?_⟩) hinput
  rw [sub32_put hm.msg]
  exact hlen

omit hm in
/-- A message that reaches behind the text. -/
theorem commandText_take (hlen : 11 ≤ (m.drop msgHdrSize).length) :
    (b.put m).commandText = (m.drop msgHdrSize).take 11 := by
  refine List.ext_getElem ?_ fun i h1 h2 => ?_
  · rw [Buf.length_commandText, List.length_take, Nat.min_eq_left hlen]
  · rw [Buf.getElem_commandText, List.getElem_take]
    rw [List.length_take] at h2
    exact put_payload i (by omega)

omit hm in
/-- A message with the right number of bytes is all there is to the text. -/
theorem commandText_eq (hlen : (m.drop msgHdrSize).length = 11) :
    (b.put m).commandText = m.drop msgHdrSize := by
  rw [commandText_take (Nat.le_of_eq hlen.symm), ← hlen, List.take_length]

/-- What becomes of a clock when the text in the buffer sets it. -/
theorem outcome_set {h mi sec a : Nat} (ht : IsTime h mi sec)
    (htext : (b.put m).commandText = setText h mi sec) (hlen : (m.drop msgHdrSize).length ≤ 15)
    (ha : env past (.memAlloc 10) = some a) :
    (play env (s.command (b.put m)) past).2 = .ok (.setTo h mi sec) := by
  rw [hm.command_set ht htext hlen]
  exact play_showCorner ha

theorem outcome_set_none {h mi sec : Nat} (ht : IsTime h mi sec)
    (htext : (b.put m).commandText = setText h mi sec) (hlen : (m.drop msgHdrSize).length ≤ 15)
    (ha : env past (.memAlloc 10) = none) :
    (play env (s.command (b.put m)) past).2 = .error .nullPtr := by
  rw [hm.command_set ht htext hlen]
  exact play_showCorner_none ha

/-- A set text in the buffer sets the clock, so it has to be all of the message. -/
theorem followsGrammar_length (hf : FollowsGrammar env past (b.put m) (m.drop msgHdrSize)) :
    (m.drop msgHdrSize).length = 11 ∨ 15 < (m.drop msgHdrSize).length ∨
      ¬ IsSetText (b.put m).commandText := by
  by_contra hbad
  simp only [not_or, not_lt, not_not] at hbad
  obtain ⟨h11, h15, h, mi, sec, ht, htext⟩ := hbad
  -- a clock that is not visible is made visible
  obtain ⟨s', hs', ho⟩ := hf .init
  cases ha : (env past (.memAlloc 10) : Option Nat) with
  | none => exact absurd ((hm.outcome_set_none ht htext h15 ha).symm.trans hs') nofun
  | some a =>
      obtain rfl := Except.ok.inj ((hm.outcome_set ht htext h15 ha).symm.trans hs')
      exact absurd (congrArg WallClock.clockVisible (ho.kept fun hp => h11 hp.length)) nofun

omit hm in
/-- A message that is a set text. -/
theorem length_le (hp : IsSetText (m.drop msgHdrSize)) : (m.drop msgHdrSize).length ≤ 15 := by
  rw [hp.length]
  decide

/-- The new time needs memory to be displayed. -/
theorem followsGrammar_memory (hf : FollowsGrammar env past (b.put m) (m.drop msgHdrSize))
    (hp : IsSetText (m.drop msgHdrSize)) : (env past (.memAlloc 10) : Option Nat) ≠ none := by
  intro ha
  obtain ⟨h, mi, sec, ht, htext⟩ := id hp
  obtain ⟨s', hs', -⟩ := hf .init
  rw [← commandText_eq (b := b) hp.length] at htext
  exact absurd ((hm.outcome_set_none ht htext (length_le hp) ha).symm.trans hs') nofun

/-- A set text with memory for its display. -/
theorem followsGrammar_set (hp : IsSetText (m.drop msgHdrSize))
    (halloc : (env past (.memAlloc 10) : Option Nat) ≠ none) :
    FollowsGrammar env past (b.put m) (m.drop msgHdrSize) := by
  intro s
  obtain ⟨a, ha⟩ := Option.ne_none_iff_exists'.mp halloc
  have hout : ∀ h mi sec, IsTime h mi sec → m.drop msgHdrSize = setText h mi sec →
      (play env (s.command (b.put m)) past).2 = .ok (.setTo h mi sec) := fun h mi sec ht he =>
    hm.outcome_set ht ((commandText_eq hp.length).trans he) (length_le hp) ha
  obtain ⟨h, mi, sec, ht, htext⟩ := id hp
  refine ⟨_, hout h mi sec ht htext, fun h' mi' sec' ht' he => ?_, fun hn => absurd hp hn⟩
  exact Except.ok.inj ((hout h mi sec ht htext).symm.trans (hout h' mi' sec' ht' he))

/-- A message that is no set text and does not make one in the buffer. -/
theorem followsGrammar_kept (hp : ¬ IsSetText (m.drop msgHdrSize))
    (hcond : (m.drop msgHdrSize).length = 11 ∨ 15 < (m.drop msgHdrSize).length ∨
      ¬ IsSetText (b.put m).commandText) :
    FollowsGrammar env past (b.put m) (m.drop msgHdrSize) := by
  intro s
  have hkept : s.command (b.put m) = pure s := by
    refine hm.command_kept ?_
    rcases hcond with h11 | h15 | hn
    · exact Or.inl (commandText_eq (b := b) h11 ▸ hp)
    · exact Or.inr h15
    · exact Or.inl hn
  refine ⟨s, ?_, fun h mi sec ht he => absurd ⟨h, mi, sec, ht, he⟩ hp, fun _ => rfl⟩
  rw [hkept]
  rfl

/-- **The grammar is followed** exactly when the text in the buffer is no set text, or it is all of
    the message and there is memory to display it. -/
theorem followsGrammar_iff : FollowsGrammar env past (b.put m) (m.drop msgHdrSize) ↔
    ((m.drop msgHdrSize).length = 11 ∨ 15 < (m.drop msgHdrSize).length ∨
      ¬ IsSetText (b.put m).commandText) ∧
    (IsSetText (m.drop msgHdrSize) → (env past (.memAlloc 10) : Option Nat) ≠ none) := by
  constructor
  · intro hf
    exact ⟨hm.followsGrammar_length hf, hm.followsGrammar_memory hf⟩
  · intro hcond
    by_cases hp : IsSetText (m.drop msgHdrSize)
    · exact hm.followsGrammar_set hp (hcond.2 hp)
    · exact hm.followsGrammar_kept hp hcond.1

/-- **A short message that something makes a set text**: one buffer held the rest of the text, the
    other zeros. -/
theorem not_ofMessageOnly (hlt : (m.drop msgHdrSize).length < 11) {rest : List UInt8}
    (hset : IsSetText (m.drop msgHdrSize ++ rest)) : ¬ OfMessageOnly m := by
  intro hall
  obtain ⟨h, mi, sec, ht, htext⟩ := hset
  have hlen : (m.drop msgHdrSize).length + rest.length = 11 := by
    rw [← List.length_append, htext]
    rfl
  have h15 : (m.drop msgHdrSize).length ≤ 15 := by omega
  have htext' : (Buf.put (fun i => rest.getD (i - (m.drop msgHdrSize).length - msgHdrSize) 0)
      m).commandText = setText h mi sec := by
    rw [← htext]
    refine commandText_put hm.msg hlen fun i hi => ?_
    rw [← List.getD_eq_getElem _ 0 hi]
    congr 1
    omega
  have hzero : ¬ IsSetText (Buf.put (fun _ => 0) m).commandText := by
    intro hset
    have hlast : (Buf.put (fun _ => 0) m) (msgHdrSize + 10) = 0 := put_behind hm.msg 10 (by omega)
    have hdigit : 48 ≤ ((Buf.put (fun _ => 0) m) (msgHdrSize + 10)).toNat := hset.digit_last
    rw [hlast] at hdigit
    exact absurd hdigit (by decide)
  have hruns := hall (fun i => rest.getD (i - (m.drop msgHdrSize).length - msgHdrSize) 0)
    (fun _ => 0) .init (granting 0) []
  rw [hm.command_set ht htext' h15, hm.command_kept (Or.inl hzero)] at hruns
  exact play_showCorner_ne_nil (congrArg Prod.fst hruns)

/-- A text in the buffer begins with the message. -/
theorem not_isSetText (hlt : (m.drop msgHdrSize).length < 11)
    (hrest : ∀ rest, ¬ IsSetText (m.drop msgHdrSize ++ rest)) (b : Buf) :
    ¬ IsSetText (b.put m).commandText := by
  set rest := (List.range (11 - (m.drop msgHdrSize).length)).map fun i =>
    b (msgHdrSize + ((m.drop msgHdrSize).length + i)) with hr
  have hlen : (m.drop msgHdrSize).length + rest.length = 11 := by
    rw [hr, List.length_map, List.length_range]
    omega
  rw [commandText_put hm.msg hlen fun i hi => by simp [hr]]
  exact hrest rest

/-- What the command does does not depend on what the buffer held. -/
theorem command_congr
    (hcond : 11 ≤ (m.drop msgHdrSize).length ∨ ∀ rest, ¬ IsSetText (m.drop msgHdrSize ++ rest))
    (b b' : Buf) (s : WallClock) : s.command (b.put m) = s.command (b'.put m) := by
  by_cases h11 : 11 ≤ (m.drop msgHdrSize).length
  · by_cases hset : IsSetText ((m.drop msgHdrSize).take 11)
    · by_cases h15 : (m.drop msgHdrSize).length ≤ 15
      · obtain ⟨h, mi, sec, ht, htext⟩ := hset
        rw [hm.command_set ht ((commandText_take h11).trans htext) h15,
          hm.command_set ht ((commandText_take h11).trans htext) h15]
      · rw [hm.command_kept (Or.inr (Nat.lt_of_not_le h15)),
          hm.command_kept (Or.inr (Nat.lt_of_not_le h15))]
    · rw [hm.command_kept (Or.inl (commandText_take (b := b) h11 ▸ hset)),
        hm.command_kept (Or.inl (commandText_take (b := b') h11 ▸ hset))]
  · have hnone := hm.not_isSetText (Nat.lt_of_not_le h11) (hcond.resolve_left h11)
    rw [hm.command_kept (Or.inl (hnone b)), hm.command_kept (Or.inl (hnone b'))]

/-- **The run depends on the message only**, exactly when the message reaches behind the time or
    nothing that follows it makes it a set text. -/
theorem ofMessageOnly_iff : OfMessageOnly m ↔
    11 ≤ (m.drop msgHdrSize).length ∨ ∀ rest, ¬ IsSetText (m.drop msgHdrSize ++ rest) := by
  constructor
  · intro hall
    by_contra hbad
    simp only [not_or, not_le, not_forall, not_not] at hbad
    obtain ⟨hlt, rest, hset⟩ := hbad
    exact hm.not_ofMessageOnly hlt hset hall
  · intro hcond b b' s env past
    rw [hm.command_congr hcond b b' s]

end SetCommand

/-- **The set command follows its grammar**, whatever the buffer held before, if and only if the
    message has the length of a set text, or one of more than 15, or the text in the buffer is not
    one; and it depends on the message only, if and only if the message has the eleven bytes or
    cannot be made a set text. -/
theorem set_grammar (hm : SetCommand m) (b : Buf) (env : Env Answer)
    (past : List (Exchange Answer)) :
    (FollowsGrammar env past (b.put m) (m.drop msgHdrSize) ↔
      ((m.drop msgHdrSize).length = 11 ∨ 15 < (m.drop msgHdrSize).length ∨
        ¬ IsSetText (b.put m).commandText) ∧
      (IsSetText (m.drop msgHdrSize) → (env past (.memAlloc 10) : Option Nat) ≠ none)) ∧
    (OfMessageOnly m ↔
      11 ≤ (m.drop msgHdrSize).length ∨ ∀ rest, ¬ IsSetText (m.drop msgHdrSize ++ rest)) :=
  ⟨hm.followsGrammar_iff, hm.ofMessageOnly_iff⟩

/-- A command line as the KCD sends it. -/
def commandLine (text : String) : List UInt8 := message (UInt8.ofNat tidKcd) kcdCmd (chars text)

theorem setCommand_commandLine (text : String) (h : (chars text).length < 2 ^ 32 - msgHdrSize)
    (hws : (chars text).take 2 = chars "WS") : SetCommand (commandLine text) where
  msg := isMsg_message (by omega)
  type := rfl
  text := hws

theorem set_grammar_last_second :
    FollowsGrammar (granting 0) [] (Buf.put (fun _ => 0) (commandLine "WS 23:59:59"))
      (chars "WS 23:59:59") ∧ OfMessageOnly (commandLine "WS 23:59:59") :=
  have hm := setCommand_commandLine "WS 23:59:59" (by decide) rfl
  ⟨(set_grammar hm (fun _ => 0) (granting 0) []).1.mpr ⟨Or.inl rfl, fun _ => nofun⟩,
    (set_grammar hm (fun _ => 0) (granting 0) []).2.mpr (Or.inl (Nat.le_of_eq rfl))⟩

/-- **A character too many**: "WS 12:34:56x" sets the clock. -/
theorem set_longer_text : ¬ ∀ (env : Env Answer) (past : List (Exchange Answer)) (b : Buf)
    (m : List UInt8), SetCommand m → m.length ≤ conMbxSize →
    (env past (.memAlloc 10) : Option Nat) ≠ none →
    FollowsGrammar env past (b.put m) (m.drop msgHdrSize) ∧ OfMessageOnly m := by
  intro h
  have hm := setCommand_commandLine "WS 12:34:56x" (by decide) rfl
  have hf := (h (granting 0) [] (fun _ => 0) _ hm (by decide) nofun).1
  rcases (hm.followsGrammar_iff.mp hf).1 with h11 | h15 | hn
  · exact absurd h11 (by decide)
  · exact absurd h15 (by decide)
  · exact hn ⟨12, 34, 56, ⟨by decide, by decide, by decide⟩, by decide⟩

end Rtx
