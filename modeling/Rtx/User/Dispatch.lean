/-
  File:      Rtx/User/Dispatch.lean
  Subject:   Which command lines the decoder dispatches as they were typed.

  `heard es` is what a run of deliveries says: the registrations, the lines entered and the
  characters since the last Enter. In every run the registry holds the registrations and the queue
  the characters since Enter (`Ready`, `sat_handle`). But `cmd_length` is set back by the dispatch
  alone: a listing command or a line that is too long leaves its length, which the next command
  gets on top of its own. And a command of one character is compared with a second character that
  an earlier line has left in `input`. A line is dispatched as it was typed exactly when neither is the
  case (`dispatch_exact`).
-/
import Rtx.User.Line

namespace Rtx

open Lib Proc

/-! ## 1. What the decoder hears -/

/-- The registrations, the lines entered, and the characters since the last Enter. -/
structure Heard where
  registered : List (UInt8 × UInt8)
  lines : List (List UInt8)
  line : List UInt8

/-- Enter is pressed. -/
def Delivery.Enters (e : Delivery) : Prop := e.buf.type = keyIn ∧ e.buf.last = char '\r'

/-- With a further message. -/
def Heard.next (k : Heard) (e : Delivery) : Heard :=
  if e.buf.type = kcdReg then { k with registered := k.registered ++ [e.registration] }
  else if e.buf.type = keyIn then
    if e.buf.last = char '\r' then { k with lines := k.lines ++ [k.line], line := [] }
    else { k with line := k.line ++ [e.buf.last] }
  else k

/-- What a run of messages says. -/
def heard (es : List Delivery) : Heard := es.foldl Heard.next ⟨[], [], []⟩

theorem heard_concat (es : List Delivery) (e : Delivery) :
    heard (es ++ [e]) = (heard es).next e := by
  simp [heard]

theorem mem_lines_next {k : Heard} {e : Delivery} {l : List UInt8} (h : l ∈ k.lines) :
    l ∈ (k.next e).lines := by
  unfold Heard.next
  split_ifs
  · exact h
  · exact List.mem_append_left _ h
  · exact h
  · exact h

/-- A line that leaves nothing behind: if it is a command, it is not too long, no listing command,
    and not an L alone. -/
def Harmless (l : List UInt8) : Prop := ∀ cmd, l = char '%' :: cmd →
  cmd.length ≤ kcdCmdBufSize ∧ ¬ chars "LT" <+: cmd ∧ ¬ chars "LM" <+: cmd ∧ cmd ≠ [char 'L']

namespace Kcd

variable {s s' : Kcd} {k : Heard} {e : Delivery} {cmd : List UInt8} {q : Strung Nat UInt8}
  {input : Buf} {es : List Delivery} {t : UInt8} {A : Exchange Answer → Prop}

/-! ## 2. One turn -/

/-- **Between the turns** the registry holds the registrations, the queue the characters since
    Enter, and the flags are down. -/
structure Ready (k : Heard) (s : Kcd) : Prop where
  registered : s.Registered (written k.registered)
  queue : ∃ ys, s.inputQueue.Spans s.blocks.length ys ∧ ys.map Prod.snd = k.line
  cmdFound : s.cmdFound = false
  cmdInvalid : s.cmdInvalid = false
  cmdLength : s.cmdLength < 2 ^ 32
  harmless : (∀ l ∈ k.lines, Harmless l) → s.cmdLength = 0

theorem ready_init : Ready (heard []) (init input) where
  registered := registered_init
  queue := ⟨[], Strung.spans_empty, rfl⟩
  cmdFound := rfl
  cmdInvalid := rfl
  cmdLength := Nat.two_pow_pos 32
  harmless _ := rfl

/-- When a command of the right length is taken for a listing command. -/
theorem isListing_taken (h0 : cmd ≠ []) (hfit : cmd.length ≤ kcdCmdBufSize) :
    (s.taken cmd q).IsListing ↔ chars "LT" <+: cmd ∨ chars "LM" <+: cmd ∨
      cmd = [char 'L'] ∧ (s.input 1 = char 'T' ∨ s.input 1 = char 'M') := by
  have hLT : chars "LT" = [char 'L', char 'T'] := rfl
  have hLM : chars "LM" = [char 'L', char 'M'] := rfl
  unfold IsListing
  rw [input_taken hfit, input_taken hfit, hLT, hLM]
  obtain ⟨c, cmd, rfl⟩ := List.exists_cons_of_ne_nil h0
  cases cmd with
  | nil => simp
  | cons d cmd =>
      simp only [List.cons_prefix_cons, List.nil_prefix, and_true, List.length_cons,
        Nat.zero_lt_succ, if_true, Nat.one_lt_succ_succ, List.getD_cons_zero, List.getD_cons_succ]
      grind

/-- What has to be checked behind an Enter. -/
theorem Ready.entered (h : Ready k s) (hreg : s'.cmdRegList = s.cmdRegList)
    (hblocks : s'.blocks = s.blocks) (hq : s'.inputQueue.Spans s.blocks.length [])
    (hfound : s'.cmdFound = false) (hinvalid : s'.cmdInvalid = false)
    (hlen : s'.cmdLength < 2 ^ 32)
    (hzero : Harmless k.line → s.cmdLength = 0 → s'.cmdLength = 0) :
    Ready { k with lines := k.lines ++ [k.line], line := [] } s' where
  registered := by
    obtain ⟨xs, hxs, hm⟩ := h.registered
    exact ⟨xs, by rw [hreg, hblocks]; exact hxs, hm⟩
  queue := ⟨[], by rw [hblocks]; exact hq, rfl⟩
  cmdFound := hfound
  cmdInvalid := hinvalid
  cmdLength := hlen
  harmless hl := by
    obtain ⟨hold, hnew⟩ := List.forall_mem_append.mp hl
    exact hzero (hnew _ (List.mem_singleton_self _)) (h.harmless hold)

/-- The size of the block for a command, when nothing was carried over. -/
theorem size_ne_zero (hc : s.cmdLength = 0) :
    add32 msgHdrSize (s.taken cmd q).cmdLength ≠ 0 := by
  have h6 : msgHdrSize = 6 := rfl
  have h64 : kcdCmdBufSize = 64 := rfl
  rw [show (s.taken cmd q).cmdLength = add32 s.cmdLength (min kcdCmdBufSize cmd.length) from rfl, hc]
  unfold add32
  omega

/-- A command that is taken for an ordinary one. -/
theorem sat_ordinary_taken (h : Ready k s) (h0 : cmd ≠ []) (hfit : cmd.length ≤ kcdCmdBufSize)
    (hA : ∀ x, A x → Granted x) (hl : ¬ (s.taken cmd q).IsListing) :
    Sat A (s.taken cmd q).command
      (fun tr _ => Idle tr ∧ (k.registered = [] ∨ s.cmdLength ≠ 0)) fun tr s' =>
      s' = { s.taken cmd q with cmdFound := false, cmdLength := 0 } ∧ listings tr = 0 ∧
      ∀ t, k.registered.reverse.lookup (cmd.getD 0 0) = some t → (∀ x, A x → LiveAt t x) →
        commands tr = [(t.toNat, (s.taken cmd q).commandMessage)] := by
  have hreg : (s.taken cmd q).Registered (written k.registered) := h.registered
  rw [command_eq hl]
  by_cases hm : k.registered = []
  · rw [hm] at hreg
    unfold ordinary
    rw [findHandler_nil hreg]
    exact ⟨idle_nil, Or.inl hm⟩
  · refine (sat_ordinary hA hreg (written_ne_nil hm) h.cmdFound).mono ?_ ?_
    · intro tr _ hp
      obtain ⟨htr, hz⟩ := hp
      exact ⟨htr, Or.inr fun hc => size_ne_zero hc hz⟩
    · intro tr s' hp
      obtain ⟨rfl, hlist, hcmd⟩ := hp
      refine ⟨rfl, hlist, fun t ht => hcmd t ?_⟩
      rw [input_taken hfit, if_pos (List.length_pos_iff.mpr h0), lookup_written]
      exact ht

/-- The command of a line. -/
theorem sat_command (h : Ready k s) (hline : k.line = char '%' :: cmd) (h0 : cmd ≠ [])
    (hfit : cmd.length ≤ kcdCmdBufSize) (hq : q.Spans s.blocks.length []) :
    Sat Granted (s.taken cmd q).command (fun _ _ => k.registered = [] ∨ s.cmdLength ≠ 0)
      fun _ s' => Ready { k with lines := k.lines ++ [k.line], line := [] } s' := by
  by_cases hl : (s.taken cmd q).IsListing
  · refine (sat_listing hl).mono (fun _ _ h => h.elim) ?_
    intro tr _ hp
    obtain ⟨rfl, -, -⟩ := hp
    refine h.entered rfl rfl hq h.cmdFound h.cmdInvalid (Nat.mod_lt _ (by decide)) fun hh => ?_
    obtain ⟨-, hLT, hLM, hL⟩ := hh cmd hline
    rcases (isListing_taken h0 hfit).mp hl with h1 | h1 | h1
    · exact absurd h1 hLT
    · exact absurd h1 hLM
    · exact absurd h1.1 hL
  · refine (sat_ordinary_taken h h0 hfit (fun _ hx => hx) hl).mono (fun _ _ hz => hz.2) ?_
    intro tr _ hp
    obtain ⟨rfl, -, -⟩ := hp
    exact h.entered rfl rfl hq rfl h.cmdInvalid (Nat.two_pow_pos 32) fun _ _ => rfl

/-- **Enter** takes the line out of the queue. The turn gets stuck only where no command is
    registered, or where a length that was carried over makes the size of a block zero. -/
theorem sat_enter (h : Ready k s) : Sat Granted s.enter
    (fun _ _ => k.registered = [] ∨ s.cmdLength ≠ 0)
    fun _ s' => Ready { k with lines := k.lines ++ [k.line], line := [] } s' := by
  obtain ⟨ys, hys, hline⟩ := h.queue
  by_cases hshort : ys.map Prod.snd = [] ∨ ys.map Prod.snd = [char '%']
  · refine (sat_enter_short hys h.cmdInvalid hshort).imp ?_
    intro tr _ hp
    obtain ⟨-, q, rfl, hq⟩ := hp
    exact h.entered rfl rfl hq h.cmdFound h.cmdInvalid h.cmdLength fun _ hz => hz
  obtain ⟨hne, hone⟩ := not_or.mp hshort
  obtain ⟨⟨a, v⟩, ys, rfl⟩ := List.exists_cons_of_ne_nil (mt List.map_eq_nil_iff.mpr hne)
  by_cases hv : v = char '%'
  · subst hv
    have hys0 : ys ≠ [] := by
      rintro rfl
      exact hone rfl
    by_cases hfit : ys.length ≤ kcdCmdBufSize
    · refine sat_enter_command hys hys0 hfit h.cmdInvalid h.cmdLength fun q tr _ hq => ?_
      refine (sat_command h hline.symm (mt List.map_eq_nil_iff.mp hys0)
        (by rwa [List.length_map]) hq).imp fun tr' s' hs' => ⟨hs'.cmdInvalid, hs'⟩
    · refine (sat_enter_long hys (Nat.lt_of_not_le hfit) h.cmdLength).imp ?_
      intro tr _ hp
      obtain ⟨-, q, rfl, hq⟩ := hp
      refine h.entered rfl rfl hq h.cmdFound rfl (Nat.mod_lt _ (by decide)) fun hh _ => ?_
      have hle := (hh _ hline.symm).1
      rw [List.length_map] at hle
      exact absurd hle hfit
  · refine (sat_enter_other hys hv).imp ?_
    intro tr _ hp
    obtain ⟨-, q, rfl, hq⟩ := hp
    exact h.entered rfl rfl hq h.cmdFound rfl h.cmdLength fun _ hz => hz

/-- **A turn** of the decoder, whatever the message is. -/
theorem sat_handle (h : Ready k s) : Sat Granted (s.handle e.buf)
    (fun _ _ => e.Enters ∧ (k.registered = [] ∨ s.cmdLength ≠ 0))
    fun _ s' => Ready (k.next e) s' := by
  unfold handle Heard.next
  split
  · refine (sat_register h.registered).mono (fun _ _ h => h.elim) ?_
    intro tr s' hp
    obtain ⟨hreg, cmdRegList, bs, rfl⟩ := hp
    obtain ⟨ys, hys, hline⟩ := h.queue
    exact {
      registered := by
        rw [written_concat]
        exact hreg
      queue := ⟨ys, hys.mono (List.length_append ▸ Nat.le_add_right _ _), hline⟩
      cmdFound := h.cmdFound
      cmdInvalid := h.cmdInvalid
      cmdLength := h.cmdLength
      harmless := h.harmless }
  split
  next htype =>
    unfold key
    refine (sat_consoleText _).bind fun tr _ _ => ?_
    split
    next hchar =>
      exact (sat_enter h).mono (fun _ _ hm => ⟨⟨htype, hchar⟩, hm⟩) fun _ _ => id
    next hchar =>
      simp only [sat_call]
      intro a ha
      obtain ⟨a, rfl⟩ := Option.ne_none_iff_exists'.mp (ha (by decide))
      obtain ⟨ys, hys, hline⟩ := h.queue
      obtain ⟨q, happ, hq⟩ := hys.append e.buf.last
      obtain ⟨xs, hxs, hm⟩ := h.registered
      simp only [happ, live, ret_bind]
      exact {
        registered := ⟨xs, hxs.mono (List.length_append ▸ Nat.le_add_right _ _), hm⟩
        queue := ⟨ys ++ [(s.blocks.length, e.buf.last)], List.length_append ▸ hq, by
          rw [List.map_append, hline]
          rfl⟩
        cmdFound := h.cmdFound
        cmdInvalid := h.cmdInvalid
        cmdLength := h.cmdLength
        harmless := h.harmless }
  · exact h

/-! ## 3. Runs -/

theorem Ready.step (h : Ready k s) (hs : s.Supplied e) (hstep : s.step e = some s') :
    Ready (k.next e) s' :=
  ((sat_handle h).play e.env [] hs).of_ok (toOption_eq_some.mp hstep)

/-- Where a turn goes on. -/
theorem Ready.progress (h : Ready k s) (hs : s.Supplied e)
    (hfine : e.Enters → k.registered ≠ [] ∧ s.cmdLength = 0) : ∃ s', s.step e = some s' := by
  have hnever : Sat Granted (s.handle e.buf) (fun _ _ => False) fun _ s' => Ready (k.next e) s' :=
    (sat_handle h).mono (fun _ _ ⟨he, hm⟩ => hm.elim (hfine he).1 fun hc => hc (hfine he).2)
      fun _ _ => id
  obtain ⟨s', hout, -⟩ := hnever.returns e.env [] hs
  exact ⟨s', toOption_eq_some.mpr hout⟩

/-- **Every run** is ready between the turns. -/
theorem ready_of_run (h : Allowed step Supplied (init input) es)
    (hr : Lib.run step (init input) es = some s) : Ready (heard es) s :=
  run_history (fun es s => Ready (heard es) s)
    (fun past _ e _ hp hs hstep => heard_concat past e ▸ hp.step hs hstep) ready_init h hr

/-- A run with harmless lines only goes through, when a command is registered before the first Enter. -/
theorem run_harmless (h : Allowed step Supplied (init input) es)
    (hreg : ∀ es₁ e es₂, es = es₁ ++ e :: es₂ → e.Enters → (heard es₁).registered ≠ [])
    (hl : ∀ l ∈ (heard es).lines, Harmless l) :
    ∃ s, Lib.run step (init input) es = some s ∧ s.cmdLength = 0 := by
  induction es using List.reverseRecOn with
  | nil => exact ⟨init input, rfl, rfl⟩
  | append_singleton es e ih =>
      rw [heard_concat] at hl
      obtain ⟨s, hr, hc⟩ := ih h.left
        (fun es₁ e' es₂ he => hreg es₁ e' (es₂ ++ [e]) (by rw [he]; simp))
        fun l hmem => hl l (mem_lines_next hmem)
      have hready := ready_of_run h.left hr
      obtain ⟨s', hs'⟩ := hready.progress (h.last hr) fun he => ⟨hreg es e [] rfl he, hc⟩
      refine ⟨s', ?_, (hready.step (h.last hr) hs').harmless hl⟩
      rw [run_concat, hr]
      exact hs'

/-! ## 4. Command lines -/

variable {E : List (Exchange Answer) → TaskFault → Prop} {P : List (Exchange Answer) → Kcd → Prop}

/-- Enter behind a command. -/
theorem sat_commandLine (h : Ready k s) (he : e.Enters) (hline : k.line = char '%' :: cmd)
    (h0 : cmd ≠ []) (hfit : cmd.length ≤ kcdCmdBufSize)
    (hthen : ∀ q tr, Idle tr → Sat A (s.taken cmd q).command (fun tr' => E (tr ++ tr'))
      fun tr' s' => s'.cmdInvalid = false ∧ P (tr ++ tr') s') : Sat A (s.handle e.buf) E P := by
  have hreg : e.buf.type ≠ kcdReg := by
    rw [he.1]
    decide
  unfold handle key
  rw [if_neg hreg, if_pos he.1]
  refine (sat_consoleText _).bind fun tr1 _ htr1 => ?_
  rw [if_pos he.2]
  obtain ⟨ys, hys, hmap⟩ := h.queue
  rw [hline] at hmap
  obtain ⟨⟨a, v⟩, ys, rfl, rfl, rfl⟩ := List.map_eq_cons_iff.mp hmap
  refine sat_enter_command hys (mt List.map_eq_nil_iff.mpr h0) (by rwa [List.length_map] at hfit)
    h.cmdInvalid h.cmdLength fun q tr htr _ => ?_
  have := hthen q (tr1 ++ tr) (htr1.append htr)
  simp only [List.append_assoc] at this
  exact this

/-- Enter behind a command of the right length. -/
structure CommandLine (k : Heard) (s : Kcd) (e : Delivery) (cmd : List UInt8) : Prop where
  enters : e.Enters
  supplied : s.Supplied e
  line : k.line = char '%' :: cmd
  pos : 1 ≤ cmd.length
  fits : cmd.length ≤ kcdCmdBufSize

theorem CommandLine.ne_nil (hc : CommandLine k s e cmd) : cmd ≠ [] :=
  List.ne_nil_of_length_pos hc.pos

/-- **When a line is listed**: it begins with LT or LM, or it is an L and the second character of an
    earlier line makes it one. -/
theorem listings_commandLine (h : Ready k s) (hc : CommandLine k s e cmd) :
    0 < listings (s.exchanges e) ↔ chars "LT" <+: cmd ∨ chars "LM" <+: cmd ∨
      cmd = [char 'L'] ∧ (s.input 1 = char 'T' ∨ s.input 1 = char 'M') := by
  rw [← isListing_taken (q := s.inputQueue) hc.ne_nil hc.fits]
  by_cases hl : (s.taken cmd s.inputQueue).IsListing
  · have hs : Sat Granted (s.handle e.buf) (fun _ _ => False) fun tr _ => listings tr = 1 := by
      refine sat_commandLine h hc.enters hc.line hc.ne_nil hc.fits fun q tr htr => ?_
      refine (sat_listing (s := s.taken cmd q) hl).imp ?_
      intro tr' _ hp
      obtain ⟨rfl, -, h1⟩ := hp
      exact ⟨h.cmdInvalid, htr.listings_eq.trans h1⟩
    obtain ⟨-, -, h1⟩ := hs.returns e.env [] hc.supplied
    exact iff_of_true (h1.symm ▸ Nat.one_pos) hl
  · have hs : Sat Granted (s.handle e.buf) (fun tr _ => listings tr = 0)
        fun tr _ => listings tr = 0 := by
      refine sat_commandLine h hc.enters hc.line hc.ne_nil hc.fits fun q tr htr => ?_
      refine (sat_ordinary_taken (q := q) h hc.ne_nil hc.fits (fun _ hx => hx) hl).mono ?_ ?_
      · intro tr' _ hp
        obtain ⟨htr', -⟩ := hp
        exact htr.listings_eq.trans htr'.2
      · intro tr' _ hp
        obtain ⟨rfl, h0, -⟩ := hp
        exact ⟨h.cmdInvalid, htr.listings_eq.trans h0⟩
    have h0 : listings (s.exchanges e) = 0 :=
      Sat.holds (T := fun tr => listings tr = 0) hs e.env [] hc.supplied
    exact iff_of_false (by rw [h0]; exact Nat.lt_irrefl 0) hl

/-- **A command is dispatched** as it was typed: one message with a command is sent, to the handler
    and with the characters of the command, and nothing is listed. -/
def Dispatches (s : Kcd) (e : Delivery) (cmd : List UInt8) (t : UInt8) : Prop :=
  (∃ b, commands (s.exchanges e) = [(t.toNat, b)] ∧ b.length = msgHdrSize + cmd.length ∧
    b.payload = cmd) ∧ listings (s.exchanges e) = 0

theorem cmdLength_taken (hfit : cmd.length ≤ kcdCmdBufSize) :
    (s.taken cmd q).cmdLength = add32 s.cmdLength cmd.length := by
  show add32 s.cmdLength (min kcdCmdBufSize cmd.length) = _
  rw [Nat.min_eq_right hfit]

/-- The message when nothing was carried over. -/
theorem commandMessage_taken (hfit : cmd.length ≤ kcdCmdBufSize) (hc : s.cmdLength = 0) :
    (s.taken cmd q).commandMessage = Buf.ofMsg (message (UInt8.ofNat tidKcd) kcdCmd cmd) := by
  have h64 : kcdCmdBufSize = 64 := rfl
  have hlen : (s.taken cmd q).cmdLength = cmd.length := by
    rw [cmdLength_taken hfit, hc, add32_eq (by omega), Nat.zero_add]
  have hdata : (List.range cmd.length).map (s.taken cmd q).input = cmd := by
    refine List.ext_getElem (by simp) fun i h1 h2 => ?_
    rw [List.getElem_map, List.getElem_range, input_taken hfit, if_pos h2, List.getD_eq_getElem]
  unfold commandMessage
  rw [hlen, if_pos (by omega), hdata]
  rfl

/-- The length field tells whether something was. -/
theorem length_commandMessage_taken (hfit : cmd.length ≤ kcdCmdBufSize)
    (hlt : s.cmdLength < 2 ^ 32) : (s.taken cmd q).commandMessage.length = msgHdrSize + cmd.length ↔
      s.cmdLength = 0 := by
  have h6 : msgHdrSize = 6 := rfl
  have h64 : kcdCmdBufSize = 64 := rfl
  unfold commandMessage
  rw [length_ofMsg_header, cmdLength_taken hfit, h6]
  unfold add32
  omega

/-- What a command that is not listed makes the task send. -/
theorem commands_commandLine (h : Ready k s) (hc : CommandLine k s e cmd)
    (hl : ¬ (s.taken cmd s.inputQueue).IsListing)
    (ht : k.registered.reverse.lookup (cmd.getD 0 0) = some t)
    (hlive : ∀ x ∈ s.exchanges e, LiveAt t x) :
    commands (s.exchanges e) = [(t.toNat, (s.taken cmd s.inputQueue).commandMessage)] ∨
      commands (s.exchanges e) = [] ∧ s.cmdLength ≠ 0 := by
  have hs : Sat (fun x => Granted x ∧ LiveAt t x) (s.handle e.buf)
      (fun tr _ => commands tr = [] ∧ s.cmdLength ≠ 0)
      fun tr _ => commands tr = [(t.toNat, (s.taken cmd s.inputQueue).commandMessage)] := by
    refine sat_commandLine h hc.enters hc.line hc.ne_nil hc.fits fun q tr htr => ?_
    refine (sat_ordinary_taken (q := q) h hc.ne_nil hc.fits (fun _ hx => hx.1) hl).mono ?_ ?_
    · intro tr' _ hp
      obtain ⟨htr', hm | hne⟩ := hp
      · rw [hm] at ht
        exact absurd ht nofun
      · exact ⟨htr.commands_eq.trans htr'.1, hne⟩
    · intro tr' _ hp
      obtain ⟨rfl, -, hcmd⟩ := hp
      exact ⟨h.cmdInvalid, htr.commands_eq.trans (hcmd t ht fun _ hx => hx.2)⟩
  have hp := hs.play e.env [] fun x hx => ⟨hc.supplied x hx, hlive x hx⟩
  unfold exchanges
  cases hout : (play e.env (s.handle e.buf) []).2 with
  | ok s' => exact Or.inl (hp.of_ok hout)
  | error err => exact Or.inr (hp.of_error hout)

/-- A command that was sent is the one that was typed if no length was carried over to it. -/
theorem dispatches_iff (h : Ready k s) (hc : CommandLine k s e cmd)
    (hnone : listings (s.exchanges e) = 0) (hcmd : commands (s.exchanges e) =
      [(t.toNat, (s.taken cmd s.inputQueue).commandMessage)]) :
    s.Dispatches e cmd t ↔ s.cmdLength = 0 := by
  have hlen := length_commandMessage_taken (q := s.inputQueue) hc.fits h.cmdLength
  constructor
  · intro hp
    obtain ⟨⟨b, hb, hlenb, -⟩, -⟩ := hp
    rw [hcmd] at hb
    obtain rfl : (s.taken cmd s.inputQueue).commandMessage = b := by simpa using hb
    exact hlen.mp hlenb
  · intro h0
    have hfits : msgHdrSize + cmd.length < 2 ^ 32 := by
      have h6 : msgHdrSize = 6 := rfl
      have hle : cmd.length ≤ 64 := hc.fits
      omega
    refine ⟨⟨_, hcmd, hlen.mpr h0, ?_⟩, hnone⟩
    rw [commandMessage_taken hc.fits h0]
    exact payload_ofMsg_message hfits

/-- **Command dispatch.** In every run, a command of at most 64 characters that is registered and
    does not begin with LT or LM is dispatched as it was typed exactly when no length was carried
    over to it, and it is not an L behind which an earlier line left a T or an M; harmless lines
    carry nothing over. And a command is listed only if it begins with LT or LM, or is such
    an L. -/
theorem dispatch_exact (h : Allowed step Supplied (init input) es)
    (hr : Lib.run step (init input) es = some s) :
    ((∀ l ∈ (heard es).lines, Harmless l) → s.cmdLength = 0) ∧
    ∀ e cmd, CommandLine (heard es) s e cmd →
      (0 < listings (s.exchanges e) ↔ chars "LT" <+: cmd ∨ chars "LM" <+: cmd ∨
        cmd = [char 'L'] ∧ (s.input 1 = char 'T' ∨ s.input 1 = char 'M')) ∧
      ∀ t, (heard es).registered.reverse.lookup (cmd.getD 0 0) = some t →
        (∀ x ∈ s.exchanges e, LiveAt t x) → ¬ chars "LT" <+: cmd → ¬ chars "LM" <+: cmd →
        (s.Dispatches e cmd t ↔ s.cmdLength = 0 ∧
          ¬ (cmd = [char 'L'] ∧ (s.input 1 = char 'T' ∨ s.input 1 = char 'M'))) := by
  have hready := ready_of_run h hr
  refine ⟨hready.harmless, fun e cmd hc => ⟨listings_commandLine hready hc, ?_⟩⟩
  intro t ht hlive hLT hLM
  have hstale := isListing_taken (s := s) (q := s.inputQueue) hc.ne_nil hc.fits
  simp only [hLT, hLM, false_or] at hstale
  have hlist := listings_commandLine hready hc
  simp only [hLT, hLM, false_or] at hlist
  rw [← hstale] at hlist ⊢
  by_cases hl : (s.taken cmd s.inputQueue).IsListing
  · have hpos := hlist.mpr hl
    exact iff_of_false (fun hd => by rw [hd.2] at hpos; exact Nat.lt_irrefl 0 hpos) fun hd => hd.2 hl
  have hnone : listings (s.exchanges e) = 0 := Nat.eq_zero_of_not_pos (mt hlist.mp hl)
  rcases commands_commandLine hready hc hl ht hlive with hcmd | ⟨hcmd, hne⟩
  · exact (dispatches_iff hready hc hnone hcmd).trans (and_iff_left hl).symm
  · refine iff_of_false ?_ fun hd => hne hd.1
    intro hp
    obtain ⟨⟨b, hb, -⟩, -⟩ := hp
    rw [hcmd] at hb
    cases hb

end Kcd

/-- A key is pressed, and its node is at `a`. -/
def Delivery.presses (c : Char) (a : Nat) : Delivery :=
  ⟨Buf.ofMsg (message (UInt8.ofNat tidUart) keyIn [char c]), granting a⟩

/-- A text is typed, whose nodes are from `a` on. -/
def typing (text : String) (a : Nat) : List Delivery :=
  text.toList.zipIdx.map fun x => .presses x.1 (a + 32 * x.2)

namespace Kcd

variable {s : Kcd} {k : Heard} {cmd : List UInt8} {input : Buf}

/-- Enter behind a text, in a turn that goes well. -/
theorem commandLine_presses {a : Nat} (hline : k.line = char '%' :: cmd) (hpos : 1 ≤ cmd.length)
    (hfits : cmd.length ≤ kcdCmdBufSize) : CommandLine k s (.presses '\r' a) cmd :=
  ⟨⟨rfl, last_ofMsg_message _⟩, fun x hx => (play_granting 0 x hx).1, hline, hpos, hfits⟩

theorem allowed_typing {l : List Delivery} (text : String) (a : Nat)
    (hl : ∀ e ∈ l, ∃ a, e.env = granting a) :
    Allowed step Supplied (init input) (l ++ typing text a) := by
  refine allowed_granting fun e he => ?_
  rcases List.mem_append.mp he with he | he
  · exact hl e he
  · obtain ⟨x, -, rfl⟩ := List.mem_map.mp he
    exact ⟨_, rfl⟩

theorem dispatch_exact_first : ∃ s,
    Lib.run step (init fun _ => 0) ([.registers 'A' 5 0] ++ typing "%A1" 32) = some s ∧
    s.Dispatches (.presses '\r' 128) (chars "A1") 5 := by
  have hr : (Lib.run step (init fun _ => 0) ([.registers 'A' 5 0] ++ typing "%A1" 32)).isSome :=
    by decide +kernel
  obtain ⟨s, hs⟩ := Option.isSome_iff_exists.mp hr
  obtain ⟨hzero, hall⟩ := dispatch_exact
    (allowed_typing (l := [.registers 'A' 5 0]) "%A1" 32 (by simp [Delivery.registers])) hs
  have hlines : (heard ([.registers 'A' 5 0] ++ typing "%A1" 32)).lines = [] := by decide +kernel
  have hc : CommandLine (heard ([.registers 'A' 5 0] ++ typing "%A1" 32)) s (.presses '\r' 128)
      (chars "A1") := commandLine_presses (by decide +kernel) (by decide) (by decide)
  refine ⟨s, hs, ((hall _ _ hc).2 5 (by decide +kernel) (fun x hx => (play_granting 5 x hx).2)
    (by decide) (by decide)).mpr ⟨hzero (hlines ▸ nofun), fun hL => ?_⟩⟩
  exact absurd (congrArg List.length hL.1) (by decide)

/-- **Behind %AT the command %L is listed**: the T of the earlier line is still in `input`. -/
theorem listed_behind : ¬ ∀ input es s, Allowed step Supplied (init input) es →
    Lib.run step (init input) es = some s →
    ∀ e cmd t, CommandLine (heard es) s e cmd →
      (heard es).registered.reverse.lookup (cmd.getD 0 0) = some t →
      (∀ x ∈ s.exchanges e, LiveAt t x) → ¬ chars "LT" <+: cmd → ¬ chars "LM" <+: cmd →
      s.Dispatches e cmd t := by
  intro h
  have hr : (Lib.run step (init fun _ => 0) ([.registers 'A' 5 0, .registers 'L' 6 32] ++
      typing "%AT\r%L" 64)).isSome := by decide +kernel
  obtain ⟨s, hs⟩ := Option.isSome_iff_exists.mp hr
  have hc : CommandLine (heard ([.registers 'A' 5 0, .registers 'L' 6 32] ++
      typing "%AT\r%L" 64)) s (.presses '\r' 256) (chars "L") :=
    commandLine_presses (by decide +kernel) (by decide) (by decide)
  obtain ⟨-, hnone⟩ := h _ _ s (allowed_typing (l := [.registers 'A' 5 0, .registers 'L' 6 32]) _ 64
    (by simp [Delivery.registers])) hs _ _ 6 hc (by decide +kernel)
    (fun x hx => (play_granting 6 x hx).2) (by decide) (by decide)
  have hlisted : (Lib.run step (init fun _ => 0) ([.registers 'A' 5 0, .registers 'L' 6 32] ++
      typing "%AT\r%L" 64)).map (fun s => listings (s.exchanges (.presses '\r' 256))) = some 1 := by
    decide +kernel
  rw [hs, Option.map_some, hnone] at hlisted
  cases hlisted

end Kcd

end Rtx
