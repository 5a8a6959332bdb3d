/-
  File:      Rtx/User/Line.lean
  Subject:   What a turn of the decoder does with a line.

  The loops over the queue of characters, the listing commands and the dispatch, one rule each. Of
  the exchanges two things are kept: the messages with commands (`commands`) and the number of
  listing calls (`listings`); a part of a turn without either is `Idle`.

  The text of a command goes to the front of `input`, and its length is added to `cmd_length`
  (`sat_fill`); only the dispatch sets it back to zero (`sat_ordinary`).
-/
import Rtx.User.Registry

namespace Rtx

open Lib Proc

/-! ## 1. Exchanges -/

/-- A call that lists ids. -/
def Request.isListing : Request → Bool
  | .tskLs _ | .mbxLs _ => true
  | _ => false

/-- The messages with a command. -/
def commands (tr : List (Exchange Answer)) : List (Nat × Buf) :=
  (sends tr).filter fun m => m.2.type = kcdCmd

/-- The number of listing calls. -/
def listings (tr : List (Exchange Answer)) : Nat := tr.countP fun x => x.req.isListing

/-- No command is sent and nothing is listed. -/
def Idle (tr : List (Exchange Answer)) : Prop := commands tr = [] ∧ listings tr = 0

variable {tr tr' : List (Exchange Answer)} {A : Exchange Answer → Prop} {α : Type}
  {E : List (Exchange Answer) → TaskFault → Prop} {P : List (Exchange Answer) → α → Prop}

@[simp] theorem commands_append : commands (tr ++ tr') = commands tr ++ commands tr' := by
  simp [commands]

@[simp] theorem listings_append : listings (tr ++ tr') = listings tr + listings tr' :=
  List.countP_append

theorem idle_nil : Idle [] := ⟨rfl, rfl⟩

theorem Idle.append (h : Idle tr) (h' : Idle tr') : Idle (tr ++ tr') :=
  ⟨by rw [commands_append, h.1, h'.1, List.append_nil], by rw [listings_append, h.2, h'.2]⟩

theorem Idle.commands_eq (h : Idle tr) : commands (tr ++ tr') = commands tr' := by
  rw [commands_append, h.1, List.nil_append]

theorem Idle.listings_eq (h : Idle tr) : listings (tr ++ tr') = listings tr' := by
  rw [listings_append, h.2, Nat.zero_add]

theorem idle_memAlloc {size : Nat} {a : Option Nat} : Idle [⟨.memAlloc size, a⟩] := ⟨rfl, rfl⟩

theorem idle_memDealloc {ptr : Option Nat} {r : Int} : Idle [⟨.memDealloc ptr, r⟩] := ⟨rfl, rfl⟩

theorem idle_tskGet {tid : Nat} {r : Int × TaskState} : Idle [⟨.tskGet tid, r⟩] := ⟨rfl, rfl⟩

theorem idle_mbxGet {tid : Nat} {r : Int} : Idle [⟨.mbxGet tid, r⟩] := ⟨rfl, rfl⟩

/-- A text for the console is no command. -/
theorem sat_consoleText (text : List UInt8) :
    Sat A (consoleText text) E fun tr _ => Idle tr := by
  intro r _
  refine ⟨?_, rfl⟩
  show List.filter _ [(tidCon, Buf.ofMsg (message (UInt8.ofNat tidKcd) display text))] = []
  rw [List.filter_cons_of_neg (by simp [display, kcdCmd]), List.filter_nil]

/-! ## 2. The listing commands -/

theorem tidString_ne_nil (tid : UInt8) : tidString tid ≠ [] := by
  unfold tidString
  split
  · decide
  next h =>
    have hn : tid.toNat ≠ 0 := fun h0 => h (UInt8.toNat_inj.mp h0)
    simp [decimal, Nat.digits_eq_nil_iff_eq_zero, hn]

/-- Get a block and go on. -/
theorem sat_block {size : Nat} (hpos : 0 < size) {f : Nat → UserM α}
    (h : ∀ a, Sat Granted (f a) (fun tr => E (⟨.memAlloc size, some a⟩ :: tr))
      fun tr => P (⟨.memAlloc size, some a⟩ :: tr)) :
    Sat Granted (Sys.memAlloc size >>= fun x => nonNull x >>= f) E P := by
  intro a ha
  cases a with
  | none => exact absurd rfl (ha hpos)
  | some a => exact h a

/-- A line never fails when its blocks are there. -/
theorem sat_listTask (a : Nat) (tid : UInt8) :
    Sat Granted (listTask (some a) tid) (fun _ _ => False) fun tr _ => Idle tr := by
  unfold listTask
  simp only [sat_call]
  intro hp _
  obtain ⟨ret, state⟩ := hp
  split
  · exact idle_tskGet
  refine sat_block (List.length_pos_iff.mpr (tidString_ne_nil tid)) fun b1 => ?_
  refine sat_block (Nat.lt_of_lt_of_le (by decide) (Nat.le_add_right _ _)) fun b2 => ?_
  refine (sat_consoleText _).bind fun tr _ htr => ?_
  intro r1 _ r2 _
  exact idle_tskGet.append (idle_memAlloc.append (idle_memAlloc.append (htr.append
    (idle_memDealloc.append idle_memDealloc))))

theorem sat_listMailbox (a b : Nat) (tid : UInt8) :
    Sat Granted (listMailbox (some a) (some b) tid) (fun _ _ => False) fun tr _ => Idle tr := by
  unfold listMailbox
  simp only [sat_call]
  intro hp _
  obtain ⟨ret, state⟩ := hp
  split
  · exact idle_tskGet
  simp only [sat_call]
  intro mbxFreeSpace _
  split
  · exact idle_tskGet.append idle_mbxGet
  refine sat_block (List.length_pos_iff.mpr (tidString_ne_nil tid)) fun b1 => ?_
  simp only [sat_call]
  intro spaceBlock hspace
  split
  next hnull => exact absurd hnull.2 (hspace (List.length_pos_iff.mpr hnull.1))
  refine (sat_consoleText _).bind fun tr _ htr => ?_
  intro r1 _ r2 _
  exact idle_tskGet.append (idle_mbxGet.append (idle_memAlloc.append (idle_memAlloc.append
    (htr.append (idle_memDealloc.append idle_memDealloc)))))

/-- A loop over ids. -/
theorem sat_forIds {ids : Buf} {body : UInt8 → UserM Unit}
    (hbody : ∀ tid, Sat A (body tid) (fun _ _ => False) fun tr _ => Idle tr) (n i : Nat) :
    Sat A (forIds ids body n i) (fun _ _ => False) fun tr _ => Idle tr := by
  induction n generalizing i with
  | zero => exact idle_nil
  | succ n ih =>
      exact (hbody _).bind fun tr _ h1 => (ih (i + 1)).imp fun tr' _ h2 => h1.append h2

/-- A listing call, and nothing else that counts. -/
theorem listed {x : Exchange Answer} (hc : commands [x] = []) (hl : x.req.isListing = true)
    (h : Idle tr) : commands (x :: tr) = [] ∧ listings (x :: tr) = 1 := by
  constructor
  · rw [← List.singleton_append, commands_append, hc, h.1, List.append_nil]
  · have h0 : tr.countP (fun x => x.req.isListing) = 0 := h.2
    unfold listings
    rw [List.countP_cons, h0, if_pos hl]

/-- The listing commands never fail, make one listing call and send no command. -/
theorem sat_listTasks : Sat Granted listTasks (fun _ _ => False)
    fun tr _ => commands tr = [] ∧ listings tr = 1 := by
  unfold listTasks
  simp only [sat_call]
  intro hp _
  obtain ⟨tskNdCount, tskNdBuffer⟩ := hp
  split
  · exact ⟨rfl, rfl⟩
  simp only [sat_call]
  intro tskInfoString hblock
  obtain ⟨a, rfl⟩ := Option.ne_none_iff_exists'.mp (hblock (by decide))
  refine (sat_forIds (sat_listTask a) _ _).bind fun tr _ htr => ?_
  intro r _
  exact listed rfl rfl (idle_memAlloc.append (htr.append idle_memDealloc))

theorem sat_listMailboxes : Sat Granted listMailboxes (fun _ _ => False)
    fun tr _ => commands tr = [] ∧ listings tr = 1 := by
  unfold listMailboxes
  simp only [sat_call]
  intro hp _
  obtain ⟨mbxNdCount, mbxNdBuffer⟩ := hp
  split
  · exact ⟨rfl, rfl⟩
  simp only [sat_call]
  intro tskInfoString hblock cmdBuffer hblock'
  obtain ⟨a, rfl⟩ := Option.ne_none_iff_exists'.mp (hblock (by decide))
  obtain ⟨b, rfl⟩ := Option.ne_none_iff_exists'.mp (hblock' (by decide))
  refine (sat_forIds (sat_listMailbox a b) _ _).bind fun tr _ htr => ?_
  intro r1 _ r2 _
  exact listed rfl rfl (idle_memAlloc.append (idle_memAlloc.append (htr.append
    (idle_memDealloc.append idle_memDealloc))))

/-! ## 3. The loops over the queue -/

/-- Characters written to memory from `i` on. -/
def Buf.fillFrom (b : Buf) (i : Nat) : List UInt8 → Buf
  | [] => b
  | c :: cs => Buf.fillFrom (Function.update b i c) (i + 1) cs

theorem Buf.fillFrom_apply (b : Buf) (i : Nat) (cs : List UInt8) (j : Nat) :
    b.fillFrom i cs j = if i ≤ j ∧ j < i + cs.length then cs.getD (j - i) 0 else b j := by
  induction cs generalizing b i with
  | nil =>
      rw [if_neg (by simp only [List.length_nil]; omega)]
      rfl
  | cons c cs ih =>
      rw [fillFrom, ih, List.length_cons]
      by_cases hj : j = i
      · rw [hj, if_neg (by omega), if_pos (by omega), Function.update_self, Nat.sub_self,
          List.getD_cons_zero]
      · rw [Function.update_of_ne hj]
        by_cases hin : i + 1 ≤ j ∧ j < i + 1 + cs.length
        · rw [if_pos hin, if_pos (by omega), show j - i = j - (i + 1) + 1 by omega,
            List.getD_cons_succ]
        · rw [if_neg hin, if_neg (by omega)]

namespace Kcd

variable {s s' : Kcd} {n k i a : Nat} {v : UInt8} {ys : List (Nat × UInt8)}
  {m : List (UInt8 × UInt8)} {P : List (Exchange Answer) → Kcd → Prop}

/-- The first character of the queue. -/
theorem sat_popChar (h : s.inputQueue.Spans n ((a, v) :: ys)) : Sat A s.popChar E fun tr r =>
    Idle tr ∧ ∃ q, r = (v, { s with inputQueue := q }) ∧ q.Spans n ys := by
  obtain ⟨q, hpop, hq⟩ := h.popHead
  unfold popChar
  rw [hpop]
  exact fun r _ => ⟨idle_memDealloc, q, rfl, hq⟩

theorem head_eq_none_iff (h : s.inputQueue.Spans n ys) : s.inputQueue.head = none ↔ ys = [] := by
  cases ys with
  | nil => exact iff_of_true h.path rfl
  | cons y ys => simp [h.path.1]

/-- The characters that are moved, their number, and those that stay. -/
theorem sat_fill (h : s.inputQueue.Spans n ys) (hys : ys ≠ []) (hlen : s.cmdLength < 2 ^ 32) :
    Sat A (fill s k i) E fun tr s' => Idle tr ∧ ∃ q, s' = { s with
      input := s.input.fillFrom i ((ys.take k).map Prod.snd)
      cmdLength := add32 s.cmdLength (min k ys.length)
      inputQueue := q } ∧ q.Spans n (ys.drop k) := by
  induction k generalizing s i ys E with
  | zero =>
      refine ⟨idle_nil, s.inputQueue, ?_, h⟩
      rw [Nat.zero_min, add32_eq hlen]
      rfl
  | succ k ih =>
      obtain ⟨⟨a, v⟩, ys, rfl⟩ := List.exists_cons_of_ne_nil hys
      unfold fill
      refine (sat_popChar h).bind ?_
      intro tr _ hp
      obtain ⟨htr, q, rfl, hq⟩ := hp
      dsimp only
      have hadd : add32 (add32 s.cmdLength 1) (min k ys.length) =
          add32 s.cmdLength (min (k + 1) (ys.length + 1)) := by
        unfold add32
        omega
      have hempty : q.head = none ↔ ys = [] := head_eq_none_iff (s := { s with inputQueue := q }) hq
      split
      next hnone =>
        obtain rfl := hempty.mp hnone
        rw [List.length_nil, Nat.min_zero, add32_eq (Nat.mod_lt _ (by decide))] at hadd
        refine ⟨htr.append idle_nil, { q with tail := none }, ?_, ?_⟩
        · rw [List.take_succ_cons, List.take_nil, List.length_singleton, ← hadd]
          rfl
        · rw [List.drop_succ_cons, List.drop_nil]
          exact Strung.spans_nil hnone
      next hsome =>
        refine (ih (s := ⟨s.cmdRegList, q, Function.update s.input i v, s.cmdFound, s.cmdInvalid,
          add32 s.cmdLength 1, s.blocks⟩) hq (mt hempty.mpr hsome) (Nat.mod_lt _ (by decide))).imp ?_
        intro tr' s' hp
        obtain ⟨htr', q', rfl, hq'⟩ := hp
        refine ⟨htr.append htr', q', ?_, hq'⟩
        rw [List.take_succ_cons, List.length_cons, ← hadd]
        rfl

/-- The loop that empties the queue, with enough turns. -/
theorem sat_discard (h : s.inputQueue.Spans n ys) (hk : ys.length < k) :
    Sat A (discard s k) E fun tr s' =>
      Idle tr ∧ ∃ q, s' = { s with inputQueue := q } ∧ q.Spans n [] := by
  induction k generalizing s ys E with
  | zero => exact absurd hk (Nat.not_lt_zero _)
  | succ k ih =>
      unfold discard
      have hempty := head_eq_none_iff h
      split
      next hnone => exact ⟨idle_nil, s.inputQueue, rfl, hempty.mp hnone ▸ h⟩
      next hsome =>
        obtain ⟨⟨a, v⟩, ys, rfl⟩ := List.exists_cons_of_ne_nil (mt hempty.mpr hsome)
        refine (sat_popChar h).bind ?_
        intro tr _ hp
        obtain ⟨htr, q, rfl, hq⟩ := hp
        refine (ih (s := { s with inputQueue := q }) hq (Nat.lt_of_succ_lt_succ hk)).imp ?_
        intro tr' s' hp
        obtain ⟨htr', q', rfl, hq'⟩ := hp
        exact ⟨htr.append htr', q', rfl, hq'⟩

/-! ## 4. The dispatch -/

/-- The text in `input` is taken for a listing command. -/
def IsListing (s : Kcd) : Prop :=
  s.input 0 = char 'L' ∧ (s.input 1 = char 'T' ∨ s.input 1 = char 'M')

/-- The message of the dispatch. -/
def commandMessage (s : Kcd) : Buf := Buf.ofMsg
  (header (msgHdrSize + s.cmdLength) (UInt8.ofNat tidKcd) kcdCmd ++
    (List.range (if s.cmdLength < 2 ^ 31 then s.cmdLength else 0)).map s.input)

theorem type_commandMessage (s : Kcd) : s.commandMessage.type = kcdCmd := rfl

/-- **The dispatch** sends one command, if the handler lives, and sets the length back. -/
theorem sat_ordinary (hA : ∀ x, A x → Granted x) (hm : s.Registered m) (hne : m ≠ [])
    (hf : s.cmdFound = false) :
    Sat A s.ordinary (fun tr _ => Idle tr ∧ add32 msgHdrSize s.cmdLength = 0) fun tr s' =>
      s' = { s with cmdFound := false, cmdLength := 0 } ∧ listings tr = 0 ∧
      ∀ t, m.lookup (s.input 0) = some t → (∀ x, A x → LiveAt t x) →
        commands tr = [(t.toNat, s.commandMessage)] := by
  unfold ordinary
  rw [findHandler_eq hm hne]
  cases m.lookup (s.input 0) with
  | none =>
      simp only [ret_bind, Option.isSome_none, Bool.false_eq_true, if_false, hf, pure_bind]
      refine (sat_consoleText _).bind fun tr _ htr => ⟨rfl, ?_, nofun⟩
      rw [List.append_nil]
      exact htr.2
  | some t =>
      simp only [ret_bind, Option.isSome_some, Option.getD_some, if_true, sat_call]
      intro hp hlive
      obtain ⟨ret, state⟩ := hp
      by_cases hd : state = .dormant
      · simp only [hd, if_true, pure_bind, Bool.false_eq_true, if_false]
        refine (sat_consoleText _).bind fun tr _ htr => ⟨rfl, ?_, fun t' ht hall => ?_⟩
        · rw [List.append_nil]
          exact (idle_tskGet.append htr).2
        · obtain rfl := Option.some.inj ht
          exact absurd hd (hall _ hlive rfl)
      · simp only [hd, if_false, pure_bind, if_true]
        intro a ha
        cases a with
        | none => exact ⟨⟨rfl, rfl⟩, by_contra fun h0 => hA _ ha (Nat.pos_of_ne_zero h0) rfl⟩
        | some a =>
            intro r1 _ r2 _
            refine ⟨rfl, rfl, fun t' ht _ => ?_⟩
            obtain rfl := Option.some.inj ht
            exact List.filter_cons_of_pos (decide_eq_true (type_commandMessage s))

/-- A listing command leaves the variables as they are, `cmd_length` too. -/
theorem sat_listing (h : s.IsListing) : Sat Granted s.command (fun _ _ => False)
    fun tr s' => s' = s ∧ commands tr = [] ∧ listings tr = 1 := by
  have hpure : ∀ {p : UserM Unit}, Sat Granted p (fun _ _ => False)
      (fun tr _ => commands tr = [] ∧ listings tr = 1) →
      Sat Granted (p >>= fun _ => pure s) (fun _ _ => False)
        fun tr s' => s' = s ∧ commands tr = [] ∧ listings tr = 1 := fun hp =>
    hp.bind fun tr _ htr => ⟨rfl, by rw [List.append_nil]; exact htr⟩
  have hTM : char 'T' ≠ char 'M' := by decide
  unfold command
  rcases h with ⟨h0, h1 | h1⟩
  · rw [if_pos ⟨h0, h1⟩]
    exact hpure sat_listTasks
  · rw [if_neg fun h => hTM (h.2.symm.trans h1), if_pos ⟨h0, h1⟩]
    exact hpure sat_listMailboxes

theorem command_eq (h : ¬ s.IsListing) : s.command = s.ordinary := by
  unfold command
  rw [if_neg fun hT => h ⟨hT.1, Or.inl hT.2⟩, if_neg fun hM => h ⟨hM.1, Or.inr hM.2⟩]

/-! ## 5. Enter -/

/-- The first character decides. -/
theorem readLine_eq (h : s.inputQueue.Spans n ((a, v) :: ys)) : s.readLine =
    if v = char '%' then s.popChar >>= fun r =>
      if r.2.inputQueue.head = none then pure r.2 else r.2.takeCommand
    else pure { s with cmdInvalid := true } := by
  obtain ⟨hhead, next, hnode, -⟩ := h.path
  unfold readLine
  simp only [hhead, hnode, live, ret_bind]

/-- The end of a turn whose line was invalid. -/
theorem sat_throwAway (h : s.inputQueue.Spans s.blocks.length ys) :
    Sat A (do
      let s ← s.discard (s.blocks.length + 1)
      let _ ← consoleText (chars "Invalid command\r\n")
      return { s with cmdInvalid := false }) E fun tr s' =>
      Idle tr ∧ ∃ q, s' = { s with inputQueue := q, cmdInvalid := false } ∧
        q.Spans s.blocks.length [] := by
  refine (sat_discard h (Nat.lt_succ_of_le h.length_le)).bind ?_
  intro tr _ hp
  obtain ⟨htr, q, rfl, hq⟩ := hp
  refine (sat_consoleText _).bind fun tr' _ htr' => ⟨?_, q, rfl, hq⟩
  rw [List.append_nil]
  exact htr.append htr'

/-- No character, or only the first one of a command. -/
theorem sat_enter_short (h : s.inputQueue.Spans n ys) (hi : s.cmdInvalid = false)
    (hys : ys.map Prod.snd = [] ∨ ys.map Prod.snd = [char '%']) : Sat A s.enter E fun tr s' =>
    Idle tr ∧ ∃ q, s' = { s with inputQueue := q } ∧ q.Spans n [] := by
  unfold enter
  rcases hys with hys | hys
  · obtain rfl := List.map_eq_nil_iff.mp hys
    have hhead : s.inputQueue.head = none := h.path
    unfold readLine
    simp only [hhead, pure_bind, hi, Bool.false_eq_true, if_false]
    exact ⟨idle_nil, s.inputQueue, hi ▸ rfl, h⟩
  · obtain ⟨⟨a, v⟩, rfl, rfl⟩ := List.map_eq_singleton_iff.mp hys
    rw [readLine_eq h, if_pos rfl]
    have hread : Sat A (s.popChar >>= fun r =>
        if r.2.inputQueue.head = none then pure r.2 else r.2.takeCommand) E fun tr s' =>
        Idle tr ∧ ∃ q, s' = { s with inputQueue := q } ∧ q.Spans n [] := by
      refine (sat_popChar h).bind ?_
      intro tr _ hp
      obtain ⟨htr, q, rfl, hq⟩ := hp
      rw [if_pos (show q.head = none from hq.path)]
      exact ⟨htr.append idle_nil, q, rfl, hq⟩
    refine hread.bind ?_
    intro tr _ hp
    obtain ⟨htr, q, rfl, hq⟩ := hp
    simp only [hi, Bool.false_eq_true, if_false]
    exact ⟨htr.append idle_nil, q, hi ▸ rfl, hq⟩

/-- A line that is no command. -/
theorem sat_enter_other (h : s.inputQueue.Spans s.blocks.length ((a, v) :: ys))
    (hv : v ≠ char '%') : Sat A s.enter E fun tr s' =>
    Idle tr ∧ ∃ q, s' = { s with inputQueue := q, cmdInvalid := false } ∧
      q.Spans s.blocks.length [] := by
  unfold enter
  rw [readLine_eq h, if_neg hv]
  exact sat_throwAway (s := { s with cmdInvalid := true }) h

/-- The variables when a command was taken over: its first characters are in `input`, and what is
    left of it is in the queue. -/
def taken (s : Kcd) (cmd : List UInt8) (q : Strung Nat UInt8) : Kcd := { s with
  input := s.input.fillFrom 0 (cmd.take kcdCmdBufSize)
  cmdLength := add32 s.cmdLength (min kcdCmdBufSize cmd.length)
  inputQueue := q }

theorem input_taken {cmd : List UInt8} (hfit : cmd.length ≤ kcdCmdBufSize)
    (q : Strung Nat UInt8) (i : Nat) :
    (s.taken cmd q).input i = if i < cmd.length then cmd.getD i 0 else s.input i := by
  unfold taken
  rw [List.take_of_length_le hfit]
  simp only [Buf.fillFrom_apply, Nat.zero_le, true_and, Nat.zero_add, Nat.sub_zero]

/-- A line with a command: some characters are freed, and then the command is looked at. -/
theorem sat_readLine (h : s.inputQueue.Spans n ((a, char '%') :: ys)) (hys : ys ≠ [])
    (hlen : s.cmdLength < 2 ^ 32)
    (hthen : ∀ q tr, Idle tr → q.Spans n (ys.drop kcdCmdBufSize) →
      Sat A (let s := s.taken (ys.map Prod.snd) q
        let s := if s.inputQueue.head ≠ none then { s with cmdInvalid := true } else s
        if s.cmdInvalid then return s else s.command)
      (fun tr' => E (tr ++ tr')) fun tr' => P (tr ++ tr')) : Sat A s.readLine E P := by
  rw [readLine_eq h, if_pos rfl]
  refine (sat_popChar h).bind ?_
  intro tr1 _ hp
  obtain ⟨htr1, q1, rfl, hq1⟩ := hp
  rw [if_neg (mt (head_eq_none_iff (s := { s with inputQueue := q1 }) hq1).mp hys)]
  refine (sat_fill (s := { s with inputQueue := q1 }) hq1 hys hlen).bind ?_
  intro tr2 _ hp
  obtain ⟨htr2, q2, rfl, hq2⟩ := hp
  have hrest := hthen q2 (tr1 ++ tr2) (htr1.append htr2) hq2
  unfold taken at hrest
  rw [← List.map_take, List.length_map] at hrest
  simp only [List.append_assoc] at hrest
  exact hrest

/-- A line that is too long. -/
theorem sat_enter_long (h : s.inputQueue.Spans s.blocks.length ((a, char '%') :: ys))
    (hlong : kcdCmdBufSize < ys.length) (hlen : s.cmdLength < 2 ^ 32) :
    Sat A s.enter E fun tr s' => Idle tr ∧ ∃ q,
      s' = { s.taken (ys.map Prod.snd) q with cmdInvalid := false } ∧
      q.Spans s.blocks.length [] := by
  unfold enter
  have hread : Sat A s.readLine E fun tr s' => Idle tr ∧ ∃ q,
      s' = { s.taken (ys.map Prod.snd) q with cmdInvalid := true } ∧
      q.Spans s.blocks.length (ys.drop kcdCmdBufSize) := by
    refine sat_readLine h (List.ne_nil_of_length_pos (by omega)) hlen fun q tr htr hq => ?_
    have hne : ys.drop kcdCmdBufSize ≠ [] := fun h0 =>
      absurd (List.drop_eq_nil_iff.mp h0) (Nat.not_le_of_lt hlong)
    have hhead : (s.taken (ys.map Prod.snd) q).inputQueue.head ≠ none :=
      mt (head_eq_none_iff (s := s.taken (ys.map Prod.snd) q) hq).mp hne
    simp only [if_pos hhead, if_true]
    exact ⟨htr.append idle_nil, q, rfl, hq⟩
  refine hread.bind ?_
  intro tr _ hp
  obtain ⟨htr, q, rfl, hq⟩ := hp
  refine (sat_throwAway (s := { s.taken (ys.map Prod.snd) q with cmdInvalid := true }) hq).imp ?_
  intro tr' s' hp
  obtain ⟨htr', q', rfl, hq'⟩ := hp
  exact ⟨htr.append htr', q', rfl, hq'⟩

/-- **A line with a command** of the right length: the turn goes on with the command. -/
theorem sat_enter_command (h : s.inputQueue.Spans n ((a, char '%') :: ys)) (hys : ys ≠ [])
    (hfit : ys.length ≤ kcdCmdBufSize) (hi : s.cmdInvalid = false) (hlen : s.cmdLength < 2 ^ 32)
    (hthen : ∀ q tr, Idle tr → q.Spans n [] → Sat A (s.taken (ys.map Prod.snd) q).command
      (fun tr' => E (tr ++ tr')) fun tr' s' => s'.cmdInvalid = false ∧ P (tr ++ tr') s') :
    Sat A s.enter E P := by
  unfold enter
  have hread : Sat A s.readLine E fun tr s' => s'.cmdInvalid = false ∧ P tr s' := by
    refine sat_readLine h hys hlen fun q tr htr hq => ?_
    rw [List.drop_eq_nil_of_le hfit] at hq
    have hhead : (s.taken (ys.map Prod.snd) q).inputQueue.head = none := hq.path
    have hinv : (s.taken (ys.map Prod.snd) q).cmdInvalid = false := hi
    simp only [hhead, ne_eq, not_true_eq_false, if_false, hinv, Bool.false_eq_true]
    exact hthen q tr htr hq
  refine hread.bind fun tr s' ⟨hinv, hp⟩ => ?_
  rw [hinv, if_neg Bool.false_ne_true, sat_pure, List.append_nil]
  exact hp

end Kcd

end Rtx
