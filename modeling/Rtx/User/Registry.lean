/-
  File:      Rtx/User/Registry.lean
  Subject:   The command registry of the decoder: the last registration of a command counts.

  Both the registration and the dispatch walk the list up to its last node, which they test for
  itself. `Registered s m` says that the list holds the commands and handlers of `m`, in order. A
  registration is a write to that map (`sat_register`) and a look-up is a read
  (`findHandler_eq`), so after any registrations a command has the handler that came last
  (`last_registration`).
-/
import Rtx.Lib.LastWriter
import Rtx.Lib.Runs
import Rtx.User.Kcd

namespace Rtx

open Lib Proc

/-! ## 1. Turns -/

/-- What starts a turn of the loop of `task_kcd`: what `recv_msg` leaves in the buffer, and how the calls of the
    task are answered. -/
structure Delivery where
  buf : Buf
  env : Env Answer

/-- What a registration says: the command and the sender. -/
def Delivery.registration (e : Delivery) : UInt8 × UInt8 := (e.buf.last, e.buf 4)

/-- A block that is asked for is there. -/
def Granted : Exchange Answer → Prop
  | ⟨.memAlloc size, a⟩ => 0 < size → a ≠ none
  | _ => True

/-- A task that is asked about is not dormant, if it is `t`. -/
def LiveAt (t : UInt8) : Exchange Answer → Prop
  | ⟨.tskGet tid, a⟩ => tid = t.toNat → a.2 ≠ .dormant
  | _ => True

/-- Where every call succeeds, every block is there and every task lives. -/
theorem play_granting {α : Type} {a : Nat} {p : UserM α} {past : List (Exchange Answer)} (t : UInt8) :
    ∀ x ∈ (play (granting a) p past).1, Granted x ∧ LiveAt t x := by
  induction p generalizing past with
  | ret b => exact nofun
  | fail e => exact nofun
  | ask r next ih =>
      rw [play_ask]
      refine List.forall_mem_cons.mpr ⟨?_, ih _⟩
      cases r with
      | memAlloc size => exact ⟨fun _ => nofun, trivial⟩
      | tskGet tid => exact ⟨trivial, fun _ => nofun⟩
      | _ => exact ⟨trivial, trivial⟩

namespace Kcd

/-- The exchanges of a turn. -/
def exchanges (s : Kcd) (e : Delivery) : List (Exchange Answer) := (play e.env (s.handle e.buf) []).1

/-- The step of a turn, or nothing when the task follows a pointer that leads nowhere. -/
def step (s : Kcd) (e : Delivery) : Option Kcd := (play e.env (s.handle e.buf) []).2.toOption

/-- Every block the task asks for in the turn is there. -/
def Supplied (s : Kcd) (e : Delivery) : Prop := ∀ x ∈ s.exchanges e, Granted x

/-! ## 2. The registry as a map -/

/-- A command with its handler. -/
def entry (x : Nat × Cmd) : UInt8 × UInt8 := (x.2.command, x.2.commandHandlerTid)

/-- The registry holds the commands and handlers `m`. -/
def Registered (s : Kcd) (m : List (UInt8 × UInt8)) : Prop :=
  ∃ xs, s.cmdRegList.Spans s.blocks.length xs ∧ xs.map entry = m

variable {s s' : Kcd} {m : List (UInt8 × UInt8)} {buf : Buf} {x : Nat × Cmd} {xs : List (Nat × Cmd)}
  {input : Buf} {es : List Delivery}

/-- The walk and the test behind it: the first node with the command, wherever it is. -/
theorem findCmd_spec (h : s.cmdRegList.Spans s.blocks.length (x :: xs)) (c : UInt8) :
    (∃ l₁ y l₂, x :: xs = l₁ ++ y :: l₂ ∧ (∀ u ∈ l₁, u.2.command ≠ c) ∧ y.2.command = c ∧
      s.findCmd x.1 c = .ret (some y)) ∨
    (∀ u ∈ x :: xs, u.2.command ≠ c) ∧ s.findCmd x.1 c = .ret none := by
  have hfuel : xs.length < s.blocks.length + 1 := by
    have := h.length_le
    rw [List.length_cons] at this
    omega
  obtain ⟨l₁, y, l₂, he, hstop, hl, hy⟩ :=
    Strung.stop_spec (p := fun c' => decide (c'.command = c)) h.path hfuel
  simp only [decide_eq_false_iff_not, decide_eq_true_eq] at hl hy
  unfold findCmd
  rw [hstop]
  by_cases hc : y.2.command = c
  · exact Or.inl ⟨l₁, y, l₂, he, hl, hc, by simp [live, hc]; rfl⟩
  · -- the walk ended at the last node
    obtain rfl : l₂ = [] := hy.resolve_left hc
    refine Or.inr ⟨fun u hu => ?_, by simp [live, hc]; rfl⟩
    rw [he] at hu
    rcases List.mem_append.mp hu with hu | hu
    · exact hl u hu
    · rw [List.mem_singleton.mp hu]
      exact hc

theorem entries_ne {l : List (Nat × Cmd)} {c : UInt8} (h : ∀ u ∈ l, u.2.command ≠ c) :
    ∀ w ∈ l.map entry, w.1 ≠ c := by
  intro w hw
  obtain ⟨u, hu, rfl⟩ := List.mem_map.mp hw
  exact h u hu

/-- **A look-up** reads the map. -/
theorem findHandler_eq (h : s.Registered m) (hne : m ≠ []) (c : UInt8) :
    s.findHandler c = .ret (m.lookup c) := by
  obtain ⟨xs, hs, rfl⟩ := h
  cases xs with
  | nil => exact absurd rfl hne
  | cons x xs =>
      unfold findHandler
      rw [hs.path.1]
      rcases findCmd_spec hs c with ⟨l₁, y, l₂, he, hl, rfl, hfind⟩ | ⟨hall, hfind⟩
      · have hlook : ((x :: xs).map entry).lookup y.2.command = some y.2.commandHandlerTid := by
          rw [he, List.map_append, List.map_cons]
          exact lookup_split (entries_ne hl)
        rw [hlook]
        simp only [nonNull, ret_bind, hfind]
        rfl
      · rw [lookup_new (entries_ne hall)]
        simp only [nonNull, ret_bind, hfind]
        rfl

/-- The walk starts at the first node, which has to be there. -/
theorem findHandler_nil (h : s.Registered []) (c : UInt8) : s.findHandler c = .fail .nullPtr := by
  obtain ⟨xs, hs, hxs⟩ := h
  obtain rfl := List.map_eq_nil_iff.mp hxs
  unfold findHandler
  rw [show s.cmdRegList.head = none from hs.path]
  rfl

/-- A new command goes to the end of the list. -/
theorem sat_newCmd (hs : s.cmdRegList.Spans s.blocks.length xs) (c t : UInt8) :
    Sat Granted (do
      match ← Sys.memAlloc 8 with
      | none => return s
      | some cmdReg =>
          let cmdRegList ← live (s.cmdRegList.append s.blocks.length ⟨c, t⟩)
          return { s with cmdRegList, blocks := s.blocks ++ [cmdReg] }) (fun _ _ => False)
      fun _ s' => s'.Registered (xs.map entry ++ [(c, t)]) ∧
        ∃ cmdRegList bs, s' = { s with cmdRegList, blocks := s.blocks ++ bs } := by
  intro a ha
  cases a with
  | none => exact absurd rfl (ha (by decide))
  | some cmdReg =>
      obtain ⟨l, happ, hl⟩ := hs.append ⟨c, t⟩
      rw [happ]
      refine ⟨⟨xs ++ [(s.blocks.length, ⟨c, t⟩)], ?_, ?_⟩, l, [cmdReg], rfl⟩
      · rw [List.length_append]
        exact hl
      · rw [List.map_append]
        rfl

/-- **A registration** writes the map, and leaves everything else as it is. -/
theorem sat_register (h : s.Registered m) : Sat Granted (s.register buf) (fun _ _ => False)
    fun _ s' => s'.Registered (assign m buf.last (buf 4)) ∧
      ∃ cmdRegList bs, s' = { s with cmdRegList, blocks := s.blocks ++ bs } := by
  obtain ⟨xs, hs, rfl⟩ := h
  unfold register
  generalize buf.last = c
  cases xs with
  | nil =>
      have hhead : s.cmdRegList.head = none := hs.path
      simp only [hhead]
      exact sat_newCmd hs c (buf 4)
  | cons x xs =>
      simp only [hs.path.1]
      rcases findCmd_spec hs c with ⟨l₁, y, l₂, he, hl, rfl, hfind⟩ | ⟨hall, hfind⟩
      · rw [he] at hs
        simp only [hfind, ret_bind]
        have hmod := hs.modify fun c => { c with commandHandlerTid := buf 4 }
        refine ⟨⟨_, hmod, ?_⟩, _, [], by rw [List.append_nil]⟩
        rw [he, List.map_append, List.map_append]
        exact (assign_split (entries_ne hl)).symm
      · simp only [hfind, ret_bind]
        have hnew := sat_newCmd hs c (buf 4)
        rw [← assign_new (entries_ne hall)] at hnew
        exact hnew

theorem registered_init : (init input).Registered [] := ⟨[], Strung.spans_empty, rfl⟩

/-! ## 3. Runs of registrations -/

/-- The step of a registration. -/
theorem step_register {e : Delivery} (h : s.Registered m) (ht : e.buf.type = kcdReg)
    (hs : s.Supplied e) : ∃ s', s.step e = some s' ∧
      s'.Registered (assign m e.registration.1 e.registration.2) ∧
      ∃ cmdRegList bs, s' = { s with cmdRegList, blocks := s.blocks ++ bs } := by
  have hh : s.handle e.buf = s.register e.buf := if_pos ht
  unfold Supplied exchanges at hs
  unfold step
  rw [hh] at hs ⊢
  obtain ⟨s', hout, hs'⟩ := (sat_register h).returns e.env [] hs
  exact ⟨s', by rw [hout]; rfl, hs'⟩

/-- A run of registrations writes the map that they say. -/
theorem run_registrations (hreg : ∀ e ∈ es, e.buf.type = kcdReg)
    (hs : Allowed step Supplied (init input) es) :
    ∃ s, Lib.run step (init input) es = some s ∧
      s.Registered (written (es.map Delivery.registration)) := by
  have hall := (Allowed.of_events hreg).and hs
  obtain ⟨s, hrun, -⟩ := run_inv (fun s : Kcd => ∃ m, s.Registered m)
    (fun s e ⟨m, h⟩ ⟨ht, he⟩ => by
      obtain ⟨s', hs', hm, -⟩ := step_register h ht he
      exact ⟨s', hs', _, hm⟩) ⟨[], registered_init⟩ hall
  refine ⟨s, hrun, run_history
    (fun es (s : Kcd) => s.Registered (written (es.map Delivery.registration))) ?_
    registered_init hall hrun⟩
  intro past s e s' h hp hs'
  obtain ⟨ht, he⟩ := hp
  obtain ⟨s₁, hs₁, hm, -⟩ := step_register h ht he
  obtain rfl : s₁ = s' := Option.some.inj (hs₁.symm.trans hs')
  rw [List.map_append, List.map_singleton, written_concat]
  exact hm

/-- **The last registration counts.** After registrations the list has one node for each command, in
    the order of their first registrations, with the tail pointer at the last one; and for every
    command the dispatch finds who registered it last, if anyone did. -/
theorem last_registration (hne : es ≠ []) (hreg : ∀ e ∈ es, e.buf.type = kcdReg)
    (hs : Allowed step Supplied (init input) es) :
    ∃ s nodes, Lib.run step (init input) es = some s ∧ s.cmdRegList.Holds nodes ∧
      (nodes.map fun x => x.2.command) = (es.map fun e => e.buf.last).eraseDups ∧
      s.cmdRegList.tail = nodes.getLast?.map Prod.fst ∧
      ∀ c, s.findHandler c =
        .ret ((es.reverse.map fun e => (e.buf.last, e.buf 4)).lookup c) := by
  obtain ⟨s, hrun, hm⟩ := run_registrations hreg hs
  have hw : written (es.map Delivery.registration) ≠ [] :=
    written_ne_nil fun h => hne (List.map_eq_nil_iff.mp h)
  have hfind := findHandler_eq hm hw
  obtain ⟨nodes, hn, hmap⟩ := hm
  have hkeys : (nodes.map fun x => x.2.command) = (es.map fun e => e.buf.last).eraseDups := by
    have := congrArg (List.map Prod.fst) hmap
    rw [keys_written, List.map_map, List.map_map] at this
    exact this
  refine ⟨s, nodes, hrun, hn.toHolds, hkeys, ?_, fun c => ?_⟩
  · obtain rfl | ⟨l, x, rfl⟩ := List.eq_nil_or_concat' nodes
    · exact absurd hmap.symm hw
    · rw [List.getLast?_concat]
      exact hn.tail x (by simp)
  · rw [hfind c, lookup_written, ← List.map_reverse]
    rfl

end Kcd

/-- A registration of a command by a task, with a block for it. -/
def Delivery.registers (command : Char) (senderTid : UInt8) (a : Nat) : Delivery :=
  ⟨Buf.ofMsg (message senderTid kcdReg [char command]), granting a⟩

namespace Kcd

theorem allowed_granting {s : Kcd} {es : List Delivery} (h : ∀ e ∈ es, ∃ a, e.env = granting a) :
    Allowed step Supplied s es :=
  (Allowed.of_events h).mono fun s e ⟨a, ha⟩ => by
    unfold Supplied exchanges
    rw [ha]
    exact fun x hx => (play_granting 0 x hx).1

/-- Two commands, the first of which changes its handler. -/
theorem last_registration_twice : ∃ s nodes,
    Lib.run step (init fun _ => 0) [.registers 'W' 3 0, .registers 'A' 4 8, .registers 'W' 5 16] =
      some s ∧ s.cmdRegList.Holds nodes ∧
    (nodes.map fun x => x.2.command) =
      ([Delivery.registers 'W' 3 0, .registers 'A' 4 8, .registers 'W' 5 16].map
        fun e => e.buf.last).eraseDups ∧
    s.cmdRegList.tail = nodes.getLast?.map Prod.fst ∧
    ∀ c, s.findHandler c =
      .ret (([Delivery.registers 'W' 3 0, .registers 'A' 4 8, .registers 'W' 5 16].reverse.map
        fun e => (e.buf.last, e.buf 4)).lookup c) :=
  last_registration (by simp) (by decide) (allowed_granting (by simp [Delivery.registers]))

end Kcd

end Rtx
