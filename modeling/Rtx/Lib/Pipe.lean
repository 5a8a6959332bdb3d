/-
  File:      Rtx/Lib/Pipe.lean
  Subject:   A bounded channel whose senders wait in line.

  A pipe holds messages up to a total size. A message that does not fit, or that would overtake
  another, is parked with its sender; when a message is taken, the parked ones move up as long as
  the first of them fits (`Pipe.settle`).

  What a pipe holds is determined by what went in and what came out: as much of what is in between
  as fits (`Pipe.Tight.unique`). So two implementations that keep pipes tight and have seen the
  same traffic are in the same state.

  `Pipes` is a system of pipes that are opened one by one, with its moves.
-/
import Mathlib.Logic.Function.Basic

namespace Rtx.Lib

universe u v w

/-- The messages that are held, and the senders in line with theirs. -/
structure Pipe (τ : Type u) (α : Type v) where
  capacity : Nat
  held : List α
  parked : List (τ × α)

namespace Pipe

variable {τ : Type u} {α : Type v} (size : α → Nat)

/-- The size of some messages. -/
def load : List α → Nat
  | [] => 0
  | x :: l => size x + load l

/-! ## 1. The operations -/

/-- There is room for the message, and nobody waits before its sender. -/
def Admits (p : Pipe τ α) (x : α) : Prop :=
  p.parked = [] ∧ load size p.held + size x ≤ p.capacity

instance Admits.decidable (p : Pipe τ α) (x : α) : Decidable (p.Admits size x) :=
  inferInstanceAs (Decidable (_ ∧ _))

/-- The message is added to those that are held. -/
def put (p : Pipe τ α) (x : α) : Pipe τ α := { p with held := p.held ++ [x] }

/-- The sender joins the line. -/
def park (p : Pipe τ α) (t : τ) (x : α) : Pipe τ α := { p with parked := p.parked ++ [(t, x)] }

/-- A send that may have to wait. -/
def send (p : Pipe τ α) (t : τ) (x : α) : Pipe τ α :=
  if p.Admits size x then p.put x else p.park t x

/-- The parked messages move up as long as the first of them fits. -/
def settle (capacity : Nat) : List α → List (τ × α) → Pipe τ α
  | held, [] => ⟨capacity, held, []⟩
  | held, (t, x) :: l =>
      if load size held + size x ≤ capacity then settle capacity (held ++ [x]) l
      else ⟨capacity, held, (t, x) :: l⟩

/-- The oldest message is taken, and the parked ones move up. -/
def receive (p : Pipe τ α) : Option (α × Pipe τ α) :=
  match p.held with
  | [] => none
  | x :: l => some (x, settle size p.capacity l p.parked)

/-! ## 2. Invariants -/

/-- What is held fits, every parked message would fit alone, and the first of them does not fit
    now. -/
structure Tight (p : Pipe τ α) : Prop where
  load_le : load size p.held ≤ p.capacity
  small : ∀ y ∈ p.parked, size y.2 ≤ p.capacity
  full : ∀ y ∈ p.parked.head?, p.capacity < load size p.held + size y.2

/-- What was sent is what was received, then what is held, then what is parked. -/
def Carries (p : Pipe τ α) (sent : List (τ × α)) (received : List α) : Prop :=
  ∃ c, sent = c ++ p.parked ∧ c.map Prod.snd = received ++ p.held

variable {size} {p p' : Pipe τ α} {sent : List (τ × α)} {received : List α} {t : τ} {x : α}

@[simp] theorem load_nil : load size [] = 0 := rfl

@[simp] theorem load_cons (x : α) (l : List α) : load size (x :: l) = size x + load size l := rfl

@[simp] theorem load_append (l l' : List α) : load size (l ++ l') = load size l + load size l' := by
  induction l with
  | nil => rw [List.nil_append, load_nil, Nat.zero_add]
  | cons x l ih => rw [List.cons_append, load_cons, load_cons, ih, Nat.add_assoc]

/-- What went in, in terms of what came out. -/
theorem Carries.messages (h : p.Carries sent received) :
    sent.map Prod.snd = received ++ (p.held ++ p.parked.map Prod.snd) := by
  obtain ⟨c, rfl, hc⟩ := h
  rw [List.map_append, hc, List.append_assoc]

/-- As much is held as fits: of two ways to cut a list, the one that fits is no longer than the one
    behind which nothing fits. -/
theorem prefix_of_full {capacity : Nat} {a b a' b' : List α} (h : a ++ b = a' ++ b')
    (hfit : load size a' ≤ capacity)
    (hfull : ∀ y ∈ b.head?, capacity < load size a + size y) : a' <+: a := by
  obtain ⟨c, rfl, rfl⟩ | ⟨c, rfl, -⟩ := List.append_eq_append_iff.mp h
  · cases c with
    | nil => exact ⟨[], by simp⟩
    | cons y c =>
        have hlt := hfull y rfl
        rw [load_append, load_cons] at hfit
        omega
  · exact ⟨c, rfl⟩

/-- **A tight pipe is determined by its traffic.** -/
theorem Tight.unique (hp : p.Tight size) (hp' : p'.Tight size) (hc : p.capacity = p'.capacity)
    (h : p.Carries sent received) (h' : p'.Carries sent received) : p = p' := by
  have hcut := List.append_cancel_left (h.messages.symm.trans h'.messages)
  have hfull : ∀ {p : Pipe τ α}, p.Tight size →
      ∀ y ∈ (p.parked.map Prod.snd).head?, p.capacity < load size p.held + size y := by
    intro p hp y hy
    rw [List.head?_map] at hy
    obtain ⟨z, hz, rfl⟩ := Option.map_eq_some_iff.mp hy
    exact hp.full z hz
  have h1 := prefix_of_full hcut (hc ▸ hp'.load_le) (hfull hp)
  have h2 := prefix_of_full hcut.symm (hc ▸ hp.load_le) (hfull hp')
  have hheld : p.held = p'.held := h2.eq_of_length (Nat.le_antisymm h2.length_le h1.length_le)
  obtain ⟨c, hs, hm⟩ := h
  obtain ⟨c', hs', hm'⟩ := h'
  have hlen : c.length = c'.length := by
    rw [← List.length_map Prod.snd, hm, hheld, ← hm', List.length_map]
  obtain ⟨-, hparked⟩ := List.append_inj (hs.symm.trans hs') hlen
  cases p
  cases p'
  simp only at hc hheld hparked
  rw [hc, hheld, hparked]

/-! ## 3. The operations keep them -/

theorem put_carries (h : p.Carries sent received) (hp : p.parked = []) (t : τ) (x : α) :
    (p.put x).Carries (sent ++ [(t, x)]) received := by
  obtain ⟨c, hs, hm⟩ := h
  rw [hp, List.append_nil] at hs
  refine ⟨c ++ [(t, x)], ?_, ?_⟩
  · change sent ++ [(t, x)] = c ++ [(t, x)] ++ p.parked
    rw [hs, hp, List.append_nil]
  · rw [List.map_append, hm, List.append_assoc]
    rfl

theorem put_tight (h : p.Tight size) (hx : p.Admits size x) : (p.put x).Tight size := by
  obtain ⟨hp, hfit⟩ := hx
  refine ⟨?_, h.small, fun y hy => ?_⟩
  · change load size (p.held ++ [x]) ≤ p.capacity
    rw [load_append]
    exact hfit
  · change y ∈ p.parked.head? at hy
    rw [hp] at hy
    cases hy

theorem park_carries (h : p.Carries sent received) (t : τ) (x : α) :
    (p.park t x).Carries (sent ++ [(t, x)]) received := by
  obtain ⟨c, hs, hm⟩ := h
  refine ⟨c, ?_, hm⟩
  rw [hs, List.append_assoc]
  rfl

theorem park_tight (h : p.Tight size) (hx : size x ≤ p.capacity) (hnot : ¬ p.Admits size x) :
    (p.park t x).Tight size := by
  refine ⟨h.load_le, fun y hy => ?_, fun y hy => ?_⟩
  · obtain hy | hy := List.mem_append.mp hy
    · exact h.small y hy
    · rw [List.mem_singleton.mp hy]
      exact hx
  · change y ∈ (p.parked ++ [(t, x)]).head? at hy
    cases hp : p.parked with
    | nil =>
        rw [hp] at hy
        obtain rfl := Option.some.inj hy
        exact Nat.lt_of_not_le fun hle => hnot ⟨hp, hle⟩
    | cons z l =>
        rw [hp] at hy
        exact h.full y (hp ▸ hy)

/-- A send keeps them. -/
theorem send_carries (h : p.Carries sent received) (t : τ) (x : α) :
    (p.send size t x).Carries (sent ++ [(t, x)]) received := by
  unfold send
  split
  next hx => exact put_carries h hx.1 t x
  · exact park_carries h t x

theorem send_tight (h : p.Tight size) (hx : size x ≤ p.capacity) :
    (p.send size t x).Tight size := by
  unfold send
  split
  next hadm => exact put_tight h hadm
  next hnot => exact park_tight h hx hnot

@[simp] theorem send_capacity (p : Pipe τ α) (t : τ) (x : α) :
    (p.send size t x).capacity = p.capacity := by
  unfold send
  split <;> rfl

section Settle

variable {capacity : Nat} {held : List α} {parked : List (τ × α)}

@[simp] theorem settle_capacity : (settle size capacity held parked).capacity = capacity := by
  induction parked generalizing held with
  | nil => rfl
  | cons y l ih =>
      unfold settle
      split
      · exact ih
      · rfl

/-- Moving up changes no order. -/
theorem settle_carries (h : (⟨capacity, held, parked⟩ : Pipe τ α).Carries sent received) :
    (settle size capacity held parked).Carries sent received := by
  induction parked generalizing held with
  | nil => exact h
  | cons y l ih =>
      unfold settle
      split
      · obtain ⟨c, hs, hm⟩ := h
        apply ih
        refine ⟨c ++ [y], ?_, ?_⟩
        · rw [hs, List.append_assoc]
          rfl
        · rw [List.map_append, hm, List.append_assoc]
          rfl
      · exact h

theorem settle_tight (hload : load size held ≤ capacity)
    (hsmall : ∀ y ∈ parked, size y.2 ≤ capacity) :
    (settle size capacity held parked).Tight size := by
  induction parked generalizing held with
  | nil => exact ⟨hload, hsmall, by simp [settle]⟩
  | cons y l ih =>
      unfold settle
      split
      next hfit =>
        apply ih
        · rw [load_append]
          exact hfit
        · exact fun z hz => hsmall z (List.mem_cons_of_mem y hz)
      next hfull =>
        refine ⟨hload, hsmall, fun z hz => ?_⟩
        obtain rfl := Option.some.inj hz
        exact Nat.lt_of_not_le hfull

end Settle

/-- **What has been sent and not received can be received**, oldest first. -/
theorem Tight.receive (hp : p.Tight size) (h : p.Carries sent received) {l : List α}
    (hl : sent.map Prod.snd = received ++ x :: l) :
    ∃ p', p.receive size = some (x, p') ∧ p'.capacity = p.capacity ∧ p'.Tight size ∧
      p'.Carries sent (received ++ [x]) := by
  have hcut := List.append_cancel_left (h.messages.symm.trans hl)
  cases hh : p.held with
  | nil =>
      -- nobody is parked before an empty pipe
      rw [hh, List.nil_append] at hcut
      cases hq : p.parked with
      | nil =>
          rw [hq] at hcut
          cases hcut
      | cons y m =>
          have h1 := hp.full y (by rw [hq]; rfl)
          have h2 := hp.small y (hq ▸ List.mem_cons_self)
          rw [hh, load_nil] at h1
          omega
  | cons y m =>
      rw [hh, List.cons_append] at hcut
      obtain ⟨rfl, -⟩ := List.cons.inj hcut
      have hload := hp.load_le
      rw [hh, load_cons] at hload
      refine ⟨settle size p.capacity m p.parked, ?_, settle_capacity, ?_, ?_⟩
      · unfold Pipe.receive
        rw [hh]
      · exact settle_tight (by omega) hp.small
      · obtain ⟨c, hs, hm⟩ := h
        apply settle_carries
        refine ⟨c, hs, ?_⟩
        rw [hm, hh, List.append_assoc]
        rfl

/-- An empty pipe. -/
theorem tight_new (capacity : Nat) : (⟨capacity, [], []⟩ : Pipe τ α).Tight size :=
  ⟨Nat.zero_le _, by simp, by simp⟩

theorem carries_new (capacity : Nat) : (⟨capacity, [], []⟩ : Pipe τ α).Carries [] [] :=
  ⟨[], rfl, rfl⟩

end Pipe

/-! ## 4. Systems of pipes -/

variable (ι : Type w) (τ : Type u) (α : Type v)

/-- The pipes there are. -/
abbrev Pipes := ι → Option (Pipe τ α)

/-- What can happen to the pipes. -/
inductive Move where
  | idle
  | opens (i : ι) (capacity : Nat)
  /-- A send that may park its sender. -/
  | sends (i : ι) (t : τ) (x : α)
  /-- A send that must not. -/
  | puts (i : ι) (t : τ) (x : α)
  | takes (i : ι) (x : α)

variable {ι τ α}

namespace Pipes

variable (size : α → Nat) [DecidableEq ι] [DecidableEq α]

/-- One move; `none` if the pipes do not allow it. -/
def step (P : Pipes ι τ α) : Move ι τ α → Option (Pipes ι τ α)
  | .idle => some P
  | .opens i capacity =>
      match P i with
      | none => some (Function.update P i (some ⟨capacity, [], []⟩))
      | some _ => none
  | .sends i t x => (P i).map fun p => Function.update P i (some (p.send size t x))
  | .puts i _ x => (P i).bind fun p =>
      if p.Admits size x then some (Function.update P i (some (p.put x))) else none
  | .takes i x => (P i).bind fun p => (p.receive size).bind fun r =>
      if r.1 = x then some (Function.update P i (some r.2)) else none

/-- The pipes are tight, and agree with what was sent and received. -/
def Sees (P : Pipes ι τ α) (sent : ι → List (τ × α)) (received : ι → List α) : Prop :=
  ∀ i p, P i = some p → p.Tight size ∧ p.Carries (sent i) (received i)

variable {size} {P : Pipes ι τ α} {sent : ι → List (τ × α)} {received : ι → List α} {i : ι}
  {p p' : Pipe τ α} {t : τ} {x : α}

omit [DecidableEq α] in
/-- One pipe changes. -/
theorem Sees.update (h : P.Sees size sent received) {a : List (τ × α)} {b : List α}
    (hp : p.Tight size) (hc : p.Carries a b) : Sees size (Function.update P i (some p))
      (Function.update sent i a) (Function.update received i b) := by
  intro j q hq
  rw [Function.update_apply] at hq ⊢
  rw [Function.update_apply]
  split at hq
  next e =>
    obtain rfl := Option.some.inj hq
    rw [if_pos e, if_pos e]
    exact ⟨hp, hc⟩
  next e =>
    rw [if_neg e, if_neg e]
    exact h j q hq

variable (h : P.Sees size sent received)
include h

theorem Sees.opens (hi : P i = none) (hs : sent i = []) (hr : received i = []) (capacity : Nat) :
    ∃ P', P.step size (.opens i capacity) = some P' ∧
      P' = Function.update P i (some ⟨capacity, [], []⟩) ∧ P'.Sees size sent received := by
  refine ⟨_, ?_, rfl, ?_⟩
  · simp only [step, hi]
  · have hc : (⟨capacity, [], []⟩ : Pipe τ α).Carries (sent i) (received i) := by
      rw [hs, hr]
      exact Pipe.carries_new capacity
    have hnew := h.update (i := i) (Pipe.tight_new capacity) hc
    rw [Function.update_eq_self, Function.update_eq_self] at hnew
    exact hnew

theorem Sees.sends (hi : P i = some p) (hx : size x ≤ p.capacity) (t : τ) :
    ∃ P', P.step size (.sends i t x) = some P' ∧
      P' = Function.update P i (some (p.send size t x)) ∧
      P'.Sees size (Function.update sent i (sent i ++ [(t, x)])) received := by
  obtain ⟨h1, h2⟩ := h i p hi
  refine ⟨_, ?_, rfl, ?_⟩
  · simp only [step, hi, Option.map_some]
  · have hnew := h.update (i := i) (Pipe.send_tight (t := t) h1 hx) (Pipe.send_carries h2 t x)
    rw [Function.update_eq_self] at hnew
    exact hnew

theorem Sees.puts (hi : P i = some p) (hx : p.Admits size x) (t : τ) :
    ∃ P', P.step size (.puts i t x) = some P' ∧ P' = Function.update P i (some (p.put x)) ∧
      P'.Sees size (Function.update sent i (sent i ++ [(t, x)])) received := by
  obtain ⟨h1, h2⟩ := h i p hi
  refine ⟨_, ?_, rfl, ?_⟩
  · simp only [step, hi, Option.bind_some, if_pos hx]
  · have hnew := h.update (i := i) (Pipe.put_tight h1 hx) (Pipe.put_carries h2 hx.1 t x)
    rw [Function.update_eq_self] at hnew
    exact hnew

theorem Sees.takes (hi : P i = some p) {l : List α}
    (hl : (sent i).map Prod.snd = received i ++ x :: l) :
    ∃ P' p', P.step size (.takes i x) = some P' ∧ P' = Function.update P i (some p') ∧
      p'.capacity = p.capacity ∧
      P'.Sees size sent (Function.update received i (received i ++ [x])) := by
  obtain ⟨h1, h2⟩ := h i p hi
  obtain ⟨p', h3, h4, h5, h6⟩ := h1.receive h2 hl
  refine ⟨_, p', ?_, rfl, h4, ?_⟩
  · simp only [step, hi, Option.bind_some, h3, if_pos]
  · have hnew := h.update (i := i) h5 h6
    rw [Function.update_eq_self] at hnew
    exact hnew

end Pipes

end Rtx.Lib
