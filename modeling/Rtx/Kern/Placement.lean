/-
  File:      Rtx/Kern/Placement.lean
  Subject:   Where the tasks are: what the queue operations do to their placement.

  `Placed s L H X`: the queues hold the lists `L`; the tasks of `H` are in the kernel's hands and
  in no list, and so is the null task; every other task is where its state says (`InPlace`). The
  tasks of `X` may have a stale successor.

  There is one lemma for each way the kernel moves a task: taking the head of a ready queue, taking
  a waiting sender, taking a task out of its ready queue, putting a task at either end of a ready
  queue, letting it wait and letting it sleep.
-/
import Rtx.Kern.QueueSpec
import Rtx.Kern.State

namespace Rtx

open Lib

/-- The lists the queues hold. -/
abbrev Lists := QId → List Tid

namespace QId

/-- The state of the tasks in a queue. -/
def state : QId → TaskState
  | .ready _ => .ready
  | .suspend => .suspended
  | .waiting _ => .blkSend

end QId

/-- A task is in the list its state calls for, and a task that calls for none is in none. -/
def InPlace (L : Lists) (t : Tid) (d : TcbData) : Prop :=
  match d.state with
  | .ready => ∃ i, readyAt (priority2order d.prio) = .ok (.ready i) ∧ t ∈ L (.ready i)
  | .blkSend => ∃ m, t ∈ L (.waiting m)
  | .suspended => t ∈ L .suspend
  | .dormant | .running | .blkRecv => ∀ q, t ∉ L q

/-- **The tasks are where they belong**, those of `H` in the kernel's hands. -/
structure Placed (s : Tasks Tid QId) (L : Lists) (H X : Set Tid) : Prop where
  rep : s.Rep L (· ∈ X)
  home : ∀ t, t ≠ tidNull → t ∉ H → InPlace L t (s.data t)
  out : ∀ t, t ∈ H ∨ t = tidNull → ∀ q, t ∉ L q

theorem card_tid : Fintype.card Tid < 2 ^ 32 - 1 := by simp

variable {s s' : Tasks Tid QId} {L L' : Lists} {H H' X X' : Set Tid} {t u : Tid} {q : QId}
  {d : TcbData} {i : Fin 5} {l : List Tid}

/-! ## 1. What the placement says -/

theorem InPlace.congr (h : InPlace L t d) (hm : ∀ q, t ∈ L' q ↔ t ∈ L q) : InPlace L' t d := by
  unfold InPlace at h ⊢
  split at h
  all_goals simp only [hm]
  all_goals exact h

/-- A task in a ready queue belongs there. -/
theorem inPlace_ready (hs : d.state = .ready)
    (hq : readyAt (priority2order d.prio) = .ok (.ready i)) (ht : t ∈ L (.ready i)) :
    InPlace L t d := by
  unfold InPlace
  rw [hs]
  exact ⟨i, hq, ht⟩

/-- A task in no queue whose state calls for none. -/
theorem inPlace_out (hs : d.state = .dormant ∨ d.state = .running ∨ d.state = .blkRecv)
    (ht : ∀ q, t ∉ L q) : InPlace L t d := by
  unfold InPlace
  rcases hs with hs | hs | hs
  all_goals rw [hs]
  all_goals exact ht

theorem Placed.not_held (h : Placed s L H X) (ht : t ∈ L q) : t ∉ H ∧ t ≠ tidNull :=
  ⟨fun hH => h.out t (Or.inl hH) q ht, fun e => h.out t (Or.inr e) q ht⟩

/-- The state of a task in a queue, and its priority when the queue is a ready queue. -/
theorem Placed.of_mem (h : Placed s L H X) (ht : t ∈ L q) : (s.data t).state = q.state ∧
    ∀ i, q = .ready i → readyAt (priority2order (s.data t).prio) = .ok (.ready i) := by
  obtain ⟨hH, h0⟩ := h.not_held ht
  have hp := h.home t h0 hH
  unfold InPlace at hp
  split at hp
  next hs =>
    obtain ⟨i, hq, hi⟩ := hp
    obtain rfl := h.rep.disj _ _ t hi ht
    exact ⟨hs, fun j e => by rw [← e]; exact hq⟩
  next hs =>
    obtain ⟨m, hm⟩ := hp
    obtain rfl := h.rep.disj _ _ t hm ht
    exact ⟨hs, fun j e => by cases e⟩
  next hs =>
    obtain rfl := h.rep.disj _ _ t hp ht
    exact ⟨hs, fun j e => by cases e⟩
  all_goals exact absurd ht (hp q)

theorem Placed.state_of_mem (h : Placed s L H X) (ht : t ∈ L q) : (s.data t).state = q.state :=
  (h.of_mem ht).1

/-- A ready task is in the ready queue of its priority. -/
theorem Placed.mem_of_ready (h : Placed s L H X) (h0 : t ≠ tidNull) (hH : t ∉ H)
    (hs : (s.data t).state = .ready) :
    ∃ i, readyAt (priority2order (s.data t).prio) = .ok (.ready i) ∧ t ∈ L (.ready i) := by
  have hp := h.home t h0 hH
  unfold InPlace at hp
  rw [hs] at hp
  exact hp

/-- A task that is not ready, blocked sending or suspended is in no list. -/
theorem Placed.not_mem (h : Placed s L H X)
    (hs : (s.data t).state = .dormant ∨ (s.data t).state = .running ∨ (s.data t).state = .blkRecv)
    (q : QId) : t ∉ L q := by
  intro hm
  have h1 := h.state_of_mem hm
  rw [h1] at hs
  cases q <;> simp [QId.state] at hs

/-- A task outside every list, in no hands, whose links are not stale has no successor. -/
theorem Placed.next_none (h : Placed s L H X) (ht : ∀ q, t ∉ L q) (hX : t ∉ X) :
    (s.tcb t).next = none :=
  h.rep.off t ht hX

/-- Only `t` changes: its data, its place and whether it is held. -/
theorem Placed.change (h : Placed s L H X) (hr : s'.Rep L' (· ∈ X'))
    (hd : ∀ u, u ≠ t → s'.data u = s.data u) (hm : ∀ u q, u ≠ t → (u ∈ L' q ↔ u ∈ L q))
    (hH : ∀ u, u ≠ t → (u ∈ H' ↔ u ∈ H)) (ht : t ≠ tidNull → t ∉ H' → InPlace L' t (s'.data t))
    (hout : t ∈ H' ∨ t = tidNull → ∀ q, t ∉ L' q) : Placed s' L' H' X' := by
  refine ⟨hr, fun u h0 hu => ?_, fun u hu q => ?_⟩
  · by_cases e : u = t
    · subst e
      exact ht h0 hu
    · rw [hd u e]
      exact (h.home u h0 fun hu' => hu ((hH u e).mpr hu')).congr fun q => hm u q e
  · by_cases e : u = t
    · subst e
      exact hout hu q
    · rw [hm u q e]
      exact h.out u (hu.imp_left (hH u e).mp) q

/-- Writing the data of a held task or of the null task. -/
theorem Placed.modify (h : Placed s L H X) (ht : t ∈ H ∨ t = tidNull) (f : TcbData → TcbData) :
    Placed (s.modify t f) L H X := by
  refine h.change (t := t) (h.rep.modify t f) (fun u hu => ?_) (fun _ _ _ => Iff.rfl)
    (fun _ _ => Iff.rfl) (fun h0 hH => absurd ht (not_or.mpr ⟨hH, h0⟩)) fun _ => h.out t ht
  rw [Tasks.modify_data, Function.update_of_ne hu]

/-- Writing data of a task that does not change its place. -/
theorem Placed.modify_home (h : Placed s L H X) {f : TcbData → TcbData}
    (hs : (f (s.data t)).state = (s.data t).state)
    (hp : (s.data t).state = .ready → (f (s.data t)).prio = (s.data t).prio) :
    Placed (s.modify t f) L H X := by
  refine h.change (t := t) (h.rep.modify t f) (fun u hu => ?_) (fun _ _ _ => Iff.rfl)
    (fun _ _ => Iff.rfl) (fun h0 hH => ?_) fun hu => h.out t hu
  · rw [Tasks.modify_data, Function.update_of_ne hu]
  · have hin := h.home t h0 hH
    rw [Tasks.modify_data, Function.update_self]
    unfold InPlace at hin ⊢
    rw [hs]
    split at hin
    next hr => simp only [hp hr]; exact hin
    all_goals exact hin

/-- A task no longer held, in no list, whose state calls for none. -/
theorem Placed.drop (h : Placed s L H X)
    (hs : (s.data t).state = .dormant ∨ (s.data t).state = .running ∨ (s.data t).state = .blkRecv) :
    Placed s L (H \ {t}) X := by
  refine h.change (t := t) h.rep (fun _ _ => rfl) (fun _ _ _ => Iff.rfl) (fun u hu => ?_)
    (fun _ _ => inPlace_out hs (h.not_mem hs)) fun _ => h.not_mem hs
  simp [hu]

/-- The null task is in no list, held or not. -/
theorem Placed.drop_null (h : Placed s L {tidNull} X) : Placed s L ∅ X :=
  ⟨h.rep, fun t h0 _ => h.home t h0 h0,
    fun t ht => h.out t (Or.inr (ht.resolve_left (Set.notMem_empty t)))⟩

/-- Holding a task that is in no list. -/
theorem Placed.hold (h : Placed s L H X) (ht : ∀ q, t ∉ L q) : Placed s L (insert t H) X := by
  refine h.change (t := t) h.rep (fun _ _ => rfl) (fun _ _ _ => Iff.rfl) (fun u hu => ?_)
    (fun _ hH => absurd (Set.mem_insert t H) hH) fun _ => ht
  simp [hu]

/-! ## 2. Taking a task -/

theorem mem_update_tail (hL : L q = t :: l) (hu : u ≠ t) (q' : QId) :
    u ∈ Function.update L q l q' ↔ u ∈ L q' := by
  rw [Function.update_apply]
  split
  next e =>
    rw [e, hL, List.mem_cons]
    exact (or_iff_right hu).symm
  · exact Iff.rfl

section Take

variable (h : Placed s L H X)
include h

/-- The head of a queue is in no list once it is taken. -/
theorem Placed.not_mem_update_tail (hL : L q = t :: l) (q' : QId) :
    t ∉ Function.update L q l q' := by
  rw [Function.update_apply]
  have hmem : t ∈ L q := hL ▸ List.mem_cons_self
  split
  · have := (h.rep.chain q).nodup
    rw [hL] at this
    exact (List.nodup_cons.mp this).1
  next e => exact fun hm => e (h.rep.disj q' q t hm hmem)

/-- **Taking the head of a queue**: it runs, or is ready when it waited to send. -/
theorem Placed.popHead (hL : L q = t :: l) :
    Placed (s.popHead q).1 (Function.update L q l) (insert t H) X ∧
      (s.popHead q).2 = some t ∧
      (s.popHead q).1.data = Function.update s.data t
        { s.data t with state := if q.state = .blkSend then .ready else .running } ∧
      (s.popHead q).1.errno = s.errno := by
  obtain ⟨h1, h2, h3, h4, -⟩ := h.rep.popHead card_tid hL
  rw [h.state_of_mem (hL ▸ List.mem_cons_self)] at h3
  refine ⟨h.change (t := t) h2 (fun u hu => ?_) (fun u q' hu => mem_update_tail hL hu q')
    (fun u hu => ?_) (fun _ hH => absurd (Set.mem_insert t H) hH)
    fun _ => h.not_mem_update_tail hL, h1, h3, h4⟩
  · rw [h3, Function.update_of_ne hu]
  · simp [hu]

end Take

/-- Where a task stands in its list: not strictly inside. -/
def AtEnd (s : Tasks Tid QId) (q : QId) (t : Tid) : Prop :=
  (s.queue q).head = some t ∨ (s.queue q).tail = some t

instance (s : Tasks Tid QId) (q : QId) (t : Tid) : Decidable (AtEnd s q t) := by
  unfold AtEnd
  infer_instance

/-- **Taking a task out of its queue**, with fields `f` just written. Its successor is stale if it
    was strictly inside. -/
theorem Placed.popTask (h : Placed s L H X) (ht : t ∈ L q) (f : TcbData → TcbData) :
    ∃ s' v, (s.modify t f).popTask t q = .ok (s', 1) ∧
      Placed s' (Function.update L q ((L q).erase t)) (insert t H) (insert t X) ∧
      (AtEnd s q t → Placed s' (Function.update L q ((L q).erase t)) (insert t H) X) ∧
      (v = .ready ∨ v = (f (s.data t)).state) ∧
      s'.data = Function.update s.data t { f (s.data t) with state := v } ∧ s'.errno = s.errno := by
  obtain ⟨l₁, l₂, hL⟩ := List.append_of_mem ht
  have hnd := (h.rep.chain q).nodup
  rw [hL] at hnd
  obtain ⟨s', h1, h2, h3, h4, h5⟩ := (h.rep.modify t f).popTask card_tid hL
  obtain ⟨v, hv, hdata⟩ : ∃ v, (v = .ready ∨ v = (f (s.data t)).state) ∧
      s'.data = Function.update s.data t { f (s.data t) with state := v } := by
    rw [h5]
    split
    · exact ⟨.ready, Or.inl rfl, by simp⟩
    · exact ⟨_, Or.inr rfl, by simp⟩
  have hnot : t ∉ l₁ ++ l₂ := (List.nodup_cons.mp (List.nodup_middle.mp hnd)).1
  have herase : (L q).erase t = l₁ ++ l₂ := by
    rw [hL, List.erase_append_right _ fun hm => hnot (List.mem_append_left _ hm),
      List.erase_cons_head]
  have hmem : ∀ u, u ≠ t → (u ∈ l₁ ++ l₂ ↔ u ∈ L q) := fun u hu => by
    rw [← herase]
    exact List.mem_erase_of_ne hu
  rw [herase]
  have hchange : ∀ Y : Set Tid, s'.Rep (Function.update L q (l₁ ++ l₂)) (· ∈ Y) →
      Placed s' (Function.update L q (l₁ ++ l₂)) (insert t H) Y := fun Y hY => by
    refine h.change (t := t) hY (fun u hu => by rw [hdata, Function.update_of_ne hu])
      (fun u q' hu => ?_) (fun u hu => ?_) (fun _ hH => absurd (Set.mem_insert t H) hH)
      fun _ q' => ?_
    · rw [Function.update_apply]
      split
      next e => rw [e, hmem u hu]
      · exact Iff.rfl
    · simp [hu]
    · rw [Function.update_apply]
      split
      · exact hnot
      next e => exact fun hm => e (h.rep.disj q' _ t hm ht)
  refine ⟨s', v, h1, hchange _ (h2.mono fun u hu => ?_), fun hend => hchange _ ?_, hv, hdata, h4⟩
  · exact hu.elim (Set.mem_insert_of_mem t) fun e => e ▸ Set.mem_insert t X
  · refine h2.tighten (h3 ?_)
    obtain ⟨h6, h7, -, -, -⟩ := h.rep.chain q
    rw [hL] at h6 h7
    rcases hend with he | he
    · rw [he] at h6
      cases l₁ with
      | nil => exact Or.inl rfl
      | cons a l₁ =>
          obtain rfl : t = a := by simpa using h6
          exact absurd (by simp) hnot
    · rw [he, List.getLast?_append_of_ne_nil _ (by simp)] at h7
      rcases List.eq_nil_or_concat' l₂ with rfl | ⟨m, z, rfl⟩
      · exact Or.inr rfl
      · rw [← List.cons_append, List.getLast?_append_of_ne_nil _ (by simp)] at h7
        obtain rfl : t = z := by simpa using h7
        exact absurd (by simp) hnot

/-! ## 3. Putting a task -/

/-- A state that already is as written. -/
theorem setState_eq_self {v : TaskState} (hv : (s.data t).state = v) : s.setState t v = s := by
  obtain ⟨tcb, queue, errno⟩ := s
  simp only [Tasks.setState, Tasks.modify, Tasks.mk.injEq, and_true]
  have : (tcb t).state = v := hv
  rw [← this]
  exact Function.update_eq_self t tcb

theorem mem_update_perm (hl : l.Perm (t :: L q)) (hu : u ≠ t) (q' : QId) :
    u ∈ Function.update L q l q' ↔ u ∈ L q' := by
  rw [Function.update_apply]
  split
  next e =>
    rw [e, hl.mem_iff, List.mem_cons]
    exact or_iff_right hu
  · exact Iff.rfl

section Put

variable (h : Placed s L H X) (ht : t ∈ H) (h0 : t ≠ tidNull)
include h ht

/-- What `push_tail` of a held task does to a queue, but for the states. -/
theorem Placed.pushTail_rep (hX : ∀ u ∈ X, u = t)
    (hrt : (s.data t).realTime = true → (s.data t).prio = prioRt) :
    ∃ s' z, s.pushTail t q = .ok s' ∧ (z = t ∨ z ∈ L q) ∧
      ((s.data t).realTime = false → z = t) ∧
      s'.Rep (Function.update L q (s.queued t (L q))) (· ∈ (∅ : Set Tid)) ∧
      s'.errno = s.errno ∧ s'.data = s.marked t z := by
  obtain ⟨s', z, h1, h2, h3, h4, h5⟩ := Tasks.Rep.pushTail (X := (· ∈ (∅ : Set Tid))) (q := q)
    card_tid (h.rep.mono fun u hu => Or.inr (hX u hu)) (h.out t (Or.inl ht)) hrt
  have hz : z = t ∨ z ∈ L q := Tasks.mem_queued.mp (List.mem_of_getLast? h2)
  refine ⟨s', z, h1, hz, fun hr => ?_, h3, h4, h5⟩
  rw [Tasks.queued, if_neg (by simp [hr])] at h2
  simpa using h2.symm

include h0

/-- **Putting a task at the head of its ready queue.** -/
theorem Placed.pushHead (hX : t ∉ X) (hs : (s.data t).state ≠ .suspended)
    (hq : readyAt (priority2order (s.data t).prio) = .ok (.ready i)) :
    Placed (s.pushHead t (.ready i)) (Function.update L (.ready i) (t :: L (.ready i))) (H \ {t}) X ∧
      (s.pushHead t (.ready i)).data = Function.update s.data t { s.data t with state := .ready } ∧
      (s.pushHead t (.ready i)).errno = s.errno := by
  have hout := h.out t (Or.inl ht)
  obtain ⟨h1, h2, h3⟩ := h.rep.pushHead card_tid hout (fun _ => h.next_none hout hX)
    (q := .ready i)
  rw [if_neg hs] at h2
  refine ⟨h.change (t := t) h1 (fun u hu => ?_) (fun u q' hu =>
    mem_update_perm (List.Perm.refl _) hu q') (fun u hu => ?_) (fun _ _ => ?_) ?_, h2, h3⟩
  · rw [h2, Function.update_of_ne hu]
  · simp [hu]
  · rw [h2, Function.update_self]
    refine inPlace_ready rfl hq ?_
    rw [Function.update_self]
    exact List.mem_cons_self
  · intro hu
    exact absurd hu (not_or.mpr ⟨by simp, h0⟩)

/-- **Putting a task at the tail of its ready queue** (a real-time task by its deadline) and making
    it ready. `push_tail` itself makes it ready unless it is a real-time task. -/
theorem Placed.pushTail_ready (hX : ∀ u ∈ X, u = t)
    (hrt : (s.data t).realTime = true → (s.data t).prio = prioRt)
    (hs : (s.data t).state ≠ .blkSend) (hs' : (s.data t).state ≠ .suspended)
    (hq : readyAt (priority2order (s.data t).prio) = .ok (.ready i)) :
    ∃ s', s.pushTail t (.ready i) = .ok s' ∧
      Placed (s'.setState t .ready) (Function.update L (.ready i) (s.queued t (L (.ready i))))
        (H \ {t}) ∅ ∧
      (s'.setState t .ready).data = Function.update s.data t { s.data t with state := .ready } ∧
      (s'.setState t .ready).errno = s.errno ∧
      ((s.data t).realTime = false ∨ (s.data t).state = .ready → s'.setState t .ready = s') := by
  obtain ⟨s', z, h1, hz, hz', h2, h3, h4⟩ := h.pushTail_rep ht (q := .ready i) hX hrt
  have hdata : s'.data = Function.update s.data z { s.data z with state := .ready } := by
    rw [h4, Tasks.marked, if_pos ⟨hs, hs'⟩]
  -- a task already in the queue was ready before
  have hzt : z ≠ t → s'.data = s.data := fun hne => by
    have := h.state_of_mem (hz.resolve_left hne)
    rw [QId.state] at this
    rw [hdata, ← this]
    exact Function.update_eq_self z s.data
  have hset : (s'.setState t .ready).data =
      Function.update s.data t { s.data t with state := .ready } := by
    rw [Tasks.setState, Tasks.modify_data]
    by_cases e : z = t
    · rw [hdata, e, Function.update_self, Function.update_idem]
    · rw [hzt e]
  refine ⟨s', h1, h.change (t := t) (h2.modify t _) (fun u hu => ?_) (fun u q' hu =>
    mem_update_perm (s.queued_perm t _) hu q') (fun u hu => ?_) (fun _ _ => ?_) ?_, hset, h3,
    fun hor => setState_eq_self ?_⟩
  · exact (congrFun hset u).trans (Function.update_of_ne hu _ _)
  · simp [hu]
  · refine (congrArg (InPlace _ t) (congrFun hset t)).mpr ?_
    rw [Function.update_self]
    refine inPlace_ready rfl hq ?_
    rw [Function.update_self]
    exact Tasks.mem_queued.mpr (Or.inl rfl)
  · intro hu
    exact absurd hu (not_or.mpr ⟨by simp, h0⟩)
  · by_cases e : z = t
    · rw [hdata, e, Function.update_self]
    · rw [hzt e]
      exact hor.elim (fun hr => absurd (hz' hr) e) id

/-- A held task joins a queue in which its state keeps it. -/
theorem Placed.pushTail_keep (hX : ∀ u ∈ X, u = t)
    (hrt : (s.data t).realTime = true → (s.data t).prio = prioRt)
    (hs : (s.data t).state = q.state) (hq : q.state = .blkSend ∨ q.state = .suspended) :
    ∃ s', s.pushTail t q = .ok s' ∧
      Placed s' (Function.update L q (s.queued t (L q))) (H \ {t}) ∅ ∧ s'.data = s.data ∧
      s'.errno = s.errno := by
  obtain ⟨s', z, h1, hz, hz', h2, h3, h4⟩ := h.pushTail_rep ht (q := q) hX hrt
  have hdata : s'.data = s.data := by
    rw [h4, Tasks.marked, if_neg]
    rw [hs]
    exact fun hne => hq.elim hne.1 hne.2
  have hmem : t ∈ Function.update L q (s.queued t (L q)) q := by
    rw [Function.update_self]
    exact Tasks.mem_queued.mpr (Or.inl rfl)
  refine ⟨s', h1, h.change (t := t) h2 (fun u _ => by rw [hdata]) (fun u q' hu =>
    mem_update_perm (s.queued_perm t _) hu q') (fun u hu => ?_) (fun _ _ => ?_) ?_, hdata, h3⟩
  · simp [hu]
  · rw [hdata]
    unfold InPlace
    rw [hs]
    cases q with
    | ready j => simp [QId.state] at hq
    | suspend => exact hmem
    | waiting m => exact ⟨m, hmem⟩
  · intro hu
    exact absurd hu (not_or.mpr ⟨by simp, h0⟩)

end Put

end Rtx
