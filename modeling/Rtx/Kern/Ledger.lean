/-
  File:      Rtx/Kern/Ledger.lean
  Subject:   Who has the memory of IRAM2.

  `Ledger A k h`: the live blocks of IRAM2 are the stacks of the tasks and the rings of their
  mailboxes, one each, and no others. A task can allocate and free as it likes: it reaches IRAM1
  only.

  * `Accounts.createNew`, `Ledger.still`: a new task gets a block of its own, and an event that
    allocates nothing moves no block.
  * `Ledger.exec`, `Ledger.run`: one event, and a run.
  * `balanced`: in every state that is reached no two stacks or rings overlap, and nothing else
    is allocated.
  * `stacks_kept`: the kernel writes into no user stack, be it a message or a link of a free list.
-/
import Rtx.Kern.Blocks
import Rtx.Kern.Roster
import Rtx.Kern.Stack

namespace Rtx

open Lib

variable {k k' k₁ : Kernel} {h : Heap} {t u : Tid} {A : Tid → Prop} {info : TaskInit}

/-! ## 1. Definitions -/

/-- The block of a task's user stack. -/
def TcbData.home (d : TcbData) : Option (Nat × Nat) :=
  if d.state = .dormant then none else d.pspBase.map fun base => (base, d.uStackSize)

/-- The block of a mailbox's ring. -/
def Mailbox.home (b : Mailbox) : Option (Nat × Nat) :=
  if b.active then some (b.memoryBuffer.memoryStart, b.memoryBuffer.capacity) else none

/-- The blocks of the user stacks. -/
def Kernel.stackHomes (k : Kernel) : List (Nat × Nat) :=
  (List.finRange 16).filterMap fun t => (k.data t).home

/-- The blocks of the rings. -/
def Kernel.ringHomes (k : Kernel) : List (Nat × Nat) :=
  (List.finRange 16).filterMap fun t => (k.mailbox (.task t)).home

def Kernel.homes (k : Kernel) : List (Nat × Nat) := k.stackHomes ++ k.ringHomes

/-- A task has a stack, which `k_tsk_create_new` has given it. -/
def TcbData.HasStack (d : TcbData) : Prop :=
  ∃ base, d.pspBase = some base ∧ d.psp = base + d.uStackSize ∧ 32 ≤ d.uStackSize

/-- The ring of a task's mailbox is as long as its block; without mailbox it is empty. -/
def Mailbox.Fitted (b : Mailbox) : Prop :=
  b.memoryBuffer.memoryEnd = b.memoryBuffer.memoryStart + b.memoryBuffer.capacity ∧
    (b.active = false → b.memoryBuffer.capacity = 0)

/-- **Every live block of IRAM2 is somebody's**, and everybody has a block. -/
structure Accounts (A : Tid → Prop) (k : Kernel) (h : Heap) : Prop where
  indexed : Indexed A k
  null : (k.data tidNull).state ≠ .dormant
  pool : h.pool = k.ram2
  inv : h.Inv iram2
  books : h.live.Perm k.homes
  stack : ∀ t, (k.data t).state ≠ .dormant → (k.data t).HasStack
  ring : ∀ t, (k.mailbox (.task t)).Fitted

/-- And the ring of the UART mailbox is in IRAM1. -/
structure Ledger (A : Tid → Prop) (k : Kernel) (h : Heap) : Prop extends Accounts A k h where
  uart : (k.ring .uart).memoryEnd ≤ iram2.start

/-! ## 2. Lists of homes -/

/-- One more of the owners has something. -/
theorem filterMap_add {τ β : Type} {l : List τ} {f g : τ → Option β} {t : τ} {x : β}
    (hl : l.Nodup) (ht : t ∈ l) (h0 : f t = none) (h1 : g t = some x)
    (hne : ∀ u, u ≠ t → g u = f u) : (l.filterMap g).Perm (x :: l.filterMap f) := by
  obtain ⟨l₁, l₂, rfl⟩ := List.append_of_mem ht
  obtain ⟨h2, h3⟩ := List.nodup_cons.mp (List.nodup_middle.mp hl)
  have hsame : ∀ l' : List τ, t ∉ l' → l'.filterMap g = l'.filterMap f := fun l' hl' =>
    List.filterMap_congr fun u hu => hne u fun e => hl' (e ▸ hu)
  rw [List.filterMap_append, List.filterMap_append, List.filterMap_cons_some h1,
    List.filterMap_cons_none h0, hsame l₁ fun hm => h2 (List.mem_append_left _ hm),
    hsame l₂ fun hm => h2 (List.mem_append_right _ hm)]
  exact List.perm_middle

theorem Kernel.stackHomes_congr (h : ∀ t, (k'.data t).home = (k.data t).home) :
    k'.stackHomes = k.stackHomes := List.filterMap_congr fun t _ => h t

theorem Kernel.ringHomes_congr (h : ∀ t, (k'.mailbox (.task t)).home = (k.mailbox (.task t)).home) :
    k'.ringHomes = k.ringHomes := List.filterMap_congr fun t _ => h t

/-- A place says whose block a ring is in. -/
theorem Mailbox.home_of_place {b b' : Mailbox} (h : b'.place = b.place) : b'.home = b.home := by
  unfold Mailbox.home
  rw [Mailbox.active_of_place h, Mailbox.memoryStart_of_place h, Mailbox.capacity_of_place h]

theorem Mailbox.Fitted.of_place {b b' : Mailbox} (hb : b.Fitted) (h : b'.place = b.place) :
    b'.Fitted := by
  unfold Mailbox.Fitted
  rw [Mailbox.active_of_place h, Mailbox.memoryStart_of_place h, Mailbox.memoryEnd_of_place h,
    Mailbox.capacity_of_place h]
  exact hb

/-- Where the stack of a task is. -/
def TcbData.stackPlace (d : TcbData) : Option Nat × Nat × Nat := (d.pspBase, d.psp, d.uStackSize)

section StackPlace

variable {d x : TcbData}

theorem TcbData.stackPlace_of_body (h : x.body = d.body) : x.stackPlace = d.stackPlace := by
  have h1 := congrArg TcbData.stackPlace h
  exact h1

theorem TcbData.home_of_place (h : x.stackPlace = d.stackPlace)
    (hs : x.state = .dormant ↔ d.state = .dormant) : x.home = d.home := by
  have h1 : x.pspBase = d.pspBase := congrArg Prod.fst h
  have h2 : x.uStackSize = d.uStackSize := congrArg (fun y => y.2.2) h
  unfold TcbData.home
  rw [h1, h2]
  exact if_congr hs rfl rfl

theorem TcbData.HasStack.of_place (hd : d.HasStack) (h : x.stackPlace = d.stackPlace) :
    x.HasStack := by
  have h1 : x.pspBase = d.pspBase := congrArg Prod.fst h
  have h2 : x.psp = d.psp := congrArg (fun y => y.2.1) h
  have h3 : x.uStackSize = d.uStackSize := congrArg (fun y => y.2.2) h
  unfold TcbData.HasStack
  rw [h1, h2, h3]
  exact hd

end StackPlace

/-! ## 3. Steps that move no block -/

/-- Who exists is the null task or one of `A`. -/
theorem Indexed.dormant_iff (h : Indexed A k) (h0 : (k.data tidNull).state ≠ .dormant) (t : Tid) :
    (k.data t).state = .dormant ↔ t ≠ tidNull ∧ ¬ A t := by
  by_cases ht : t = tidNull
  · subst ht
    exact ⟨fun hs => absurd hs h0, fun hn => absurd rfl hn.1⟩
  · have hc := (h.links.data t).created ht
    exact ⟨fun hs => ⟨ht, fun hA => hc.mp hA hs⟩, fun hn => not_not.mp fun hs => hn.2 (hc.mpr hs)⟩

/-- What moves no block of IRAM2. -/
structure Unmoved (k k' : Kernel) : Prop extends Tidy k k' where
  stackPlace : ∀ t, (k'.data t).stackPlace = (k.data t).stackPlace
  null : (k.data tidNull).state ≠ .dormant → (k'.data tidNull).state ≠ .dormant
  ram2 : k'.ram2 = k.ram2

theorem Unmoved.of_steady (hs : Steady k k') (ht : Tidy k k') : Unmoved k k' :=
  ⟨ht, fun t => TcbData.stackPlace_of_body (hs.body t), hs.alive _, hs.ram2⟩

/-- The same tasks and mailboxes, on the same memory. -/
theorem Accounts.still (h : Accounts A k h₀) (hs : Unmoved k k') (hA : Indexed A k') :
    Accounts A k' h₀ := by
  have h0 := hs.null h.null
  have hd : ∀ t, (k'.data t).state = .dormant ↔ (k.data t).state = .dormant := fun t =>
    (hA.dormant_iff h0 t).trans (h.indexed.dormant_iff h.null t).symm
  refine ⟨hA, h0, h.pool.trans hs.ram2.symm, h.inv, ?_, fun t hn => ?_, fun t => ?_⟩
  · unfold Kernel.homes
    rw [Kernel.stackHomes_congr fun t => TcbData.home_of_place (hs.stackPlace t) (hd t),
      Kernel.ringHomes_congr fun t => Mailbox.home_of_place (hs.place (.task t))]
    exact h.books
  · exact (h.stack t fun e => hn ((hd t).mpr e)).of_place (hs.stackPlace t)
  · exact (h.ring t).of_place (hs.place _)

theorem Ledger.still (h : Ledger A k h₀) (hs : Unmoved k k') (hA : Indexed A k') :
    Ledger A k' h₀ :=
  ⟨h.toAccounts.still hs hA, (Mailbox.memoryEnd_of_place (hs.place .uart)).trans_le h.uart⟩

/-- **An event that allocates nothing of IRAM2** moves no block. -/
theorem exec_still (k : Kernel) {e : Event} (he : e.keepsHomes = true) :
    Post (k.exec e) fun r => Unmoved k r.1 := by
  have hstack : ∀ {t : Tid} {d x : TcbData}, Writes k t d e x → x.stackPlace = d.stackPlace ∧
      (d.state ≠ .dormant → x.state ≠ .dormant) := by
    intro t d x hw
    cases hw with
    | same h => exact ⟨TcbData.stackPlace_of_body h.1, h.2⟩
    | noMemory | create => cases he
    | makeRealTime _ _ h =>
        exact ⟨(TcbData.stackPlace_of_body h.1).trans rfl, fun _ => h.2 (by simp [TcbData.makeRealTime])⟩
    | postpone _ _ h | count h => exact ⟨(TcbData.stackPlace_of_body h.1).trans rfl, h.2⟩
  have hram : Post (k.exec e) fun r => r.1.ram2 = k.ram2 := by
    cases hst : e.steady with
    | true => exact (exec_steady k hst).imp fun _ hr => hr.ram2
    | false =>
        cases e with
        | resume | overwrite => cases hst
        | timer tc pc => exact Ends.bind (k.timer0IrqHandler_tasksOnly tc pc) fun _ hr => hr.ram2
        | call c =>
            cases c with
            | tskCreate | mbxCreate => cases he
            | rtTskSet tv => exact Ends.bind (k.kRtTskSet_tasksOnly tv) fun _ hr => hr.ram2
            | rtTskSusp => exact Ends.bind k.kRtTskSusp_tasksOnly fun _ hr => hr.ram2
            | _ => cases hst
  refine (((exec_writes k e).both (exec_tidy k he)).both hram).imp fun r hr => ?_
  obtain ⟨⟨⟨hw, -⟩, ht⟩, h2⟩ := hr
  exact ⟨ht, fun t => (hstack (hw t)).1, (hstack (hw tidNull)).2, h2⟩

/-! ## 4. New blocks -/

/-- A block of IRAM2 ends below 2^32. -/
theorem add32_block {p : Pool} {a size : Nat} (hal : (h.afterAlloc p size (some a)).Inv iram2) :
    add32 a size = a + size := by
  have hin := (hal.safe.inside (a, size) List.mem_cons_self).2
  have hend : iram2.start + iram2.size < 2 ^ 32 := by decide
  exact add32_eq ((Nat.add_le_add_left (le_blockBytes size) a).trans_lt (hin.trans_lt hend))

/-- **A new task has a new block**, the others have theirs. -/
theorem Accounts.addTask (hk : Accounts A k h) {p : Pool} {a size : Nat}
    (hal : (h.afterAlloc p size (some a)).Inv iram2) (ht : (k.data t).state = .dormant)
    (hsize : 32 ≤ size) (hA : Indexed (fun u => A u ∨ u = t) k') (hram : k'.ram2 = p)
    (hd : k'.data = Function.update k.data t (info.tcb t a size)) (hm : k'.mailbox = k.mailbox) :
    Accounts (fun u => A u ∨ u = t) k' (h.afterAlloc p size (some a)) := by
  have hself : k'.data t = info.tcb t a size := by rw [hd, Function.update_self]
  have hother : ∀ u, u ≠ t → k'.data u = k.data u := fun u hu => by
    rw [hd, Function.update_of_ne hu]
  have h0 : tidNull ≠ t := fun e => hk.null (e ▸ ht)
  refine ⟨hA, by rw [hother _ h0]; exact hk.null, hram.symm, hal, ?_, fun u hu => ?_, fun u => ?_⟩
  · have hperm : k'.stackHomes.Perm ((a, size) :: k.stackHomes) :=
      filterMap_add (List.nodup_finRange 16) (List.mem_finRange t) (if_pos ht)
        (by rw [hself]; rfl) fun u hu => by rw [hother u hu]
    unfold Kernel.homes
    rw [Kernel.ringHomes_congr (k := k) fun u => by rw [hm]]
    exact (hk.books.cons _).trans (hperm.symm.append_right _)
  · by_cases e : u = t
    · subst e
      rw [hself]
      exact ⟨a, rfl, add32_block hal, hsize⟩
    · rw [hother u e] at hu ⊢
      exact hk.stack u hu
  · rw [hm]
    exact hk.ring u

/-- A task that gets no stack. -/
theorem Accounts.noStack (hk : Accounts A k h) (hA : Indexed A k') (hram : k'.ram2 = k.ram2)
    (ht : (k.data t).state = .dormant)
    (hd : k'.data = Function.update k.data t { k.data t with pspBase := none })
    (hm : k'.mailbox = k.mailbox) : Accounts A k' h := by
  have hother : ∀ u, u ≠ t → k'.data u = k.data u := fun u hu => by
    rw [hd, Function.update_of_ne hu]
  have hself : (k'.data t).state = .dormant := by
    rw [hd, Function.update_self]
    exact ht
  have h0 : tidNull ≠ t := fun e => hk.null (e ▸ ht)
  refine ⟨hA, by rw [hother _ h0]; exact hk.null, hk.pool.trans hram.symm, hk.inv, ?_, fun u hu => ?_,
    fun u => hm ▸ hk.ring u⟩
  · unfold Kernel.homes
    rw [Kernel.ringHomes_congr (k := k) fun u => by rw [hm],
      Kernel.stackHomes_congr (k := k) fun u => ?_]
    · exact hk.books
    by_cases e : u = t
    · subst e
      exact (if_pos hself).trans (if_pos ht).symm
    · rw [hother u e]
  · by_cases e : u = t
    · exact absurd (e ▸ hself) hu
    · rw [hother u e] at hu ⊢
      exact hk.stack u hu

/-- **`k_tsk_create_new`** has given the task a block of its own, or there was none. -/
theorem Accounts.createNew (hk : Accounts A k h) (ht : t ≠ tidNull) (hfree : ¬ A t) :
    Post (k.kTskCreateNew info t) fun r => r.1.mailbox = k.mailbox ∧ r.1.current = k.current ∧
      (r.2 = rtxErr ∧ (∃ h', Accounts A r.1 h') ∨
        r.2 = rtxOk ∧ k.hasMemory info.uStackSize = true ∧
          ((∃ i : Fin 5, info.prio = order2priority i.val) →
            ∃ h', Accounts (fun u => A u ∨ u = t) r.1 h')) := by
  have hs : (k.data t).state = .dormant := (hk.indexed.dormant_iff hk.null t).mpr ⟨ht, hfree⟩
  refine ((kTskCreateNew_spec k info t).both (hk.indexed.createNew info ht)).imp fun r hr => ?_
  obtain ⟨r, x⟩ := r
  obtain ⟨⟨power, k₁, ptr, hlog, hal, hr⟩, hcur, hidx⟩ := hr
  obtain ⟨m, ptr', hal', -, hblk⟩ := mpoolAlloc_heap (k := k) .iram2 hk.inv hk.pool (power2 power)
  obtain ⟨rfl, rfl⟩ := Prod.mk.inj (Except.ok.inj (hal.symm.trans hal'))
  obtain ⟨rfl, hx, rfl⟩ | ⟨a, rfl, hx, rfl⟩ := hr
  · obtain ⟨-, hram2⟩ | ⟨a, e, -⟩ := hblk
    · obtain ⟨-, -, hA⟩ | ⟨-, e, -⟩ := hidx
      · exact ⟨rfl, hcur, Or.inl ⟨hx, h, hk.noStack hA hram2 hs
          (k.data_modifyTcb t fun d => { d with pspBase := none }) rfl⟩⟩
      · exact absurd (hx.symm.trans e) rtxErr_ne_rtxOk
    · cases e
  · obtain ⟨e, -⟩ | ⟨a', e, hheap⟩ := hblk
    · cases e
    obtain rfl := Option.some.inj e
    obtain ⟨-, e, -⟩ | ⟨hmem, -, -, hA⟩ := hidx
    · exact absurd (e.symm.trans hx) rtxErr_ne_rtxOk
    exact ⟨rfl, hcur, Or.inr ⟨hx, hmem, fun hp => ⟨_, hk.addTask hheap hs (le_power2 hlog) (hA hp) rfl
      (k.data_modifyTcb t fun _ => info.tcb t a (power2 power)) rfl⟩⟩⟩

/-- **A new mailbox has a new block.** -/
theorem Accounts.addMailbox (hk : Accounts A k h) {p : Pool} {a size : Nat}
    (hal : (h.afterAlloc p size (some a)).Inv iram2) (ht : (k.mailbox (.task t)).active = false)
    (hA : Indexed A k') (hram : k'.ram2 = p) (hd : k'.data = k.data)
    (hm : k'.mailbox = Function.update k.mailbox (.task t) ⟨true, Mb.create a size⟩) :
    Accounts A k' (h.afterAlloc p size (some a)) := by
  have hself : k'.mailbox (.task t) = ⟨true, Mb.create a size⟩ := by
    rw [hm, Function.update_self]
  have hother : ∀ u, u ≠ t → k'.mailbox (.task u) = k.mailbox (.task u) := fun u hu => by
    rw [hm, Function.update_of_ne fun e => hu (MbxId.task.inj e)]
  refine ⟨hA, hd ▸ hk.null, hram.symm, hal, ?_, fun u => hd ▸ hk.stack u, fun u => ?_⟩
  · have hperm : k'.ringHomes.Perm ((a, size) :: k.ringHomes) := by
      refine filterMap_add (List.nodup_finRange 16) (List.mem_finRange t) ?_ ?_ fun u hu => ?_
      · unfold Mailbox.home
        rw [ht]
        rfl
      · rw [hself]
        rfl
      · rw [hother u hu]
    unfold Kernel.homes
    rw [Kernel.stackHomes_congr (k := k) fun u => by rw [hd]]
    exact (hk.books.cons _).trans (List.perm_middle.symm.trans (hperm.symm.append_left _))
  · by_cases e : u = t
    · subst e
      rw [hself]
      exact ⟨rfl, fun e => (by cases e)⟩
    · rw [hother u e]
      exact hk.ring u

/-- The words of a new user stack, from the top down. -/
def userFrame (ptask : Nat) : List Nat := [initialXPSR, ptask, 0, 0, 0, 0, 0, 0]

/-- The task `t` has its first frame on its user stack. -/
def Kernel.Framed (k : Kernel) (t : Tid) : Prop :=
  ∃ bytes, ∀ z, (k.data t).psp - 32 ≤ z → z < (k.data t).psp →
    k.bytes z = pushWords bytes (k.data t).psp (userFrame (k.data t).ptask) z

/-- The task `t` was made from an entry point and a privilege. -/
structure Kernel.Made (k : Kernel) (t : Tid) (ptask priv : Nat) : Prop where
  framed : k.Framed t
  ptask : (k.data t).ptask = ptask
  priv : (k.data t).priv = priv

/-- A new task gets its frame, in its own block. -/
theorem Accounts.createNew_bytes (hk : Accounts A k h) (info : TaskInit) (t : Tid) :
    Post (k.kTskCreateNew info t) fun r =>
      (∀ x ∈ k.homes, ∀ z, x.1 ≤ z → z < x.1 + x.2 → r.1.bytes z = k.bytes z) ∧
        (r.2 = rtxOk → r.1.Made t info.ptask info.priv) := by
  refine (kTskCreateNew_spec k info t).imp fun r hr => ?_
  obtain ⟨r, x⟩ := r
  obtain ⟨power, k₁, ptr, hlog, hal, hr⟩ := hr
  obtain ⟨m, ptr', hal', -, hblk⟩ := mpoolAlloc_heap (k := k) .iram2 hk.inv hk.pool (power2 power)
  obtain ⟨rfl, rfl⟩ := Prod.mk.inj (Except.ok.inj (hal.symm.trans hal'))
  obtain ⟨rfl, hx, rfl⟩ | ⟨a, rfl, -, rfl⟩ := hr
  · exact ⟨fun _ _ _ _ _ => rfl, fun e => absurd (hx.symm.trans e) rtxErr_ne_rtxOk⟩
  obtain ⟨e, -⟩ | ⟨a', e, hheap⟩ := hblk
  · cases e
  obtain rfl := Option.some.inj e
  have h32 := le_power2 hlog
  have hsp := add32_block hheap
  have hself := (congrFun (k.data_modifyTcb t fun _ => info.tcb t a (power2 power)) t).trans
    (Function.update_self _ _ _)
  have hpsp := congrArg TcbData.psp hself
  have hent := congrArg TcbData.ptask hself
  refine ⟨fun x hx z h1 h2 => ?_, fun _ => ⟨⟨k.bytes, fun z _ _ => ?_⟩, hent,
    congrArg TcbData.priv hself⟩⟩
  · have hd := List.rel_of_pairwise_cons hheap.safe.disjoint (hk.books.mem_iff.mpr hx)
    have h3 := le_blockBytes x.2
    have h4 := le_blockBytes (power2 power)
    change pushWords k.bytes (add32 a (power2 power)) _ z = _
    rw [hsp]
    refine pushWords_outside k.bytes (h32.trans (Nat.le_add_left _ _)) ?_
    rw [show 4 * [initialXPSR, info.ptask, 0, 0, 0, 0, 0, 0].length = 32 from rfl]
    dsimp only at hd
    omega
  · exact congrFun (congrArg₂ (fun sp e => pushWords k.bytes sp (userFrame e)) hpsp hent).symm z

/-- The frame stays as long as its bytes do. -/
theorem Kernel.Made.steady {ptask priv : Nat} (hm : k.Made t ptask priv) (hs : Steady k k')
    (hb : k'.bytes = k.bytes) : k'.Made t ptask priv := by
  have h1 := (hs.follows t).field TcbData.psp fun _ => rfl
  have h2 := (hs.follows t).field TcbData.ptask fun _ => rfl
  have h3 := (hs.follows t).field TcbData.priv fun _ => rfl
  refine ⟨?_, h2.trans hm.ptask, h3.trans hm.priv⟩
  unfold Kernel.Framed
  rw [h1, h2, hb]
  exact hm.framed

/-! ## 5. One event -/

/-- The books are balanced behind the event `e`, and who is new was made by it. -/
def Grown (A : Tid → Prop) (e : Event) (k : Kernel) : Prop :=
  ∃ A' h, Ledger A' k h ∧ ∀ t, A' t → A t ∨ ∃ taskEntry prio stackSize,
    e = .call (.tskCreate taskEntry prio stackSize) ∧ k.Made t taskEntry 0

section Exec

variable (hk : Ledger A k h)
include hk

/-- **`k_mbx_create`** has given the mailbox a block of its own, or has done nothing. -/
theorem Ledger.kMbxCreate (size : Nat) :
    Post (k.kMbxCreate size) fun r => ∃ h', Ledger A r.1 h' := by
  have hno : ∀ e, ∃ h', Ledger A (k.setErrno e) h' := fun e => ⟨h, hk.still (.of_steady
    ((Steady.refl k).setErrno e) ((Tidy.refl k).setErrno e)) (hk.indexed.setErrno e)⟩
  refine Ends.imp ((hk.indexed.kMbxCreate size).post.both Ends.returned) fun r hr => ?_
  obtain ⟨hA, hr⟩ := hr
  unfold Kernel.kMbxCreate at hr
  obtain ⟨m, hm, hr⟩ := bind_eq_ok.mp hr
  obtain ⟨t, rfl⟩ : ∃ t, m = .task t := by
    unfold mbxAt at hm
    split at hm
    · exact ⟨_, (Except.ok.inj hm).symm⟩
    · cases hm
  dsimp only at hr
  split at hr
  · obtain rfl := Except.ok.inj hr
    exact hno _
  next hact =>
  split at hr
  · obtain rfl := Except.ok.inj hr
    exact hno _
  obtain ⟨⟨k₁, ptr⟩, hal, hr⟩ := bind_eq_ok.mp hr
  obtain ⟨m, ptr', hal', -, hblk⟩ := mpoolAlloc_heap (k := k) .iram2 hk.inv hk.pool size
  obtain ⟨rfl, rfl⟩ := Prod.mk.inj (Except.ok.inj (hal.symm.trans hal'))
  obtain ⟨rfl, hram2⟩ | ⟨a, rfl, hheap⟩ := hblk
  · obtain rfl := Except.ok.inj hr
    exact ⟨h, hk.still (.of_steady (Steady.of_follows (fun _ => ⟨rfl, id⟩) hram2 rfl)
      ((Tidy.refl k).frame rfl rfl)) hA⟩
  · obtain rfl := Except.ok.inj hr
    exact ⟨_, hk.toAccounts.addMailbox hheap (Bool.eq_false_iff.mpr hact) hA rfl rfl rfl, hk.uart⟩

/-- **`k_tsk_create`** has given the task a block of its own, or has created nothing. -/
theorem Ledger.kTskCreate (h0 : k.current ≠ tidNull) (taskEntry prio stackSize : Nat) :
    Post (k.kTskCreate taskEntry prio stackSize) fun r =>
      Grown A (.call (.tskCreate taskEntry prio stackSize)) r.1 := by
  have hno : ∀ e, Grown A (.call (.tskCreate taskEntry prio stackSize)) (k.setErrno e) := fun e =>
    ⟨A, h, hk.still (.of_steady ((Steady.refl k).setErrno e) ((Tidy.refl k).setErrno e))
      (hk.indexed.setErrno e), fun _ => Or.inl⟩
  have hmain : Post (k.kTskCreate taskEntry prio stackSize) fun r =>
      k.CreatesNull prio stackSize ∨
        Grown A (.call (.tskCreate taskEntry prio stackSize)) r.1 := by
    unfold Kernel.kTskCreate
    refine Ends.ite (fun _ => Or.inr (hno _)) fun hslot => ?_
    refine Ends.ite (fun _ => Or.inr (hno _)) fun hprio => ?_
    have hs := (hk.indexed.dormant_iff hk.null _).mp (dormantSlot_dormant k hslot)
    refine Ends.bind ((hk.toAccounts.createNew hs.1 hs.2).both
      (hk.toAccounts.createNew_bytes _ _)) fun r hr => ?_
    obtain ⟨k₁, x⟩ := r
    obtain ⟨⟨hm, hcur, hr⟩, -, hframe⟩ := hr
    have hcur' : k₁.current = k.current := hcur
    have hu : (k₁.ring .uart).memoryEnd ≤ iram2.start := by
      have hm' : k₁.mailbox = k.mailbox := hm
      unfold Kernel.ring
      rw [hm']
      exact hk.uart
    obtain ⟨rfl, h', hk'⟩ | ⟨rfl, hmem, hk'⟩ := hr
    · exact Ends.ite (fun _ => Or.inr ⟨A, h', ⟨hk', hu⟩, fun _ => Or.inl⟩) fun e => absurd rfl e
    refine Ends.ite (fun e => absurd e (by decide)) fun _ => ?_
    obtain hp | rfl | hp := priority2order_cases prio
    · exact absurd hp hprio
    · exact Ends.bind Ends.trivial fun _ _ => Or.inl ⟨rfl, hslot, hmem⟩
    · obtain ⟨i, hi⟩ := id hp
      obtain ⟨h', hk'⟩ := hk' hp
      have hA := (hk'.indexed.startNew (hcur'.trans_ne h0) (Or.inr rfl)
        (readyAt_priority.mpr hi)).post
      refine Ends.bind (hA.both (((Steady.refl k₁).startNew _ _).both
        (k₁.startNew_tasksOnly _ _))) fun k₂ h2 => ?_
      obtain ⟨hA, hs, ht⟩ := h2
      have hk₁ : Ledger (fun u => A u ∨ u = k.dormantSlot) k₁ h' := ⟨hk', hu⟩
      refine Or.inr ⟨_, h', hk₁.still (.of_steady hs ((Tidy.refl k₁).tasksOnly ht)) hA, ?_⟩
      rintro t (ht' | rfl)
      · exact Or.inl ht'
      · exact Or.inr ⟨_, _, _, rfl, (hframe rfl).steady hs ht.bytes⟩
  refine (hmain.both (hk.indexed.kTskCreate h0 taskEntry prio stackSize)).imp fun r hr => ?_
  exact hr.1.resolve_left hr.2.1

omit hk in
/-- The tasks that exist stay the same ones. -/
theorem Indexed.exec_same (hA : Indexed A k) {e : Event} (hl : k.Legal e)
    (he : e.keepsHomes = true) : Post (k.exec e) fun r => Indexed A r.1 := by
  cases e with
  | timer tc pc => exact Ends.bind (hA.timer0IrqHandler tc pc) fun _ hr => hr
  | overwrite t buf => exact hA.overwrite t buf
  | resume =>
      unfold Kernel.exec
      cases hp : k.pend k.current with
      | none => exact absurd hp hl
      | some p =>
          have h0 : k.current ≠ tidNull := fun e => by
            rw [e, hA.pend] at hp
            cases hp
          exact Ends.bind (hA.resumeRecv h0 p).post fun _ hr => hr
  | call c =>
      by_cases h0 : k.current = tidNull
      · obtain rfl := hl.2 h0
        exact Ends.bind hA.kTskYield.post fun _ hr => hr
      · refine (hA.svcHandler h0 fun a p s e => ?_).post
        subst e
        cases he

/-- **One event.** -/
theorem Ledger.exec {e : Event} (hl : k.Legal e) :
    Post (k.exec e) fun r => Grown A e r.1 := by
  cases he : e.keepsHomes with
  | true =>
      refine ((hk.indexed.exec_same hl he).both (exec_still k he)).imp fun r hr => ?_
      exact ⟨A, h, hk.still hr.2 hr.1, fun _ => Or.inl⟩
  | false =>
      cases e with
      | resume | timer | overwrite => cases he
      | call c =>
          have h0 : k.current ≠ tidNull := fun e => by
            obtain rfl := hl.2 e
            cases he
          cases c with
          | tskCreate taskEntry prio stackSize =>
              exact Ends.bind (hk.kTskCreate h0 taskEntry prio stackSize) fun _ hr => hr
          | mbxCreate size =>
              exact Ends.bind (hk.kMbxCreate size) fun _ ⟨h', hr⟩ => ⟨A, h', hr, fun _ => Or.inl⟩
          | _ => cases he

end Exec

/-! ## 6. The boot -/

/-- A new task is queued. -/
theorem Accounts.pushTail (hk : Accounts A k h) (ht : A t) (q : QId) :
    Post (k.pushTail t q) fun k' => k'.mailbox = k.mailbox ∧ Accounts A k' h := by
  refine (((hk.indexed.pushTail ht q).post.both ((Steady.refl k).pushTail t q)).both
    (k.pushTail_tasksOnly t q)).imp fun k' hr => ?_
  obtain ⟨⟨hA, hs⟩, ht⟩ := hr
  exact ⟨ht.mailbox, hk.still (.of_steady hs ((Tidy.refl k).tasksOnly ht)) hA⟩

theorem Accounts.createSystemTasks {ts : List (Tid × TaskInit)} (hk : Accounts A k h)
    (hts : ∀ x ∈ ts, x.1 ≠ tidNull ∧ ¬ A x.1 ∧ ∃ i : Fin 5, x.2.prio = order2priority i.val)
    (hnd : (ts.map Prod.fst).Nodup) :
    Post (Kernel.createSystemTasks ts k) fun r => r.1.mailbox = k.mailbox ∧ (r.2 = rtxOk →
      ∃ A' h', Accounts A' r.1 h' ∧ ∀ t, A' t → A t ∨ t ∈ ts.map Prod.fst) := by
  induction ts generalizing k A h with
  | nil => exact ⟨rfl, fun _ => ⟨A, h, hk, fun _ => Or.inl⟩⟩
  | cons x ts ih =>
      obtain ⟨t, info⟩ := x
      obtain ⟨h0, hfree, hp⟩ := hts _ List.mem_cons_self
      rw [List.map_cons, List.nodup_cons] at hnd
      unfold Kernel.createSystemTasks
      refine Ends.bind (hk.createNew h0 hfree) fun r hr => ?_
      obtain ⟨k₁, x⟩ := r
      obtain ⟨hm, -, ⟨rfl, -⟩ | ⟨rfl, -, hk'⟩⟩ := hr
      · exact Ends.ite (fun e => absurd e rtxErr_ne_rtxOk) fun _ =>
          ⟨hm, fun e => absurd e rtxErr_ne_rtxOk⟩
      obtain ⟨h', hk'⟩ := hk' hp
      refine Ends.ite (fun _ => ?_) fun e => absurd rfl e
      refine Ends.bind Ends.trivial fun q _ => Ends.bind (hk'.pushTail (Or.inr rfl) q) fun k₂ h2 => ?_
      obtain ⟨hm₂, hk₂⟩ := h2
      refine (ih hk₂ (fun y hy => ?_) hnd.2).imp fun r hr => ⟨hr.1.trans (hm₂.trans hm), fun e => ?_⟩
      · obtain ⟨h1, h2, h3⟩ := hts y (List.mem_cons_of_mem _ hy)
        refine ⟨h1, fun hy' => ?_, h3⟩
        obtain hy' | e := hy'
        · exact h2 hy'
        · exact hnd.1 (List.mem_map.mpr ⟨y, hy, e⟩)
      · obtain ⟨A', h'', h3, h4⟩ := hr.2 e
        refine ⟨A', h'', h3, fun u hu => ?_⟩
        obtain (hu | rfl) | hu := h4 u hu
        · exact Or.inl hu
        · exact Or.inr List.mem_cons_self
        · exact Or.inr (List.mem_cons_of_mem _ hu)

theorem Accounts.createBootTasks {ts : List TaskInit} {j : Nat} (hk : Accounts A k h) (hj : 1 ≤ j)
    (hlen : j + ts.length ≤ 13) (hfree : ∀ t, A t → t.val < j ∨ 13 ≤ t.val)
    (hts : ∀ x ∈ ts, ∃ i : Fin 5, x.prio = order2priority i.val) :
    Post (Kernel.createBootTasks j ts k) fun k' => ∃ A' h', Accounts A' k' h' := by
  induction ts generalizing k A h j with
  | nil => exact ⟨A, h, hk⟩
  | cons info ts ih =>
      have hp := hts _ List.mem_cons_self
      have hts' : ∀ x ∈ ts, ∃ i : Fin 5, x.prio = order2priority i.val := fun x hx =>
        hts x (List.mem_cons_of_mem _ hx)
      rw [List.length_cons] at hlen
      unfold Kernel.createBootTasks
      refine Ends.bind (tcbAt_ends j).post fun t ht => ?_
      have h0 : t ≠ tidNull := fun e => by
        rw [e] at ht
        simp only [tidNull, Fin.val_zero] at ht
        omega
      refine Ends.bind (hk.createNew h0 fun hA => ?_) fun r hr => ?_
      · have := hfree t hA
        omega
      obtain ⟨k₁, x⟩ := r
      obtain ⟨-, -, ⟨rfl, h', hk'⟩ | ⟨rfl, -, hk'⟩⟩ := hr
      · exact Ends.ite (fun e => absurd e rtxErr_ne_rtxOk) fun _ =>
          ih hk' (by omega) (by omega) (fun u hu => by have := hfree u hu; omega) hts'
      obtain ⟨h', hk'⟩ := hk' hp
      refine Ends.ite (fun _ => ?_) fun e => absurd rfl e
      refine Ends.bind Ends.trivial fun q _ => Ends.bind (hk'.pushTail (Or.inr rfl) q) fun k₂ h2 => ?_
      refine ih h2.2 (by omega) (by omega) (fun u hu => ?_) hts'
      obtain hu | rfl := hu
      · have := hfree u hu
        omega
      · omega

/-- The same TCBs and mailboxes of tasks. -/
theorem Accounts.frame (hk : Accounts A k h) (hA : Indexed A k') (hd : k'.data = k.data)
    (h2 : k'.ram2 = k.ram2) (hm : ∀ t, k'.mailbox (.task t) = k.mailbox (.task t)) :
    Accounts A k' h := by
  refine ⟨hA, hd ▸ hk.null, hk.pool.trans h2.symm, hk.inv, ?_, fun t => hd ▸ hk.stack t, fun t => ?_⟩
  · unfold Kernel.homes
    rw [Kernel.stackHomes_congr (k := k) fun t => by rw [hd],
      Kernel.ringHomes_congr (k := k) fun t => by rw [hm]]
    exact hk.books
  · rw [hm]
    exact hk.ring t

/-- The UART mailbox has its ring in IRAM1. -/
theorem Accounts.createUartMailbox (hk : Accounts A k h) :
    Post k.createUartMailbox fun r => Accounts A r.1 h := by
  refine (hk.indexed.createUartMailbox.both Ends.returned).imp fun r hr => ?_
  obtain ⟨hA, hr⟩ := hr
  unfold Kernel.createUartMailbox at hr
  obtain ⟨⟨k₁, ptr⟩, hal, hr⟩ := bind_eq_ok.mp hr
  have h2 : k₁.ram2 = k.ram2 := (((Steady.refl k).memAlloc uartMbxSize).of_ok hal).ram2
  obtain ⟨m, -, rfl⟩ := mpoolAlloc_eq_ok hal
  cases ptr with
  | none =>
      obtain rfl := Except.ok.inj hr
      exact hk.still (.of_steady (Steady.of_follows (fun _ => ⟨rfl, id⟩) h2 rfl)
        ((Tidy.refl k).frame rfl rfl)) hA
  | some a =>
      obtain rfl := Except.ok.inj hr
      have hne : ∀ t : Tid, MbxId.task t ≠ .uart := fun t e => by cases e
      exact hk.frame hA rfl h2 fun t =>
        Function.update_of_ne (hne t) ⟨true, Mb.create a uartMbxSize⟩ k.mailbox

/-- Before the first task IRAM2 is free. -/
structure Bare (k : Kernel) (h : Heap) : Prop extends Blank k where
  prev : ∀ t, (k.tcb t).prev = none
  pool : h.pool = k.ram2
  inv : h.Inv iram2
  free : h.live = []
  ring : ∀ t, (k.mailbox (.task t)).Fitted

theorem Bare.createNull (hb : Bare k h) :
    Post (k.kTskCreateNew Kernel.tskInitFirst tidNull) fun r => r.2 = rtxOk →
      ∃ h', Accounts (fun _ => False) (r.1.setCurrent tidNull) h' := by
  refine ((kTskCreateNew_spec k Kernel.tskInitFirst tidNull).both
    (hb.toBlank.createNull_indexed hb.prev)).imp fun r hr e => ?_
  obtain ⟨r, x⟩ := r
  obtain ⟨⟨power, k₁, ptr, hlog, hal, hr⟩, hA⟩ := hr
  have hA := hA e
  obtain ⟨m, ptr', hal', -, hblk⟩ := mpoolAlloc_heap (k := k) .iram2 hb.inv hb.pool (power2 power)
  obtain ⟨rfl, rfl⟩ := Prod.mk.inj (Except.ok.inj (hal.symm.trans hal'))
  obtain ⟨-, hx, -⟩ | ⟨a, rfl, -, rfl⟩ := hr
  · exact absurd (hx.symm.trans e) rtxErr_ne_rtxOk
  obtain ⟨e, -⟩ | ⟨a', e, hheap⟩ := hblk
  · cases e
  obtain rfl := Option.some.inj e
  have hd := k.data_modifyTcb tidNull fun _ => Kernel.tskInitFirst.tcb tidNull a (power2 power)
  have hself := (congrFun hd tidNull).trans (Function.update_self _ _ _)
  have hother : ∀ u, u ≠ tidNull → (k.modifyTcb tidNull fun _ =>
      Kernel.tskInitFirst.tcb tidNull a (power2 power)).data u = k.data u := fun u hu =>
    (congrFun hd u).trans (Function.update_of_ne hu _ _)
  have hdorm : ∀ u, (k.data u).state = .dormant := fun u => (hb.tcb u).2.1
  have hstack : k.stackHomes = [] := List.filterMap_eq_nil_iff.mpr fun u _ => if_pos (hdorm u)
  have hring : k.ringHomes = [] := List.filterMap_eq_nil_iff.mpr fun u _ => by
    unfold Mailbox.home
    rw [hb.mailbox (.task u)]
    rfl
  refine ⟨_, hA, ?_, rfl, hheap, ?_, fun u hu => ?_, hb.ring⟩
  · exact fun e' => by cases (congrArg TcbData.state hself).symm.trans e'
  · have hperm := filterMap_add (f := fun u => (k.data u).home) (g := fun u =>
        ((k.modifyTcb tidNull fun _ => Kernel.tskInitFirst.tcb tidNull a (power2 power)).data u).home)
      (List.nodup_finRange 16) (List.mem_finRange tidNull) (if_pos (hdorm tidNull))
      (congrArg TcbData.home hself) fun u hu => congrArg TcbData.home (hother u hu)
    change ((a, power2 power) :: h.live).Perm (_ ++ k.ringHomes)
    rw [hring, List.append_nil, hb.free, ← hstack]
    exact hperm.symm
  · by_cases e' : u = tidNull
    · subst e'
      exact (congrArg TcbData.HasStack hself).mpr ⟨a, rfl, add32_block hheap, le_power2 hlog⟩
    · exact absurd ((congrArg TcbData.state (hother u e')).trans (hdorm u)) hu

/-- The queues of the tasks are cleared. -/
theorem Bare.clear (hb : Bare k h) : Bare { k with
    queue := fun q =>
      match q with
      | .ready _ | .suspend => ⟨none, none, 0⟩
      | .waiting m => k.queue (.waiting m)
    timerCount := 0 } h := ⟨hb.toBlank.clear, hb.prev, hb.pool, hb.inv, hb.free, hb.ring⟩

theorem Bare.kTskInit (hb : Bare k h) {tasks : List TaskInit} (hlen : tasks.length ≤ 12)
    (hts : ∀ x ∈ tasks, ∃ i : Fin 5, x.prio = order2priority i.val) :
    Post (k.kTskInit tasks) fun r => r.2 = rtxOk → ∃ A h', Accounts A r.1 h' := by
  unfold Kernel.kTskInit
  refine Ends.ite (fun _ e => absurd e rtxErr_ne_rtxOk) fun _ => ?_
  refine Ends.bind hb.clear.createNull fun r hr => ?_
  refine Ends.ite (fun _ e => absurd e rtxErr_ne_rtxOk) fun hx => ?_
  obtain ⟨h₁, h1⟩ := hr (not_not.mp hx)
  have hnodup : (Kernel.systemTasks.map Prod.fst).Nodup := by decide
  refine Ends.bind (h1.createSystemTasks (fun x hx => ?_) hnodup) fun r hr => ?_
  · have hprio : ∀ x ∈ Kernel.systemTasks, x.1 ≠ tidNull ∧
        ∃ i : Fin 5, x.2.prio = order2priority i.val := by decide
    exact ⟨(hprio x hx).1, id, (hprio x hx).2⟩
  obtain ⟨-, hr⟩ := hr
  refine Ends.ite (fun _ e => absurd e rtxErr_ne_rtxOk) fun hx => ?_
  obtain ⟨A₂, h₂, h2, hfree⟩ := hr (not_not.mp hx)
  refine Ends.bind h2.createUartMailbox fun r h3 => ?_
  refine Ends.ite (fun _ e => absurd e rtxErr_ne_rtxOk) fun _ => ?_
  have hsys : ∀ t : Tid, t ∈ Kernel.systemTasks.map Prod.fst → t.val < 1 ∨ 13 ≤ t.val := by decide
  refine Ends.bind (h3.createBootTasks (j := 1) le_rfl (by omega)
    (fun t ht => hsys t ((hfree t ht).resolve_left id)) hts) fun k₄ hk₄ => ?_
  obtain ⟨A₄, h₄, h4⟩ := hk₄
  exact fun _ => ⟨A₄, h₄, h4.still (.of_steady (Steady.refl k₄).runScheduled
    ((Tidy.refl k₄).tasksOnly k₄.runScheduled_tasksOnly)) h4.indexed.runScheduled⟩

/-- What `k_mem_init` leaves at reset. -/
theorem bare_memInit (m : Mem) (bytes : Nat → UInt8) :
    let m' := (kMemInit ((Kernel.reset m bytes).setErrno .zero).mem buddy).1
    ∃ h, Bare { (Kernel.reset m bytes).setErrno .zero with
      ram1 := m'.ram1, ram2 := m'.ram2, errno := m'.errno } h :=
  ⟨_, blank_memInit m bytes, fun _ => rfl, rfl,
    Pools.Inv.init ((Kernel.reset m bytes).setErrno .zero).mem .iram2, rfl, fun _ => ⟨rfl, fun _ => rfl⟩⟩

/-- **The boot** leaves the books balanced. -/
theorem Booted.ledger (hb : Booted k) : ∃ A h, Ledger A k h := by
  obtain ⟨m, bytes, tasks, hk, hlen, hprio⟩ := hb
  have hu : (k.ring .uart).memoryEnd ≤ iram2.start := by
    obtain ⟨hle, k₀, L₀, h0, heq⟩ := kRtxInit_furnished hk
    obtain ⟨k₁, h1, e⟩ := bind_eq_ok.mp ((heq tasks hle).symm.trans hk)
    obtain rfl : k₁.runScheduled = k := congrArg Prod.fst (Except.ok.inj e)
    obtain ⟨hm, -⟩ := (h0.enrolled.createBootTasks le_rfl (by omega) (by decide)
      (bootPrio hprio)).of_ok h1
    obtain ⟨a, ha, hu⟩ := h0.uart
    have hmail : k₁.runScheduled.mailbox .uart = ⟨true, Mb.create a uartMbxSize⟩ :=
      (congrFun (k₁.runScheduled_tasksOnly.mailbox.trans hm) _).trans hu
    have hlt : iram1.start + iram1.size ≤ iram2.start := by decide
    unfold Kernel.ring
    rw [hmail]
    exact ha.trans hlt
  have hpost : Post ((Kernel.reset m bytes).kRtxInit buddy tasks) fun r =>
      r.2 = rtxOk → ∃ A h, Accounts A r.1 h := by
    unfold Kernel.kRtxInit
    refine Ends.ite (fun _ e => absurd e rtxErr_ne_rtxOk) fun _ => ?_
    refine Ends.ite (fun _ e => absurd e rtxErr_ne_rtxOk) fun _ => ?_
    obtain ⟨h, hbare⟩ := bare_memInit m bytes
    refine Ends.bind (hbare.kTskInit hlen (bootPrio hprio)) fun r hr => ?_
    exact Ends.ite (fun _ e => absurd e rtxErr_ne_rtxOk) fun hx _ => hr (not_not.mp hx)
  obtain ⟨A, h, hacc⟩ := hpost.of_ok hk rfl
  exact ⟨A, h, hacc, hu⟩

/-! ## 7. Runs -/

/-- Every state that is reached. -/
theorem Ledger.run {es : List Event} (hb : Booted k) (ha : Allowed Kernel.step Kernel.Legal k es)
    (hr : Lib.run Kernel.step k es = some k') : ∃ A h, Ledger A k' h :=
  run_reached (fun k => ∃ A h, Ledger A k h) (fun k e k' ⟨A, h, hk⟩ hl hstep => by
    obtain ⟨r, hx⟩ := Kernel.step_eq_some.mp hstep
    obtain ⟨A', h', hk', -⟩ := (hk.exec hl).of_ok hx
    exact ⟨A', h', hk'⟩) hb.ledger ha hr

/-- Blocks with no byte in common. -/
def Apart (x y : Nat × Nat) : Prop := x.1 + blockBytes x.2 ≤ y.1 ∨ y.1 + blockBytes y.2 ≤ x.1

/-- The accounts of IRAM2: every task that exists has a stack of its own, every mailbox a ring of
    its own, all inside IRAM2, and these are all the blocks that are allocated. -/
structure Balanced (k : Kernel) : Prop where
  stack : ∀ t, (k.data t).state ≠ .dormant → (k.data t).HasStack
  apart : k.homes.Pairwise Apart
  inside : ∀ x ∈ k.homes, iram2.start ≤ x.1 ∧ x.1 + blockBytes x.2 ≤ iram2.start + iram2.size
  all : ∃ h : Heap, h.pool = k.ram2 ∧ h.Inv iram2 ∧ h.live.Perm k.homes

theorem Accounts.balance (hk : Accounts A k h) : Balanced k where
  stack := hk.stack
  apart := by
    have hsym : ∀ {x y : Nat × Nat}, Apart x y → Apart y x := Or.symm
    exact (hk.books.pairwise_iff hsym).mp hk.inv.safe.disjoint
  inside x hx := hk.inv.safe.inside x (hk.books.mem_iff.mpr hx)
  all := ⟨h, hk.pool, hk.inv, hk.books⟩

/-- **IRAM2 is accounted for**, in every state that is reached: whatever the tasks create, send,
    allocate and free, the allocated blocks are the stacks of the tasks that exist and the rings
    of their mailboxes, no two overlap, and nothing is lost. -/
theorem balanced {es : List Event} (hb : Booted k) (ha : Allowed Kernel.step Kernel.Legal k es)
    (hr : Lib.run Kernel.step k es = some k') : Balanced k' := by
  obtain ⟨A, h, hk⟩ := Ledger.run hb ha hr
  exact hk.balance

theorem balanced_tame : ∃ k', reached threeTasks tameEvents = some k' ∧ Balanced k' :=
  have hr : (reached threeTasks tameEvents).isSome = true := by decide +kernel
  ⟨_, (Option.some_get hr).symm, balanced booted_threeTasks (by decide +kernel)
    (Option.some_get hr).symm⟩

/-! ## 8. What the kernel writes -/

/-- The byte at `z` is in the stack of the task `t`. -/
def Kernel.InUserStack (k : Kernel) (t : Tid) (z : Nat) : Prop :=
  ∃ x ∈ (k.data t).home, x.1 ≤ z ∧ z < x.1 + x.2

section Homes

variable {x y : Nat × Nat} {z : Nat}

/-- The stacks of two tasks have no byte in common. -/
theorem Balanced.stacks_apart (hk : Balanced k) (hne : t ≠ u) (hx : x ∈ (k.data t).home)
    (hy : y ∈ (k.data u).home) : Apart x y := by
  have hp := List.pairwise_filterMap.mp (List.pairwise_append.mp hk.apart).1
  have hsym : Std.Symm fun t u : Tid => ∀ x, (k.data t).home = some x → ∀ y,
      (k.data u).home = some y → Apart x y := ⟨fun _ _ h x hx y hy => (h y hy x hx).symm⟩
  exact hp.forall (List.mem_finRange t) (List.mem_finRange u) hne x hx y hy

/-- A stack and a ring have no byte in common. -/
theorem Balanced.stack_ring_apart (hk : Balanced k) (hx : x ∈ (k.data t).home)
    (hy : y ∈ (k.mailbox (.task u)).home) : Apart x y :=
  (List.pairwise_append.mp hk.apart).2.2 x (List.mem_filterMap.mpr ⟨t, List.mem_finRange t, hx⟩) y
    (List.mem_filterMap.mpr ⟨u, List.mem_finRange u, hy⟩)

theorem Balanced.stack_inside (hk : Balanced k) (hx : x ∈ (k.data t).home) : iram2.start ≤ x.1 :=
  (hk.inside x (List.mem_append_left _ (List.mem_filterMap.mpr ⟨t, List.mem_finRange t, hx⟩))).1

/-- **No ring has a byte of a stack.** -/
theorem Ledger.stack_outside (hk : Ledger A k h) (hz : k.InUserStack t z) : k.OutsideRings z := by
  obtain ⟨x, hx, h1, h2⟩ := hz
  have hb := hk.balance
  have hx2 := le_blockBytes x.2
  intro m
  cases m with
  | uart => exact Or.inr (hk.uart.trans ((hb.stack_inside hx).trans h1))
  | task u =>
      obtain ⟨hend, hno⟩ := hk.ring u
      change z < (k.mailbox (.task u)).memoryBuffer.memoryStart ∨
        (k.mailbox (.task u)).memoryBuffer.memoryEnd ≤ z
      cases ha : (k.mailbox (.task u)).active with
      | false =>
          have := hno ha
          omega
      | true =>
          have hy := hb.stack_ring_apart (u := u) hx (y :=
            ((k.mailbox (.task u)).memoryBuffer.memoryStart,
              (k.mailbox (.task u)).memoryBuffer.capacity)) (if_pos ha)
          have hy2 := le_blockBytes (k.mailbox (.task u)).memoryBuffer.capacity
          unfold Apart at hy
          dsimp only at hy
          omega

end Homes

/-- `k_tsk_create` refuses, or it goes on behind `k_tsk_create_new` and moves tasks only. -/
theorem kTskCreate_stages (k : Kernel) (taskEntry prio stackSize : Nat) :
    Post (k.kTskCreate taskEntry prio stackSize) fun r => Unchanged k r.1 ∨
      ∃ size x, k.kTskCreateNew ⟨taskEntry, size, prio, 0⟩ k.dormantSlot = .ok x ∧
        TasksOnly x.1 r.1 := by
  unfold Kernel.kTskCreate
  refine Ends.ite (fun _ => Or.inl (Or.inr ⟨_, rfl⟩)) fun _ => ?_
  refine Ends.ite (fun _ => Or.inl (Or.inr ⟨_, rfl⟩)) fun _ => ?_
  refine Ends.bind Ends.returned fun x hx => ?_
  refine Ends.ite (fun _ => Or.inr ⟨_, x, hx, TasksOnly.refl _⟩) fun _ => ?_
  exact Ends.bind (x.1.startNew_tasksOnly _ _) fun k₁ h1 => Or.inr ⟨_, x, hx, h1⟩

theorem kMbxCreate_bytes (k : Kernel) (size : Nat) :
    Post (k.kMbxCreate size) fun r => r.1.bytes = k.bytes := by
  unfold Kernel.kMbxCreate
  refine Ends.bind Ends.trivial fun m _ => Ends.ite (fun _ => rfl) fun _ => ?_
  refine Ends.ite (fun _ => rfl) fun _ => Ends.bind Ends.returned fun x hx => ?_
  obtain ⟨k₁, ptr⟩ := x
  obtain ⟨mem, -, rfl⟩ := mpoolAlloc_eq_ok hx
  cases ptr <;> rfl

theorem Unchanged.bytes (hu : Unchanged k k') : k'.bytes = k.bytes := by
  rcases hu with rfl | ⟨e, rfl⟩ <;> rfl

/-- **An event writes to no stack** of a task that exists. -/
theorem Ledger.exec_stack (hk : Ledger A k h) (e : Event) :
    Post (k.exec e) fun r => ∀ t z, k.InUserStack t z → r.1.bytes z = k.bytes z := by
  cases he : e.keepsHomes with
  | true => exact (exec_tidy k he).imp fun r hr t z hz => hr.bytes z (hk.stack_outside hz)
  | false =>
      cases e with
      | resume | timer | overwrite => cases he
      | call c =>
          cases c with
          | mbxCreate size =>
              exact Ends.bind (kMbxCreate_bytes k size) fun _ hr t z _ => congrFun hr z
          | tskCreate taskEntry prio stackSize =>
              refine Ends.bind (kTskCreate_stages k taskEntry prio stackSize) fun r hr => ?_
              intro t z hz
              obtain hu | ⟨size, x, hx, ht⟩ := hr
              · exact congrFun hu.bytes z
              obtain ⟨y, hy, h1, h2⟩ := hz
              refine (congrFun ht.bytes z).trans ?_
              refine ((hk.createNew_bytes _ _).of_ok hx).1 y (List.mem_append_left _ ?_) z h1 h2
              exact List.mem_filterMap.mpr ⟨t, List.mem_finRange t, hy⟩
          | _ => cases he

/-- **A task that is created** was made by the event. -/
theorem Ledger.exec_made (hk : Ledger A k h) {e : Event} (hl : k.Legal e) :
    Post (k.exec e) fun r => ∀ t, (k.data t).state = .dormant → (r.1.data t).state ≠ .dormant →
      ∃ taskEntry prio stackSize, e = .call (.tskCreate taskEntry prio stackSize) ∧
        r.1.Made t taskEntry 0 := by
  refine (hk.exec hl).imp fun r hr t h1 h2 => ?_
  obtain ⟨A', h', hk', hnew⟩ := hr
  obtain ⟨h0, hn⟩ := (hk.indexed.dormant_iff hk.null t).mp h1
  exact (hnew t ((hk'.indexed.links.data t).created h0 |>.mpr h2)).resolve_left hn

/-- A task that exists keeps its stack and its entry point. -/
theorem exec_task (k : Kernel) (e : Event) : Post (k.exec e) fun r => ∀ t,
    (k.data t).state ≠ .dormant → (r.1.data t).state ≠ .dormant ∧
      (r.1.data t).stackPlace = (k.data t).stackPlace ∧
        (r.1.data t).ptask = (k.data t).ptask ∧ (r.1.data t).priv = (k.data t).priv := by
  refine (exec_writes k e).imp fun r hr t ht => ?_
  have hw := hr.1 t
  generalize r.1.data t = x at hw ⊢
  have hf : ∀ d' : TcbData, d'.Follows x → d'.state ≠ .dormant → x.state ≠ .dormant ∧
      x.stackPlace = d'.stackPlace ∧ x.ptask = d'.ptask ∧ x.priv = d'.priv := fun d' h hs =>
    ⟨h.2 hs, h.field TcbData.stackPlace fun _ => rfl, h.field TcbData.ptask fun _ => rfl,
      h.field TcbData.priv fun _ => rfl⟩
  cases hw with
  | same h => exact hf _ h ht
  | noMemory hd | create _ _ hd => exact absurd hd ht
  | makeRealTime _ _ h =>
      have hx := hf _ h (by simp [TcbData.makeRealTime])
      exact hx
  | postpone _ _ h | count h =>
      have hx := hf _ h ht
      exact hx

/-- A list node at the address `z` has a byte of a user stack or of a ring. -/
def Kernel.Held (k : Kernel) (z : Nat) : Prop :=
  (∃ x ∈ k.homes, Meets x z) ∨ Meets ((k.ring .uart).memoryStart, uartMbxSize) z

/-- What happens in memory between two events: an event, a task writes to its stack, or what the
    allocator would read as the node at `z`, in a stack or a ring, is now `d`. -/
inductive Act where
  | event (e : Event)
  | stack (t : Tid) (z : Nat) (b : UInt8)
  | node (z : Nat) (d : Dnode)

/-- The tasks free only what is theirs and write only where they may. -/
def Act.Permitted (k : Kernel) : Act → Prop
  | .event e => k.Legal e ∧ k.FreesCleanly e
  | .stack t z _ => k.InUserStack t z
  | .node z _ => k.Held z

instance Act.Permitted.decidable (k : Kernel) (a : Act) : Decidable (a.Permitted k) := by
  unfold Act.Permitted Kernel.InUserStack Kernel.Held Meets
  split <;> infer_instance

section Held

variable {z : Nat}

/-- The allocator of IRAM2 has no node at such an address. -/
theorem Ledger.foreign (hk : Ledger A k h) (hb : k.Kept) (hz : k.Held z) : h.Foreign iram2 z := by
  refine hz.imp ?_ fun hm => Or.inl ?_
  · rintro ⟨x, hx, hm⟩
    exact ⟨x, hk.books.mem_iff.mpr hx, hm⟩
  · obtain ⟨h₁, hb⟩ := hb
    have h1 := (hb.inv.safe.inside _ hb.ring).2
    have h2 : iram1.start + iram1.size + dnodeSize ≤ iram2.start := by decide
    have h3 := hm.2
    omega

/-- Nor has that of IRAM1. -/
theorem Ledger.spared (hk : Ledger A k h) (hz : k.Held z) : k.Spared z := by
  rcases hz with ⟨x, hx, hm⟩ | hm
  · have h1 := (hk.balance.inside x hx).1
    have h2 : iram1.start + iram1.size + dnodeSize ≤ iram2.start := by decide
    have h3 := hm.1
    exact Or.inr (Or.inr (by omega))
  · exact Or.inl hm

/-- An alloc in IRAM2 writes no node into a live block. -/
theorem mpoolAlloc_nodes (hI : h.Inv iram2) (hp : h.pool = k.ram2) (size : Nat) :
    Post (k.mpoolAlloc mpidIram2 size) fun r => ∀ z, h.Foreign iram2 z →
      r.1.ram2.mem z = k.ram2.mem z := by
  apply Ends.imp Ends.returned
  rintro ⟨k', ptr⟩ hr z hz
  obtain ⟨m, hm, rfl⟩ := mpoolAlloc_eq_ok hr
  rw [show kMpoolAlloc k.mem mpidIram2 size = _ from Pools.kMpoolAlloc_eq k.mem .iram2 size,
    show k.mem.pool .iram2 = h.pool from hp.symm] at hm
  split at hm
  · cases hm
  · obtain ⟨rfl, -⟩ := Prod.mk.inj (Option.some.inj hm)
    rfl
  next p a ha =>
    obtain ⟨rfl, -⟩ := Prod.mk.inj (Option.some.inj hm)
    exact (hI.alloc_spares ha hz).trans (congrFun (congrArg Pool.mem hp) z)

theorem kMbxCreate_nodes (hI : h.Inv iram2) (hp : h.pool = k.ram2) (size : Nat) :
    Post (k.kMbxCreate size) fun r => ∀ z, h.Foreign iram2 z →
      r.1.ram2.mem z = k.ram2.mem z := by
  unfold Kernel.kMbxCreate
  apply Ends.bind Ends.trivial
  intro m _
  apply Ends.ite
  · exact fun _ _ _ => rfl
  intro _
  apply Ends.ite
  · exact fun _ _ _ => rfl
  intro _
  apply Ends.bind (mpoolAlloc_nodes hI hp size)
  rintro ⟨k₁, ptr⟩ hr
  cases ptr with
  | none => exact hr
  | some a => exact hr

theorem kTskCreate_nodes (hI : h.Inv iram2) (hp : h.pool = k.ram2)
    (taskEntry prio stackSize : Nat) : Post (k.kTskCreate taskEntry prio stackSize) fun r =>
      ∀ z, h.Foreign iram2 z → r.1.ram2.mem z = k.ram2.mem z := by
  apply (kTskCreate_stages k taskEntry prio stackSize).imp
  rintro r hr z hz
  rcases hr with hu | ⟨size, x, hx, ht⟩
  · rcases hu with e | ⟨e, he⟩
    · rw [e]
    · rw [he]
      rfl
  · rw [ht.ram2]
    obtain ⟨power, k₁, ptr, -, hal, hr⟩ := (kTskCreateNew_spec k _ _).of_ok hx
    have h1 := (mpoolAlloc_nodes hI hp _).of_ok hal z hz
    rcases hr with ⟨-, -, e⟩ | ⟨a, -, -, e⟩
    · rw [e]
      exact h1
    · rw [e]
      exact h1

variable (hk : Ledger A k h)
include hk

/-- **An event writes no node of IRAM2** into a stack or a ring. -/
theorem Ledger.exec_nodes (e : Event) : Post (k.exec e) fun r => ∀ z, h.Foreign iram2 z →
    r.1.ram2.mem z = k.ram2.mem z := by
  cases he : e.keepsHomes with
  | true => exact (exec_still k he).imp fun r hr z _ => by rw [hr.ram2]
  | false =>
      cases e with
      | resume | timer | overwrite => cases he
      | call c =>
          cases c with
          | tskCreate taskEntry prio stackSize =>
              exact Ends.bind (kTskCreate_nodes hk.inv hk.pool taskEntry prio stackSize)
                fun _ hr => hr
          | mbxCreate size => exact Ends.bind (kMbxCreate_nodes hk.inv hk.pool size) fun _ hr => hr
          | _ => cases he

omit hk in
/-- A mailbox that exists keeps its ring. -/
theorem exec_ring (k : Kernel) (e : Event) : Post (k.exec e) fun r => ∀ m,
    (k.mailbox m).active = true → (r.1.mailbox m).home = (k.mailbox m).home := by
  cases he : e.keepsHomes with
  | true => exact (exec_tidy k he).imp fun r hr m _ => Mailbox.home_of_place (hr.place m)
  | false =>
      cases e with
      | resume | timer | overwrite => cases he
      | call c =>
          cases c with
          | tskCreate taskEntry prio stackSize =>
              exact Ends.bind (k.kTskCreate_mailbox taskEntry prio stackSize) fun _ hr m _ =>
                congrArg Mailbox.home (congrFun hr m)
          | mbxCreate size =>
              apply Ends.bind (k.kMbxCreate_others size)
              intro r hr m hm
              rcases hr m with e | ⟨-, hno⟩
              · exact congrArg Mailbox.home e
              · rw [hm] at hno
                cases hno
          | _ => cases he

omit hk in
/-- A stack and a ring stay somebody's. -/
theorem exec_homes (k : Kernel) (e : Event) : Post (k.exec e) fun r => ∀ x ∈ k.homes,
    x ∈ r.1.homes := by
  apply ((exec_task k e).both (exec_ring k e)).imp
  rintro r ⟨h1, h2⟩ x hx
  rcases List.mem_append.mp hx with hx | hx
  · obtain ⟨t, ht, hx⟩ := List.mem_filterMap.mp hx
    have hst : (k.data t).state ≠ .dormant := fun e => by
      rw [TcbData.home, if_pos e] at hx
      cases hx
    obtain ⟨h3, h4, -⟩ := h1 t hst
    refine List.mem_append_left _ (List.mem_filterMap.mpr ⟨t, ht, ?_⟩)
    rw [TcbData.home_of_place h4 ⟨fun e => absurd e h3, fun e => absurd e hst⟩]
    exact hx
  · obtain ⟨t, ht, hx⟩ := List.mem_filterMap.mp hx
    have hact : (k.mailbox (.task t)).active = true := by
      by_contra hne
      unfold Mailbox.home at hx
      rw [if_neg hne] at hx
      cases hx
    refine List.mem_append_right _ (List.mem_filterMap.mpr ⟨t, ht, ?_⟩)
    rw [h2 (.task t) hact]
    exact hx

end Held

/-- What runs keep: the books of both pools. -/
def Kernel.Booked (k : Kernel) : Prop := (∃ A h, Ledger A k h) ∧ k.Kept

theorem Kernel.Booked.exec (hk : k.Booked) {e : Event} (hl : k.Legal e) (hf : k.FreesCleanly e) :
    Post (k.exec e) fun r => r.1.Booked ∧
      (∀ t z, k.InUserStack t z → r.1.InUserStack t z ∧ r.1.bytes z = k.bytes z) ∧
      ∀ z, k.Held z → r.1.Held z ∧ r.1.ram1.mem z = k.ram1.mem z ∧
        r.1.ram2.mem z = k.ram2.mem z := by
  obtain ⟨⟨A, h, hk⟩, hb⟩ := hk
  apply ((((hk.exec hl).both (hb.exec hf)).both ((hk.exec_stack e).both (hk.exec_nodes e))).both
    ((exec_task k e).both (exec_homes k e))).imp
  rintro r ⟨⟨⟨⟨A', h', hk', -⟩, hs, hb'⟩, hbytes, hnodes⟩, htask, hhomes⟩
  refine ⟨⟨⟨A', h', hk'⟩, hb'⟩, fun t z hz => ⟨?_, hbytes t z hz⟩, fun z hz => ?_⟩
  · obtain ⟨x, hx, h1, h2⟩ := hz
    have hst : (k.data t).state ≠ .dormant := fun e => by
      rw [TcbData.home, if_pos e] at hx
      cases hx
    obtain ⟨h3, h4, -⟩ := htask t hst
    have hhome := TcbData.home_of_place h4 ⟨fun e => absurd e h3, fun e => absurd e hst⟩
    exact ⟨x, hhome ▸ hx, h1, h2⟩
  · refine ⟨?_, hs.mem z (hk.spared hz), hnodes z (hk.foreign hb hz)⟩
    refine hz.imp (fun ⟨x, hx, hm⟩ => ⟨x, hhomes x hx, hm⟩) fun hm => ?_
    rw [hs.ring]
    exact hm

end Rtx
