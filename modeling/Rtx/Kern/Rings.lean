/-
  File:      Rtx/Kern/Rings.lean
  Subject:   The rings of the mailboxes in memory.

  `Rings k h q`: every mailbox that exists has its ring in a block of its own, and the ring holds the
  messages `q` says. `h` is IRAM2 with the books of its users: the rings of the tasks' mailboxes
  and the user stacks are in live blocks of it, so writing one of them does not touch another. The
  ring of the UART mailbox is in IRAM1, below.
-/
import Rtx.Kern.RestMsg
import Rtx.Mem.Pools
import Rtx.Msg.RingSpec

namespace Rtx

open Lib

variable {k k' k₁ : Kernel} {h : Heap} {q : MbxId → List (List UInt8)} {m m' : MbxId} {buf : Buf}

/-! ## 1. Allocation and the initial frame of a stack -/

/-- **An allocation** returns: it hands out a new block of its pool or leaves the pools alone. -/
theorem mpoolAlloc_heap (i : PoolId) (hI : h.Inv i.cfg) (hp : h.pool = k.mem.pool i) (size : Nat) :
    ∃ (m : Mem) (ptr : Option Nat), k.mpoolAlloc i.mpid size =
        .ok ({ k with ram1 := m.ram1, ram2 := m.ram2, errno := m.errno }, ptr) ∧
      (∀ j, j ≠ i → m.pool j = k.mem.pool j) ∧
      (ptr = none ∧ m.pool i = k.mem.pool i ∨
        ∃ a, ptr = some a ∧ (h.afterAlloc (m.pool i) size (some a)).Inv i.cfg) := by
  unfold Kernel.mpoolAlloc
  rw [Pools.kMpoolAlloc_eq, ← hp]
  rcases hI.alloc size with ⟨e, h1⟩ | ⟨p, a, h1, h2⟩
  · rw [h1]
    exact ⟨_, none, rfl, fun j _ => Mem.pool_fail _ _ _, Or.inl ⟨rfl, by rw [Mem.pool_fail, hp]⟩⟩
  · rw [h1]
    refine ⟨k.mem.setPool i p, some a, rfl, fun j hj => ?_, Or.inr ⟨a, rfl, ?_⟩⟩
    · rw [Mem.pool_setPool, if_neg hj]
    · rw [Mem.pool_setPool, if_pos rfl]
      exact h2

/-- Words pushed on a stack change no byte outside the part they take. -/
theorem pushWords_outside (bytes : Nat → UInt8) {ws : List Nat} {sp z : Nat}
    (hsp : 4 * ws.length ≤ sp) (hz : z < sp - 4 * ws.length ∨ sp ≤ z) :
    pushWords bytes sp ws z = bytes z := by
  induction ws generalizing bytes sp with
  | nil => rfl
  | cons w ws ih =>
      rw [List.length_cons] at hsp hz
      unfold pushWords
      rw [ih _ (by omega) (by omega)]
      unfold putWord
      rw [if_neg (by omega)]

theorem log2Loop_ge {val fuel currPower currVal power : Nat}
    (h : log2Loop val fuel currPower currVal = some power) : currPower ≤ power := by
  induction fuel generalizing currPower currVal with
  | zero => cases h
  | succ fuel ih =>
      unfold log2Loop at h
      split at h
      · exact (Nat.le_succ _).trans (ih h)
      · exact (Option.some.inj h).le

theorem log2Loop_zero {val : Nat} (hv : 0 < val) (fuel currPower : Nat) :
    log2Loop val fuel currPower 0 = none := by
  induction fuel generalizing currPower with
  | zero => rfl
  | succ fuel ih =>
      unfold log2Loop
      rw [if_pos hv, Nat.zero_mul, Nat.zero_mod, ih]

/-- The loop of `LOG2` ends before `curr_val` wraps to 0, or not at all. -/
theorem log2Loop_lt {val fuel currPower power : Nat} (hp : currPower < 32)
    (h : log2Loop val fuel currPower (2 ^ currPower) = some power) : power < 32 := by
  induction fuel generalizing currPower with
  | zero => cases h
  | succ fuel ih =>
      unfold log2Loop at h
      split at h
      next hlt =>
        rw [← Nat.pow_succ] at h
        by_cases hp' : currPower + 1 < 32
        · rw [Nat.mod_eq_of_lt (Nat.pow_lt_pow_right (Nat.lt_succ_self 1) hp')] at h
          exact ih hp' h
        · obtain rfl : currPower = 31 := by omega
          rw [Nat.mod_self, log2Loop_zero ((Nat.zero_le _).trans_lt hlt)] at h
          cases h
      · exact Option.some.inj h ▸ hp

/-- A stack has room for its initial frame. -/
theorem le_power2 {size power : Nat} (h : log2 size = some power) : 32 ≤ power2 power := by
  have h5 : 5 ≤ power := log2Loop_ge h
  rw [power2_eq (log2Loop_lt (by decide) h)]
  exact Nat.pow_le_pow_right (Nat.succ_pos 1) h5

/-! ## 2. The rings -/

/-- **Every mailbox has a ring of its own**, which holds the messages `q`. -/
structure Rings (k : Kernel) (h : Heap) (q : MbxId → List (List UInt8)) : Prop where
  pool : h.pool = k.ram2
  inv : h.Inv iram2
  rep : ∀ m, (k.mailbox m).active = true → (k.ring m).Rep k.bytes (q m)
  empty : ∀ m, (k.mailbox m).active = false → q m = []
  block : ∀ t, (k.mailbox (.task t)).active = true →
    ((k.ring (.task t)).memoryStart, (k.ring (.task t)).capacity) ∈ h.live
  own : ∀ t t', (k.mailbox (.task t)).active = true → (k.mailbox (.task t')).active = true →
    (k.ring (.task t)).memoryStart = (k.ring (.task t')).memoryStart → t = t'
  uart : (k.mailbox .uart).active = true → (k.ring .uart).memoryEnd ≤ iram2.start

theorem le_blockBytes (size : Nat) : size ≤ blockBytes size := size_le_two_pow_blockLog2 size

section Regions

variable (hR : Rings k h q)
include hR

/-- The ring of a task's mailbox is in its block of IRAM2. -/
theorem Rings.inside {t : Tid} (ht : (k.mailbox (.task t)).active = true) :
    iram2.start ≤ (k.ring (.task t)).memoryStart ∧
      (k.ring (.task t)).memoryEnd ≤ (k.ring (.task t)).memoryStart +
        blockBytes (k.ring (.task t)).capacity := by
  refine ⟨(hR.inv.safe.inside _ (hR.block t ht)).1, ?_⟩
  rw [(hR.rep _ ht).region.stop_eq]
  exact Nat.add_le_add_left (le_blockBytes _) _

/-- **Two rings have no byte in common.** -/
theorem Rings.apart (hm : (k.mailbox m).active = true) (hm' : (k.mailbox m').active = true)
    (hne : m ≠ m') : (k.ring m).memoryEnd ≤ (k.ring m').memoryStart ∨
      (k.ring m').memoryEnd ≤ (k.ring m).memoryStart := by
  cases m with
  | uart =>
      cases m' with
      | uart => exact absurd rfl hne
      | task t' => exact Or.inl ((hR.uart hm).trans (hR.inside hm').1)
  | task t =>
      cases m' with
      | uart => exact Or.inr ((hR.uart hm').trans (hR.inside hm).1)
      | task t' =>
          have hsym : Std.Symm fun x y : Nat × Nat =>
              x.1 + blockBytes x.2 ≤ y.1 ∨ y.1 + blockBytes y.2 ≤ x.1 := ⟨fun _ _ => Or.symm⟩
          have hd := hR.inv.safe.disjoint.forall (hR.block t hm) (hR.block t' hm')
            fun e => hne (congrArg MbxId.task (hR.own t t' hm hm' (congrArg Prod.fst e)))
          exact hd.imp (hR.inside hm).2.trans (hR.inside hm').2.trans

end Regions

/-! ## 3. What happens to the rings -/

section Steps

variable (hR : Rings k h q)
include hR

/-- The memory of the rings and the mailboxes are what counts. -/
theorem Rings.frame (hb : k'.bytes = k.bytes) (h2 : k'.ram2 = k.ram2)
    (hm : k'.mailbox = k.mailbox) : Rings k' h q := by
  obtain ⟨h3, h4, h5, h6, h7, h8, h9⟩ := hR
  unfold Kernel.ring at *
  rw [← hm] at h5 h6 h7 h8 h9
  rw [← hb] at h5
  exact ⟨h3.trans h2.symm, h4, h5, h6, h7, h8, h9⟩

/-- Only the tasks change. -/
theorem Rings.tasksOnly (hk : TasksOnly k k') : Rings k' h q :=
  hR.frame hk.bytes hk.ram2 hk.mailbox

/-- One ring changes, within its region. -/
theorem Rings.update (hm : (k.mailbox m).active = true) {mb : Mb} {bytes : Nat → UInt8}
    {l : List (List UInt8)} (hrep : mb.Rep bytes l) (hc : mb.capacity = (k.ring m).capacity)
    (hs : mb.memoryStart = (k.ring m).memoryStart) (he : mb.memoryEnd = (k.ring m).memoryEnd)
    (hb : ∀ z, z < mb.memoryStart ∨ mb.memoryEnd ≤ z → bytes z = k.bytes z) :
    Rings { k.setRing m mb with bytes } h (Function.update q m l) := by
  have hact := k.setRing_active m mb
  have hring : ∀ m', (k.setRing m mb).ring m' = if m' = m then mb else k.ring m' := fun m' => by
    unfold Kernel.setRing Kernel.ring
    simp only [Function.update_apply]
    split <;> rfl
  have hshape : ∀ m', ((k.setRing m mb).ring m').memoryStart = (k.ring m').memoryStart ∧
      ((k.setRing m mb).ring m').memoryEnd = (k.ring m').memoryEnd ∧
      ((k.setRing m mb).ring m').capacity = (k.ring m').capacity := fun m' => by
    rw [hring]
    split
    next e => exact e ▸ ⟨hs, he, hc⟩
    · exact ⟨rfl, rfl, rfl⟩
  refine ⟨hR.pool, hR.inv, fun m' hm' => ?_, fun m' hm' => ?_, fun t ht => ?_, fun t t' ht ht' e => ?_,
    fun hu => ?_⟩
  · have hm'' := (hact m').symm.trans hm'
    change ((k.setRing m mb).ring m').Rep bytes _
    rw [hring]
    split
    next e =>
      rw [e, Function.update_self]
      exact hrep
    next e =>
      rw [Function.update_of_ne e]
      refine (hR.rep m' hm'').frame fun z hz hz' => hb z ?_
      rw [hs, he]
      rcases hR.apart hm'' hm e with hd | hd
      · exact Or.inl (hz'.trans_le hd)
      · exact Or.inr (hd.trans hz)
  · have hm'' := (hact m').symm.trans hm'
    rw [Function.update_of_ne]
    · exact hR.empty m' hm''
    · rintro rfl
      rw [hm] at hm''
      cases hm''
  · change (((k.setRing m mb).ring _).memoryStart, ((k.setRing m mb).ring _).capacity) ∈ _
    rw [(hshape _).1, (hshape _).2.2]
    exact hR.block t ((hact _).symm.trans ht)
  · refine hR.own t t' ((hact _).symm.trans ht) ((hact _).symm.trans ht') ?_
    exact (hshape _).1.symm.trans (e.trans (hshape _).1)
  · exact (hshape _).2.1.trans_le (hR.uart ((hact _).symm.trans hu))

/-- **A message that fits is appended** to its ring. -/
theorem Rings.push (hm : (k.mailbox m).active = true) (hb : msgHdrSize ≤ buf.length)
    (hf : (k.ring m).canFit buf.length = 1) (hk : k.pushBuffer m buf = .ok k₁) :
    Rings k₁ h (Function.update q m (q m ++ [buf.msg])) := by
  have hpos : 0 < buf.length := Nat.lt_of_lt_of_le (by decide) hb
  obtain ⟨bytes, mb, h1, h2, h3, h4, h5, h6⟩ :=
    (hR.rep m hm).push hb (((hR.rep m hm).canFit_iff hpos).mp hf)
  rw [Kernel.pushBuffer_of_ok h1] at hk
  obtain rfl := Except.ok.inj hk
  exact hR.update hm h2 h3 h4 h5 fun z hz => h6 z (by rwa [h4, h5] at hz)

/-- **The oldest message is taken** from its ring into a buffer that has room for it. -/
theorem Rings.pop (hm : (k.mailbox m).active = true) {x : List UInt8} {l : List (List UInt8)}
    (hq : q m = x :: l) {len : Nat} (hlen : x.length ≤ len) (buf : Buf) :
    ∃ k₁, k.popBuffer m buf len = .ok (k₁, buf.put x, 1) ∧ k₁.bytes = k.bytes ∧
      Rings k₁ h (Function.update q m l) := by
  have hrep := hR.rep m hm
  rw [hq] at hrep
  obtain ⟨mb, h1, h2, h3, h4, h5⟩ := hrep.pop hlen buf
  refine ⟨k.setRing m mb, bind_of_ok h1, rfl, ?_⟩
  exact hR.update hm h2 h3 h4 h5 fun z _ => rfl

omit hR in
theorem Kernel.setRing_ring (k : Kernel) (m : MbxId) : k.setRing m (k.ring m) = k := by
  unfold Kernel.setRing Kernel.ring
  exact congrArg (fun f => { k with mailbox := f }) (Function.update_eq_self m k.mailbox)

/-- An empty ring gives nothing. -/
theorem Rings.pop_empty (hm : (k.mailbox m).active = true) (hq : q m = [])
    (buf : Buf) (len : Nat) : k.popBuffer m buf len = .ok (k, buf, 0) := by
  have hrep := hR.rep m hm
  rw [hq] at hrep
  unfold Kernel.popBuffer
  rw [hrep.pop_empty len]
  exact congrArg (fun k' => Except.ok (k', buf, (0 : Int))) (k.setRing_ring m)

/-- A message that is too long for the buffer stays in its ring. -/
theorem Rings.pop_short (hm : (k.mailbox m).active = true) {x : List UInt8} {l : List (List UInt8)}
    (hq : q m = x :: l) {len : Nat} (hlen : len < x.length) (buf : Buf) :
    ∃ buf', k.popBuffer m buf len = .ok (k, buf', -1) := by
  have hrep := hR.rep m hm
  rw [hq] at hrep
  refine ⟨if len < msgHdrSize then buf else buf.put (x.take msgHdrSize), ?_⟩
  unfold Kernel.popBuffer
  rw [hrep.pop_short hlen]
  exact congrArg (fun k' => Except.ok (k', _, (-1 : Int))) (k.setRing_ring m)

section Alloc

variable {p : Pool} {a size : Nat} (hal : (h.afterAlloc p size (some a)).Inv iram2)
include hal

/-- A new block has no byte in common with a ring. -/
theorem Rings.new_apart (hm : (k.mailbox m).active = true) :
    (k.ring m).memoryEnd ≤ a ∨ a + blockBytes size ≤ (k.ring m).memoryStart := by
  have hin := (hal.safe.inside (a, size) List.mem_cons_self).1
  cases m with
  | uart => exact Or.inl ((hR.uart hm).trans hin)
  | task t =>
      have hd := List.rel_of_pairwise_cons hal.safe.disjoint (hR.block t hm)
      exact hd.symm.imp_left (hR.inside hm).2.trans

/-- **A new block of IRAM2 that is written** leaves the rings as they are. -/
theorem Rings.alloc (hp : k'.ram2 = p) (hm : k'.mailbox = k.mailbox)
    (hb : ∀ z, z < a ∨ a + blockBytes size ≤ z → k'.bytes z = k.bytes z) :
    Rings k' (h.afterAlloc p size (some a)) q := by
  have hring : k'.ring = k.ring := funext fun m' => congrArg (fun f => (f m').memoryBuffer) hm
  refine ⟨hp.symm, hal, fun m' hm' => ?_, fun m' hm' => hR.empty m' (hm ▸ hm'), fun t ht => ?_,
    fun t t' ht ht' e => ?_, fun hu => ?_⟩
  · rw [hm] at hm'
    rw [hring]
    refine (hR.rep m' hm').frame fun z hz hz' => hb z ?_
    rcases hR.new_apart hal hm' with hd | hd
    · exact Or.inl (hz'.trans_le hd)
    · exact Or.inr (hd.trans hz)
  · rw [hring]
    exact List.mem_cons_of_mem _ (hR.block t (hm ▸ ht))
  · rw [hring] at e
    exact hR.own t t' (hm ▸ ht) (hm ▸ ht') e
  · rw [hring]
    exact hR.uart (hm ▸ hu)

/-- **A new mailbox** starts with an empty ring. -/
theorem Rings.create {t : Tid} (ht : (k.mailbox (.task t)).active = false)
    (hsize : msgHdrSize ≤ size) (hp : k'.ram2 = p) (hb : k'.bytes = k.bytes)
    (hm : k'.mailbox = Function.update k.mailbox (.task t) ⟨true, Mb.create a size⟩) :
    Rings k' (h.afterAlloc p size (some a)) q := by
  have hpos : 0 < size := Nat.lt_of_lt_of_le (by decide) hsize
  have hin := hal.safe.inside (a, size) List.mem_cons_self
  have hle := le_blockBytes size
  -- the old mailboxes are as before, and the new one is `t`'s
  have hold : ∀ m', m' ≠ .task t → k'.mailbox m' = k.mailbox m' := fun m' hne => by
    rw [hm, Function.update_of_ne hne]
  have hnew : k'.mailbox (.task t) = ⟨true, Mb.create a size⟩ := by
    rw [hm, Function.update_self]
  have hring : ∀ m', m' ≠ .task t → k'.ring m' = k.ring m' := fun m' hne =>
    congrArg Mailbox.memoryBuffer (hold m' hne)
  have hringt : k'.ring (.task t) = Mb.create a size := congrArg Mailbox.memoryBuffer hnew
  have hstart : ∀ t', t' ≠ t → (k'.mailbox (.task t')).active = true →
      (k'.ring (.task t')).memoryStart ≠ a := fun t' hne ht' e => by
    have hne' : MbxId.task t' ≠ .task t := fun e' => hne (MbxId.task.inj e')
    rw [hold _ hne'] at ht'
    rw [hring _ hne'] at e
    have h1 := (hR.rep _ ht').region
    have h2 := Nat.two_pow_pos (blockLog2 size)
    have h3 : blockBytes size = 2 ^ blockLog2 size := rfl
    have h4 := h1.pos
    have h5 := h1.stop_eq
    rcases hR.new_apart hal ht' with hd | hd <;> omega
  refine ⟨hp.symm, hal, fun m' hm' => ?_, fun m' hm' => ?_, fun t' ht' => ?_,
    fun t₁ t₂ h₁ h₂ e => ?_, fun hu => ?_⟩
  · rw [hb]
    by_cases e : m' = .task t
    · subst e
      rw [hringt, hR.empty _ ht]
      refine Mb.Rep.create hpos ?_ _
      have h1 : iram2.start + iram2.size = 0x20084000 := rfl
      have h2 : size ≤ 0x8000 := hal.fits (a, size) List.mem_cons_self
      have h3 : a ≤ iram2.start + iram2.size := (Nat.le_add_right _ _).trans hin.2
      omega
    · rw [hring m' e]
      exact hR.rep m' (hold m' e ▸ hm')
  · refine hR.empty m' ?_
    by_cases e : m' = .task t
    · exact e ▸ ht
    · exact hold m' e ▸ hm'
  · by_cases e : t' = t
    · subst e
      rw [hringt]
      exact List.mem_cons_self
    · have hne : MbxId.task t' ≠ .task t := fun e' => e (MbxId.task.inj e')
      rw [hring _ hne]
      exact List.mem_cons_of_mem _ (hR.block t' (hold _ hne ▸ ht'))
  · by_cases e₁ : t₁ = t
    · by_cases e₂ : t₂ = t
      · exact e₁.trans e₂.symm
      · rw [e₁, hringt] at e
        exact absurd e.symm (hstart t₂ e₂ h₂)
    · by_cases e₂ : t₂ = t
      · rw [e₂, hringt] at e
        exact absurd e (hstart t₁ e₁ h₁)
      · have hn₁ : MbxId.task t₁ ≠ .task t := fun e' => e₁ (MbxId.task.inj e')
        have hn₂ : MbxId.task t₂ ≠ .task t := fun e' => e₂ (MbxId.task.inj e')
        rw [hring _ hn₁, hring _ hn₂] at e
        exact hR.own t₁ t₂ (hold _ hn₁ ▸ h₁) (hold _ hn₂ ▸ h₂) e
  · have hne : MbxId.uart ≠ .task t := fun e => by cases e
    rw [hring _ hne]
    exact hR.uart (hold _ hne ▸ hu)

end Alloc

/-- **A new task** gets a stack that has no byte in common with a ring. -/
theorem Rings.kTskCreateNew (info : TaskInit) (t : Tid) :
    Post (k.kTskCreateNew info t) fun r => ∃ h', Rings r.1 h' q := by
  refine (kTskCreateNew_spec k info t).imp fun r hr => ?_
  obtain ⟨r, x⟩ := r
  obtain ⟨power, k₁, ptr, hlog, hal, hr⟩ := hr
  obtain ⟨m, ptr', hal', hpool, hblk⟩ := mpoolAlloc_heap .iram2 hR.inv hR.pool (power2 power)
  obtain ⟨rfl, rfl⟩ := Prod.mk.inj (Except.ok.inj (hal.symm.trans hal'))
  have hram1 : m.ram1 = k.ram1 := hpool .iram1 (by decide)
  obtain ⟨rfl, hram2⟩ | ⟨a, rfl, hheap⟩ := hblk
  · obtain ⟨-, -, rfl⟩ | ⟨a, e, -⟩ := hr
    · exact ⟨h, hR.tasksOnly ⟨⟨rfl, hram1, hram2⟩, rfl, rfl⟩⟩
    · cases e
  · obtain ⟨e, -⟩ | ⟨a', e, -, rfl⟩ := hr
    · cases e
    obtain rfl := Option.some.inj e
    refine ⟨_, hR.alloc hheap rfl rfl fun z hz => ?_⟩
    -- the frame is at the upper end of the block
    have hin := (hheap.safe.inside (a, power2 power) List.mem_cons_self).2
    have hend : iram2.start + iram2.size < 2 ^ 32 := by decide
    have hle := le_blockBytes (power2 power)
    have h32 := le_power2 hlog
    have hsp : add32 a (power2 power) = a + power2 power := by
      unfold add32
      exact Nat.mod_eq_of_lt ((Nat.add_le_add_left hle a).trans_lt (hin.trans_lt hend))
    change pushWords k.bytes (add32 a (power2 power)) _ z = _
    rw [hsp]
    refine pushWords_outside k.bytes (h32.trans (Nat.le_add_left _ _)) ?_
    rw [show 4 * [initialXPSR, info.ptask, 0, 0, 0, 0, 0, 0].length = 32 from rfl]
    omega

omit hR in
theorem Kernel.startNew_tasksOnly (k : Kernel) (t : Tid) (i : Int) :
    Post (k.startNew t i) (TasksOnly k) := by
  unfold Kernel.startNew
  refine Ends.ite (fun _ => ?_) fun _ => ?_
  · exact Ends.bind Ends.trivial fun _ _ => ⟨⟨rfl, rfl, rfl⟩, rfl, rfl⟩
  · exact Ends.bind Ends.trivial fun _ _ => Ends.bind Ends.trivial fun _ _ =>
      ⟨⟨rfl, rfl, rfl⟩, rfl, rfl⟩

/-- **`k_tsk_create`** leaves the rings as they are. -/
theorem Rings.kTskCreate (taskEntry prio stackSize : Nat) :
    Post (k.kTskCreate taskEntry prio stackSize) fun r => ∃ h', Rings r.1 h' q := by
  have hfail : ∀ e, ∃ h', Rings (k.setErrno e) h' q := fun e =>
    ⟨h, hR.tasksOnly ⟨⟨rfl, rfl, rfl⟩, rfl, rfl⟩⟩
  unfold Kernel.kTskCreate
  refine Ends.ite (fun _ => hfail _) fun _ => Ends.ite (fun _ => hfail _) fun _ => ?_
  refine Ends.bind (hR.kTskCreateNew _ _) fun r hr => Ends.ite (fun _ => hr) fun _ => ?_
  obtain ⟨h', hR'⟩ := hr
  exact Ends.bind (r.1.startNew_tasksOnly _ _) fun _ ht => ⟨h', hR'.tasksOnly ht⟩

end Steps

end Rtx
