/-
  File:      Rtx/Mem/Pool.lean
  Subject:   The buddy allocator of k_mem.c: bit tree, free lists, alloc and dealloc.

  The code for the two pools (IRAM1, IRAM2) is written out twice in k_mem.c with different
  constants; here it is written once over a `PoolCfg` and used at `iram1` and `iram2`.

  * A pointer to a `DNODE` is an optional address (`none` is NULL); `Pool.mem` holds the two words
    an allocator node keeps at the start of a free block.
  * A function returns `none` when the C function does not return: it dereferences NULL, or a
    loop of it never ends. `Pool.popLoop` is cut off after `2 ^ 32` rounds, one for every address.
  * The value of `errno` a failing call leaves is part of its result.
-/
import Mathlib.Logic.Function.Basic
import Rtx.Config

namespace Rtx

/-! ## 1. Data -/

/-- The links at the start of a free block. -/
structure Dnode where
  prev : Option Nat
  next : Option Nat
  deriving DecidableEq, Repr

/-- A free list. -/
structure Dlist where
  head : Option Nat
  tail : Option Nat
  deriving DecidableEq, Repr

/-- The constants of one memory pool, with the relations between them that the code relies on. -/
structure PoolCfg where
  start : Nat
  stop : Nat
  size : Nat
  sizeLog2 : Nat
  maxLevels : Nat
  stop_eq : stop + 1 = start + size
  size_eq : size = 2 ^ sizeLog2
  levels_eq : maxLevels + minBlkSizeLog2 = sizeLog2 + 1
  levels_pos : 0 < maxLevels
  small : sizeLog2 < 32

/-- `RAM1_START` .. `RAM1_END`, `RAM1_SIZE`, `RAM1_SIZE_LOG2`, `MAX_LEVELS_RAM1`. -/
def iram1 : PoolCfg where
  start := 0x10000000 + 0x8000 - 0x1000
  stop := 0x10000000 + 0x8000 - 1
  size := 0x1000
  sizeLog2 := 0xC
  maxLevels := 8
  stop_eq := rfl
  size_eq := rfl
  levels_eq := rfl
  levels_pos := by decide
  small := by decide

/-- `RAM2_START` .. `RAM2_END`, `RAM2_SIZE`, `RAM2_SIZE_LOG2`, `MAX_LEVELS_RAM2`. -/
def iram2 : PoolCfg where
  start := 0x2007C000
  stop := 0x2007C000 + 0x8000 - 1
  size := 0x8000
  sizeLog2 := 0xF
  maxLevels := 11
  stop_eq := rfl
  size_eq := rfl
  levels_eq := rfl
  levels_pos := by decide
  small := by decide

/-- The state of one pool: `bit_tree_ramN`, `free_list_ramN` and the links in its free blocks. -/
structure Pool where
  bitTree : Nat → BitVec 8
  freeList : Nat → Dlist
  mem : Nat → Dnode

/-! ## 2. The bit tree -/

/-- `set_bit`. -/
def setBit (bitArray : Nat → BitVec 8) (index : Nat) : Nat → BitVec 8 :=
  let i := index / 8
  let pos := index % 8
  Function.update bitArray i (bitArray i ||| (1#8 <<< pos))

/-- `clear_bit`. -/
def clearBit (bitArray : Nat → BitVec 8) (index : Nat) : Nat → BitVec 8 :=
  let i := index / 8
  let pos := index % 8
  Function.update bitArray i (bitArray i &&& ~~~(1#8 <<< pos))

/-- `check_bit`, as a truth value. -/
def checkBit (bitArray : Nat → BitVec 8) (index : Nat) : Bool :=
  let i := index / 8
  let pos := index % 8
  bitArray i &&& (1#8 <<< pos) != 0#8

/-! ## 3. Powers of two -/

/-- The loop of `LOG2`; `none` when it does not end within `fuel` rounds. -/
def log2Loop (val : Nat) : Nat → Nat → Nat → Option Nat
  | 0, _, _ => none
  | fuel + 1, currPower, currVal =>
      if currVal < val then log2Loop val fuel (currPower + 1) (currVal * 2 % 2 ^ 32)
      else some currPower

/-- `LOG2`. After 27 doublings `curr_val` has wrapped to 0 and stays there, so a loop still
    running after 32 rounds never ends. -/
def log2 (val : Nat) : Option Nat := log2Loop val 32 minBlkSizeLog2 minBlkSize

/-- `POWER2`. -/
def power2 : Nat → Nat
  | 0 => 1
  | power + 1 => power2 power * 2 % 2 ^ 32

/-! ## 4. Addresses -/

namespace PoolCfg

variable (c : PoolCfg)

/-- `get_address`: the address of the parent of the block at `currLocation`. -/
def getAddress (currLocation index level : Nat) : Nat :=
  currLocation - (index % 2) * power2 (c.sizeLog2 - level)

/-- `get_buddy_address`. -/
def getBuddyAddress (currLocation currX currLevel : Nat) : Nat :=
  if currX % 2 = 0 then currLocation + power2 (c.sizeLog2 - currLevel)
  else currLocation - power2 (c.sizeLog2 - currLevel)

end PoolCfg

/-- `POWER2(level) - 1 + x`, the bit of the `x`-th block of a level. -/
def bitIndex (level x : Nat) : Nat := power2 level - 1 + x

/-- `(ptr - (DNODE*) RAM_START) * sizeof(DNODE)`: pointer subtraction counts 8-byte nodes. -/
def nodeOffset (c : PoolCfg) (ptr : Nat) : Nat := (ptr - c.start) / 8 * 8

namespace Pool

/-! ## 5. Writing the links and the lists -/

def setPrev (p : Pool) (a : Nat) (v : Option Nat) : Pool :=
  { p with mem := Function.update p.mem a { p.mem a with prev := v } }

def setNext (p : Pool) (a : Nat) (v : Option Nat) : Pool :=
  { p with mem := Function.update p.mem a { p.mem a with next := v } }

def setHead (p : Pool) (level : Nat) (v : Option Nat) : Pool :=
  { p with freeList := Function.update p.freeList level { p.freeList level with head := v } }

def setTail (p : Pool) (level : Nat) (v : Option Nat) : Pool :=
  { p with freeList := Function.update p.freeList level { p.freeList level with tail := v } }

/-- `if (ptr != NULL) ptr->prev = v;` -/
def setPrevIf (p : Pool) (ptr v : Option Nat) : Pool :=
  match ptr with
  | none => p
  | some a => p.setPrev a v

def mark (p : Pool) (index : Nat) : Pool := { p with bitTree := setBit p.bitTree index }

def unmark (p : Pool) (index : Nat) : Pool := { p with bitTree := clearBit p.bitTree index }

def check (p : Pool) (index : Nat) : Bool := checkBit p.bitTree index

/-! ## 6. `pop_block` -/

/-- The statements inside the `if` of `pop_block`'s loop: unlink `currNode`. -/
def unlink (p : Pool) (currNode : Nat) : Option Pool :=
  let currNext := (p.mem currNode).next
  match (p.mem currNode).prev with
  | none => none
  | some currPrev => some ((p.setNext currPrev currNext).setPrevIf currNext (some currPrev))

/-- The loop of `pop_block`. It stops BEFORE the last node of the list. -/
def popLoop (blockAddress : Nat) : Nat → Pool → Nat → Option Pool
  | 0, _, _ => none
  | fuel + 1, p, currNode =>
      match (p.mem currNode).next with
      | none => some p
      | some _ => do
          let p ← if blockAddress = currNode then p.unlink currNode else some p
          let currNode ← (p.mem currNode).next
          popLoop blockAddress fuel p currNode

/-- `pop_block(&free_list[level], block_address)`; nobody reads its result. -/
def popBlock (p : Pool) (level : Nat) (blockAddress : Nat) : Option Pool :=
  match (p.freeList level).head with
  | none => some p
  | some head =>
      if blockAddress = head then
        let headNext := (p.mem head).next
        let p := p.setHead level headNext
        match headNext with
        | some n => some (p.setPrev n none)
        | none => some (p.setTail level none)
      else popLoop blockAddress (2 ^ 32) p head

/-! ## 7. `k_mpool_alloc` -/

/-- The search for a level with a free block, from `currLevel` towards the root. -/
def findFree (p : Pool) : Nat → Option Nat
  | 0 => if (p.freeList 0).head = none then none else some 0
  | currLevel + 1 =>
      if (p.freeList (currLevel + 1)).head = none then p.findFree currLevel
      else some (currLevel + 1)

/-- Take the head of a free list and set its bit: `blockSize` is the block size of the level. -/
def takeHead (c : PoolCfg) (p : Pool) (level blockSize : Nat) : Option (Pool × Nat) := do
  let ptr ← (p.freeList level).head
  let ptrNext := (p.mem ptr).next
  let p := (p.setHead level ptrNext).setPrevIf ptrNext none
  let x := nodeOffset c ptr / blockSize
  some (p.mark (bitIndex level x), ptr)

/-- Put the two halves of the block `ptr` of `currLevel` in the list of the next level. -/
def putHalves (c : PoolCfg) (p : Pool) (currLevel : Nat) (ptr : Nat) : Pool :=
  let child1 := ptr
  let child2 := ptr + c.size / power2 (currLevel + 1)
  let p := (p.setHead (currLevel + 1) (some child1)).setTail (currLevel + 1) (some child2)
  let p := (p.setPrev child1 none).setNext child1 (some child2)
  (p.setPrev child2 (some child1)).setNext child2 none

/-- The splitting loop, `n` rounds from `currLevel` down. -/
def splitDown (c : PoolCfg) : Nat → Pool → Nat → Option Pool
  | 0, p, _ => some p
  | n + 1, p, currLevel => do
      let (p, ptr) ← p.takeHead c currLevel (power2 (c.sizeLog2 - currLevel))
      splitDown c n (p.putHalves c currLevel ptr) (currLevel + 1)

/-- `k_mpool_alloc` in one pool: `.error e` is NULL with `errno` set to `e` (`none`: not set). -/
def alloc (c : PoolCfg) (p : Pool) (size : Nat) : Option (Except (Option Errno) (Pool × Nat)) :=
  if size = 0 then some (.error none)
  else if size > c.size then some (.error (some .ENOMEM))
  else do
    let level := c.sizeLog2 - (← log2 size)
    match p.findFree level with
    | none => some (.error (some .ENOMEM))
    | some currLevel =>
        let p ← splitDown c (level - currLevel) p currLevel
        let r ← p.takeHead c level (c.size / power2 level)
        some (.ok r)

/-! ## 8. `k_mpool_dealloc` -/

/-- The upward search for the block of `x`: was a set bit found, and at which level and index. -/
def findBlock (p : Pool) : Nat → Nat → Bool × Nat × Nat
  | 0, x => (p.check (bitIndex 0 x), 0, x)
  | currLevel + 1, x =>
      if p.check (bitIndex (currLevel + 1) x) then (true, currLevel + 1, x)
      else p.findBlock currLevel (x / 2)

/-- The merging loop: the pool, the address and the level at which it stops. -/
def coalesce (c : PoolCfg) : Pool → Nat → Nat → Nat → Option (Pool × Nat × Nat)
  | p, currAddress, 0, _ => some (p, currAddress, 0)
  | p, currAddress, currLevel + 1, x => do
      let p := p.unmark (bitIndex (currLevel + 1) x)
      if p.check (bitIndex (currLevel + 1) (x ^^^ 1)) then some (p, currAddress, currLevel + 1)
      else
        let p ← p.popBlock (currLevel + 1) (c.getBuddyAddress currAddress x (currLevel + 1))
        coalesce c p (c.getAddress currAddress x (currLevel + 1)) currLevel (x / 2)

/-- Put the merged block at the head of its list. -/
def putFreed (p : Pool) (currAddress : Nat) (currLevel : Nat) : Pool :=
  let freedNodeNext := (p.freeList currLevel).head
  let p := p.setPrev currAddress none
  let p :=
    if some currAddress = freedNodeNext then p
    else (p.setNext currAddress freedNodeNext).setPrevIf freedNodeNext (some currAddress)
  p.setHead currLevel (some currAddress)

/-- Free the whole pool: its start becomes the only node of the level-0 list. -/
def putRoot (c : PoolCfg) (p : Pool) : Pool :=
  let p := (p.setNext c.start none).setPrev c.start none
  (p.setHead 0 (some c.start)).setTail 0 (some c.start)

/-- `k_mpool_dealloc` in one pool: `.error e` is `RTX_ERR` with `errno` set to `e`. -/
def dealloc (c : PoolCfg) (p : Pool) (ptr : Option Nat) : Option (Except (Option Errno) Pool) :=
  match ptr with
  | none => some (.error none)
  | some ptr =>
      if c.start ≤ ptr ∧ ptr ≤ c.stop then
        match p.findBlock (c.maxLevels - 1) ((ptr - c.start) / minBlkSize) with
        | (false, _, _) => some (.error none)
        | (true, 0, x) => some (.ok (putRoot c (p.unmark (bitIndex 0 x))))
        | (true, level + 1, x) => do
            let (p, currAddress, currLevel) ← coalesce c p ptr (level + 1) x
            some (.ok (p.putFreed currAddress currLevel))
      else some (.error (some .EFAULT))

/-- `k_mpool_create` on one pool. -/
def create (c : PoolCfg) (p : Pool) : Pool where
  bitTree := fun _ => 0
  freeList := fun level =>
    if level = 0 then ⟨some c.start, some c.start⟩
    else if level < c.maxLevels then ⟨none, none⟩ else p.freeList level
  mem := Function.update p.mem c.start ⟨none, none⟩

end Pool

/-! ## 9. The two pools -/

/-- Both pools and `errno`. -/
structure Mem where
  ram1 : Pool
  ram2 : Pool
  errno : Errno

/-- What a failing call leaves in `errno`. -/
def Mem.fail (m : Mem) (e : Option Errno) : Mem := { m with errno := e.getD m.errno }

/-- `k_mpool_alloc(mpid, size)`: the block, or NULL. -/
def kMpoolAlloc (m : Mem) (mpid : Int) (size : Nat) : Option (Mem × Option Nat) :=
  if size = 0 then some (m, none)
  else if mpid = mpidIram1 then do
    match ← m.ram1.alloc iram1 size with
    | .ok (p, a) => some ({ m with ram1 := p }, some a)
    | .error e => some (m.fail e, none)
  else if mpid = mpidIram2 then do
    match ← m.ram2.alloc iram2 size with
    | .ok (p, a) => some ({ m with ram2 := p }, some a)
    | .error e => some (m.fail e, none)
  else some (m.fail (some .EINVAL), none)

/-- `k_mpool_dealloc(mpid, ptr)`. -/
def kMpoolDealloc (m : Mem) (mpid : Int) (ptr : Option Nat) : Option (Mem × Int) :=
  if ptr = none then some (m, rtxErr)
  else if mpid = mpidIram1 then do
    match ← m.ram1.dealloc iram1 ptr with
    | .ok p => some ({ m with ram1 := p }, rtxOk)
    | .error e => some (m.fail e, rtxErr)
  else if mpid = mpidIram2 then do
    match ← m.ram2.dealloc iram2 ptr with
    | .ok p => some ({ m with ram2 := p }, rtxOk)
    | .error e => some (m.fail e, rtxErr)
  else some (m.fail (some .EINVAL), rtxErr)

/-- `k_mpool_create(algo, start, end)`; the code never looks at `end`. -/
def kMpoolCreate (m : Mem) (algo : Nat) (start _stop : Nat) : Mem × Int :=
  if algo ≠ buddy then (m.fail (some .EINVAL), rtxErr)
  else if start = iram1.start then ({ m with ram1 := m.ram1.create iram1 }, mpidIram1)
  else if start = iram2.start then ({ m with ram2 := m.ram2.create iram2 }, mpidIram2)
  else (m.fail (some .EINVAL), rtxErr)

/-- `k_mem_init(algo)`. -/
def kMemInit (m : Mem) (algo : Nat) : Mem × Int :=
  let (m, r) := kMpoolCreate m algo iram1.start iram1.stop
  if r < 0 then (m, rtxErr)
  else
    let (m, r) := kMpoolCreate m algo iram2.start iram2.stop
    if r < 0 then (m, rtxErr) else (m, rtxOk)

end Rtx
