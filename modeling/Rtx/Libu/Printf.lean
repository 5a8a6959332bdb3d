/-
  File:      Rtx/Libu/Printf.lean
  Subject:   tfp_format of printf.c, without PRINTF_LONG_SUPPORT: what a format string prints.

  A C string is the list of its characters, without the closing zero. An argument is a word; `str`
  is the string a pointer points to. A function returns `none` when it writes behind `bf`, divides
  by zero, takes an argument that was not given, or does not end.

  * `ui2a_eq`, `i2a_eq`: numbers are written as their numerals, and fit in `bf`.
  * `number_read_back`: a2i reads a number back that ui2a or i2a has written.
  * `format_correct`: a format string prints its pieces, one after the other.
-/
import Rtx.Lib.Numeral
import Rtx.User.Request

namespace Rtx

open Lib

namespace Printf

/-! ## 1. The code -/

/-- `sizeof(bf)`. -/
def bfSize : Nat := 12

/-- `*bf = c`, behind the characters that `bf` has. -/
def putBf (bf : List UInt8) (c : UInt8) : Option (List UInt8) :=
  if bf.length < bfSize then some (bf ++ [c]) else none

/-- `while (num/d >= base) d*=base;` -/
def scale (num base : Nat) : Nat → Nat → Option Nat
  | 0, _ => none
  | fuel + 1, d =>
      if d = 0 then none
      else if num / d ≥ base then scale num base fuel (d * base % 2 ^ 32)
      else some d

/-- `dgt+(dgt<10 ? '0' : (uc ? 'A' : 'a')-10)`. -/
def digitChar (uc : Bool) (dgt : Nat) : UInt8 :=
  UInt8.ofNat (dgt + if dgt < 10 then (char '0').toNat
    else (if uc then char 'A' else char 'a').toNat - 10)

/-- The second loop of `ui2a`. -/
def digitLoop (base : Nat) (uc : Bool) : Nat → Nat → Nat → Nat → List UInt8 → Option (List UInt8)
  | 0, _, _, _, _ => none
  | fuel + 1, num, d, n, bf =>
      if d = 0 then some bf
      else
        let dgt := num / d
        let num := num % d
        let d := d / base
        if n ≠ 0 ∨ dgt > 0 ∨ d = 0 then do
          let bf ← putBf bf (digitChar uc dgt)
          digitLoop base uc fuel num d (n + 1) bf
        else digitLoop base uc fuel num d n bf

/-- `ui2a`: what `bf` has in front of the closing zero. A word has 32 bits, so that no loop runs
    more than 34 rounds. -/
def ui2a (num base : Nat) (uc : Bool) (bf : List UInt8) : Option (List UInt8) := do
  let d ← scale num base 34 1
  let bf ← digitLoop base uc 34 num d 0 bf
  let _ ← putBf bf 0
  some bf

/-- `i2a`. -/
def i2a (num : BitVec 32) (bf : List UInt8) : Option (List UInt8) :=
  if num.toInt < 0 then do
    let bf ← putBf bf (char '-')
    ui2a (-num).toNat 10 false bf
  else ui2a num.toNat 10 false bf

/-- `a2d`; `none` is -1. -/
def a2d (ch : UInt8) : Option Nat :=
  if char '0' ≤ ch ∧ ch ≤ char '9' then some (ch.toNat - (char '0').toNat)
  else if char 'a' ≤ ch ∧ ch ≤ char 'f' then some (ch.toNat - (char 'a').toNat + 10)
  else if char 'A' ≤ ch ∧ ch ≤ char 'F' then some (ch.toNat - (char 'A').toNat + 10)
  else none

/-- `a2i`: the character that ends the number, the string behind it, and `num`. -/
def a2i (base : Nat) (ch : UInt8) (num : BitVec 32) (src : List UInt8) :
    UInt8 × List UInt8 × BitVec 32 :=
  match a2d ch with
  | none => (ch, src, num)
  | some digit =>
      if digit > base then (ch, src, num)
      else
        let num := num * BitVec.ofNat 32 base + BitVec.ofNat 32 digit
        match src with
        | [] => (0, [], num)
        | ch :: src => a2i base ch num src

/-- `while (*p++ && n > 0) n--;` -/
def restWidth : List UInt8 → Int → Int
  | [], n => n
  | _ :: p, n => if n > 0 then restWidth p (n - 1) else n

/-- `putchw`. -/
def putchw (n : Int) (z : Bool) (bf : List UInt8) : List UInt8 :=
  let fc := if z then char '0' else char ' '
  List.replicate (restWidth bf n).toNat fc ++ bf

/-- `*(fmt++)`. -/
def fetch : List UInt8 → UInt8 × List UInt8
  | [] => (0, [])
  | ch :: fmt => (ch, fmt)

/-- What stands behind a `%`: `lz`, `w`, the character of the conversion, and the string behind
    it. -/
def directive (fmt : List UInt8) : Bool × BitVec 32 × UInt8 × List UInt8 :=
  let (ch, fmt) := fetch fmt
  let (lz, ch, fmt) := if ch = char '0' then (true, fetch fmt) else (false, ch, fmt)
  let (ch, fmt, w) := if char '0' ≤ ch ∧ ch ≤ char '9' then a2i 10 ch 0 fmt else (ch, fmt, 0)
  (lz, w, ch, fmt)

/-- `va_arg`: what is printed for the next argument, and the others. -/
def vaArg (f : BitVec 32 → Option (List UInt8)) :
    List (BitVec 32) → Option (List UInt8 × List (BitVec 32))
  | [] => none
  | a :: va => (f a).map fun out => (out, va)

variable (str : BitVec 32 → List UInt8)

/-- The cases of the switch, but for 0. -/
def convert (lz : Bool) (w : BitVec 32) (ch : UInt8) (va : List (BitVec 32)) :
    Option (List UInt8 × List (BitVec 32)) :=
  if ch = char 'u' then
    vaArg (fun a => (ui2a a.toNat 10 false []).map (putchw w.toInt lz)) va
  else if ch = char 'd' then vaArg (fun a => (i2a a []).map (putchw w.toInt lz)) va
  else if ch = char 'x' ∨ ch = char 'X' then
    vaArg (fun a => (ui2a a.toNat 16 (ch = char 'X') []).map (putchw w.toInt lz)) va
  else if ch = char 'c' then vaArg (fun a => some [UInt8.ofNat a.toNat]) va
  else if ch = char 's' then vaArg (fun a => some (putchw w.toInt false (str a))) va
  else if ch = char '%' then some ([ch], va)
  else some ([], va)

/-- The loop of `tfp_format`. -/
def formatLoop : Nat → List UInt8 → List (BitVec 32) → Option (List UInt8)
  | 0, _, _ => none
  | fuel + 1, fmt, va =>
      let (ch, fmt) := fetch fmt
      if ch = 0 then some []
      else if ch ≠ char '%' then (formatLoop fuel fmt va).map (ch :: ·)
      else
        let (lz, w, ch, fmt) := directive fmt
        if ch = 0 then some []
        else do
          let (out, va) ← convert str lz w ch va
          (formatLoop fuel fmt va).map (out ++ ·)

/-- `tfp_format`: the characters given to `putf`. Every round takes a character. -/
def tfpFormat (fmt : List UInt8) (va : List (BitVec 32)) : Option (List UInt8) :=
  formatLoop str (fmt.length + 1) fmt va

/-! ## 2. What is printed -/

/-- The numeral of a number, in characters. -/
def numeralText (base : Nat) (uc : Bool) (n : Nat) : List UInt8 :=
  (numeral base n).map (digitChar uc)

/-- The numeral of an `int`. -/
def signedText (w : BitVec 32) : List UInt8 :=
  if w.toInt < 0 then char '-' :: numeralText 10 false w.toInt.natAbs
  else numeralText 10 false w.toInt.natAbs

/-- A text, filled up to a width. -/
def field (zero : Bool) (width : Nat) (text : List UInt8) : List UInt8 :=
  List.replicate (width - text.length) (if zero then char '0' else char ' ') ++ text

/-- The conversions that take an argument. -/
inductive Conv where
  | unsigned | signed | hex (uc : Bool) | character | string
  deriving DecidableEq

def Conv.letter : Conv → UInt8
  | .unsigned => char 'u'
  | .signed => char 'd'
  | .hex uc => if uc then char 'X' else char 'x'
  | .character => char 'c'
  | .string => char 's'

/-- What is printed for the argument `a`. -/
def Conv.text (zero : Bool) (width : Nat) (a : BitVec 32) : Conv → List UInt8
  | .unsigned => field zero width (numeralText 10 false a.toNat)
  | .signed => field zero width (signedText a)
  | .hex uc => field zero width (numeralText 16 uc a.toNat)
  | .character => [UInt8.ofNat a.toNat]
  | .string => field false width (str a)

/-- A piece of a format string. -/
inductive Piece where
  | text (c : UInt8)
  | percent (zero : Bool) (width : Nat)
  | conv (zero : Bool) (width : Nat) (v : Conv)

/-- A directive, as it is written. -/
def written (zero : Bool) (width : Nat) (letter : UInt8) : List UInt8 :=
  char '%' :: ((if zero then [char '0'] else []) ++
    ((if width = 0 then [] else numeralText 10 false width) ++ [letter]))

/-- A piece, as it is written. -/
def Piece.source : Piece → List UInt8
  | .text c => [c]
  | .percent zero width => written zero width (char '%')
  | .conv zero width v => written zero width v.letter

/-- A format string can have the piece. -/
def Piece.Proper : Piece → Prop
  | .text c => c ≠ 0 ∧ c ≠ char '%'
  | .percent _ width | .conv _ width _ => width < 2 ^ 31

instance Piece.Proper.decidable : ∀ p : Piece, Decidable p.Proper
  | .text c => inferInstanceAs (Decidable (c ≠ 0 ∧ c ≠ char '%'))
  | .percent _ width | .conv _ width _ => inferInstanceAs (Decidable (width < 2 ^ 31))

/-- What the pieces print; `none` if there are not enough arguments. -/
def render : List Piece → List (BitVec 32) → Option (List UInt8)
  | [], _ => some []
  | .text c :: ps, va => (render ps va).map (c :: ·)
  | .percent _ _ :: ps, va => (render ps va).map (char '%' :: ·)
  | .conv _ _ _ :: _, [] => none
  | .conv zero width v :: ps, a :: va => (render ps va).map (v.text str zero width a ++ ·)

/-! ## 3. Numbers -/

section Numbers

variable {base k num d n fuel : Nat} {uc : Bool} {bf : List UInt8} {a : BitVec 32}

theorem putBf_eq (c : UInt8) (h : bf.length < bfSize) : putBf bf c = some (bf ++ [c]) := if_pos h

/-- The greatest power of the base in the number. -/
theorem scale_eq (hb : 1 < base) (hlow : k ≠ 0 → base ^ k ≤ num) (hhigh : num < base ^ (k + 1))
    (hnum : num < 2 ^ 32) {j : Nat} (hj : j ≤ k) (hfuel : k - j < fuel) :
    scale num base fuel (base ^ j) = some (base ^ k) := by
  induction fuel generalizing j with
  | zero => omega
  | succ fuel ih =>
      have hpos : 0 < base ^ j := Nat.pow_pos (by omega)
      unfold scale
      rw [if_neg hpos.ne']
      rcases Nat.lt_or_eq_of_le hj with hlt | rfl
      · have hle : base ^ (j + 1) ≤ num :=
          (Nat.pow_le_pow_right (by omega) hlt).trans (hlow (by omega))
        have hdiv : num / base ^ j ≥ base := (Nat.le_div_iff_mul_le hpos).mpr (by rwa [← pow_succ'])
        rw [if_pos hdiv, ← pow_succ, Nat.mod_eq_of_lt (hle.trans_lt hnum)]
        exact ih hlt (by omega)
      · have hdiv : ¬ num / base ^ j ≥ base :=
          Nat.not_le.mpr (Nat.div_lt_of_lt_mul (by rwa [← pow_succ]))
        rw [if_neg hdiv]

/-- The digits are written from the greatest power down: the first one counts, or is the only
    one. -/
theorem digitLoop_eq (hb : 1 < base) (hfirst : n ≠ 0 ∨ (k ≠ 0 → base ^ k ≤ num))
    (hfuel : k + 1 < fuel) (hroom : bf.length + (k + 1) ≤ bfSize) :
    digitLoop base uc fuel num (base ^ k) n bf =
      some (bf ++ (digitsFrom base (k + 1) num).map (digitChar uc)) := by
  induction k generalizing fuel num n bf with
  | zero =>
      obtain ⟨fuel, rfl⟩ : ∃ f, fuel = f + 2 := ⟨fuel - 2, by omega⟩
      have h1 : 1 / base = 0 := Nat.div_eq_of_lt hb
      unfold digitLoop
      rw [pow_zero, if_neg one_ne_zero]
      dsimp only
      rw [if_pos (Or.inr (Or.inr h1)), putBf_eq _ (by omega), h1]
      simp [digitLoop, digitsFrom]
  | succ k ih =>
      obtain ⟨fuel, rfl⟩ : ∃ f, fuel = f + 1 := ⟨fuel - 1, by omega⟩
      have hpos : 0 < base ^ (k + 1) := Nat.pow_pos (by omega)
      have hdiv : base ^ (k + 1) / base = base ^ k := by
        rw [pow_succ]
        exact Nat.mul_div_cancel _ (by omega)
      have hcond : n ≠ 0 ∨ num / base ^ (k + 1) > 0 ∨ base ^ (k + 1) / base = 0 :=
        hfirst.imp_right fun h => Or.inl (Nat.div_pos (h k.succ_ne_zero) hpos)
      unfold digitLoop
      rw [if_neg hpos.ne']
      dsimp only
      rw [if_pos hcond, putBf_eq _ (by omega), hdiv]
      have hroom' : (bf ++ [digitChar uc (num / base ^ (k + 1))]).length + (k + 1) ≤ bfSize := by
        rw [List.length_append, List.length_singleton]
        omega
      have hfuel' : k + 1 < fuel := by omega
      exact (ih (Or.inl n.succ_ne_zero) hfuel' hroom').trans (by rw [List.append_assoc]; rfl)

/-- **`ui2a` writes the numeral.** -/
theorem ui2a_eq (hb : 1 < base) (hnum : num < 2 ^ 32)
    (hroom : bf.length + (numeral base num).length < bfSize) :
    ui2a num base uc bf = some (bf ++ numeralText base uc num) := by
  obtain ⟨k, hlow, hhigh⟩ := exists_pow hb num
  have hdigits := numeral_eq_digitsFrom hb hlow hhigh
  have hk : k < 32 := by
    rcases Nat.eq_zero_or_pos k with rfl | hk
    · omega
    · have h1 : 2 ^ k ≤ base ^ k := Nat.pow_le_pow_left hb k
      exact (Nat.pow_lt_pow_iff_right (by decide)).mp
        ((h1.trans (hlow (by omega))).trans_lt hnum)
  rw [hdigits, length_digitsFrom] at hroom
  have hscale := scale_eq hb hlow hhigh hnum k.zero_le (show k - 0 < 34 by omega)
  have hloop : digitLoop base uc 34 num (base ^ k) 0 bf = _ :=
    digitLoop_eq hb (Or.inr hlow) (by omega) (by omega)
  have hput : putBf (bf ++ (digitsFrom base (k + 1) num).map (digitChar uc)) 0 = some _ :=
    putBf_eq 0 (by rw [List.length_append, List.length_map, length_digitsFrom]; exact hroom)
  rw [pow_zero] at hscale
  unfold ui2a numeralText
  rw [hscale, Option.bind_eq_bind, Option.bind_some, hloop, Option.bind_eq_bind, Option.bind_some,
    hput, hdigits]
  rfl

theorem length_numeral_word (hb : 10 ≤ base) (hnum : num < 2 ^ 32) :
    (numeral base num).length ≤ 10 := by
  have h1 : 10 ^ 10 ≤ base ^ 10 := Nat.pow_le_pow_left hb 10
  have h2 : 2 ^ 32 ≤ 10 ^ 10 := by decide
  exact length_numeral_le (by omega) (by decide) (by omega)

/-- A word fits in `bf`, to the base 10 or to a greater one. -/
theorem ui2a_word (hb : 10 ≤ base) (uc : Bool) (a : BitVec 32) :
    ui2a a.toNat base uc [] = some (numeralText base uc a.toNat) := by
  have hlen := length_numeral_word hb a.isLt
  refine ui2a_eq (by omega) a.isLt ?_
  rw [List.length_nil, bfSize]
  omega

/-- **`i2a` writes the numeral of an `int`**, also that of -2^31. -/
theorem i2a_eq (a : BitVec 32) : i2a a [] = some (signedText a) := by
  have hint := BitVec.toInt_eq_toNat_cond a
  have hlt := a.isLt
  unfold i2a signedText
  split
  next hneg =>
    have habs : (-a).toNat = a.toInt.natAbs := by
      rw [BitVec.toNat_neg]
      split at hint <;> omega
    have hlen := length_numeral_word (le_refl 10) (-a).isLt
    have hput : putBf [] (char '-') = some [char '-'] := putBf_eq _ (by decide)
    have hroom : [char '-'].length + (numeral 10 (-a).toNat).length < bfSize := by
      rw [List.length_singleton, bfSize]
      omega
    rw [hput, Option.bind_eq_bind, Option.bind_some, ui2a_eq (by decide) (-a).isLt hroom, habs]
    rfl
  next hneg =>
    have habs : a.toNat = a.toInt.natAbs := by
      split at hint <;> omega
    rw [ui2a_word le_rfl, habs]

end Numbers

/-! ## 4. Numbers are read back -/

section Read

variable {base num n width : Nat} {uc : Bool} {ds : List Nat} {rest : List UInt8}

theorem a2d_digitChar : ∀ uc : Bool, ∀ d < 16, a2d (digitChar uc d) = some d := by decide

/-- The value of digits, in 32 bits. -/
theorem foldl_ofNat (base : Nat) (ds : List Nat) (m : Nat) :
    ds.foldl (fun a d => a * BitVec.ofNat 32 base + BitVec.ofNat 32 d) (BitVec.ofNat 32 m) =
      BitVec.ofNat 32 (ds.foldl (fun a d => a * base + d) m) := by
  induction ds generalizing m with
  | nil => rfl
  | cons d ds ih =>
      rw [List.foldl_cons, List.foldl_cons, ← ih, BitVec.ofNat_add, BitVec.ofNat_mul]

/-- A character that is no digit for `a2i`. -/
theorem a2i_stop {ch : UInt8} (h : ∀ d ∈ a2d ch, base < d) (num : BitVec 32) (src : List UInt8) :
    a2i base ch num src = (ch, src, num) := by
  unfold a2i
  cases hc : a2d ch with
  | none => rfl
  | some digit => exact if_pos (h digit hc)

/-- One digit. -/
theorem a2i_digit {ch : UInt8} {d : Nat} (h : a2d ch = some d) (hd : d ≤ base) (num : BitVec 32)
    (c : UInt8) (src : List UInt8) : a2i base ch num (c :: src) =
      a2i base c (num * BitVec.ofNat 32 base + BitVec.ofNat 32 d) src := by
  rw [a2i, h]
  exact if_neg (Nat.not_lt.mpr hd)

/-- `a2i` takes digits up to a character that is none. -/
theorem a2i_digits (hb : base ≤ 16) {d : Nat} (hd : d < base) (hds : ∀ d ∈ ds, d < base)
    (hrest : ∀ d ∈ a2d (fetch rest).1, base < d) (num : BitVec 32) :
    a2i base (digitChar uc d) num (ds.map (digitChar uc) ++ rest) = ((fetch rest).1, (fetch rest).2,
      (d :: ds).foldl (fun a d => a * BitVec.ofNat 32 base + BitVec.ofNat 32 d) num) := by
  have hdigit := a2d_digitChar uc d (by omega)
  induction ds generalizing d num with
  | nil =>
      cases rest with
      | nil =>
          rw [List.map_nil, List.nil_append, a2i, hdigit]
          exact if_neg (by omega)
      | cons c rest =>
          rw [List.map_nil, List.nil_append, a2i_digit hdigit (by omega)]
          exact a2i_stop hrest _ _
  | cons d' ds ih =>
      obtain ⟨hd', hds⟩ := List.forall_mem_cons.mp hds
      rw [List.map_cons, List.cons_append, a2i_digit hdigit (by omega)]
      exact ih hd' hds _ (a2d_digitChar uc d' (by omega))

theorem a2i_numeral (hb : 1 < base) (hb' : base ≤ 16) (uc : Bool) (n : Nat)
    (hrest : ∀ d ∈ a2d (fetch rest).1, base < d) :
    ∃ d ds, numeral base n = d :: ds ∧ a2i base (digitChar uc d) 0 (ds.map (digitChar uc) ++ rest) =
      ((fetch rest).1, (fetch rest).2, BitVec.ofNat 32 n) := by
  obtain ⟨d, ds, h⟩ := List.exists_cons_of_ne_nil (numeral_ne_nil hb n)
  have hlt : ∀ x ∈ d :: ds, x < base := fun x hx => lt_of_mem_numeral hb (h ▸ hx)
  obtain ⟨hd, hds⟩ := List.forall_mem_cons.mp hlt
  refine ⟨d, ds, h, (a2i_digits hb' hd hds hrest 0).trans ?_⟩
  have hval := foldl_ofNat base (d :: ds) 0
  rw [← h, foldl_numeral] at hval
  rw [← h]
  exact congrArg (fun x => ((fetch rest).1, (fetch rest).2, x)) hval

/-- **What `ui2a` writes fits in `bf` with its closing zero, and `a2i` reads the word back**, up to
    the first character that is no digit for it. -/
theorem number_read_back (hb : 10 ≤ base) (hb' : base ≤ 16) (uc : Bool) (a : BitVec 32)
    (hrest : ∀ d ∈ a2d (fetch rest).1, base < d) :
    ∃ c text, ui2a a.toNat base uc [] = some (c :: text) ∧ (c :: text).length < bfSize ∧
      a2i base c 0 (text ++ rest) = ((fetch rest).1, (fetch rest).2, a) := by
  obtain ⟨d, ds, h, hread⟩ := a2i_numeral (by omega) hb' uc a.toNat hrest
  have hlen := length_numeral_word hb a.isLt
  have hwrite := ui2a_word hb uc a
  unfold numeralText at hwrite
  rw [h] at hlen hwrite
  refine ⟨_, _, hwrite, ?_, ?_⟩
  · rw [List.length_cons, List.length_map, bfSize]
    rw [List.length_cons] at hlen
    omega
  · rw [hread, BitVec.ofNat_toNat, BitVec.setWidth_eq]

end Read

theorem number_read_back_hex : ∃ c text, ui2a (0x2007C000#32).toNat 16 false [] = some (c :: text) ∧
    (c :: text).length < bfSize ∧
      a2i 16 c 0 (text ++ chars ": 0x20") = (char ':', chars " 0x20", 0x2007C000#32) :=
  number_read_back (by decide) le_rfl false 0x2007C000#32 (by decide)

/-! ## 5. Format strings -/

section Format

variable {width : Nat} {zero : Bool} {text : List UInt8} {letter : UInt8} {rest : List UInt8}
  {w a : BitVec 32} {va : List (BitVec 32)} {str : BitVec 32 → List UInt8}

/-- A character that ends a directive. -/
structure Stops (letter : UInt8) : Prop where
  some : letter ≠ 0
  digit : ¬ (char '0' ≤ letter ∧ letter ≤ char '9')
  hex : ∀ d ∈ a2d letter, 10 < d

theorem stops_percent : Stops (char '%') := ⟨by decide, by decide, by decide⟩

theorem Conv.stops : ∀ v : Conv, Stops v.letter
  | .unsigned => ⟨by decide, by decide, by decide⟩
  | .signed => ⟨by decide, by decide, by decide⟩
  | .hex true => ⟨by decide, by decide, by decide⟩
  | .hex false => ⟨by decide, by decide, by decide⟩
  | .character => ⟨by decide, by decide, by decide⟩
  | .string => ⟨by decide, by decide, by decide⟩

theorem restWidth_eq (text : List UInt8) (n : Nat) :
    restWidth text n = ((n - text.length : Nat) : Int) := by
  induction text generalizing n with
  | nil => rfl
  | cons c text ih =>
      unfold restWidth
      rw [List.length_cons]
      cases n with
      | zero => simp
      | succ n =>
          rw [if_pos (by omega), show ((n + 1 : Nat) : Int) - 1 = (n : Int) by omega, ih]
          congr 1
          omega

theorem putchw_eq (n : Nat) (z : Bool) (text : List UInt8) :
    putchw n z text = field z n text := by
  unfold putchw field
  rw [restWidth_eq, Int.toNat_natCast]

theorem toInt_width (h : width < 2 ^ 31) : (BitVec.ofNat 32 width).toInt = width := by
  rw [BitVec.toInt_eq_toNat_cond, BitVec.toNat_ofNat, Nat.mod_eq_of_lt (by omega), if_pos (by omega)]

/-- The width, if there is one. -/
theorem directive_width (he : Stops letter) (width : Nat) (rest : List UInt8) :
    let text := (if width = 0 then [] else numeralText 10 false width) ++ letter :: rest
    ((fetch text).1 = char '0' → False) ∧
    (if char '0' ≤ (fetch text).1 ∧ (fetch text).1 ≤ char '9' then
      a2i 10 (fetch text).1 0 (fetch text).2 else ((fetch text).1, (fetch text).2, 0)) =
        (letter, rest, BitVec.ofNat 32 width) := by
  have hstop : ∀ d ∈ a2d (fetch (letter :: rest)).1, 10 < d := he.hex
  intro text
  by_cases h0 : width = 0
  · have ht : text = letter :: rest := by simp only [text, if_pos h0, List.nil_append]
    rw [ht, h0]
    refine ⟨fun e => he.digit ?_, if_neg he.digit⟩
    have hl : letter = char '0' := e
    rw [hl]
    decide
  · obtain ⟨d, ds, h, hread⟩ := a2i_numeral (by decide) (by decide) false width hstop
    have ht : text = digitChar false d :: (ds.map (digitChar false) ++ letter :: rest) := by
      simp only [text, if_neg h0, numeralText, h]
      rfl
    have hd : d < 10 := lt_of_mem_numeral (by decide) (h ▸ List.mem_cons_self)
    have hpos : d ≠ 0 := head_numeral_pos 10 h0 d (by rw [h]; rfl)
    have hdigit : ∀ d < 10, char '0' ≤ digitChar false d ∧ digitChar false d ≤ char '9' ∧
        (digitChar false d = char '0' → d = 0) := by decide
    obtain ⟨h1, h2, h3⟩ := hdigit d hd
    rw [ht]
    exact ⟨fun e => hpos (h3 e), (if_pos ⟨h1, h2⟩).trans hread⟩

/-- **A directive is read as it is written.** -/
theorem directive_written (he : Stops letter) (zero : Bool) (width : Nat) :
    directive ((if zero then [char '0'] else []) ++
      ((if width = 0 then [] else numeralText 10 false width) ++ letter :: rest)) =
        (zero, BitVec.ofNat 32 width, letter, rest) := by
  obtain ⟨h1, h2⟩ := directive_width he width rest
  generalize (if width = 0 then [] else numeralText 10 false width) ++ letter :: rest = text at h1 h2 ⊢
  cases zero with
  | true =>
      rw [if_pos rfl, List.singleton_append]
      unfold directive
      have hf : fetch (char '0' :: text) = (char '0', text) := rfl
      rw [hf]
      dsimp only
      rw [if_pos rfl]
      dsimp only
      rw [h2]
  | false =>
      rw [if_neg Bool.false_ne_true, List.nil_append]
      unfold directive
      dsimp only
      rw [if_neg h1]
      dsimp only
      rw [h2]

theorem written_append (zero : Bool) (width : Nat) (letter : UInt8) (rest : List UInt8) :
    written zero width letter ++ rest = char '%' :: ((if zero then [char '0'] else []) ++
      ((if width = 0 then [] else numeralText 10 false width) ++ letter :: rest)) := by
  unfold written
  rw [List.cons_append, List.append_assoc, List.append_assoc, List.singleton_append]

/-- **One conversion.** -/
theorem convert_eq (hw : w.toInt = width) (v : Conv) (zero : Bool) (a : BitVec 32)
    (va : List (BitVec 32)) :
    convert str zero w v.letter (a :: va) = some (v.text str zero width a, va) := by
  unfold convert
  rw [hw]
  cases v with
  | unsigned =>
      rw [if_pos (by decide), vaArg, ui2a_word le_rfl]
      exact congrArg (fun t => some (t, va)) (putchw_eq _ _ _)
  | signed =>
      rw [if_neg (by decide), if_pos (by decide), vaArg, i2a_eq]
      exact congrArg (fun t => some (t, va)) (putchw_eq _ _ _)
  | hex uc =>
      have huc : decide ((Conv.hex uc).letter = char 'X') = uc := by cases uc <;> decide
      have h1 : ¬ (Conv.hex uc).letter = char 'u' := by cases uc <;> decide
      have h2 : ¬ (Conv.hex uc).letter = char 'd' := by cases uc <;> decide
      have h3 : (Conv.hex uc).letter = char 'x' ∨ (Conv.hex uc).letter = char 'X' := by
        cases uc <;> decide
      rw [if_neg h1, if_neg h2, if_pos h3, vaArg, huc, ui2a_word (by decide)]
      exact congrArg (fun t => some (t, va)) (putchw_eq _ _ _)
  | character =>
      rw [if_neg (by decide), if_neg (by decide), if_neg (by decide), if_pos (by decide)]
      rfl
  | string =>
      rw [if_neg (by decide), if_neg (by decide), if_neg (by decide), if_neg (by decide),
        if_pos (by decide)]
      exact congrArg (fun t => some (t, va)) (putchw_eq _ _ _)

/-- Without an argument. -/
theorem convert_nil (v : Conv) (zero : Bool) (w : BitVec 32) :
    convert str zero w v.letter [] = none := by
  cases v with
  | hex uc => cases uc <;> rfl
  | _ => rfl

theorem convert_percent (zero : Bool) (w : BitVec 32) (va : List (BitVec 32)) :
    convert str zero w (char '%') va = some ([char '%'], va) := by
  unfold convert
  rw [if_neg (by decide), if_neg (by decide), if_neg (by decide), if_neg (by decide),
    if_neg (by decide), if_pos rfl]

/-- One directive, in the loop. -/
theorem formatLoop_written (he : Stops letter) (zero : Bool) (width fuel : Nat) :
    formatLoop str (fuel + 1) (written zero width letter ++ rest) va =
      (convert str zero (BitVec.ofNat 32 width) letter va).bind fun x =>
        (formatLoop str fuel rest x.2).map (x.1 ++ ·) := by
  have h0 : ¬ char '%' = 0 := by decide
  rw [written_append]
  conv_lhs => unfold formatLoop
  dsimp only [fetch]
  rw [if_neg h0, if_neg (not_not_intro rfl), directive_written he]
  dsimp only
  rw [if_neg he.some]
  rfl

/-- The loop reads the pieces one after the other. -/
theorem formatLoop_render (str : BitVec 32 → List UInt8) {ps : List Piece}
    (h : ∀ p ∈ ps, p.Proper) (va : List (BitVec 32)) {fuel : Nat}
    (hfuel : (ps.flatMap Piece.source).length < fuel) :
    formatLoop str fuel (ps.flatMap Piece.source) va = render str ps va := by
  obtain ⟨fuel, rfl⟩ : ∃ f, fuel = f + 1 := ⟨fuel - 1, by omega⟩
  induction ps generalizing fuel va with
  | nil => rfl
  | cons p ps ih =>
      obtain ⟨hp, h⟩ := List.forall_mem_cons.mp h
      rw [List.flatMap_cons, List.length_append] at hfuel
      rw [List.flatMap_cons]
      have hlen : 0 < p.source.length := by
        cases p <;> exact Nat.succ_pos _
      obtain ⟨fuel, rfl⟩ : ∃ f, fuel = f + 1 := ⟨fuel - 1, by omega⟩
      have hnext := fun va => ih h va fuel (by omega)
      cases p with
      | text c =>
          obtain ⟨h0, h1⟩ : c ≠ 0 ∧ c ≠ char '%' := hp
          change formatLoop str (fuel + 1 + 1) (c :: ps.flatMap Piece.source) va = _
          unfold formatLoop
          dsimp only [fetch]
          rw [if_neg h0, if_pos h1, hnext]
          rfl
      | percent zero width =>
          change formatLoop str (fuel + 1 + 1) (written zero width (char '%') ++ _) va = _
          rw [formatLoop_written stops_percent, convert_percent, Option.bind_some, hnext]
          rfl
      | conv zero width v =>
          have hw := toInt_width hp
          change formatLoop str (fuel + 1 + 1) (written zero width v.letter ++ _) va = _
          rw [formatLoop_written v.stops]
          cases va with
          | nil =>
              rw [convert_nil]
              rfl
          | cons a va =>
              rw [convert_eq hw, Option.bind_some, hnext]
              rfl

/-- **A format string prints its pieces**: the loop of `tfp_format` reads every directive as it is
    written, writes every number into `bf` without overrunning it, and takes the arguments in their
    order. -/
theorem format_correct (str : BitVec 32 → List UInt8) (ps : List Piece) (va : List (BitVec 32))
    (h : ∀ p ∈ ps, p.Proper) : tfpFormat str (ps.flatMap Piece.source) va = render str ps va :=
  formatLoop_render str h va (Nat.lt_succ_self _)

/-- A line with an address and a number of three places. -/
theorem format_correct_line : tfpFormat (fun _ => chars "free")
      ([.conv false 0 (.hex false), .text (char ' '), .conv true 3 .signed, .percent false 0,
        .conv false 0 .string].flatMap Piece.source) [0x2007C000#32, 32#32, 0#32] =
    render (fun _ => chars "free") [.conv false 0 (.hex false), .text (char ' '),
      .conv true 3 .signed, .percent false 0, .conv false 0 .string]
      [0x2007C000#32, 32#32, 0#32] :=
  format_correct (fun _ => chars "free") _ [0x2007C000#32, 32#32, 0#32] (by decide)

end Format

end Printf

end Rtx
