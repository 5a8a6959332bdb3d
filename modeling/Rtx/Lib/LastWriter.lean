/-
  File:      Rtx/Lib/LastWriter.lean
  Subject:   Maps as lists of pairs, in which the last write to a key counts.

  `assign m k v` overwrites the first pair of the key, or appends a new one. After any sequence of
  writes the keys are the distinct ones in the order of their first writes (`keys_written`), and
  what is read for a key is what was written to it last (`lookup_written`).
-/
import Mathlib.Data.List.Basic
import Mathlib.Data.List.Induction

namespace Rtx.Lib

variable {κ ν : Type} [DecidableEq κ]

/-- Write the value of a key. -/
def assign : List (κ × ν) → κ → ν → List (κ × ν)
  | [], k, v => [(k, v)]
  | w :: m, k, v => if w.1 = k then (k, v) :: m else w :: assign m k v

/-- The map after a sequence of writes. -/
def written (ws : List (κ × ν)) : List (κ × ν) := ws.foldl (fun m w => assign m w.1 w.2) []

variable {m l₁ l₂ : List (κ × ν)} {k k' : κ} {v v' : ν}

/-- A key that is there. -/
theorem assign_split (h : ∀ w ∈ l₁, w.1 ≠ k) :
    assign (l₁ ++ (k, v) :: l₂) k v' = l₁ ++ (k, v') :: l₂ := by
  induction l₁ with
  | nil => exact if_pos rfl
  | cons w l₁ ih =>
      obtain ⟨hw, h⟩ := List.forall_mem_cons.mp h
      rw [List.cons_append, assign, if_neg hw, ih h, List.cons_append]

/-- A key that is not there. -/
theorem assign_new (h : ∀ w ∈ m, w.1 ≠ k) : assign m k v = m ++ [(k, v)] := by
  induction m with
  | nil => rfl
  | cons w m ih =>
      obtain ⟨hw, h⟩ := List.forall_mem_cons.mp h
      rw [assign, if_neg hw, ih h, List.cons_append]

/-- What is read for a key that is there, and for one that is not. -/
theorem lookup_split (h : ∀ w ∈ l₁, w.1 ≠ k) : (l₁ ++ (k, v) :: l₂).lookup k = some v :=
  List.lookup_eq_some_iff.mpr ⟨l₁, l₂, rfl, fun w hw => bne_iff_ne.mpr (h w hw).symm⟩

theorem lookup_new (h : ∀ w ∈ m, w.1 ≠ k) : m.lookup k = none :=
  List.lookup_eq_none_iff.mpr fun w hw => bne_iff_ne.mpr (h w hw).symm

theorem keys_assign : (assign m k v).map Prod.fst =
    if k ∈ m.map Prod.fst then m.map Prod.fst else m.map Prod.fst ++ [k] := by
  induction m with
  | nil => rfl
  | cons w m ih =>
      unfold assign
      by_cases hw : w.1 = k
      · simp [hw]
      · rw [if_neg hw, List.map_cons, ih]
        have hiff : k ∈ (w :: m).map Prod.fst ↔ k ∈ m.map Prod.fst := by
          simp [Ne.symm hw]
        simp only [hiff]
        split
        · rfl
        · rfl

theorem lookup_cons_ite (w : κ × ν) :
    (w :: m).lookup k = if k = w.1 then some w.2 else m.lookup k := by
  by_cases hk : k = w.1
  · rw [if_pos hk, List.lookup_cons, beq_iff_eq.mpr hk]
  · rw [if_neg hk, List.lookup_cons, beq_false_of_ne hk]

theorem lookup_assign : (assign m k v).lookup k' = if k' = k then some v else m.lookup k' := by
  induction m with
  | nil => exact lookup_cons_ite (k, v)
  | cons w m ih =>
      unfold assign
      by_cases hw : w.1 = k
      · rw [if_pos hw, lookup_cons_ite, lookup_cons_ite, hw]
        split_ifs
        · rfl
        · rfl
      · rw [if_neg hw, lookup_cons_ite, lookup_cons_ite, ih]
        by_cases hkw : k' = w.1
        · rw [if_pos hkw, if_pos hkw, if_neg (hkw ▸ hw)]
        · rw [if_neg hkw, if_neg hkw]

theorem written_concat (ws : List (κ × ν)) (w : κ × ν) :
    written (ws ++ [w]) = assign (written ws) w.1 w.2 := by
  simp [written]

theorem written_ne_nil {ws : List (κ × ν)} (h : ws ≠ []) : written ws ≠ [] := by
  obtain rfl | ⟨ws, w, rfl⟩ := List.eq_nil_or_concat' ws
  · exact absurd rfl h
  rw [written_concat]
  cases written ws with
  | nil => exact List.cons_ne_nil _ _
  | cons w' m =>
      unfold assign
      split
      · exact List.cons_ne_nil _ _
      · exact List.cons_ne_nil _ _

/-- **The keys** are the distinct ones, in the order of their first writes. -/
theorem keys_written (ws : List (κ × ν)) :
    (written ws).map Prod.fst = (ws.map Prod.fst).eraseDups := by
  induction ws using List.reverseRecOn with
  | nil => rfl
  | append_singleton ws w ih =>
      rw [written_concat, keys_assign, ih, List.map_append, List.map_singleton,
        List.eraseDups_append]
      by_cases hw : w.1 ∈ ws.map Prod.fst
      · have hold : [w.1].removeAll (ws.map Prod.fst) = [] := by
          unfold List.removeAll
          rw [List.filter_cons_of_neg (by simpa using hw), List.filter_nil]
        rw [if_pos (List.mem_eraseDups.mpr hw), hold, List.eraseDups_nil, List.append_nil]
      · have hnew : [w.1].removeAll (ws.map Prod.fst) = [w.1] := by
          unfold List.removeAll
          rw [List.filter_cons_of_pos (by simpa using hw), List.filter_nil]
        rw [if_neg (fun h => hw (List.mem_eraseDups.mp h)), hnew]
        rfl

/-- **What is read** is what was written last. -/
theorem lookup_written (ws : List (κ × ν)) (k : κ) :
    (written ws).lookup k = ws.reverse.lookup k := by
  induction ws using List.reverseRecOn with
  | nil => rfl
  | append_singleton ws w ih =>
      rw [written_concat, lookup_assign, ih, List.reverse_append, List.reverse_singleton,
        List.singleton_append, lookup_cons_ite]

end Rtx.Lib
