/-
Reading delimited text item by item, against splitting and joining.

A reader that takes items up to the next delimiter, and stops when the
text is used up, reads the fields of `List.splitOn` with one exception:
when the last field is empty it is not read (`trimLast`). So a trailing
delimiter ends the last item and does not start another one.

- Joining what was read gives the text back, without its final delimiter
  when it ends in one (`join_read`, `join_read_delimiter`).
- Reading what was joined gives the items back, without the last one
  when that is empty (`read_join`).
-/
import Mathlib.Tactic

namespace RlDeploy.Lib

variable {α : Type} [DecidableEq α]

/-- Without the last item, if that is empty. -/
def trimLast (xs : List (List α)) : List (List α) :=
  if xs.getLast? = some [] then xs.dropLast else xs

theorem trimLast_singleton (x : List α) :
    trimLast [x] = if x = [] then [] else [x] := by
  unfold trimLast
  simp

theorem trimLast_cons {xs : List (List α)} (h : xs ≠ []) (x : List α) :
    trimLast (x :: xs) = x :: trimLast xs := by
  unfold trimLast
  rw [List.getLast?_cons_of_ne_nil h, List.dropLast_cons_of_ne_nil h]
  split <;> rfl

/-- An empty item at the end is dropped. -/
theorem trimLast_snoc_nil (xs : List (List α)) :
    trimLast (xs ++ [[]]) = xs := by
  unfold trimLast
  rw [if_pos (by simp), List.dropLast_concat]

theorem trimLast_eq_self_iff {xs : List (List α)} :
    trimLast xs = xs ↔ xs.getLast? ≠ some [] := by
  unfold trimLast
  by_cases h : xs.getLast? = some []
  · rw [if_pos h]
    constructor
    · intro hdrop
      have hne : xs ≠ [] := by
        rintro rfl
        cases h
      have hlen := congrArg List.length hdrop
      rw [List.length_dropLast] at hlen
      have := List.length_pos_of_ne_nil hne
      omega
    · exact fun hn => absurd h hn
  · rw [if_neg h]
    exact ⟨fun _ => h, fun _ => rfl⟩

-- =============================================== joining what was read

omit [DecidableEq α] in
/-- A joined list whose last item is empty ends in the delimiter. -/
theorem intercalate_snoc_nil (d : α) {xs : List (List α)} (h : xs ≠ []) :
    [d].intercalate (xs ++ [[]]) = [d].intercalate xs ++ [d] := by
  induction xs with
  | nil => exact absurd rfl h
  | cons x xs ih =>
      by_cases hxs : xs = []
      · subst hxs
        simp
      · rw [List.cons_append, List.intercalate_cons_of_ne_nil (by simp),
          ih hxs, List.intercalate_cons_of_ne_nil hxs]
        simp

/-- A non-empty text that does not end in the delimiter has a last
field. -/
theorem splitOn_getLast? (d : α) {s : List α} (hs : s ≠ [])
    (hd : s.getLast? ≠ some d) : (s.splitOn d).getLast? ≠ some [] := by
  intro hlast
  obtain ⟨init, hinit⟩ : ∃ init, s.splitOn d = init ++ [[]] :=
    ⟨_, (List.dropLast_append_getLast? [] hlast).symm⟩
  have hjoin : s = [d].intercalate (init ++ [[]]) := by
    rw [← hinit, List.intercalate_splitOn]
  by_cases hi : init = []
  · subst hi
    exact hs (by simpa using hjoin)
  · rw [intercalate_snoc_nil d hi] at hjoin
    exact hd (by rw [hjoin]; simp)

/-- Joining the items of a text that does not end in the delimiter. -/
theorem join_read (d : α) {s : List α} (hd : s.getLast? ≠ some d) :
    [d].intercalate (trimLast (s.splitOn d)) = s := by
  by_cases hs : s = []
  · subst hs
    rfl
  · rw [trimLast_eq_self_iff.mpr (splitOn_getLast? d hs hd),
      List.intercalate_splitOn]

/-- Joining the items of a text that does: the delimiter is lost. -/
theorem join_read_delimiter (d : α) (s : List α) :
    [d].intercalate (trimLast ((s ++ [d]).splitOn d)) = s := by
  rw [List.splitOn_append_cons_self, List.splitOn_nil, trimLast_snoc_nil,
    List.intercalate_splitOn]

-- =============================================== reading what was joined

/-- Reading joined items free of the delimiter. -/
theorem read_join (d : α) {xs : List (List α)} (h : ∀ x ∈ xs, d ∉ x) :
    trimLast (([d].intercalate xs).splitOn d) = trimLast xs := by
  by_cases hxs : xs = []
  · subst hxs
    rfl
  · rw [List.splitOn_intercalate d h hxs]

end RlDeploy.Lib
