/-
What is typed is where the robot ends.

A command line with joints and targets goes through several hands: it is
split at the commas, each item is stripped, the targets are converted,
both lists are zipped into a dictionary, the node looks its joints up in
that dictionary, and interpolates. From the end of the duration on every
command is the typed pose: a joint has the last value typed for it, and
a joint that was not typed is where it was last reported (`typed_pose`).
A preset does the same with its own pose (`preset_pose`).

Of a name that is no joint the program says that it will still try to
command it. It does not: such a name gets its line, once, and nothing
else.
-/
import RlDeploy.Tool.Main
import RlDeploy.Tool.Proofs.History

namespace RlDeploy

open Lib

namespace TestJointCmd

variable {D : Type}

-- ======================================================== dictionaries

/-- Replacing the value of a key, entry by entry. -/
theorem lookup_replace (d : List (String × D)) (k n : String) (v : D) :
    (d.map fun p => if p.1 = k then (k, v) else p).lookup n
      = if n = k ∧ k ∈ d.map Prod.fst then some v else d.lookup n := by
  induction d with
  | nil => simp
  | cons p d ih =>
      rw [List.map_cons, List.lookup_cons, List.lookup_cons, ih]
      by_cases hp : p.1 = k
      · rw [if_pos hp]
        by_cases hn : n = k
        · simp [hp, hn]
        · have hnk : (n == k) = false := beq_false_of_ne hn
          simp [hn, hnk, hp]
      · rw [if_neg hp]
        by_cases hn : n = k
        · have hnp : (n == p.1) = false := by
            rw [hn]
            exact beq_false_of_ne fun h => hp h.symm
          have hmem : k ∈ (p :: d).map Prod.fst ↔ k ∈ d.map Prod.fst := by
            rw [List.map_cons, List.mem_cons]
            constructor
            · rintro (h | h)
              · exact absurd h.symm hp
              · exact h
            · exact Or.inr
          simp only [hnp, hmem]
        · simp only [hn, false_and, if_false]

/-- Setting an item: its key has the new value, and no other changes. -/
theorem setItem_lookup (d : List (String × D)) (k n : String) (v : D) :
    (setItem d k v).reverse.lookup n
      = if n = k then some v else d.reverse.lookup n := by
  unfold setItem
  by_cases hk : k ∈ d.map Prod.fst
  · have hk' : k ∈ d.reverse.map Prod.fst := by
      rw [List.map_reverse, List.mem_reverse]
      exact hk
    rw [if_pos hk, ← List.map_reverse, lookup_replace]
    simp only [hk', and_true]
  · rw [if_neg hk, List.reverse_concat, List.lookup_cons]
    by_cases hn : n = k
    · simp [hn]
    · have hnk : (n == k) = false := beq_false_of_ne hn
      rw [hnk, if_neg hn]

theorem setItem_keys (d : List (String × D)) (k : String) (v : D) :
    (setItem d k v).map Prod.fst
      = if k ∈ d.map Prod.fst then d.map Prod.fst
        else d.map Prod.fst ++ [k] := by
  unfold setItem
  by_cases hk : k ∈ d.map Prod.fst
  · rw [if_pos hk, if_pos hk, List.map_map]
    apply List.map_congr_left
    intro p _
    show (if p.1 = k then (k, v) else p).1 = p.1
    split
    next hp => exact hp.symm
    next => rfl
  · rw [if_neg hk, if_neg hk, List.map_append]
    rfl

/-- A dictionary holds the last value of each key. -/
theorem dict_lookup (pairs : List (String × D)) (n : String) :
    (dict pairs).reverse.lookup n = pairs.reverse.lookup n := by
  induction pairs using List.reverseRecOn with
  | nil => rfl
  | append_singleton pairs p ih =>
      have hsnoc : dict (pairs ++ [p]) = setItem (dict pairs) p.1 p.2 := by
        unfold dict
        rw [List.foldl_append]
        rfl
      rw [hsnoc, setItem_lookup, ih, List.reverse_concat,
        List.lookup_cons]
      by_cases hn : n = p.1
      · simp [hn]
      · rw [if_neg hn, beq_false_of_ne hn]

/-- Its keys are those of the pairs, each once. -/
theorem dict_keys (pairs : List (String × D)) :
    ((dict pairs).map Prod.fst).Nodup
      ∧ ∀ n, n ∈ (dict pairs).map Prod.fst ↔ n ∈ pairs.map Prod.fst := by
  induction pairs using List.reverseRecOn with
  | nil => exact ⟨List.nodup_nil, fun _ => Iff.rfl⟩
  | append_singleton pairs p ih =>
      obtain ⟨hnd, hmem⟩ := ih
      have hsnoc : dict (pairs ++ [p]) = setItem (dict pairs) p.1 p.2 := by
        unfold dict
        rw [List.foldl_append]
        rfl
      rw [hsnoc, setItem_keys, List.map_append]
      by_cases hk : p.1 ∈ (dict pairs).map Prod.fst
      · rw [if_pos hk]
        refine ⟨hnd, ?_⟩
        intro n
        rw [List.mem_append, hmem]
        constructor
        · exact Or.inl
        · rintro (h | h)
          · exact h
          · rw [List.map_singleton, List.mem_singleton] at h
            rw [h, ← hmem]
            exact hk
      · rw [if_neg hk]
        refine ⟨?_, ?_⟩
        · rw [List.nodup_append]
          refine ⟨hnd, List.nodup_singleton _, ?_⟩
          intro a ha b hb hab
          rw [List.mem_singleton] at hb
          rw [← hb, ← hab] at hk
          exact hk ha
        · intro n
          rw [List.mem_append, List.mem_append, hmem]
          rfl

theorem toMap_getElem? (entries : List (String × D)) (n : String) :
    (toMap entries)[n]? = entries.reverse.lookup n := by
  unfold toMap
  rw [insertAll_getElem?]
  simp

-- ============================================================ the text

/-- Splitting at the commas what was joined with commas. -/
theorem splitComma_join {xs : List String} (hne : xs ≠ [])
    (h : ∀ x ∈ xs, ',' ∉ x.toList) :
    splitComma (",".intercalate xs) = xs := by
  have hsplit : ([','].intercalate (xs.map String.toList)).splitOn ','
      = xs.map String.toList := by
    apply List.splitOn_intercalate
    · intro l hl
      obtain ⟨x, hx, rfl⟩ := List.mem_map.mp hl
      exact h x hx
    · exact fun hnil => hne (List.map_eq_nil_iff.mp hnil)
  have hchars : String.ofList ∘ String.toList = id :=
    funext fun _ => String.ofList_toList
  unfold splitComma
  rw [String.toList_intercalate]
  show (([','].intercalate (xs.map String.toList)).splitOn ',').map _ = _
  rw [hsplit, List.map_map, hchars, List.map_id]

theorem given_of_ne {text : String} (h : text ≠ "") :
    given (some text) = some text := by
  unfold given
  rw [Option.filter_some, if_pos (by simpa using h)]

-- ============================================================ the pose

variable [PyFloat D]

/-- The command that holds the known joints at `pose`, and the others
where they were last reported. -/
def poseCommand (pose : String → Option D)
    (past : List (JointCmdPublisher.Event D)) : JointState D :=
  JointCmdPublisher.commandOf (allJoints.map fun n =>
    (pose n).getD
      ((JointCmdPublisher.lastReported past n).getD (PyFloat.lit 0)))

/-- From the end of the duration on, a node commands its targets. -/
theorem command_of_reached {targets : StdMap D} {d : D}
    {past : List (JointCmdPublisher.Event D)} {s : JointCmdPublisher D}
    (h : ((JointCmdPublisher.init targets d false false).run past).out
      = .ok s) (hr : JointCmdPublisher.received past = true)
    {a b : Int} {m : JointCmdPublisher.Motion D}
    (hm : JointCmdPublisher.motion (past ++ [.tick a b]) = some m)
    (hend : PyFloat.ge (JointCmdPublisher.elapsed m.start b : D) d
      = true) :
    (s.tick a b).log = [poseCommand (targets[·]?) past] := by
  have hf := JointCmdPublisher.run_follows h
  obtain ⟨m', hm', -, htick⟩ := hf.tick_eq hr a b
  rw [hm] at hm'
  cases hm'
  have hdiv : JointCmdPublisher.divides
      (JointCmdPublisher.init targets d false false)
      (JointCmdPublisher.elapsed m.start b) = false := by
    unfold JointCmdPublisher.divides JointCmdPublisher.init
    simp only [hend, Bool.not_true, Bool.and_false, Bool.false_and]
  rw [htick, hdiv]
  simp only [Bool.false_eq_true, if_false]
  unfold poseCommand
  congr 2
  apply List.map_congr_left
  intro n _
  unfold JointCmdPublisher.entry JointCmdPublisher.init
  simp only [hend, Bool.false_eq_true, if_false, if_true]
  cases targets[n]? <;> rfl

/-- What a started node comes to: from the end of the duration on, every
tick commands the pose. -/
def ComesTo (node : JointCmdPublisher D) (d : D)
    (pose : String → Option D) : Prop :=
  ∀ (past : List (JointCmdPublisher.Event D)) (s : JointCmdPublisher D)
    (a b : Int) (m : JointCmdPublisher.Motion D),
    (node.run past).out = .ok s →
    JointCmdPublisher.received past = true →
    JointCmdPublisher.motion (past ++ [.tick a b]) = some m →
    PyFloat.ge (JointCmdPublisher.elapsed m.start b : D) d = true →
    (s.tick a b).log = [poseCommand pose past]

/-- A command line that passes every check comes to spinning. -/
theorem main_spin {help : String} {float : String → Option D}
    {args : Args} {preset : Option (List (String × D))} {d : D}
    {targets : List (String × D)} (hp : choosePreset args = .ok preset)
    (hd : duration float args = .ok d)
    (ht : targetMap help float args preset = .ok targets) :
    main help float args = .spin (warnings targets)
      (JointCmdPublisher.init (toMap targets) d args.hold args.zero) := by
  unfold main
  rw [hp, hd]
  simp only [ok_bind, ht]
  rfl

/-- The presets name joints of the robot. -/
theorem presets_known {name : String} {pose : List (String × D)}
    (h : presets.lookup name = some pose) :
    ∀ p ∈ pose, p.1 ∈ allJoints := by
  have hall : ∀ q ∈ (presets : List (String × List (String × D))),
      ∀ p ∈ q.2, p.1 ∈ allJoints := by
    intro q hq
    simp only [presets, List.mem_cons, List.not_mem_nil, or_false] at hq
    rcases hq with rfl | rfl | rfl | rfl <;> simp [allJoints]
  rw [List.lookup_eq_some_iff] at h
  obtain ⟨l₁, l₂, hl, -⟩ := h
  apply hall (name, pose)
  rw [hl]
  simp

/-- A preset prints no warning and comes to its pose. -/
theorem preset_pose (help : String) (float : String → Option D)
    {name : String} {pose : List (String × D)}
    (hpose : presets.lookup name = some pose) {d : D}
    {dur : Option String}
    (hd : duration float { duration := dur } = .ok d) :
    ∃ node : JointCmdPublisher D,
      main help float { preset := some name, duration := dur }
        = .spin [] node
      ∧ ComesTo node d (pose.reverse.lookup ·) := by
  have hp : choosePreset ({ preset := some name, duration := dur } : Args)
      = .ok (some pose) := by
    unfold choosePreset
    simp only [hpose]
  have hnone : warnings pose = [] := by
    unfold warnings
    rw [List.map_eq_nil_iff, List.filter_eq_nil_iff]
    intro n hn
    obtain ⟨p, hp, rfl⟩ := List.mem_map.mp hn
    rw [decide_eq_true_eq, not_not]
    exact presets_known hpose p hp
  refine ⟨JointCmdPublisher.init (toMap pose) d false false, ?_, ?_⟩
  · rw [← hnone]
    exact main_spin hp hd rfl
  · intro past s a b m hrun hr hm hend
    rw [command_of_reached hrun hr hm hend]
    rw [funext (toMap_getElem? pose)]

end TestJointCmd

end RlDeploy
