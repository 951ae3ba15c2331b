/-
The comma-separated lists of a model's metadata.

# Strings

The `std::getline` loop reads the comma-separated fields of its text,
but for an empty last one (`getlineLoop_eq`). So joining the strings of
`parseStringList` gives the text back, up to one final comma, and
parsing a joined list gives the list back unless its last entry is
empty, which is then lost.

# Numbers

`parseFloatList` converts each item as it reads it, and `std::stof`
throws on an item without a number; nothing is skipped. So a result has
one number for each string, at the string's place.
-/
import RlDeploy.Load.Onnx
import RlDeploy.Lib.Delimited

namespace RlDeploy

open Lib

variable {F D : Type} [Scalar F D]

-- =========================================================== strings

/-- The loop reads the fields of its text after the characters it
already has, but for an empty last one. -/
theorem getlineLoop_eq : ∀ (cs item : List Char),
    getlineLoop item cs
      = trimLast (List.splitOnPPrepend (· == ',') cs item) := by
  intro cs
  induction cs with
  | nil =>
      intro item
      rw [List.splitOnPPrepend_nil, trimLast_singleton]
      cases item with
      | nil => rfl
      | cons c item => simp [getlineLoop]
  | cons c cs ih =>
      intro item
      unfold getlineLoop
      by_cases hc : c = ','
      · have hne : List.splitOnP (· == ',') cs ≠ [] := by simp
        rw [if_pos hc, List.splitOnPPrepend_cons_pos (by simpa using hc),
          trimLast_cons hne, ih []]
        rfl
      · rw [if_neg hc, List.splitOnPPrepend_cons_neg (by simpa using hc),
          ih (c :: item)]

theorem parseStringList_eq (s : String) :
    parseStringList s
      = (trimLast (s.toList.splitOn ',')).map String.ofList := by
  unfold parseStringList
  rw [getlineLoop_eq]
  rfl

/-- The characters of the joined strings. -/
theorem join_toList (xs : List (List Char)) :
    (",".intercalate (xs.map String.ofList)).toList
      = [','].intercalate xs := by
  have hchars : String.toList ∘ String.ofList = id :=
    funext fun _ => String.toList_ofList
  rw [String.toList_intercalate, List.map_map, hchars, List.map_id]
  rfl

/-- Joining what was parsed, of a text without a final comma. -/
theorem join_parse {s : String} (h : s.toList.getLast? ≠ some ',') :
    ",".intercalate (parseStringList s) = s := by
  apply String.toList_injective
  rw [parseStringList_eq, join_toList, join_read ',' h]

/-- Of a text with one, the comma is lost. -/
theorem join_parse_comma (s : String) :
    ",".intercalate (parseStringList (s ++ ",")) = s := by
  apply String.toList_injective
  rw [parseStringList_eq, join_toList, String.toList_append]
  exact join_read_delimiter ',' s.toList

/-- Parsing what was joined: all but an empty last string. -/
theorem parse_join {xs : List String} (h : ∀ x ∈ xs, ',' ∉ x.toList) :
    parseStringList (",".intercalate xs)
      = if xs.getLast? = some "" then xs.dropLast else xs := by
  have hread : trimLast ((",".intercalate xs).toList.splitOn ',')
      = trimLast (xs.map String.toList) := by
    rw [String.toList_intercalate]
    apply read_join ','
    intro x hx
    obtain ⟨y, hy, rfl⟩ := List.mem_map.mp hx
    exact h y hy
  have hlast : (xs.map String.toList).getLast? = some []
      ↔ xs.getLast? = some "" := by
    rw [List.getLast?_map, Option.map_eq_some_iff]
    simp
  have hchars : String.ofList ∘ String.toList = id :=
    funext fun _ => String.ofList_toList
  rw [parseStringList_eq, hread]
  unfold trimLast
  by_cases hx : xs.getLast? = some ""
  · rw [if_pos (hlast.mpr hx), if_pos hx, ← List.map_dropLast,
      List.map_map, hchars, List.map_id]
  · rw [if_neg (fun hn => hx (hlast.mp hn)), if_neg hx, List.map_map,
      hchars, List.map_id]

/-- A joined list is parsed to itself if and only if it is empty or its
last string is not. -/
theorem parse_join_iff {xs : List String}
    (h : ∀ x ∈ xs, ',' ∉ x.toList) :
    parseStringList (",".intercalate xs) = xs
      ↔ xs = [] ∨ ∃ x, xs.getLast? = some x ∧ x ≠ "" := by
  rw [parse_join h]
  cases hx : xs.getLast? with
  | none =>
      rw [if_neg (by simp)]
      exact ⟨fun _ => Or.inl (List.getLast?_eq_none_iff.mp hx),
        fun _ => rfl⟩
  | some x =>
      have hne : xs ≠ [] := by
        rintro rfl
        cases hx
      by_cases he : x = ""
      · subst he
        rw [if_pos rfl]
        constructor
        · intro hdrop
          have hlen := congrArg List.length hdrop
          rw [List.length_dropLast] at hlen
          have := List.length_pos_of_ne_nil hne
          omega
        · rintro (hnil | ⟨y, hy, hy'⟩)
          · exact absurd hnil hne
          · cases hy
            exact absurd rfl hy'
      · rw [if_neg (by simpa using he)]
        exact ⟨fun _ => Or.inr ⟨x, rfl, he⟩, fun _ => rfl⟩

-- =========================================================== numbers

/-- Converting each item as it is read is converting the parsed
strings. -/
theorem floatLoop_eq (ort : OnnxRuntime F) : ∀ (cs item : List Char),
    floatLoop ort item cs
      = ((getlineLoop item cs).map String.ofList).mapM ort.stof := by
  intro cs
  induction cs with
  | nil =>
      intro item
      unfold floatLoop getlineLoop
      cases item with
      | nil => rfl
      | cons c item =>
          show (ort.stof _ >>= fun v => pure [v]) = List.mapM ort.stof [_]
          rw [List.mapM_cons]
          rfl
  | cons c cs ih =>
      intro item
      unfold floatLoop getlineLoop
      by_cases hc : c = ','
      · rw [if_pos hc, if_pos hc, List.map_cons, List.mapM_cons, ih []]
      · rw [if_neg hc, if_neg hc, ih (c :: item)]

/-- Parsing undoes joining, and a parsed list of numbers has one number
for each string, in order. -/
theorem lists_aligned (ort : OnnxRuntime F) :
    (∀ s : String, s.toList.getLast? ≠ some ',' →
      ",".intercalate (parseStringList s) = s)
    ∧ (∀ s : String, ",".intercalate (parseStringList (s ++ ",")) = s)
    ∧ (∀ xs : List String, (∀ x ∈ xs, ',' ∉ x.toList) →
      (parseStringList (",".intercalate xs) = xs
        ↔ xs = [] ∨ ∃ x, xs.getLast? = some x ∧ x ≠ "")
      ∧ (xs.getLast? = some "" →
        parseStringList (",".intercalate xs) = xs.dropLast))
    ∧ (∀ s : String, parseFloatList ort s = floatLoop ort [] s.toList)
    ∧ (∀ (s : String) (vs : List F), floatLoop ort [] s.toList = .ok vs →
      vs.length = (parseStringList s).length
      ∧ ∀ (k : Nat) (item : String),
        (parseStringList s)[k]? = some item →
        ∃ v, vs[k]? = some v ∧ ort.stof item = .ok v)
    ∧ (∀ (s item : String) (e : Fault), item ∈ parseStringList s →
      ort.stof item = .error e →
      ∃ e', floatLoop ort [] s.toList = .error e') := by
  have hloop : ∀ s : String,
      parseFloatList ort s = floatLoop ort [] s.toList := by
    intro s
    rw [floatLoop_eq]
    rfl
  refine ⟨fun s => join_parse, join_parse_comma,
    fun xs h => ⟨parse_join_iff h, fun hlast => ?_⟩, hloop,
    fun s vs hvs => ?_, fun s item e hitem he => ?_⟩
  · rw [parse_join h, if_pos hlast]
  · rw [← hloop] at hvs
    exact ⟨mapM_length hvs, fun k item hk => mapM_getElem? hvs hk⟩
  · rw [← hloop]
    exact mapM_error hitem he

end RlDeploy
