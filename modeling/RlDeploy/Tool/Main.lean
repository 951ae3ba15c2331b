/-
`main()` of `scripts/test_joint_cmd.py`: from the command line to the
node that `rclpy.spin` runs.

`argparse` is a library: the options arrive as it hands them over, each
as its text or not at all (`Args`). Of what it checks itself, the choices
of `--preset` and the number of `--duration`, a failure is `usage`. The
text of `--help` and `float()` on a string are parameters.

A `dict` is its entries in the order they were first set, since `main`
goes through it to print.
-/
import RlDeploy.Tool.JointCmd

namespace RlDeploy

namespace TestJointCmd

variable {D : Type}

-- ======================================================== python text

/-- `str.isspace` of one character. -/
def isSpace (c : Char) : Bool :=
  let n := c.toNat
  decide (0x09 ≤ n ∧ n ≤ 0x0d) || decide (0x1c ≤ n ∧ n ≤ 0x20)
    || n == 0x85 || n == 0xa0 || n == 0x1680
    || decide (0x2000 ≤ n ∧ n ≤ 0x200a) || n == 0x2028 || n == 0x2029
    || n == 0x202f || n == 0x205f || n == 0x3000

/-- `s.strip()`. -/
def strip (s : String) : String :=
  String.ofList
    ((s.toList.dropWhile isSpace).reverse.dropWhile isSpace).reverse

/-- `s.split(",")`. -/
def splitComma (s : String) : List String :=
  (s.toList.splitOn ',').map String.ofList

/-- `d[k] = v`: a key that is there keeps its place. -/
def setItem (d : List (String × D)) (k : String) (v : D) :
    List (String × D) :=
  if k ∈ d.map Prod.fst then
    d.map fun p => if p.1 = k then (k, v) else p
  else d ++ [(k, v)]

/-- `dict(pairs)`. -/
def dict (pairs : List (String × D)) : List (String × D) :=
  pairs.foldl (fun d p => setItem d p.1 p.2) []

/-- The entries as the node looks them up. -/
def toMap (entries : List (String × D)) : StdMap D :=
  entries.foldl (fun m p => m.insert p.1 p.2) ∅

-- ========================================================= the options

/-- The options, as `argparse` hands them over. -/
structure Args where
  preset : Option String := none
  joints : Option String := none
  targets : Option String := none
  duration : Option String := none
  hold : Bool := false
  zero : Bool := false

/-- A text that is there and not empty: what `if args.joints` asks. -/
def given (option : Option String) : Option String :=
  option.filter fun text => text != ""

/-- How `main` ends, or comes to spinning. -/
inductive Outcome (D : Type)
  /-- A usage error of `argparse`. -/
  | usage
  /-- `sys.exit(code)`, after some lines. -/
  | exit (code : Nat) (printed : List String)
  /-- A `ValueError` of `float()`. -/
  | raised
  /-- `rclpy.spin(node)`, after some lines. -/
  | spin (printed : List String) (node : JointCmdPublisher D)

variable [PyFloat D]

/-- `PRESETS`. -/
def presets : List (String × List (String × D)) := [
  ("right_hand_up", [
    ("right_shoulder_pitch_joint", PyFloat.lit (35 / 100)),
    ("right_shoulder_roll_joint", PyFloat.lit (-18 / 100)),
    ("right_elbow_pitch_joint", PyFloat.lit (87 / 100))]),
  ("left_hand_up", [
    ("left_shoulder_pitch_joint", PyFloat.lit 0),
    ("left_shoulder_roll_joint", PyFloat.lit 0),
    ("left_elbow_pitch_joint", PyFloat.lit (-15 / 10))]),
  ("both_hands_up", [
    ("left_shoulder_pitch_joint", PyFloat.lit (35 / 100)),
    ("left_shoulder_roll_joint", PyFloat.lit (18 / 100)),
    ("left_elbow_pitch_joint", PyFloat.lit (87 / 100)),
    ("right_shoulder_pitch_joint", PyFloat.lit (35 / 100)),
    ("right_shoulder_roll_joint", PyFloat.lit (-18 / 100)),
    ("right_elbow_pitch_joint", PyFloat.lit (87 / 100))]),
  ("t_pose", [
    ("left_shoulder_pitch_joint", PyFloat.lit 0),
    ("left_shoulder_roll_joint", PyFloat.lit (3 / 10)),
    ("left_elbow_pitch_joint", PyFloat.lit 0),
    ("right_shoulder_pitch_joint", PyFloat.lit 0),
    ("right_shoulder_roll_joint", PyFloat.lit (-3 / 10)),
    ("right_elbow_pitch_joint", PyFloat.lit 0)])]

/-- `args.preset`, which `argparse` lets pass only when it is a key of
`PRESETS`. -/
def choosePreset (args : Args) :
    Except (Outcome D) (Option (List (String × D))) :=
  match args.preset with
  | none => .ok none
  | some name =>
      match presets.lookup name with
      | some pose => .ok (some pose)
      | none => .error .usage

/-- `args.duration`. -/
def duration (float : String → Option D) (args : Args) :
    Except (Outcome D) D :=
  match args.duration with
  | none => .ok (PyFloat.lit 2)
  | some text =>
      match float text with
      | some d => .ok d
      | none => .error .usage

/-- The branches of `main` that make `target_map`. -/
def targetMap (help : String) (float : String → Option D) (args : Args)
    (preset : Option (List (String × D))) :
    Except (Outcome D) (List (String × D)) :=
  match preset with
  | some pose => .ok pose
  | none =>
      match given args.joints with
      | some joints =>
          let names := (splitComma joints).map strip
          match given args.targets with
          | none =>
              .error (.exit 1
                ["ERROR: --targets required with --joints"])
          | some text =>
              match ((splitComma text).map strip).mapM float with
              | none => .error .raised
              | some targets =>
                  if names.length ≠ targets.length then
                    .error (.exit 1 ["ERROR: " ++ toString names.length
                      ++ " joint names but " ++ toString targets.length
                      ++ " targets"])
                  else .ok (dict (names.zip targets))
      | none =>
          if !args.hold && !args.zero then
            .error (.exit 0 [help,
              "\nTIP: use --preset right_hand_up for a quick test"])
          else .ok []

/-- The line for a target that is no known joint. -/
def warning (name : String) : String :=
  "WARNING: '" ++ name
    ++ "' not in known joint list, will still try to command it"

/-- The loop that checks the names. -/
def warnings (targets : List (String × D)) : List String :=
  ((targets.map Prod.fst).filter fun name => name ∉ allJoints).map
    warning

/-- `main()`. -/
def main (help : String) (float : String → Option D) (args : Args) :
    Outcome D :=
  let started := do
    let preset ← choosePreset args
    let d ← duration float args
    let targets ← targetMap help float args preset
    return Outcome.spin (warnings targets)
      (JointCmdPublisher.init (toMap targets) d args.hold args.zero)
  match started with
  | .ok outcome => outcome
  | .error outcome => outcome

end TestJointCmd

end RlDeploy
