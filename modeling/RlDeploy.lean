import RlDeploy.Basic
import RlDeploy.Converter.Adapter
import RlDeploy.Converter.Basic
import RlDeploy.Converter.Proofs.ByName
import RlDeploy.Converter.Proofs.Compose
import RlDeploy.Converter.Proofs.Corruption
import RlDeploy.Converter.Proofs.Echo
import RlDeploy.Converter.Proofs.Frames
import RlDeploy.Converter.Proofs.Heading
import RlDeploy.Converter.Proofs.Inverse
import RlDeploy.Converter.Proofs.Layout
import RlDeploy.Converter.Proofs.OneToOne
import RlDeploy.Converter.Proofs.Orientation
import RlDeploy.Converter.Proofs.Reconfigure
import RlDeploy.Converter.Proofs.Reorder
import RlDeploy.Converter.Proofs.Run
import RlDeploy.Converter.Proofs.Smoothing
import RlDeploy.Converter.Proofs.Spec
import RlDeploy.Converter.Proofs.Target
import RlDeploy.Eigen
import RlDeploy.Geometry
import RlDeploy.Lib.Blend
import RlDeploy.Lib.Consecutive
import RlDeploy.Lib.Delimited
import RlDeploy.Lib.Ema
import RlDeploy.Lib.Euler
import RlDeploy.Lib.ExtRat
import RlDeploy.Lib.Frame
import RlDeploy.Lib.Image
import RlDeploy.Lib.Latch
import RlDeploy.Lib.Logged
import RlDeploy.Lib.Loop
import RlDeploy.Lib.Machine
import RlDeploy.Lib.Reorder
import RlDeploy.Lib.Rotation
import RlDeploy.Lib.Rounding
import RlDeploy.Lib.Scatter
import RlDeploy.Load.Config
import RlDeploy.Load.Onnx
import RlDeploy.Load.Proofs.Fit
import RlDeploy.Load.Proofs.Lists
import RlDeploy.Load.Proofs.Resolve
import RlDeploy.Load.Proofs.Safe
import RlDeploy.Load.Proofs.Spelled
import RlDeploy.Load.Yaml
import RlDeploy.Machine
import RlDeploy.Node.Basic
import RlDeploy.Node.Proofs.Absent
import RlDeploy.Node.Proofs.Anchor
import RlDeploy.Node.Proofs.Command
import RlDeploy.Node.Proofs.Envelope
import RlDeploy.Node.Proofs.Fading
import RlDeploy.Node.Proofs.Image
import RlDeploy.Node.Proofs.Influence
import RlDeploy.Node.Proofs.Interleaving
import RlDeploy.Node.Proofs.Lag
import RlDeploy.Node.Proofs.Machine
import RlDeploy.Node.Proofs.Memory
import RlDeploy.Node.Proofs.Names
import RlDeploy.Node.Proofs.Partial
import RlDeploy.Node.Proofs.Protocol
import RlDeploy.Node.Proofs.Reorder
import RlDeploy.Node.Proofs.Rounded
import RlDeploy.Node.Proofs.Schedule
import RlDeploy.Node.Proofs.Servo
import RlDeploy.Node.Proofs.Shift
import RlDeploy.Node.Proofs.Sign
import RlDeploy.Node.Proofs.Silence
import RlDeploy.Node.Proofs.Slew
import RlDeploy.Node.Proofs.Steady
import RlDeploy.Node.Proofs.Track
import RlDeploy.Node.Proofs.Unread
import RlDeploy.Node.Proofs.View
import RlDeploy.Node.Sequential
import RlDeploy.Rounded
import RlDeploy.Tool.JointCmd
import RlDeploy.Tool.Main
import RlDeploy.Tool.Plan
import RlDeploy.Tool.Proofs.Backwards
import RlDeploy.Tool.Proofs.History
import RlDeploy.Tool.Proofs.Hold
import RlDeploy.Tool.Proofs.Interpolation
import RlDeploy.Tool.Proofs.Main
import RlDeploy.Tool.Proofs.Plan
import RlDeploy.Tool.Proofs.Reported
import RlDeploy.Tool.Proofs.Speed
