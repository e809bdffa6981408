import RobotRoutine.Failure.NameError
import RobotRoutine.Main
import RobotRoutine.Simulation.Session
import RobotRoutine.Proofs.Program.Runs
import RobotRoutine.Proofs.Program.Effects
import RobotRoutine.Proofs.Program.HeldPower
import RobotRoutine.Proofs.Program.Obliging
import RobotRoutine.Proofs.Program.Settling
import RobotRoutine.Proofs.Program.Refinement
import RobotRoutine.Proofs.Document.Parameters
import RobotRoutine.Proofs.Document.Markers
import RobotRoutine.Proofs.Document.Reader
import RobotRoutine.Proofs.Run.Rules
import RobotRoutine.Proofs.Run.Commands
import RobotRoutine.Proofs.Run.Visits
import RobotRoutine.Proofs.Run.Course
import RobotRoutine.Proofs.Run.MotorSafety
import RobotRoutine.Proofs.Run.VisitEffects
import RobotRoutine.Proofs.Run.Branches
import RobotRoutine.Proofs.Run.Agenda
import RobotRoutine.Proofs.Run.Cooperation
import RobotRoutine.Proofs.Run.Settlement
import RobotRoutine.Proofs.Run.PlainLoop
import RobotRoutine.Proofs.Run.Willing
import RobotRoutine.Proofs.Run.Report
import RobotRoutine.Proofs.Files.RunLog
import RobotRoutine.Proofs.Run.Containment
import RobotRoutine.Proofs.Run.Startup
import RobotRoutine.Proofs.Check.Agreement
import RobotRoutine.Proofs.Run.Phases
import RobotRoutine.Proofs.Run.CutDrive
import RobotRoutine.Proofs.Failure.Fault
import RobotRoutine.Proofs.Run.Uninterrupted
import RobotRoutine.Proofs.Simulation.Robot
import RobotRoutine.Proofs.CommandLine.ExitStatus
import RobotRoutine.Proofs.Program.Mishaps
import RobotRoutine.Proofs.Run.Escape
import RobotRoutine.Proofs.Run.Heeding
import RobotRoutine.Proofs.Run.Interruption
import RobotRoutine.Proofs.Failure.Cancellation
import RobotRoutine.Proofs.Run.Cancellation
import RobotRoutine.Proofs.Document.Grammar
import RobotRoutine.Proofs.Run.Repetition
import RobotRoutine.Proofs.Document.Outline
import RobotRoutine.Proofs.Document.Significance
import RobotRoutine.Proofs.Number.FullPower
import RobotRoutine.Proofs.Run.Calls
import RobotRoutine.Proofs.Simulation.Motors
import RobotRoutine.Proofs.Simulation.Drive
import RobotRoutine.Proofs.Files.Trail
import RobotRoutine.Proofs.Files.Footprint
import RobotRoutine.Proofs.Document.Levels
import RobotRoutine.Proofs.Run.LogIndependence
import RobotRoutine.Proofs.Failure.Judgement
import RobotRoutine.Proofs.Run.LostLiveness
import RobotRoutine.Proofs.Files.Names
import RobotRoutine.Proofs.Files.Tree
import RobotRoutine.Proofs.Files.Way
import RobotRoutine.Proofs.Files.Plain
import RobotRoutine.Proofs.Settings.Store
import RobotRoutine.Proofs.Toml.Quoted
import RobotRoutine.Proofs.Number.Nearest
import RobotRoutine.Proofs.Number.Shortest
import RobotRoutine.Proofs.Toml.Scalar
import RobotRoutine.Proofs.Toml.Lines
import RobotRoutine.Proofs.Settings.Format
import RobotRoutine.Proofs.Files.Replacement
import RobotRoutine.Proofs.Settings.Reload
import RobotRoutine.Proofs.Document.Content
import RobotRoutine.Proofs.Document.ParameterOrder
import RobotRoutine.Proofs.Document.ZoneOrder
import RobotRoutine.Proofs.Number.Seconds
import RobotRoutine.Proofs.Run.DriveTime
import RobotRoutine.Proofs.Number.Overflow
import RobotRoutine.Proofs.Number.Written
import RobotRoutine.Proofs.Number.JsonNumber
import RobotRoutine.Proofs.Check.Report
import RobotRoutine.Proofs.Document.Pose
import RobotRoutine.Proofs.Run.LetterCase
import RobotRoutine.Proofs.Files.LogPlace
import RobotRoutine.Proofs.Files.LogText
import RobotRoutine.Proofs.Files.LogLines
import RobotRoutine.Proofs.Simulation.SharedControl
import RobotRoutine.Proofs.Program.Frames
import RobotRoutine.Proofs.Run.Frames
import RobotRoutine.Proofs.Simulation.Display
