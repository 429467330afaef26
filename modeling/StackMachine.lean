import StackMachine.Debugger.View
import StackMachine.Failure.Template
import StackMachine.Main
import StackMachine.Proofs.Opcodes
import StackMachine.Proofs.StepRules
import StackMachine.Proofs.ByteFields
import StackMachine.Proofs.ProgramFormat
import StackMachine.Proofs.AssemblyRoundTrip
import StackMachine.Proofs.Faults
import StackMachine.Proofs.Runs
import StackMachine.Proofs.StepLimits
import StackMachine.Proofs.Suspension
import StackMachine.Proofs.FileTrees
import StackMachine.Proofs.ProgramSequences
import StackMachine.Proofs.DebuggerSessions
import StackMachine.Proofs.LabelResolution
import StackMachine.Proofs.SavedPrograms
import StackMachine.Proofs.ProgramPrefixes
import StackMachine.Proofs.StackBounds
import StackMachine.Proofs.CborItems
import StackMachine.Proofs.ControlFlow
import StackMachine.Proofs.StoredSnapshots
import StackMachine.Proofs.ObservedRuns
import StackMachine.Proofs.Cancellation
import StackMachine.Proofs.StrictAssembly
import StackMachine.Proofs.LoadedPrograms
import StackMachine.Proofs.StackFrames
import StackMachine.Proofs.PostfixCode
import StackMachine.Proofs.StrictGrammar
import StackMachine.Proofs.TreeChanges
import StackMachine.Proofs.BatchRuns
import StackMachine.Proofs.SourceLines
import StackMachine.Proofs.SourceLayout
import StackMachine.Proofs.DecodeErrors
import StackMachine.Proofs.RefusedSaves
import StackMachine.Proofs.ForwardPrograms
import StackMachine.Proofs.StepCounts
import StackMachine.Proofs.CborPrefixes
import StackMachine.Proofs.TornSnapshots
import StackMachine.Proofs.TomlLines
import StackMachine.Proofs.ConfigFiles
import StackMachine.Proofs.SevenBitGroups
import StackMachine.Proofs.ReadScripts
