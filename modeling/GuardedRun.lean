import GuardedRun.LogFile
import GuardedRun.Main
import GuardedRun.Rehearsal.Description
import GuardedRun.Settings.Summary
import GuardedRun.Proofs.Application
import GuardedRun.Proofs.Restoration
import GuardedRun.Proofs.Planning
import GuardedRun.Proofs.Waiting
import GuardedRun.Proofs.Course
import GuardedRun.Proofs.Protocol
import GuardedRun.Proofs.Interruption
import GuardedRun.Proofs.Contents
import GuardedRun.Proofs.Recovery
import GuardedRun.Proofs.Fidelity
import GuardedRun.Proofs.Rig
import GuardedRun.Proofs.Refusal
import GuardedRun.Proofs.Memory
import GuardedRun.Proofs.Conclusion
import GuardedRun.Proofs.Footprint
import GuardedRun.Proofs.Naming
import GuardedRun.Proofs.TreeSpelling
import GuardedRun.Proofs.PathComponents
import GuardedRun.Proofs.Passage
import GuardedRun.Proofs.OpenProjects
import GuardedRun.Proofs.Operations
import GuardedRun.Proofs.Blame
import GuardedRun.Proofs.Leftovers
import GuardedRun.Proofs.RestoreReport
import GuardedRun.Proofs.PollRounds
import GuardedRun.Proofs.Matching
import GuardedRun.Proofs.PollVerdict
import GuardedRun.Proofs.Vocabulary
import GuardedRun.Proofs.Dangling
import GuardedRun.Proofs.FlatSearch
import GuardedRun.Proofs.FreshNames
import GuardedRun.Proofs.Startup
import GuardedRun.Proofs.StartupVerdict
import GuardedRun.Proofs.Classification
import GuardedRun.Proofs.SettingsFlag
import GuardedRun.Proofs.Splitting
import GuardedRun.Proofs.FlagPairs
import GuardedRun.Proofs.FlagGrammar
import GuardedRun.Proofs.PathResolution
import GuardedRun.Proofs.Admission
import GuardedRun.Proofs.ChangeLog
import GuardedRun.Proofs.InvocationIds
import GuardedRun.Proofs.JsonText
import GuardedRun.Proofs.RuntimeLogLines
import GuardedRun.Proofs.PartialSettings
import GuardedRun.Proofs.SharedNames
import GuardedRun.Proofs.SlicedSleep
