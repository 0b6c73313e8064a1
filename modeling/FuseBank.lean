import FuseBank.Main
import FuseBank.Session
import FuseBank.Emulation.RegisterFile
import FuseBank.Host.WorkDirectory
import FuseBank.Proofs.Observation
import FuseBank.Proofs.ControllerTraffic
import FuseBank.Proofs.Adjacency
import FuseBank.Proofs.TrafficGrammar
import FuseBank.Proofs.WordWriteTraffic
import FuseBank.Proofs.CommandHistory
import FuseBank.Proofs.RangeCheck
import FuseBank.Proofs.MacroRuns
import FuseBank.Proofs.WriteEffect
import FuseBank.Proofs.Transcript
import FuseBank.Proofs.ClockScope
import FuseBank.Proofs.Visits
import FuseBank.Proofs.FuseGrowth
import FuseBank.Proofs.DisabledProgramming
import FuseBank.Proofs.MacroSettings
import FuseBank.Proofs.WriteOrder
import FuseBank.Proofs.Outcomes
import FuseBank.Proofs.ShadowReads
import FuseBank.Proofs.ShadowBytes
import FuseBank.Proofs.VerifiedWrites
import FuseBank.Proofs.ImageReload
import FuseBank.Proofs.Durability
import FuseBank.Proofs.AccessHistory
import FuseBank.Proofs.Handshakes
import FuseBank.Proofs.HandshakeHistory
import FuseBank.Proofs.FailedCalls
import FuseBank.Proofs.RawTraffic
import FuseBank.Proofs.IntactMacro
import FuseBank.Proofs.ToolLaunches
import FuseBank.Proofs.ReadPaths
import FuseBank.Proofs.FileStreams
import FuseBank.Proofs.RegisterOffsets
import FuseBank.Proofs.MemoryFootprint
import FuseBank.Proofs.StalledMacro
import FuseBank.Proofs.WriteSequence
import FuseBank.Proofs.PowerState
import FuseBank.Proofs.PrintedWords
import FuseBank.Proofs.BufferReads
import FuseBank.Proofs.CharacterDevice
import FuseBank.Proofs.PhysicalReads
import FuseBank.Proofs.WritePaths
import FuseBank.Proofs.BoundedPolling
import FuseBank.Proofs.DocumentTables
import FuseBank.Proofs.ConfigAcceptance
import FuseBank.Proofs.MappingBounds
import FuseBank.Proofs.AddressSelection
