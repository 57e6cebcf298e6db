import VhalCore.Models.AidlHeaders.Correctness.EnumTranslation
import VhalCore.Models.Config.Correctness.DocumentLoading
import VhalCore.Models.EventQueue.Correctness.BatchDelivery
import VhalCore.Models.FakeHardware.Correctness.AcceptedRequests
import VhalCore.Models.FakeHardware.Correctness.Bounds
import VhalCore.Models.FakeHardware.Correctness.ChangeEvents
import VhalCore.Models.FakeHardware.Correctness.ContinuousEvents
import VhalCore.Models.FakeHardware.Correctness.DebugCommands
import VhalCore.Models.FakeHardware.Correctness.FreezeFrameInfo
import VhalCore.Models.FakeHardware.Correctness.GlobalArea
import VhalCore.Models.FakeHardware.Correctness.HexDecoding
import VhalCore.Models.FakeHardware.Correctness.HvacSuggestion
import VhalCore.Models.FakeHardware.Correctness.InitialValues
import VhalCore.Models.FakeHardware.Correctness.PowerGovernance
import VhalCore.Models.FakeHardware.Correctness.ReadBack
import VhalCore.Models.FakeHardware.Correctness.TimerRegistrations
import VhalCore.Models.FakeHardware.Correctness.TrackedSensors
import VhalCore.Models.FakeHardware.Correctness.TypeSoundness
import VhalCore.Models.FakeHardware.Correctness.UserRequests
import VhalCore.Models.FakeHardware.Correctness.UserResponses
import VhalCore.Models.Gateway.Correctness.AreaCoverage
import VhalCore.Models.Gateway.Correctness.ConfigIds
import VhalCore.Models.Gateway.Correctness.Convergence
import VhalCore.Models.Generators.Correctness.DiagnosticMask
import VhalCore.Models.Generators.Correctness.FileReplay
import VhalCore.Models.Generators.Correctness.LinearRange
import VhalCore.Models.Generators.Correctness.OwnSequence
import VhalCore.Models.Generators.Correctness.TimeOrder
import VhalCore.Models.Grpc.Correctness.Accounting
import VhalCore.Models.Grpc.Correctness.CallbackLifetime
import VhalCore.Models.Grpc.Correctness.ClientShutdown
import VhalCore.Models.Grpc.Correctness.EventStreaming
import VhalCore.Models.Grpc.Correctness.RetryBound
import VhalCore.Models.Grpc.Correctness.ServerRestart
import VhalCore.Models.Grpc.Correctness.ServerShutdown
import VhalCore.Models.Grpc.Correctness.Timestamps
import VhalCore.Models.PropertyStore.Correctness.LastEvent
import VhalCore.Models.PropertyStore.Correctness.TimestampOrder
import VhalCore.Models.PropertyStore.Correctness.WriteLaw
import VhalCore.Models.Subscription.Correctness.Drift
import VhalCore.Models.Subscription.Correctness.Retry
import VhalCore.Models.Subscription.Correctness.UpdateRate
import VhalCore.Models.Timer.Correctness.IntervalOverride
import VhalCore.Models.Timer.Correctness.Schedule
import VhalCore.Models.Timer.Correctness.SelfBlocking
import VhalCore.Models.ValuePool.Correctness.PoolAccounting
import VhalCore.Models.ValuePool.Correctness.ValueCopies
import VhalCore.Models.Vehicle.Correctness.MixedValues
import VhalCore.Models.VehicleHal.Correctness.Answers
import VhalCore.Models.VehicleHal.Correctness.ConfigCache
import VhalCore.Models.VehicleHal.Correctness.DeadClients
import VhalCore.Models.VehicleHal.Correctness.DuplicateProperties
import VhalCore.Models.VehicleHal.Correctness.EmptyReplies
import VhalCore.Models.VehicleHal.Correctness.EventPipeline
import VhalCore.Models.VehicleHal.Correctness.OptionExpansion
import VhalCore.Models.VehicleHal.Correctness.SupportedValuePositions
